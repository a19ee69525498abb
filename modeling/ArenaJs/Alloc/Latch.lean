import ArenaJs.Alloc.Layout

/-!
# The latched refusal of a request arena

Every refusal of the selected request arena is recorded by `note_oom`, whichever hook and whichever
mode it comes from, and nothing else writes the record until the arena is reset: after any sequence
of hook calls an arena's `oom.hit` says whether it has refused since (`runAllocs_latched`). An
allocation of no bytes and a product that does not fit a word never reach the arena; they are not
refusals.
-/

namespace ArenaJs

variable {σ : Type}

/-- A call of an allocator hook. -/
inductive AllocCall where
  | malloc (size : Nat) (ds : List Decision)
  | calloc (count size : Nat) (ds : List Decision)
  | realloc (ptr : Option Nat) (size : Nat) (ds : List Decision)
  | free (ptr : Option Nat)

/-- The hook's result. -/
def runAlloc (H : Host σ) (da : DualArena σ) : AllocCall → Option Nat × DualArena σ
  | .malloc size ds => jdaMalloc H da size ds
  | .calloc count size ds => jdaCalloc H da count size ds
  | .realloc ptr size ds => jdaRealloc H da ptr size ds
  | .free ptr => (none, jdaFree H da ptr)

/-- The call asks the arena for memory. -/
def AllocCall.asks : AllocCall → Bool
  | .malloc _ _ | .realloc none _ _ => true
  | .calloc count size _ => 0 < count && 0 < size && count * size < 2 ^ 64
  | .realloc (some _) size _ => 0 < size
  | .free _ => false

/-- The selected request arena refuses the call. -/
def refuses (H : Host σ) (da : DualArena σ) (h : AllocCall) : Bool :=
  da.selected.isSome && h.asks && (runAlloc H da h).1.isNone

/-- The OOM record of the arena called `id`. -/
def oomOf (da : DualArena σ) (id : ReqId) : Bool :=
  match da.find id with
  | some ra => ra.oom.hit
  | none => false

/-- A frozen dual arena with distinct arenas, of which those in GC mode have their mspaces. -/
structure Ready (da : DualArena σ) : Prop where
  mode : da.mode = .request
  ids : da.requests.Pairwise fun r s => r.id ≠ s.id
  msp : ∀ ra ∈ da.requests, ra.mode = .gc → ra.msp.isSome

/-! ## What an allocation leaves of an arena's record -/

/-- The arena's name, mode, live bytes and record are the same, and it still has an mspace if it had
one. The bump allocator's counter is the same too unless a block `ret` was returned. -/
structure KeepsRecord (ret : Option Nat) (ra ra' : RequestArena σ) : Prop where
  id : ra'.id = ra.id
  mode : ra'.mode = ra.mode
  used : ra'.used = ra.used
  oom : ra'.oom = ra.oom
  msp : ra.msp.isSome → ra'.msp.isSome
  bumpUsed : ret = none → ra'.bumpUsed = ra.bumpUsed

section
variable {H : Host σ} {ra ra' ra'' : RequestArena σ} {ret : Option Nat}

theorem KeepsRecord.refl (ra : RequestArena σ) : KeepsRecord ret ra ra :=
  ⟨rfl, rfl, rfl, rfl, fun h => h, fun _ => rfl⟩

theorem KeepsRecord.trans (h : KeepsRecord ret ra ra') (h' : KeepsRecord ret ra' ra'') :
    KeepsRecord ret ra ra'' :=
  ⟨h'.id.trans h.id, h'.mode.trans h.mode, h'.used.trans h.used, h'.oom.trans h.oom,
    fun hm => h'.msp (h.msp hm), fun hn => (h'.bumpUsed hn).trans (h.bumpUsed hn)⟩

theorem reqAcquire_keeps (ra : RequestArena σ) (need : Nat) (ds : List Decision) :
    KeepsRecord none ra (reqAcquire H ra need ds).2.1 := by
  unfold reqAcquire
  split
  · exact .refl ra
  · split <;> exact ⟨rfl, rfl, rfl, rfl, fun h => h, fun _ => rfl⟩

theorem reqBumpRoom_keeps (ra : RequestArena σ) (total : Nat) (ds : List Decision) :
    KeepsRecord none ra (reqBumpRoom H ra total ds).2 := by
  unfold reqBumpRoom
  split
  · exact .refl ra
  · split
    · have h := reqAcquire_keeps (H := H) ra total ds
      split <;> rename_i he <;> rw [he] at h <;> exact { h with }
    · exact .refl ra

theorem reqBumpAlloc_keeps (ra : RequestArena σ) (m : Mem) (size : Nat) (ds : List Decision) :
    KeepsRecord (reqBumpAlloc H ra m size ds).1 ra (reqBumpAlloc H ra m size ds).2.1 := by
  unfold reqBumpAlloc
  split
  · exact .refl ra
  · have h := reqBumpRoom_keeps (H := H) ra
      (Word.add arenaHeaderSize (Word.alignUp arenaAlign size)) ds
    simp only
    split <;> rename_i he <;> rw [he] at h
    · exact h
    · exact { h with bumpUsed := nofun }

theorem reqBumpReallocCopy_keeps (ra : RequestArena σ) (m : Mem) (ptr size oldSize : Nat)
    (ds : List Decision) : KeepsRecord (reqBumpReallocCopy H ra m ptr size oldSize ds).1 ra
      (reqBumpReallocCopy H ra m ptr size oldSize ds).2.1 := by
  have h := reqBumpAlloc_keeps (H := H) ra m size ds
  unfold reqBumpReallocCopy
  split <;> rename_i he <;> rw [he] at h <;> exact h

theorem reqBumpRealloc_keeps (ra : RequestArena σ) (m : Mem) (ptr size oldSize : Nat)
    (ds : List Decision) : KeepsRecord (reqBumpRealloc H ra m ptr size oldSize ds).1 ra
      (reqBumpRealloc H ra m ptr size oldSize ds).2.1 := by
  unfold reqBumpRealloc
  simp only
  split
  · split
    · exact ⟨rfl, rfl, rfl, rfl, fun h => h, nofun⟩
    · split
      · exact ⟨rfl, rfl, rfl, rfl, fun h => h, nofun⟩
      · exact reqBumpReallocCopy_keeps ra m ptr size oldSize ds
  · exact reqBumpReallocCopy_keeps ra m ptr size oldSize ds

theorem raMorecore_keeps (ra : RequestArena σ) (n : Int) (ds : List Decision) :
    KeepsRecord none ra (raMorecore H ra n ds).2.1 := by
  unfold raMorecore
  split
  · exact .refl ra
  · split
    · exact .refl ra
    · have h := reqAcquire_keeps (H := H) ra n.toNat ds
      split <;> rename_i he <;> rw [he] at h <;> exact { h with }

theorem runMs_keeps (call : MsCall σ) (ra : RequestArena σ) (m : Mem) (ds : List Decision) :
    KeepsRecord none ra (runMs H call ra m ds).2.1 := by
  induction call generalizing ra ds with
  | done ret st eff => exact ⟨rfl, rfl, rfl, rfl, fun _ => rfl, fun _ => rfl⟩
  | morecore n k ih =>
    rw [runMs]
    exact (raMorecore_keeps ra n ds).trans (ih _ _ _)

theorem noteOom_hit (ra : RequestArena σ) (n : Nat) : (noteOom .request ra n).oom.hit = true := by
  unfold noteOom
  by_cases h : ra.oom.hit <;> simp [h]

theorem noteOom_keeps (mode : ArenaMode) (ra : RequestArena σ) (n : Nat) :
    (noteOom mode ra n).id = ra.id ∧ (noteOom mode ra n).mode = ra.mode ∧
      (noteOom mode ra n).msp = ra.msp := by
  unfold noteOom
  split <;> exact ⟨rfl, rfl, rfl⟩

/-- A new arena of a frozen dual arena is in GC mode, with an mspace, no live bytes and a clear
record. -/
theorem requestArenaNew_record {id cap : Nat} {m : Mem} {ds : List Decision}
    {ra : RequestArena σ} {m' : Mem}
    (h : requestArenaNew H .request id m cap ds = some (ra, m')) :
    ra.id = id ∧ ra.used = 0 ∧ ra.oom.hit = false ∧ ra.msp.isSome := by
  obtain ⟨c, s, held, extents, bound, -, -, -, -, h⟩ := requestArenaNew_cases h
  obtain rfl := congrArg Prod.fst h
  exact ⟨rfl, rfl, rfl, rfl⟩

end

/-! ## One hook call -/

section
variable {H : Host σ} {da da' : DualArena σ} {ra ra' : RequestArena σ} {m : Mem}

theorem DualArena.find_put (da : DualArena σ) (ra : RequestArena σ) (m : Mem) (id : ReqId) :
    (da.put ra m).find id = (da.find id).map fun r => if r.id = ra.id then ra else r := by
  unfold DualArena.put DualArena.find
  simp only
  induction da.requests with
  | nil => rfl
  | cons r rs ih =>
    rw [List.map_cons, List.find?_cons, List.find?_cons]
    by_cases hr : r.id = ra.id
    · rw [if_pos hr, hr]
      by_cases hi : ra.id = id <;> simp [hi, hr, ih]
    · rw [if_neg hr]
      by_cases hi : r.id = id <;> simp [hi, ih]
      exact fun h => absurd (hi.trans h) hr

theorem DualArena.selected_find (hs : da.selected = some ra) :
    da.cur = some ra.id ∧ da.find ra.id = some ra := by
  obtain ⟨id, hc, hf⟩ := Option.bind_eq_some_iff.mp hs
  obtain ⟨-, rfl⟩ := DualArena.find_mem hf
  exact ⟨hc, hf⟩

/-- The records after a call, when `refused` says whether the selected arena refused it. -/
structure Latched (da : DualArena σ) (refused : Bool) (da' : DualArena σ) : Prop where
  ready : Ready da'
  cur : da'.cur = da.cur
  oom : ∀ id, oomOf da' id = (oomOf da id || (decide (da.cur = some id) && refused))

theorem Latched.same (h : Ready da) : Latched da false da := ⟨h, rfl, fun id => by simp⟩

/-- Two calls, one after the other. -/
theorem Latched.trans {da'' : DualArena σ} {x y : Bool} (h : Latched da x da')
    (h' : Latched da' y da'') : Latched da (x || y) da'' where
  ready := h'.ready
  cur := h'.cur.trans h.cur
  oom := fun id => by
    rw [h'.oom, h.oom, h.cur]
    cases oomOf da id <;> cases decide (da.cur = some id) <;> cases x <;> rfl

/-- An arena in a new state, with its name and its mode. -/
theorem Ready.put (h : Ready da) (hr : ra ∈ da.requests) (hid : ra'.id = ra.id)
    (hmode : ra'.mode = ra.mode) (hmsp : ra.msp.isSome → ra'.msp.isSome) :
    Ready (da.put ra' m) where
  mode := h.mode
  ids := DualArena.put_ids h.ids
  msp := by
    intro r hm hgc
    obtain rfl | ⟨hm, -⟩ := (DualArena.mem_put ⟨ra, hr, hid.symm⟩).mp hm
    · exact hmsp (h.msp ra hr (hmode ▸ hgc))
    · exact h.msp r hm hgc

section
variable (h : Ready da) (hs : da.selected = some ra)
include h hs

/-- The selected arena in a new state. -/
theorem Latched.put {x : Bool} (hid : ra'.id = ra.id)
    (hmode : ra'.mode = ra.mode) (hmsp : ra.msp.isSome → ra'.msp.isSome)
    (hoom : ra'.oom.hit = (ra.oom.hit || x)) : Latched da x (da.put ra' m) := by
  obtain ⟨hc, hf⟩ := DualArena.selected_find hs
  refine ⟨h.put (List.mem_of_find?_eq_some hf) hid hmode hmsp, rfl, fun id => ?_⟩
  unfold oomOf
  rw [DualArena.find_put, hc]
  by_cases hi : id = ra.id
  · subst hi
    simp [hf, hid, hoom]
  · have hi' : ¬ ra.id = id := fun h => hi h.symm
    cases hg : da.find id with
    | none => simp [hi']
    | some r =>
      obtain rfl : r.id = id := by simpa using List.find?_some hg
      simp [hid, hi, hi']

/-- The bump branch latches its refusals. -/
theorem bumpResult_latched {ret : Option Nat}
    (hk : KeepsRecord ret ra ra') (n : Nat) :
    Latched da (bumpResult da n (ret, ra', m)).1.isNone (bumpResult da n (ret, ra', m)).2 := by
  cases ret with
  | none =>
    obtain ⟨hid, hmode, hmsp⟩ := noteOom_keeps da.mode ra' n
    refine .put h hs (hid.trans hk.id) (hmode.trans hk.mode) (hmsp ▸ hk.msp) ?_
    rw [h.mode, noteOom_hit]
    exact (Bool.or_true _).symm
  | some p =>
    refine .put h hs hk.id hk.mode hk.msp ?_
    rw [hk.oom]
    exact (Bool.or_false _).symm

/-- The mspace branch latches its refusals. -/
theorem msResult_latched {ret : Option Nat}
    (hk : KeepsRecord none ra ra') (n credit : Nat) :
    Latched da (msResult H (park da ra) n credit (ret, ra', m)).1.isNone
      (msResult H (park da ra) n credit (ret, ra', m)).2 := by
  have hp : Ready (park da ra) := ⟨h.mode, h.ids, h.msp⟩
  have hsel : (park da ra).selected = some ra := hs
  suffices hl : Latched (park da ra) (msResult H (park da ra) n credit (ret, ra', m)).1.isNone
      (msResult H (park da ra) n credit (ret, ra', m)).2 from ⟨hl.ready, hl.cur, hl.oom⟩
  cases ret with
  | none =>
    obtain ⟨hid, hmode, hmsp⟩ := noteOom_keeps da.mode ra' n
    refine .put hp hsel (hid.trans hk.id) (hmode.trans hk.mode) (hmsp ▸ hk.msp) ?_
    show (noteOom da.mode ra' n).oom.hit = _
    rw [h.mode, noteOom_hit]
    exact (Bool.or_true _).symm
  | some p =>
    refine .put hp hsel hk.id hk.mode hk.msp ?_
    show ra'.oom.hit = _
    rw [hk.oom]
    exact (Bool.or_false _).symm

/-- The mspace of a selected GC-mode arena. -/
theorem Ready.space (hb : ra.mode = .gc) :
    ∃ st, ra.msp = some st :=
  Option.isSome_iff_exists.mp
    (h.msp ra (List.mem_of_find?_eq_some (DualArena.selected_find hs).2) hb)

end

/-- What a reallocation is credited with: the old block, if it is in the selected mspace. -/
def reallocCredit (H : Host σ) (da : DualArena σ) (ptr : Nat) : Nat :=
  match da.selected with
  | some ra => if ra.mode = .gc ∧ (da.ptrRequestOwner ptr).map RequestArena.id = some ra.id then
      reqPtrSize H da (da.ptrRequestOwner ptr) ptr else 0
  | none => 0

/-- What a call that reaches the selected arena does: the answer of its bump allocator or of its
mspace, with the arena's record kept. -/
inductive Served (H : Host σ) (da : DualArena σ) (ra : RequestArena σ) (credit : Nat) :
    Option Nat × DualArena σ → Prop where
  | bump (n : Nat) {r : Option Nat × RequestArena σ × Mem} (hb : ra.mode = .bump)
    (hk : KeepsRecord r.1 ra r.2.1) : Served H da ra credit (bumpResult da n r)
  | gc (n : Nat) {r : Option Nat × RequestArena σ × Mem} (hb : ra.mode = .gc)
    (hk : KeepsRecord none ra r.2.1) : Served H da ra credit (msResult H (park da ra) n credit r)

/-- A write to the block a call returned leaves the record alone. -/
theorem Served.fill {credit : Nat} {x : Option Nat × DualArena σ} (h : Served H da ra credit x)
    (f : Nat → Mem → Mem) : Served H da ra credit (fillBlock f x) := by
  cases h with
  | @bump n r hb hk =>
    obtain ⟨_ | p, ra', m⟩ := r
    · exact .bump n hb hk
    · exact .bump n (r := (some p, ra', f p m)) hb hk
  | @gc n r hb hk =>
    obtain ⟨_ | p, ra', m⟩ := r
    · exact .gc n hb hk
    · exact .gc n (r := (some p, ra', f p m)) hb hk

section
variable (h : Ready da) (hs : da.selected = some ra)
include h hs

theorem jdaMalloc_served (size : Nat) (ds : List Decision) :
    Served H da ra 0 (jdaMalloc H da size ds) := by
  obtain hb | hb := ReqMode.cases ra.mode
  · obtain ⟨st, hst⟩ := h.space hs hb
    rw [jdaMalloc_gc h.mode hs hb hst]
    exact .gc size hb (runMs_keeps _ ra da.mem ds)
  · rw [jdaMalloc_bump h.mode hs hb]
    exact .bump size hb (reqBumpAlloc_keeps ra da.mem size ds)

theorem jdaCalloc_served {count size : Nat} (hc : 0 < count) (hz : 0 < size)
    (hlt : count * size < 2 ^ 64) (ds : List Decision) :
    Served H da ra 0 (jdaCalloc H da count size ds) := by
  obtain hb | hb := ReqMode.cases ra.mode
  · obtain ⟨st, hst⟩ := h.space hs hb
    rw [jdaCalloc_gc hc hz hlt h.mode hs hb hst]
    exact .gc _ hb (runMs_keeps _ ra da.mem ds)
  · rw [jdaCalloc_fill hc hz hlt fun _ x hx => Option.some.inj (hs.symm.trans hx) ▸ hb]
    exact (jdaMalloc_served h hs _ ds).fill _

theorem jdaRealloc_served (ptr : Nat) {size : Nat} (hz : 0 < size) (ds : List Decision) :
    Served H da ra (reallocCredit H da ptr) (jdaRealloc H da (some ptr) size ds) := by
  obtain hb | hb := ReqMode.cases ra.mode
  · obtain ⟨st, hst⟩ := h.space hs hb
    by_cases ho : (da.ptrRequestOwner ptr).map RequestArena.id = some ra.id
    · simp only [reallocCredit, hs, if_pos (And.intro hb ho)]
      rw [jdaRealloc_gc hz h.mode hs hb hst ho]
      exact .gc size hb (runMs_keeps _ ra da.mem ds)
    · simp only [reallocCredit, hs, if_neg (fun h => ho h.2 :
        ¬ (ra.mode = .gc ∧ (da.ptrRequestOwner ptr).map RequestArena.id = some ra.id))]
      rw [jdaRealloc_copy hz h.mode hs (fun h => absurd (hb.symm.trans h) nofun) fun _ => ho]
      exact (jdaMalloc_served h hs size ds).fill _
  · rw [jdaRealloc_bump hz h.mode hs hb]
    exact .bump size hb (reqBumpRealloc_keeps ra da.mem ptr size _ ds)

/-- A refusal is latched, and nothing else is. -/
theorem Served.latched {credit : Nat} {r : Option Nat × DualArena σ}
    (hr : Served H da ra credit r) :
    Latched da r.1.isNone r.2 := by
  cases hr with
  | bump n hb hk => exact bumpResult_latched h hs hk n
  | gc n hb hk => exact msResult_latched h hs hk n credit

end

/-- A free leaves every record as it is. -/
theorem jdaFree_latched (h : Ready da) (ptr : Option Nat) :
    Latched da false (jdaFree H da ptr) := by
  unfold jdaFree
  split
  · exact .same h
  · exact .same h
  · split
    · exact .same h
    · rename_i p hm owner ho
      have hr : owner ∈ da.requests := List.mem_of_find?_eq_some ho
      split
      · exact .same h
      · exact .same h
      · refine ⟨h.put hr rfl rfl fun _ => rfl, rfl, fun id => ?_⟩
        unfold oomOf
        rw [DualArena.find_put]
        cases hg : da.find id with
        | none => simp
        | some r =>
          have hr' : r ∈ da.requests := List.mem_of_find?_eq_some hg
          by_cases hi : r.id = owner.id
          · -- names are distinct, so this is the owner
            simp [DualArena.eq_of_id h.ids hr' hr hi]
          · simp [hi]

/-- A hook call latches a refusal of the selected arena and nothing else. -/
theorem runAlloc_latched (h : Ready da) (c : AllocCall) :
    Latched da (refuses H da c) (runAlloc H da c).2 := by
  unfold refuses
  cases hs : da.selected with
  | none =>
    simp only [Option.isSome_none, Bool.false_and]
    cases c with
    | malloc size ds => rw [runAlloc, jdaMalloc_none h.mode hs]; exact .same h
    | calloc count size ds => rw [runAlloc, jdaCalloc_none h.mode hs]; exact .same h
    | realloc ptr size ds =>
      cases ptr with
      | none => rw [runAlloc, jdaRealloc_null h.mode, jdaMalloc_none h.mode hs]; exact .same h
      | some ptr => rw [runAlloc, jdaRealloc_refused h.mode (.inr hs)]; exact .same h
    | free ptr => exact jdaFree_latched h ptr
  | some ra =>
    simp only [Option.isSome_some, Bool.true_and]
    cases c with
    | malloc size ds => exact (jdaMalloc_served h hs size ds).latched h hs
    | calloc count size ds =>
      by_cases hok : 0 < count ∧ 0 < size ∧ count * size < 2 ^ 64
      · obtain ⟨hc, hz, hlt⟩ := hok
        simp only [AllocCall.asks, hc, hz, hlt, decide_true, Bool.and_true, Bool.true_and]
        exact (jdaCalloc_served h hs hc hz hlt ds).latched h hs
      · have hn : AllocCall.asks (.calloc count size ds) = false := by
          simp only [AllocCall.asks, Bool.and_assoc, Bool.and_eq_false_iff, decide_eq_false_iff_not]
          tauto
        rw [hn, runAlloc, jdaCalloc_refused (by omega)]
        exact .same h
    | realloc ptr size ds =>
      cases ptr with
      | none =>
        simp only [AllocCall.asks, runAlloc, jdaRealloc_null h.mode, Bool.true_and]
        exact (jdaMalloc_served h hs size ds).latched h hs
      | some ptr =>
        by_cases hz : 0 < size
        · simp only [AllocCall.asks, hz, decide_true, Bool.true_and]
          exact (jdaRealloc_served h hs ptr hz ds).latched h hs
        · simp only [AllocCall.asks, hz, decide_false, Bool.false_and]
          rw [runAlloc, jdaRealloc_refused h.mode (.inl (by omega))]
          exact .same h
    | free ptr => exact jdaFree_latched h ptr

end

/-! ## A sequence of calls -/

/-- The state after hook calls. -/
def runAllocs (H : Host σ) (da : DualArena σ) : List AllocCall → DualArena σ
  | [] => da
  | c :: cs => runAllocs H (runAlloc H da c).2 cs

/-- The selected arena refuses one of the calls. -/
def refusesSome (H : Host σ) (da : DualArena σ) : List AllocCall → Bool
  | [] => false
  | c :: cs => refuses H da c || refusesSome H (runAlloc H da c).2 cs

/-- After any hook calls an arena's record says whether it has refused since before. -/
theorem runAllocs_latched {H : Host σ} {da : DualArena σ} (h : Ready da) (cs : List AllocCall) :
    Latched da (refusesSome H da cs) (runAllocs H da cs) := by
  induction cs generalizing da with
  | nil => exact .same h
  | cons c cs ih =>
    have hc := runAlloc_latched (H := H) h c
    exact hc.trans (ih hc.ready)

end ArenaJs
