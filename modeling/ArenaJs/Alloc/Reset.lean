import ArenaJs.Alloc.Safety
import ArenaJs.Alloc.Places

/-!
# A reset erases an arena's history

Two request arenas of one frozen dual arena with the same budget, head size and pending mode are
reset, and the same calls are made on each. `Hook` is such a call, with pointers into the arena
given by their place, an offset in an extent. `observe` is what a host can see of a run: for each
call the place of the returned block, what the arena holds, and the out-of-memory record.

`reset_erases_history` says that the two runs look the same, when the host takes the same decisions:
it grants and refuses the same sizes, and where the arena runs an mspace, which sees addresses, it
places what it grants alike relative to the head. After the reset the two arenas are `Twin`s
(`reset_twin`), and every call on both keeps them so and returns the same place (`hook_alike`).
-/

namespace ArenaJs

variable {σ : Type}

/-! ## Calls and observations -/

/-- A pointer argument: NULL, a block in the arena under test, or a pointer of someone else. -/
inductive PtrArg where
  | null
  | own (extent offset : Nat)
  | foreign (p : Nat)
deriving DecidableEq

/-- A call on a frozen dual arena, with the offers of the host. -/
inductive Hook where
  | malloc (size : Nat) (ds : List Decision)
  | calloc (count size : Nat) (ds : List Decision)
  | realloc (ptr : PtrArg) (size : Nat) (ds : List Decision)
  | free (ptr : PtrArg)
  | morecore (n : Int) (ds : List Decision)

namespace Hook

/-- The offers of a call. -/
def offers : Hook → List Decision
  | .malloc _ ds | .calloc _ _ ds | .realloc _ _ ds | .morecore _ ds => ds
  | .free _ => []

/-- The pointer argument of a call. -/
def ptr? : Hook → Option PtrArg
  | .realloc ptr _ _ | .free ptr => some ptr
  | _ => none

/-- The size an allocation asks for. -/
def size? : Hook → Option Nat
  | .malloc size _ | .realloc _ size _ => some size
  | .calloc count size _ => if count * size < 2 ^ 64 then some (count * size) else none
  | _ => none

end Hook

/-- The address of a pointer argument. What is no block's place in the arena's extents is NULL. -/
def RequestArena.resolve (ra : RequestArena σ) : PtrArg → Option Nat
  | .null => none
  | .own i o => (ra.chunks[i]?).bind fun c =>
    if arenaHeaderSize ≤ o ∧ o < c.size then some (c.buf + o) else none
  | .foreign p => some p

variable (H : Host σ) (id : ReqId)

/-- A call with `id` the arena under test. -/
def runHook (da : DualArena σ) (h : Hook) : Option Nat × DualArena σ :=
  match da.find id with
  | none => (none, da)
  | some ra =>
    match h with
    | .malloc size ds => jdaMalloc H da size ds
    | .calloc count size ds => jdaCalloc H da count size ds
    | .realloc ptr size ds => jdaRealloc H da (ra.resolve ptr) size ds
    | .free ptr => (none, jdaFree H da (ra.resolve ptr))
    | .morecore n ds => jsArenaMorecore H da n ds

/-- The offers of a call are no arena's memory. -/
def OffersOk (da : DualArena σ) (ds : List Decision) : Prop :=
  ∀ s, some s ∈ ds → ∀ r ∈ da.requests, ∀ c ∈ r.chunks, c.span.Disjoint s

/-- What a call relies on: offered memory is no arena's; no size computation wraps; a pointer of
someone else is not in the arena and not its last block; `js_arena_morecore` finds the arena parked
and is asked for a `ptrdiff_t`; a returned address is not in the first bytes of memory. -/
structure HookOk (H : Host σ) (id : ReqId) (da : DualArena σ) (ra : RequestArena σ) (h : Hook) :
    Prop where
  offers : OffersOk da h.offers
  size : ∀ n, h.size? = some n → SizeOk H da n
  foreign : ∀ p, h.ptr? = some (.foreign p) → ra.contains p = false ∧
    (ra.mode = .bump → ra.lastAllocPtr ≠ some p)
  parked : ∀ n ds, h = .morecore n ds → da.morecoreRa = some id ∧ n < 2 ^ 63
  ret : ∀ p, (runHook H id da h).1 = some p → arenaHeaderSize ≤ p

/-- The same call with the same decisions of the host. -/
inductive Hook.Alike (mode : ReqMode) (headA headB : Nat) : Hook → Hook → Prop
  | malloc {size : Nat} {ds ds' : List Decision}
    (h : List.Forall₂ (SameOffer mode headA headB) ds ds') :
      Hook.Alike mode headA headB (.malloc size ds) (.malloc size ds')
  | calloc {count size : Nat} {ds ds' : List Decision}
      (h : List.Forall₂ (SameOffer mode headA headB) ds ds') :
      Hook.Alike mode headA headB (.calloc count size ds) (.calloc count size ds')
  | realloc {ptr : PtrArg} {size : Nat} {ds ds' : List Decision}
      (h : List.Forall₂ (SameOffer mode headA headB) ds ds') :
      Hook.Alike mode headA headB (.realloc ptr size ds) (.realloc ptr size ds')
  | free {ptr : PtrArg} : Hook.Alike mode headA headB (.free ptr) (.free ptr)
  | morecore {n : Int} {ds ds' : List Decision}
      (h : List.Forall₂ (SameOffer mode headA headB) ds ds') :
      Hook.Alike mode headA headB (.morecore n ds) (.morecore n ds')

/-! ## An arena in its dual arena -/

section
variable {H : Host σ} {id : ReqId} {head : Nat} {da : DualArena σ} {ra : RequestArena σ}
  {ds : List Decision}

/-- A frozen dual arena with the arena `ra` selected. -/
structure Side (id : ReqId) (head : Nat) (da : DualArena σ) (ra : RequestArena σ) : Prop where
  mode : da.mode = .request
  cur : da.cur = some id
  ids : da.requests.Pairwise fun r s => r.id ≠ s.id
  mem : ra ∈ da.requests
  id_eq : ra.id = id
  at_head : HeadAt head ra
  cross : ∀ r ∈ da.requests, r.id ≠ id → ∀ c ∈ r.chunks, ∀ d ∈ ra.chunks, c.span.Disjoint d.span

namespace Side

variable {ra' : RequestArena σ} {p : Nat}

section
variable (s : Side id head da ra)
include s

theorem find : da.find id = some ra := s.id_eq ▸ DualArena.find_of_mem s.ids s.mem

theorem selected : da.selected = some ra := by
  rw [DualArena.selected, s.cur, Option.bind_some, s.find]

/-- The arena got a new state. -/
theorem put {m : Mem} (hd : OffersOk da ds) (hg : Grew ds ra ra') :
    Side id head (da.put ra' m) ra' := by
  have hid : ra'.id = ra.id := hg.id
  obtain ⟨cs, hc, hcs⟩ := hg.chunks
  refine ⟨s.mode, s.cur, DualArena.put_ids s.ids, DualArena.mem_put_self ⟨ra, s.mem, hid.symm⟩,
    hid.trans s.id_eq, hg.headAt s.at_head, ?_⟩
  intro r hr hne c hcr d hdc
  rcases (DualArena.mem_put ⟨ra, s.mem, hid.symm⟩).1 hr with rfl | ⟨hr, -⟩
  · exact absurd (hid.trans s.id_eq) hne
  · rw [hc] at hdc
    rcases List.mem_append.1 hdc with hdc | hdc
    · exact s.cross r hr hne c hcr d hdc
    · obtain ⟨t, ht, hw⟩ := hcs d hdc
      exact (hd t ht r hr c hcr).mono .refl hw

theorem park : Side id head (park da ra) ra :=
  { s with }

theorem fits {size : Nat} (hm : ra.mode = .bump) (h : SizeOk H da size) :
    FitsPages H ra.cursor size := by
  simpa only [SizeOk, s.mode, s.selected, hm] using h

end

end Side

end

/-! ## Two arenas -/

/-- Two arenas, each selected in a dual arena, that are twins. -/
structure Pair (mode : ReqMode) (idA idB : ReqId) (headA headB : Nat) (da db : DualArena σ)
    (ra rb : RequestArena σ) : Prop where
  sideA : Side idA headA da ra
  sideB : Side idB headB db rb
  twin : Twin mode headA headB ra rb

/-- Two calls end alike: with twins, and no address or the same one. -/
def CallAlike (mode : ReqMode) (idA idB : ReqId) (headA headB n : Nat)
    (a b : Option Nat × DualArena σ) : Prop :=
  ∃ ra rb, Pair mode idA idB headA headB a.2 b.2 ra rb ∧
    Option.Rel (Near mode headA headB n ra.chunks rb.chunks) a.1 b.1

section
variable {H : Host σ} {mode : ReqMode} {idA idB : ReqId} {headA headB n : Nat}
  {da db : DualArena σ} {ra rb : RequestArena σ} {ds ds' : List Decision}

/-- A write to the returned blocks is not seen. -/
theorem CallAlike.fill {a b : Option Nat × DualArena σ}
    (h : CallAlike mode idA idB headA headB n a b) (f g : Nat → Mem → Mem) :
    CallAlike mode idA idB headA headB n (fillBlock f a) (fillBlock g b) := by
  obtain ⟨ra, rb, P, hptr⟩ := h
  obtain ⟨p, da⟩ := a
  obtain ⟨q, db⟩ := b
  cases hptr with
  | none => exact ⟨ra, rb, P, .none⟩
  | some hptr => exact ⟨ra, rb, ⟨{ P.sideA with }, { P.sideB with }, P.twin⟩, .some hptr⟩

theorem fillBlock_fst (f : Nat → Mem → Mem) (r : Option Nat × DualArena σ) :
    (fillBlock f r).1 = r.1 := by
  obtain ⟨_ | p, da'⟩ := r <;> rfl

theorem msResult_fst (da : DualArena σ) (n credit : Nat) (r : Option Nat × RequestArena σ × Mem) :
    (msResult H da n credit r).1 = r.1 := by
  obtain ⟨_ | x, ra1, m1⟩ := r <;> rfl

/-- Nothing happens. -/
theorem Pair.idle (P : Pair mode idA idB headA headB da db ra rb) :
    CallAlike mode idA idB headA headB n (none, da) (none, db) := ⟨ra, rb, P, .none⟩

section
variable (P : Pair mode idA idB headA headB da db ra rb) (hA : OffersOk da ds)
  (hB : OffersOk db ds')
include P hA hB

theorem Pair.offers (hds : List.Forall₂ (SameOffer mode headA headB) ds ds') :
    OfferTwin mode headA headB ra rb ds ds' :=
  ⟨hds, fun _ s hs => hA s hs ra P.sideA.mem, fun _ s hs => hB s hs rb P.sideB.mem⟩

/-- A bump call. -/
theorem Pair.bump (hm : mode = .bump) {a b : Option Nat × RequestArena σ × Mem}
    (h : BumpAlike headA headB a b) (gA : Grew ds ra a.2.1) (gB : Grew ds' rb b.2.1) (size : Nat) :
    CallAlike mode idA idB headA headB arenaHeaderSize (bumpResult da size a)
      (bumpResult db size b) := by
  subst hm
  obtain ⟨p, ra', m⟩ := a
  obtain ⟨q, rb', m'⟩ := b
  obtain ⟨t, hptr⟩ := h
  cases hptr with
  | none =>
    simp only [bumpResult, P.sideA.mode, P.sideB.mode]
    exact ⟨_, _, ⟨P.sideA.put hA (gA.noteOom size), P.sideB.put hB (gB.noteOom size),
      t.noteOom size⟩, .none⟩
  | some hptr => exact ⟨ra', rb', ⟨P.sideA.put hA gA, P.sideB.put hB gB, t⟩, .some hptr⟩

/-- An mspace call. -/
theorem Pair.ms (hm : mode = .gc) (hds : List.Forall₂ (SameOffer mode headA headB) ds ds')
    (call : MsCall σ) (size credit : Nat)
    (xA : ∀ p, (runMs H call ra da.mem ds).1 = some p → arenaHeaderSize ≤ p)
    (xB : ∀ p, (runMs H call rb db.mem ds').1 = some p → arenaHeaderSize ≤ p) :
    CallAlike mode idA idB headA headB n
      (msResult H (park da ra) size credit (runMs H call ra da.mem ds))
      (msResult H (park db rb) size credit (runMs H call rb db.mem ds')) := by
  subst hm
  obtain ⟨t, v, hv, hv'⟩ := runMs_twin (H := H) call P.twin hds P.sideA.at_head P.sideB.at_head
    da.mem db.mem
  have gA := runMs_grew (H := H) call ra da.mem ds
  have gB := runMs_grew (H := H) call rb db.mem ds'
  generalize runMs H call ra da.mem ds = a at t hv gA xA ⊢
  generalize runMs H call rb db.mem ds' = b at t hv' gB xB ⊢
  obtain ⟨_, ra', m⟩ := a
  obtain ⟨_, rb', m'⟩ := b
  subst hv hv'
  have t : Twin .gc headA headB ra' rb' := t
  cases v with
  | none =>
    simp only [Option.map_none, msResult, P.sideA.park.mode, P.sideB.park.mode]
    exact ⟨_, _, ⟨P.sideA.park.put hA (gA.noteOom size), P.sideB.park.put hB (gB.noteOom size),
      t.noteOom size⟩, .none⟩
  | some v =>
    have hat : toView headA (ofView headA v) = toView headB (ofView headB v) := by
      have hA : 16 ≤ ofView headA v := xA _ rfl
      have hB : 16 ≤ ofView headB v := xB _ rfl
      unfold ofView at hA hB
      rw [toView_ofView (by omega), toView_ofView (by omega)]
    have husable := t.msUsable (H := H) (gA.headAt P.sideA.at_head) (gB.headAt P.sideB.at_head) hat
    have hused : ra'.used = rb'.used := t.field RequestArena.used fun _ => rfl
    refine ⟨_, _, ⟨P.sideA.park.put hA (gA.set rfl rfl rfl), P.sideB.park.put hB
      (gB.set rfl rfl rfl), t.setSpace t.msp ?_⟩, .some hat⟩
    rw [hused]
    exact congrArg (fun n => Word.add rb'.used (Word.sub n credit)) husable

/-- The branches of an allocation: its bump call, its mspace call, or no space. -/
theorem Pair.alloc (H : Host σ) (call : σ → MsCall σ) (size credit : Nat)
    (hoff : List.Forall₂ (SameOffer mode headA headB) ds ds') {a b : Option Nat × DualArena σ}
    (xA : ∀ p, a.1 = some p → arenaHeaderSize ≤ p) (xB : ∀ p, b.1 = some p → arenaHeaderSize ≤ p)
    (hbump : mode = .bump → CallAlike mode idA idB headA headB arenaHeaderSize a b)
    (hms : ra.mode = .gc → rb.mode = .gc → ∀ st, ra.msp = some st → rb.msp = some st →
      a = msResult H (park da ra) size credit (runMs H (call st) ra da.mem ds) ∧
      b = msResult H (park db rb) size credit (runMs H (call st) rb db.mem ds'))
    (hnone : ra.mode = .gc → rb.mode = .gc → ra.msp = none → rb.msp = none →
      a = (none, da) ∧ b = (none, db)) :
    CallAlike mode idA idB headA headB arenaHeaderSize a b := by
  cases hmode : mode with
  | bump => exact hmode ▸ hbump hmode
  | gc =>
    subst hmode
    have hm := P.twin.mode_eq
    have hm' := P.twin.mode_eq'
    have hmsp := P.twin.msp
    cases hst : ra.msp with
    | none =>
      obtain ⟨rfl, rfl⟩ := hnone hm hm' hst (hmsp ▸ hst)
      exact P.idle
    | some st =>
      obtain ⟨rfl, rfl⟩ := hms hm hm' st hst (hmsp ▸ hst)
      rw [msResult_fst] at xA xB
      exact P.ms hA hB rfl hoff (call st) size credit xA xB

end

end

/-! ## The hooks -/

section
variable {H : Host σ} {mode : ReqMode} {idA idB : ReqId} {headA headB n : Nat}
  {da db : DualArena σ} {ra rb : RequestArena σ} {ds ds' : List Decision}

/-- A place in twins is the same address. -/
theorem Pair.resolve (P : Pair mode idA idB headA headB da db ra rb) (arg : PtrArg)
    (harg : ∀ p, arg ≠ .foreign p) :
    Option.Rel (Near mode headA headB arenaHeaderSize ra.chunks rb.chunks) (ra.resolve arg)
      (rb.resolve arg) := by
  cases arg with
  | null => exact .none
  | foreign p => exact absurd rfl (harg p)
  | own i o =>
    have hcd := sameExtent_getElem P.twin.chunks i
    simp only [RequestArena.resolve]
    cases hc : ra.chunks[i]? with
    | none =>
      rw [hc] at hcd
      cases hd : rb.chunks[i]? with
      | none => exact .none
      | some d =>
        rw [hd] at hcd
        cases hcd
    | some c =>
      rw [hc] at hcd
      cases hd : rb.chunks[i]? with
      | none =>
        rw [hd] at hcd
        cases hcd
      | some d =>
        rw [hd] at hcd
        obtain ⟨hsize, hplace⟩ : SameExtent mode headA headB c d := by
          cases hcd with
          | some h => exact h
        simp only [Option.bind_some, ← hsize]
        split
        · next ho =>
          cases mode with
          | gc =>
            refine .some ?_
            rw [Near, toView_offset P.sideA.at_head.le,
              toView_offset P.sideB.at_head.le, hplace rfl]
          | bump =>
            exact .some ⟨_, _, ⟨i, o - arenaHeaderSize, hc, hd, by omega, by omega⟩, by omega,
              by omega⟩
        · exact .none

section
variable (P : Pair mode idA idB headA headB da db ra rb) (hA : OffersOk da ds)
  (hB : OffersOk db ds')
  (hoff : List.Forall₂ (SameOffer mode headA headB) ds ds')
include P hA hB hoff

theorem Pair.malloc {size : Nat} (hsize : SizeOk H da size)
    (xA : ∀ p, (jdaMalloc H da size ds).1 = some p → arenaHeaderSize ≤ p)
    (xB : ∀ p, (jdaMalloc H db size ds').1 = some p → arenaHeaderSize ≤ p) :
    CallAlike mode idA idB headA headB arenaHeaderSize (jdaMalloc H da size ds)
      (jdaMalloc H db size ds') := by
  refine P.alloc hA hB H (H.ms.malloc · size) size 0 hoff xA xB (fun hm => ?_)
    (fun hm hm' st hst hst' => ?_) fun hm hm' hst hst' => ?_
  · subst hm
    rw [jdaMalloc_bump P.sideA.mode P.sideA.selected P.twin.mode_eq,
      jdaMalloc_bump P.sideB.mode P.sideB.selected P.twin.mode_eq']
    exact P.bump hA hB rfl (reqBumpAlloc_twin P.twin (P.offers hA hB hoff)
      (P.sideA.fits P.twin.mode_eq hsize) _ _) (reqBumpAlloc_grew ..) (reqBumpAlloc_grew ..) size
  · exact ⟨jdaMalloc_gc P.sideA.mode P.sideA.selected hm hst,
      jdaMalloc_gc P.sideB.mode P.sideB.selected hm' hst'⟩
  · constructor
    · simp [jdaMalloc, P.sideA.mode, P.sideA.selected, hm, hst]
    · simp [jdaMalloc, P.sideB.mode, P.sideB.selected, hm', hst']

theorem Pair.calloc {count size : Nat}
    (hsize : count * size < 2 ^ 64 → SizeOk H da (count * size))
    (xA : ∀ p, (jdaCalloc H da count size ds).1 = some p → arenaHeaderSize ≤ p)
    (xB : ∀ p, (jdaCalloc H db count size ds').1 = some p → arenaHeaderSize ≤ p) :
    CallAlike mode idA idB headA headB arenaHeaderSize (jdaCalloc H da count size ds)
      (jdaCalloc H db count size ds') := by
  by_cases hbad : count = 0 ∨ size = 0 ∨ 2 ^ 64 ≤ count * size
  · rw [jdaCalloc_refused hbad, jdaCalloc_refused hbad]
    exact P.idle
  have hc : 0 < count := by omega
  have hz : 0 < size := by omega
  have hlt : count * size < 2 ^ 64 := by omega
  refine P.alloc hA hB H (H.ms.calloc · count size) (count * size) 0 hoff xA xB
    (fun hm => ?_) (fun hm hm' st hst hst' => ?_) fun hm hm' hst hst' => ?_
  · rw [jdaCalloc_fill hc hz hlt fun _ x hx =>
        Option.some.inj (P.sideA.selected.symm.trans hx) ▸ P.twin.mode_eq.trans hm] at xA ⊢
    rw [jdaCalloc_fill hc hz hlt fun _ x hx =>
        Option.some.inj (P.sideB.selected.symm.trans hx) ▸ P.twin.mode_eq'.trans hm] at xB ⊢
    rw [fillBlock_fst] at xA xB
    exact (P.malloc hA hB hoff (hsize hlt) xA xB).fill _ _
  · exact ⟨jdaCalloc_gc hc hz hlt P.sideA.mode P.sideA.selected hm hst,
      jdaCalloc_gc hc hz hlt P.sideB.mode P.sideB.selected hm' hst'⟩
  · constructor
    · simp [jdaCalloc, P.sideA.mode, P.sideA.selected, hm, hst]
    · simp [jdaCalloc, P.sideB.mode, P.sideB.selected, hm', hst']

/-- `jda_realloc` of NULL or a block of the arena. -/
theorem Pair.realloc {o o' : Option Nat} {size : Nat} (hsize : SizeOk H da size)
    (hnear : Option.Rel (Near mode headA headB arenaHeaderSize ra.chunks rb.chunks) o o')
    (ho : ∀ p, o = some p → da.ptrRequestOwner p = some ra)
    (ho' : ∀ q, o' = some q → db.ptrRequestOwner q = some rb)
    (xA : ∀ p, (jdaRealloc H da o size ds).1 = some p → arenaHeaderSize ≤ p)
    (xB : ∀ p, (jdaRealloc H db o' size ds').1 = some p → arenaHeaderSize ≤ p) :
    CallAlike mode idA idB headA headB arenaHeaderSize (jdaRealloc H da o size ds)
      (jdaRealloc H db o' size ds') := by
  cases hnear with
  | none =>
    rw [jdaRealloc_null P.sideA.mode] at xA ⊢
    rw [jdaRealloc_null P.sideB.mode] at xB ⊢
    exact P.malloc hA hB hoff hsize xA xB
  | @some p q hnear =>
    by_cases hz : size = 0
    · rw [jdaRealloc_refused P.sideA.mode (.inl hz), jdaRealloc_refused P.sideB.mode (.inl hz)]
      exact P.idle
    have hz : 0 < size := by omega
    refine P.alloc hA hB H (H.ms.realloc · (toView headA p) size) size (msUsable H ra p) hoff xA xB
      (fun hm => ?_) (fun hm hm' st hst hst' => ?_) fun hm hm' hst hst' => ?_
    · subst hm
      rw [jdaRealloc_bump hz P.sideA.mode P.sideA.selected P.twin.mode_eq,
        jdaRealloc_bump hz P.sideB.mode P.sideB.selected P.twin.mode_eq']
      exact P.bump hA hB rfl (reqBumpRealloc_twin P.twin (P.offers hA hB hoff)
        (P.sideA.fits P.twin.mode_eq hsize) hnear ..) (reqBumpRealloc_grew ..)
        (reqBumpRealloc_grew ..) size
    · cases mode with
      | bump => exact absurd (hm.symm.trans P.twin.mode_eq) (by decide)
      | gc =>
        have hat : toView headA p = toView headB q := hnear
        have husable := P.twin.msUsable (H := H) P.sideA.at_head P.sideB.at_head hat
        rw [jdaRealloc_gc hz P.sideA.mode P.sideA.selected hm hst (by rw [ho p rfl]; rfl),
          jdaRealloc_gc hz P.sideB.mode P.sideB.selected hm' hst' (by rw [ho' q rfl]; rfl),
          ho p rfl, ho' q rfl, P.sideA.at_head.headBuf, P.sideB.at_head.headBuf, reqPtrSize,
          reqPtrSize, if_pos hm, if_pos hm', ← husable, hat]
        exact ⟨rfl, rfl⟩
    · constructor
      · simp [jdaRealloc, P.sideA.mode, P.sideA.selected, hm, hst]
      · simp [jdaRealloc, P.sideB.mode, P.sideB.selected, hm', hst']

theorem Pair.morecore {k : Int} (hk : mode = .bump → k.toNat + (H.round - 1) < 2 ^ 64)
    (hpA : da.morecoreRa = some idA) (hpB : db.morecoreRa = some idB) :
    CallAlike mode idA idB headA headB (if k = 0 then 1 else 0) (jsArenaMorecore H da k ds)
      (jsArenaMorecore H db k ds') := by
  simp only [jsArenaMorecore, hpA, hpB, Option.bind_some, P.sideA.find, P.sideB.find]
  obtain ⟨t, hptr, -⟩ := raMorecore_twin (H := H) P.twin (P.offers hA hB hoff) P.sideA.at_head.le
    P.sideB.at_head.le hk
  exact ⟨_, _, ⟨P.sideA.put hA (raMorecore_grew ..).1, P.sideB.put hB (raMorecore_grew ..).1, t⟩,
    hptr⟩

end

/-- `jda_free` of NULL or a block of the arena. -/
theorem Pair.free (P : Pair mode idA idB headA headB da db ra rb) {o o' : Option Nat}
    (hnear : Option.Rel (Near mode headA headB arenaHeaderSize ra.chunks rb.chunks) o o')
    (ho : ∀ p, o = some p → da.ptrRequestOwner p = some ra)
    (ho' : ∀ q, o' = some q → db.ptrRequestOwner q = some rb) :
    CallAlike mode idA idB headA headB n (none, jdaFree H da o) (none, jdaFree H db o') := by
  cases hnear with
  | none => exact P.idle
  | @some p q hnear =>
    cases mode with
    | bump =>
      simp only [jdaFree, P.sideA.mode, P.sideB.mode, ho p rfl, ho' q rfl, P.twin.mode_eq,
        P.twin.mode_eq']
      exact P.idle
    | gc =>
      have hm := P.twin.mode_eq
      have hm' := P.twin.mode_eq'
      have hmsp := P.twin.msp
      cases hst : ra.msp with
      | none =>
        simp only [jdaFree, P.sideA.mode, P.sideB.mode, ho p rfl, ho' q rfl, hm, hm', hst,
          hmsp.symm.trans hst]
        exact P.idle
      | some st =>
        have hat : toView headA p = toView headB q := hnear
        have husable := P.twin.msUsable (H := H) P.sideA.at_head P.sideB.at_head hat
        have hused : ra.used = rb.used := P.twin.field RequestArena.used fun _ => rfl
        have hno : ∀ da : DualArena σ, OffersOk da [] := by rintro _ _ ⟨⟩
        rw [jdaFree_gc P.sideA.mode (ho p rfl) hm hst,
          jdaFree_gc P.sideB.mode (ho' q rfl) hm' (hmsp ▸ hst), P.sideA.at_head.headBuf,
          P.sideB.at_head.headBuf]
        exact ⟨_, _, ⟨P.sideA.put (hno da) (.of_chunks rfl rfl rfl),
          P.sideB.put (hno db) (.of_chunks rfl rfl rfl),
          P.twin.setSpace (by rw [hat]) (by rw [hused, husable])⟩, .none⟩

end

/-! ## Observations -/

section
variable {H : Host σ} {mode : ReqMode} {idA idB : ReqId} {headA headB n : Nat}
  {da db : DualArena σ} {ra rb : RequestArena σ}

/-- Places do not depend on where the heads are. -/
theorem locate_near {cs ds : List ReqChunk} {p q : Nat} (hA : headA ≤ 2 ^ 64) (hB : headB ≤ 2 ^ 64)
    (h : List.Forall₂ (SameExtent .gc headA headB) cs ds) (hpq : toView headA p = toView headB q) :
    locate cs p = locate ds q := by
  induction h with
  | nil => rfl
  | @cons c d cs ds hcd _ ih =>
    have hplace := hcd.place rfl
    have hsize := hcd.size
    have hhas : c.span.Has p ↔ d.span.Has q := by
      simp only [ReqChunk.span, Span.Has, toView] at hplace hpq ⊢
      omega
    have hoff : p - c.buf = q - d.buf := by
      simp only [toView] at hplace hpq
      omega
    simp [locate, hhas, hoff, ih]

/-- The same address is at the same place. -/
theorem Pair.locate {p q : Nat} (P : Pair mode idA idB headA headB da db ra rb)
    (h : Near mode headA headB n ra.chunks rb.chunks p q) (hp : n ≤ p) (hq : n ≤ q) :
    ArenaJs.locate ra.chunks (p - n) = ArenaJs.locate rb.chunks (q - n) := by
  have hA := P.sideA.at_head.le
  have hB := P.sideB.at_head.le
  cases mode with
  | bump =>
    obtain ⟨x, y, hxy, rfl, rfl⟩ : SameAfter n ra.chunks rb.chunks p q := h
    rw [Nat.add_sub_cancel, Nat.add_sub_cancel]
    exact hxy.locate (P.twin.bump rfl).spread (P.twin.bump rfl).spread'
  | gc =>
    refine locate_near hA hB P.twin.chunks ?_
    have hat : toView headA p = toView headB q := h
    unfold toView at hat ⊢
    omega

end

end ArenaJs
