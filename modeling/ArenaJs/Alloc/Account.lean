import ArenaJs.Alloc.Latch
import ArenaJs.Alloc.Safety
import Mathlib.Algebra.Order.BigOperators.Group.List

/-!
# The live bytes of a request arena

A request arena in GC mode counts its live bytes in `used`: the hooks add dlmalloc's usable size of
every block they hand out and take it off again when the block is freed, modulo the size of a word.
`Accounts` says that the counter is the sum over the arena's live blocks. The sum fits a word, since
the blocks are disjoint parts of the address space (`Layout.usedBy_lt`), so nothing wraps.

An allocating hook changes the record of the selected arena only (`Charged`), and `jda_free` that of
the arena that owns the block.
-/

namespace ArenaJs

variable {σ : Type}

/-! ## The sum -/

/-- The live bytes of an arena's mspace. -/
def usedBy (live : List Block) (id : ReqId) : Nat :=
  ((live.filter fun b => b.home = .gc id).map fun b => b.hi - b.ptr).sum

/-- The counter of every arena in GC mode is the sum of its blocks' usable sizes. -/
def Accounts (da : DualArena σ) (live : List Block) : Prop :=
  ∀ ra ∈ da.requests, ra.mode = .gc → ra.used = usedBy live ra.id

section
variable {live : List Block} {b : Block} {id : ReqId}

@[simp] theorem usedBy_nil : usedBy [] id = 0 := rfl

theorem usedBy_cons : usedBy (b :: live) id =
    (if b.home = .gc id then b.hi - b.ptr else 0) + usedBy live id := by
  unfold usedBy
  by_cases h : b.home = .gc id
  · rw [List.filter_cons_of_pos (by simpa using h), List.map_cons, List.sum_cons, if_pos h]
  · rw [List.filter_cons_of_neg (by simpa using h), if_neg h, Nat.zero_add]

theorem usedBy_append {live' : List Block} :
    usedBy (live ++ live') id = usedBy live id + usedBy live' id := by
  unfold usedBy
  rw [List.filter_append, List.map_append, List.sum_append]

/-- Blocks of other homes do not count. -/
theorem usedBy_filter {p : Block → Bool} (h : ∀ b ∈ live, b.home = .gc id → p b = true) :
    usedBy (live.filter p) id = usedBy live id := by
  unfold usedBy
  rw [List.filter_filter]
  congr 2
  refine List.filter_congr fun b hb => ?_
  by_cases hh : b.home = .gc id
  · simp [hh, h b hb hh]
  · simp [hh]

theorem usedBy_eq_zero (h : ∀ b ∈ live, b.home ≠ .gc id) : usedBy live id = 0 := by
  unfold usedBy
  rw [List.filter_eq_nil_iff.2 fun b hb => by simpa using h b hb]
  rfl

/-- One block less. -/
theorem usedBy_remove (hb : b ∈ live) (hnd : live.Nodup) (hh : b.home = .gc id) {p : Block → Bool}
    (hp : ∀ c ∈ live, c.home = .gc id → (p c = true ↔ c ≠ b)) :
    usedBy (live.filter p) id + (b.hi - b.ptr) = usedBy live id := by
  induction live with
  | nil => cases hb
  | cons c live ih =>
    obtain ⟨hc, hnd⟩ := List.nodup_cons.1 hnd
    have hp' : ∀ d ∈ live, d.home = .gc id → (p d = true ↔ d ≠ b) :=
      fun d hd => hp d (List.mem_cons_of_mem _ hd)
    rw [usedBy_cons]
    rcases List.mem_cons.1 hb with rfl | hb
    · -- the block itself: none of the others is it
      have hout : p b = false := by
        by_contra hpb
        exact ((hp b List.mem_cons_self hh).1 (by simpa using hpb)) rfl
      rw [List.filter_cons_of_neg (by simp [hout]), if_pos hh, usedBy_filter fun d hd hdh =>
        (hp' d hd hdh).2 fun hdb => hc (hdb ▸ hd)]
      omega
    · have hrest := ih hb hnd hp'
      have hcb : c ≠ b := fun h => hc (h ▸ hb)
      by_cases hch : c.home = .gc id
      · rw [List.filter_cons_of_pos ((hp c List.mem_cons_self hch).2 hcb), usedBy_cons]
        omega
      · rw [if_neg hch, List.filter_cons]
        split
        · rw [usedBy_cons, if_neg hch]
          omega
        · omega

end

section
variable {H : Host σ} {C : H.ms.Contract} {da : DualArena σ} {live : List Block}
  {ra : RequestArena σ} {b : Block}
variable {r : Option Nat × DualArena σ} {id : ReqId} {ra' : RequestArena σ} {m : Mem}
  {ds : List Decision}

theorem Layout.nodup (L : Layout C da live) : live.Nodup := by
  refine L.own.imp_of_mem fun {b c} hb _ hdis hbc => ?_
  subst hbc
  obtain ⟨-, hlo, hhi⟩ := (L.blocks b hb).has_pred
  have := hdis rfl
  simp only [Span.Disjoint] at this
  omega

/-- dlmalloc's usable size of a live block. -/
theorem Layout.usable (L : Layout C da live) (hmode : da.mode = .request) (hr : ra ∈ da.requests)
    (hgc : ra.mode = .gc) (hb : b ∈ live) (hh : b.home = .gc ra.id) :
    msUsable H ra b.ptr = b.hi - b.ptr := by
  have hok := L.arenas hmode ra hr
  simp only [ArenaOk, hgc] at hok
  obtain ⟨⟨st, hst, hInv⟩, -⟩ := hok
  exact msUsable_eq hst hInv ⟨b, hb, hh, rfl⟩ rfl

/-- The live bytes of an arena fit a word: its blocks are disjoint, above address 0 and below
`2 ^ 64`. -/
theorem Layout.usedBy_lt (L : Layout C da live) (id : ReqId) : usedBy live id < 2 ^ 64 := by
  have hpos : ∀ b ∈ live.filter fun b => b.home = .gc id, b.foot.Within ⟨1, 2 ^ 64⟩ := by
    intro b hb
    obtain ⟨hb, hh⟩ := List.mem_filter.1 hb
    simp only [decide_eq_true_eq] at hh
    have hs := (L.blocks b hb).housed
    simp only [Housed, hh] at hs
    obtain ⟨-, ra, hr, -, -, c, hc, hw⟩ := hs
    have hin := hw.trans (ra.room_within c)
    have hok := (L.geo.ra ra hr).chunk_ok c hc
    have hbuf := hok.buf_pos
    have hfit := hok.fits
    simp only [Span.Within, ReqChunk.span] at hin ⊢
    omega
  have hdis : ((live.filter fun b => b.home = .gc id).map Block.foot).Pairwise Span.Disjoint := by
    rw [List.pairwise_map]
    refine (L.own.sublist List.filter_sublist).imp_of_mem fun {b c} hb hc h => h ?_
    have hb := (List.mem_filter.1 hb).2
    have hc := (List.mem_filter.1 hc).2
    simp only [decide_eq_true_eq] at hb hc
    rw [hb, hc]
  have hsum := Span.sum_length_le (s := ⟨1, 2 ^ 64⟩) hdis fun t ht => by
    obtain ⟨b, hb, rfl⟩ := List.mem_map.1 ht
    exact hpos b hb
  rw [List.map_map] at hsum
  have hle : usedBy live id ≤ ((live.filter fun b => b.home = .gc id).map
      ((fun t : Span => t.hi - t.lo) ∘ Block.foot)).sum := by
    unfold usedBy
    refine List.sum_le_sum fun b hb => ?_
    have hlo := (L.blocks b (List.mem_filter.1 hb).1).lo_add
    simp only [Function.comp, Block.foot]
    omega
  simp only at hsum
  omega

/-- So no counter is below the size of a live block. -/
theorem Accounts.usable_le (h : Accounts da live) (L : Layout C da live)
    (hmode : da.mode = .request)
    (hr : ra ∈ da.requests) (hgc : ra.mode = .gc) (hb : b ∈ live) (hh : b.home = .gc ra.id) :
    msUsable H ra b.ptr ≤ ra.used := by
  rw [L.usable hmode hr hgc hb hh, h ra hr hgc]
  have hrem := usedBy_remove (p := fun c => c ≠ b) hb L.nodup hh fun c _ _ => by simp
  omega

/-! ## Charges -/

/-- What an allocating hook does to the records: nothing, or it gives the selected arena a new one.
In GC mode the usable size of the block it returns, less `credit`, is added to the counter;
otherwise the counter stays. That of the bump allocator stays in GC mode, and when nothing is
returned. -/
def Charged (H : Host σ) (da : DualArena σ) (credit : Nat) (r : Option Nat × DualArena σ) : Prop :=
  r.1 = none ∧ r.2 = da ∨ ∃ ra ra' m, da.selected = some ra ∧ ra'.id = ra.id ∧ ra'.mode = ra.mode ∧
    r.2.mode = da.mode ∧ r.2.cur = da.cur ∧ r.2.requests = (da.put ra' m).requests ∧
    (r.1 = none ∨ ra.mode = .bump → ra'.used = ra.used) ∧
    (r.1 = none ∨ ra.mode = .gc → ra'.bumpUsed = ra.bumpUsed) ∧
    ∀ p, r.1 = some p → ra.mode = .gc →
      ra'.used = Word.add ra.used (Word.sub (msUsable H ra' p) credit)

theorem noteOom_used (mode : ArenaMode) (ra : RequestArena σ) (n : Nat) :
    (noteOom mode ra n).used = ra.used ∧ (noteOom mode ra n).bumpUsed = ra.bumpUsed := by
  unfold noteOom
  split <;> exact ⟨rfl, rfl⟩

theorem Served.charged {credit : Nat} (hs : da.selected = some ra) (hr : Served H da ra credit r) :
    Charged H da credit r := by
  -- both branches latch a refusal in the same way
  have hnone : ∀ (ra' : RequestArena σ) (n : Nat) (da' : DualArena σ) (m : Mem),
      KeepsRecord none ra ra' → da'.mode = da.mode → da'.cur = da.cur → da'.requests = da.requests →
      Charged H da credit (none, da'.put (noteOom da'.mode ra' n) m) := by
    intro ra' n da' m hk h1 h2 h3
    obtain ⟨hid, hmode, -⟩ := noteOom_keeps da'.mode ra' n
    exact .inr ⟨ra, noteOom da'.mode ra' n, m, hs, hid.trans hk.id, hmode.trans hk.mode, h1, h2,
      by simp only [DualArena.put, h3], fun _ => (noteOom_used ..).1.trans hk.used,
      fun _ => (noteOom_used ..).2.trans (hk.bumpUsed rfl), by simp⟩
  cases hr with
  | @bump n r hb hk =>
    obtain ⟨_ | p, ra', m⟩ := r
    · exact hnone ra' n da m hk rfl rfl rfl
    · refine .inr ⟨ra, ra', m, hs, hk.id, hk.mode, rfl, rfl, rfl, fun _ => hk.used, ?_,
        fun _ _ h => by cases hb.symm.trans h⟩
      rw [hb]
      rintro (h | h) <;> cases h
  | @gc n r hb hk =>
    obtain ⟨_ | p, ra', m⟩ := r
    · exact hnone ra' n (park da ra) m hk rfl rfl rfl
    · refine .inr
        ⟨ra, { ra' with used := Word.add ra'.used (Word.sub (msUsable H ra' p) credit) }, m,
        hs, hk.id, hk.mode, rfl, rfl, rfl, ?_, fun _ => hk.bumpUsed rfl, ?_⟩
      · rintro (h | h)
        · cases h
        · cases hb.symm.trans h
      · rintro _ ⟨⟩ -
        show Word.add ra'.used _ = _
        rw [hk.used]
        rfl

theorem jdaMalloc_charged (h : Ready da) (size : Nat) (ds : List Decision) :
    Charged H da 0 (jdaMalloc H da size ds) := by
  cases hs : da.selected with
  | none => rw [jdaMalloc_none h.mode hs]; exact .inl ⟨rfl, rfl⟩
  | some ra => exact (jdaMalloc_served h hs size ds).charged hs

theorem jdaCalloc_charged (h : Ready da) (count size : Nat) (ds : List Decision) :
    Charged H da 0 (jdaCalloc H da count size ds) := by
  by_cases hbad : count = 0 ∨ size = 0 ∨ 2 ^ 64 ≤ count * size
  · rw [jdaCalloc_refused hbad]; exact .inl ⟨rfl, rfl⟩
  cases hs : da.selected with
  | none => rw [jdaCalloc_none h.mode hs]; exact .inl ⟨rfl, rfl⟩
  | some ra => exact (jdaCalloc_served h hs (by omega) (by omega) (by omega) ds).charged hs

theorem jdaRealloc_charged (h : Ready da) (ptr size : Nat) (ds : List Decision) :
    Charged H da (reallocCredit H da ptr) (jdaRealloc H da (some ptr) size ds) := by
  by_cases hbad : size = 0 ∨ da.selected = none
  · rw [jdaRealloc_refused h.mode hbad]; exact .inl ⟨rfl, rfl⟩
  obtain ⟨ra, hs⟩ := Option.ne_none_iff_exists'.1 fun h => hbad (.inr h)
  exact (jdaRealloc_served h hs ptr (by omega) ds).charged hs

/-- The records of the other arenas are as they were. -/
theorem Charged.find_ne {credit : Nat} (hc : Charged H da credit r)
    (hid : da.cur ≠ some id) : r.2.find id = da.find id := by
  rcases hc with ⟨-, hda⟩ | ⟨ra, ra', m, hs, hra, -, -, -, hreq, -⟩
  · rw [hda]
  obtain ⟨hcur, -⟩ := DualArena.selected_find hs
  rw [show r.2.find id = (da.put ra' m).find id by unfold DualArena.find; rw [hreq],
    DualArena.find_put]
  cases hf : da.find id with
  | none => rfl
  | some x =>
    obtain ⟨-, rfl⟩ := DualArena.find_mem hf
    rw [Option.map_some, if_neg fun h => hid (hcur.trans (congrArg some (h.trans hra).symm))]

/-- A hook that fails leaves every counter alone. -/
theorem Charged.used_eq {credit : Nat} (hc : Charged H da credit r)
    (hret : r.1 = none) (id : ReqId) :
    (r.2.find id).map (fun ra => (ra.used, ra.bumpUsed)) =
      (da.find id).map fun ra => (ra.used, ra.bumpUsed) := by
  by_cases hid : da.cur = some id
  · rcases hc with ⟨-, hda⟩ | ⟨ra, ra', m, hs, hra, -, -, -, hreq, hkeep, hbump, -⟩
    · rw [hda]
    obtain ⟨hcur, hf⟩ := DualArena.selected_find hs
    obtain rfl : ra.id = id := Option.some.inj (hcur.symm.trans hid)
    rw [show r.2.find ra.id = (da.put ra' m).find ra.id by unfold DualArena.find; rw [hreq],
      DualArena.find_put, hf, Option.map_some, if_pos hra.symm, Option.map_some, Option.map_some,
      hkeep (.inl hret), hbump (.inl hret)]
  · rw [hc.find_ne hid]

/-! ## The hooks keep the accounts -/

/-- The arenas of a layout are ready to be called. -/
theorem Layout.ready (L : Layout C da live) (hmode : da.mode = .request) : Ready da where
  mode := hmode
  ids := L.geo.ids
  msp := fun ra hr hgc => by
    have hok := L.arenas hmode ra hr
    simp only [ArenaOk, hgc] at hok
    obtain ⟨⟨st, hst, -⟩, -⟩ := hok
    rw [hst]
    rfl

/-- The selected arena after it got a new record. -/
theorem DualArena.selected_of_put {da' : DualArena σ}
    (hs : da.selected = some ra) (hid : ra'.id = ra.id) (hcur : da'.cur = da.cur)
    (hreq : da'.requests = (da.put ra' m).requests) : da'.selected = some ra' := by
  obtain ⟨hc, hf⟩ := DualArena.selected_find hs
  have hfind : da'.find ra.id = (da.put ra' m).find ra.id := by
    unfold DualArena.find
    rw [hreq]
  rw [DualArena.selected, hcur, hc, Option.bind_some, hfind, DualArena.find_put, hf,
    Option.map_some,
    if_pos hid.symm]

section
variable (h : Accounts da live) (L : Layout C da live) (hmode : da.mode = .request)
include h L hmode

/-- An allocating hook keeps the accounts, if what it reclaims is what it is credited with. -/
theorem Accounts.charged {gone : Block → Bool} {size credit : Nat}
    (L' : Sys.Ok C (afterAlloc H live gone size r)) (hc : Charged H da credit r)
    (hgone : ∀ p ra, r.1 = some p → da.selected = some ra → ∀ id,
      usedBy (live.filter fun b => !gone b) id +
        (if ra.mode = .gc ∧ id = ra.id then credit else 0) =
        usedBy live id) :
    Accounts (afterAlloc H live gone size r).da (afterAlloc H live gone size r).live := by
  rw [afterAlloc_da]
  rcases hc with ⟨hnone, hda⟩ | ⟨ra, ra', m, hs, hid, hm, hmode', hcur, hreq, hkeep, -, huse⟩
  · rw [afterAlloc, hnone, hda]
    exact h
  obtain ⟨hr, -⟩ := DualArena.selected_mem hs
  have hmem : ∀ {x}, x ∈ r.2.requests → x = ra' ∨ x ∈ da.requests ∧ x.id ≠ ra.id := fun hx => by
    rw [hreq] at hx
    exact hid ▸ (DualArena.mem_put ⟨ra, hr, hid.symm⟩).1 hx
  intro x hx hgc
  cases hret : r.1 with
  | none =>
    rw [afterAlloc, hret]
    rcases hmem hx with rfl | ⟨hx, -⟩
    · rw [hkeep (.inl hret), hid]
      exact h ra hr (hm.symm.trans hgc)
    · exact h x hx hgc
  | some p =>
    have hsel' := DualArena.selected_of_put hs hid hcur hreq
    have hL' := L'
    rw [Sys.Ok, afterAlloc_live hret] at hL'
    rw [afterAlloc_live hret, usedBy_cons]
    have hcredit := hgone p ra hret hs x.id
    rcases hmem hx with rfl | ⟨hx, hne⟩
    · -- the selected arena: the new block is its own
      have hold := h ra hr (hm.symm.trans hgc)
      have hlt := L.usedBy_lt ra.id
      have hlt' := hL'.usedBy_lt x.id
      rw [usedBy_cons] at hlt'
      rw [blockOf_gc (hmode'.trans hmode) hsel' hgc] at hlt' ⊢
      rw [if_pos ⟨hm.symm.trans hgc, hid⟩, hid] at hcredit
      rw [huse p hret (hm.symm.trans hgc), hold]
      simp only [hid, if_true, Nat.add_sub_cancel_left] at hlt' ⊢
      simp only [Word.add, Word.sub]
      omega
    · have hhome : (blockOf H r.2 p size).home ≠ .gc x.id := by
        obtain hb | hb := ReqMode.cases ra'.mode
        · rw [blockOf_gc (hmode'.trans hmode) hsel' hb]
          intro heq
          exact hne ((Home.gc.inj heq).symm.trans hid)
        · rw [blockOf_bump (hmode'.trans hmode) hsel' hb]
          simp
      rw [if_neg fun h => hne h.2, Nat.add_zero] at hcredit
      rw [if_neg hhome, Nat.zero_add, hcredit]
      exact h x hx hgc

theorem jdaMalloc_accounts {size : Nat}
    (hsz : SizeOk H da size)
    (hoff : Offers da ds) :
    Accounts (afterAlloc H live (fun _ => false) size (jdaMalloc H da size ds)).da
      (afterAlloc H live (fun _ => false) size (jdaMalloc H da size ds)).live :=
  h.charged L hmode (jdaMalloc_spec L hsz hoff).1 (jdaMalloc_charged (L.ready hmode) size ds)
    fun p ra _ _ id => by rw [filter_not_false, ite_self, Nat.add_zero]

theorem jdaCalloc_accounts {count size : Nat}
    (hsz : count * size < 2 ^ 64 → SizeOk H da (count * size)) (hoff : Offers da ds) :
    Accounts (afterAlloc H live (fun _ => false) (count * size) (jdaCalloc H da count size ds)).da
      (afterAlloc H live (fun _ => false) (count * size) (jdaCalloc H da count size ds)).live :=
  h.charged L hmode (jdaCalloc_spec L hsz hoff).1 (jdaCalloc_charged (L.ready hmode) count size ds)
    fun p ra _ _ id => by rw [filter_not_false, ite_self, Nat.add_zero]

end

/-- The new block is not where a block of another arena is. -/
theorem Charged.ptr_ne {credit size p : Nat} {keep : List Block}
    (hc : Charged H da credit r) (hmode : da.mode = .request) (hret : r.1 = some p)
    (L : Layout C da live) (L' : Layout C r.2 (blockOf H r.2 p size :: keep)) (hb : b ∈ live)
    (hh : b.home.id? = some id) (hid : da.cur ≠ some id) : p ≠ b.ptr := by
  rintro rfl
  rcases hc with ⟨hnone, -⟩ | ⟨ra, ra', m, hs, hra, -, hmode', hcur, hreq, -⟩
  · rw [hret] at hnone
    cases hnone
  obtain ⟨hr, hc⟩ := DualArena.selected_mem hs
  obtain ⟨rb, hrb, hrid, -, c, hcm, hw⟩ := (L.blocks b hb).in_room hh
  -- the other arena is as it was
  have hne : rb.id ≠ ra'.id := by
    rw [hrid, hra]
    exact fun h => hid (h ▸ hc)
  have hrb' : rb ∈ r.2.requests := by
    rw [hreq]
    exact (DualArena.mem_put ⟨ra, hr, hra.symm⟩).2 (.inr ⟨hrb, hne⟩)
  have hsel' := DualArena.selected_of_put hs hra hcur hreq
  have hhome := blockOf_id (H := H) (hmode'.trans hmode) hsel' b.ptr size
  have hnew := L'.blocks _ List.mem_cons_self
  obtain ⟨rn, hrn, hrnid, -, d, hd, hwd⟩ := hnew.in_room hhome
  have hcross := L'.geo.cross rb hrb' rn hrn (hrnid ▸ hne) c hcm d hd
  have hpb := (L.blocks b hb).has_pred.2
  have hpn := hnew.has_pred.2
  rw [blockOf_ptr] at hpn
  refine (hcross.mono (hw.trans (rb.room_within c)) (hwd.trans (rn.room_within d))).not_has hpb hpn

/-- `jda_realloc` of a live block keeps the accounts. -/
theorem jdaRealloc_accounts {size : Nat} (h : Accounts da live)
    (L : Layout C da live) (hmode : da.mode = .request) (hb : b ∈ live) (hsz : SizeOk H da size)
    (hoff : Offers da ds) :
    Accounts (afterAlloc H live (reallocGone da b.ptr (jdaRealloc H da (some b.ptr) size ds).1) size
        (jdaRealloc H da (some b.ptr) size ds)).da
      (afterAlloc H live (reallocGone da b.ptr (jdaRealloc H da (some b.ptr) size ds).1) size
        (jdaRealloc H da (some b.ptr) size ds)).live := by
  have L' := (jdaRealloc_spec L hb hsz hoff).ok
  have hc := jdaRealloc_charged (H := H) (L.ready hmode) b.ptr size ds
  refine h.charged L hmode L' hc fun p ra hret hs id => ?_
  obtain ⟨hr, hcur⟩ := DualArena.selected_mem hs
  rw [Sys.Ok, afterAlloc_live hret, afterAlloc_da] at L'
  -- what is gone is the old block
  have hgone : ∀ c ∈ live, reallocGone da b.ptr (jdaRealloc H da (some b.ptr) size ds).1 c = true →
      c = b := fun c hc hg => L.eq_of_ptr hc hb (of_decide_eq_true hg).1
  by_cases hown : b.home = .gc ra.id
  · obtain ⟨rb, hrb, hrid, hm, -⟩ := (L.blocks b hb).in_room
      (show b.home.id? = some ra.id by rw [hown]; rfl)
    obtain rfl := L.geo.eq_of_id hrb hr hrid
    have hgc : rb.mode = .gc := (ReqMode.cases rb.mode).resolve_right fun hbump => by
      rw [hm.1 hbump] at hown
      cases hown
    have howner := L.owner_eq hb hr (by rw [hown]; rfl)
    by_cases hid : id = rb.id
    · subst hid
      rw [if_pos ⟨hgc, rfl⟩]
      have hcredit : reallocCredit H da b.ptr = b.hi - b.ptr := by
        simp only [reallocCredit, hs, howner, Option.map_some, hgc, and_self, if_true, reqPtrSize]
        exact L.usable hmode hr hgc hb hown
      rw [hcredit]
      refine usedBy_remove hb L.nodup hown fun c hcl _ => ?_
      rw [Bool.not_eq_true', Bool.eq_false_iff]
      refine ⟨fun hn heq => hn ?_, fun hne hg => hne (hgone c hcl hg)⟩
      subst heq
      exact decide_eq_true ⟨rfl, .inr (by rw [hcur, hown]; rfl)⟩
    · rw [if_neg fun h => hid h.2, Nat.add_zero]
      refine usedBy_filter fun c hcl hch => ?_
      rw [Bool.not_eq_true', Bool.eq_false_iff]
      intro hg
      rw [hgone c hcl hg, hown] at hch
      exact hid (Home.gc.inj hch).symm
  · -- no mspace block is gone, and nothing is credited
    have hcredit : (if ra.mode = .gc ∧ id = ra.id then reallocCredit H da b.ptr else 0) = 0 := by
      split
      · next hg =>
        simp only [reallocCredit, hs]
        rw [if_neg]
        rintro ⟨-, ho⟩
        exact hown ((L.owner_iff hb hr hg.1).1 ho)
      · rfl
    rw [hcredit, Nat.add_zero]
    refine usedBy_filter fun c hcl hch => ?_
    rw [Bool.not_eq_true', Bool.eq_false_iff]
    intro hg
    obtain rfl := hgone c hcl hg
    rcases (of_decide_eq_true hg).2 with hp | hp
    · refine hc.ptr_ne hmode hret L L' hb (by rw [hch]; rfl) ?_
        (Option.some.inj (hret.symm.trans hp))
      rw [hcur]
      rintro ⟨⟩
      exact hown hch
    · rw [hcur] at hp
      exact hown (Option.some.inj hp).symm

/-- `jda_free` of a live block keeps the accounts. -/
theorem jdaFree_accounts (h : Accounts da live) (L : Layout C da live) {ptr : Option Nat}
    (hp : LivePtr live ptr) : Accounts (jdaFree H da ptr) (freed live ptr) := by
  cases ptr with
  | none =>
    rw [freed_eq_self fun c _ h => absurd h (by simp)]
    exact h
  | some p =>
    obtain ⟨b, hb, rfl⟩ := hp p rfl
    by_cases hgc : ∃ id, b.home = .gc id
    · obtain ⟨id, hh⟩ := hgc
      have hs := (L.blocks b hb).housed
      simp only [Housed, hh] at hs
      obtain ⟨hmode, ra, hr, rfl, hm, -⟩ := hs
      obtain ⟨st, hst⟩ := Option.isSome_iff_exists.1 ((L.ready hmode).msp ra hr hm)
      have hle := h.usable_le L hmode hr hm hb hh
      have hlt : ra.used < 2 ^ 64 := h ra hr hm ▸ L.usedBy_lt ra.id
      have hkeep : ∀ c ∈ live, (!(decide (some c.ptr = some b.ptr) && c.home.isGc)) = true ↔
          ¬ (c.ptr = b.ptr ∧ c.home.isGc = true) := fun c _ => by
        rw [Bool.not_eq_true', Bool.and_eq_false_imp, decide_eq_true_eq, Option.some.injEq, not_and,
          Bool.not_eq_true]
      rw [jdaFree_gc hmode (L.owner_eq hb hr (by rw [hh]; rfl)) hm hst]
      intro x hx hxgc
      have hex : ∃ r0 ∈ da.requests, r0.id = ra.id := ⟨ra, hr, rfl⟩
      rcases (DualArena.mem_put (by exact hex)).1 hx with rfl | ⟨hx, hne⟩
      · show Word.sub ra.used (msUsable H ra b.ptr) = usedBy (freed live (some b.ptr)) ra.id
        have hrem : usedBy (freed live (some b.ptr)) ra.id + (b.hi - b.ptr) =
          usedBy live ra.id := by
          refine usedBy_remove hb L.nodup hh fun c hc hch => (hkeep c hc).trans ?_
          rw [hch]
          exact ⟨fun hn heq => hn ⟨by rw [heq], rfl⟩, fun hn hg => hn (L.eq_of_ptr hc hb hg.1)⟩
        rw [Word.sub_eq hlt hle, h ra hr hm, L.usable hmode hr hm hb hh]
        omega
      · rw [h x hx hxgc]
        refine (usedBy_filter fun c hc hch => (hkeep c hc).2 fun hg => hne ?_).symm
        rw [L.eq_of_ptr hc hb hg.1, hh] at hch
        exact (Home.gc.inj hch).symm
    · have hbase : b.home.isGc = false := by
        cases hh : b.home with
        | gc id => exact absurd ⟨id, hh⟩ hgc
        | base | bump => rfl
      rw [jdaFree_noop L hb hbase, freed_eq_self fun c hc hcp => ?_]
      · exact h
      · rw [L.eq_of_ptr hc hb (Option.some.inj hcp)]
        exact hbase

/-! ## The bump allocator's counter -/

theorem reqBumpAlloc_bumpUsed {m : Mem} {p : Nat} (h : (reqBumpAlloc H ra m size ds).1 = some p) :
    (reqBumpAlloc H ra m size ds).2.1.bumpUsed =
      Word.add ra.bumpUsed (Word.alignUp arenaAlign size) := by
  have hroom := reqBumpRoom_keeps (H := H) ra
    (Word.add arenaHeaderSize (Word.alignUp arenaAlign size)) ds
  unfold reqBumpAlloc at h ⊢
  simp only at h ⊢
  split at h
  · cases h
  · next hz =>
    rw [if_neg hz]
    split at h
    · cases h
    · next he =>
      rw [he] at hroom
      rw [← hroom.bumpUsed rfl]

/-- A reallocation of the block at `ptr` charges the bump-mode arena `ra` with the rounded size,
less that of the old block where that is resized in place. -/
def BumpCharged (da : DualArena σ) (ra : RequestArena σ) (ptr size : Nat)
    (r : Option Nat × DualArena σ) : Prop :=
  ∀ p, r.1 = some p → ∃ ra' m, r.2 = da.put ra' m ∧ ra'.id = ra.id ∧
    Word.add ra'.bumpUsed (if p = ptr then ra.lastAllocAligned else 0) =
      Word.add ra.bumpUsed (Word.alignUp arenaAlign size)

section
variable (L : Layout C da live) (hmode : da.mode = .request) (hb : b ∈ live)
  (hs : da.selected = some ra) (hm : ra.mode = .bump) (hsz : SizeOk H da size) (hoff : Offers da ds)
include L hmode hb hs hm hsz hoff

/-- The reallocation that copies. -/
theorem reqBumpReallocCopy_charged (old : Nat) : BumpCharged da ra b.ptr size
    (bumpResult da size (reqBumpReallocCopy H ra da.mem b.ptr size old ds)) := by
  intro q hq
  have hk := reqBumpAlloc_keeps (H := H) ra da.mem size ds
  have hu := @reqBumpAlloc_bumpUsed _ H ra ds size da.mem
  obtain ⟨hok, -⟩ := jdaMalloc_spec L hsz hoff
  rw [jdaMalloc_bump hmode hs hm] at hok
  rw [bumpResult_copy] at hq ⊢
  generalize reqBumpAlloc H ra da.mem size ds = r at hk hu hok hq ⊢
  obtain ⟨_ | p', ra', m⟩ := r
  · cases hq
  · cases hq
    -- the new block is apart from the old one
    have hne : q ≠ b.ptr := blockOf_ptr (H := H) _ q size ▸ hok.cons.ptr_ne_of_cons hb
    refine ⟨ra', _, rfl, hk.id, ?_⟩
    rw [if_neg hne, hu rfl]
    simp [Word.add]

theorem jdaRealloc_bumpUsed : BumpCharged da ra b.ptr size
    (jdaRealloc H da (some b.ptr) size ds) := by
  intro p hret
  have hz : 0 < size := Nat.pos_of_ne_zero fun hz => by
    rw [jdaRealloc_refused hmode (.inl hz)] at hret
    cases hret
  obtain ⟨hr, -⟩ := DualArena.selected_mem hs
  obtain ⟨c, hc⟩ := L.bumpOk hmode hr hm
  rw [jdaRealloc_bump hz hmode hs hm] at hret ⊢
  generalize reqPtrSize H da (da.ptrRequestOwner b.ptr) b.ptr = old at hret ⊢
  have hcopy := reqBumpReallocCopy_charged L hmode hb hs hm hsz hoff old
  unfold reqBumpRealloc at hret ⊢
  simp only at hret ⊢
  by_cases hlast : ra.lastAllocPtr = some b.ptr
  · have hlt := hc.last_lt (L.geo.ra ra hr) hlast
    have hal := Word.alignUp_lt arenaAlign size
    rw [if_pos hlast] at hret ⊢
    by_cases hle : Word.alignUp arenaAlign size ≤ ra.lastAllocAligned
    · rw [if_pos hle] at hret ⊢
      cases hret
      refine ⟨_, _, rfl, rfl, ?_⟩
      simp only [if_true, Word.add, Word.sub]
      omega
    · rw [if_neg hle] at hret ⊢
      split at hret
      · next hfit =>
        rw [if_pos hfit]
        cases hret
        refine ⟨_, _, rfl, rfl, ?_⟩
        simp only [if_true, Word.add]
        omega
      · next hfit =>
        rw [if_neg hfit]
        exact hcopy p hret
  · rw [if_neg hlast] at hret ⊢
    exact hcopy p hret

end

/-! ## Arenas come and go -/

/-- An arena whose allocator was just set up has no live bytes. -/
theorem requestModeApply_used (ra : RequestArena σ) (m : Mem) :
    (requestModeApply H ra m).1.mode = .gc → (requestModeApply H ra m).1.used = 0 := by
  unfold requestModeApply
  split
  · exact fun _ => rfl
  · nofun

theorem requestArenaReset_id (mode : ArenaMode) (ra : RequestArena σ) (m : Mem) :
    (requestArenaReset H mode ra m).1.id = ra.id := by
  have hrel : (reqReleaseExtents ra).id = ra.id := by
    unfold reqReleaseExtents
    split <;> rfl
  cases mode with
  | base => exact hrel
  | request =>
    simp only [requestArenaReset, requestModeApply]
    split <;> exact hrel

theorem requestArenaReset_used (ra : RequestArena σ) (m : Mem) :
    (requestArenaReset H .request ra m).1.mode = .gc →
      (requestArenaReset H .request ra m).1.used = 0 :=
  requestModeApply_used (H := H) (reqReleaseExtents ra) m

/-- The blocks of one arena are gone. -/
theorem usedBy_others {x : ReqId} (hx : x ≠ id) :
    usedBy (live.filter fun b => b.home.id? ≠ some id) x = usedBy live x :=
  usedBy_filter fun b _ hh => by
    rw [hh]
    simpa [Home.id?] using hx

theorem usedBy_others_self :
    usedBy (live.filter fun b => b.home.id? ≠ some id) id = 0 :=
  usedBy_eq_zero fun b hb hh => (mem_others.1 hb).2 (by rw [hh]; rfl)

end

/-- Every action on a frozen dual arena keeps the accounts. -/
theorem Sys.accounts_exec {H : Host σ} {C : H.ms.Contract} {S : Sys σ} {act : Act}
    (h : Accounts S.da S.live) (L : S.Ok C) (hmode : S.da.mode = .request) (hok : act.Ok H S) :
    Accounts (exec H S act).2.da (exec H S act).2.live := by
  cases act with
  | malloc size ds => exact jdaMalloc_accounts h L hmode hok.1 hok.2
  | calloc count size ds => exact jdaCalloc_accounts h L hmode hok.1 hok.2
  | realloc ptr size ds =>
    obtain ⟨hsz, hoff, hp⟩ := hok
    cases ptr with
    | none =>
      simp only [exec, jdaRealloc_null hmode]
      exact jdaMalloc_accounts h L hmode hsz hoff
    | some p =>
      obtain ⟨b, hb, rfl⟩ := hp p rfl
      exact jdaRealloc_accounts h L hmode hb hsz hoff
  | free ptr => exact jdaFree_accounts h L hok
  | store addr byte => exact h
  | newRequest id cap ds =>
    obtain ⟨hid, hoff, hf⟩ := hok
    simp only [exec, jsRequestArenaNew, hmode]
    split
    · exact h
    · next ra m hnew =>
      intro x hx hgc
      rcases List.mem_cons.1 hx with rfl | hx
      · obtain ⟨hxid, hused, -⟩ := requestArenaNew_record hnew
        rw [hused, hxid]
        refine (usedBy_eq_zero fun b hb hh => L.home_ne hid hb ?_).symm
        rw [hh]
        rfl
      · exact h x hx hgc
  | freeRequest id =>
    intro x hx hgc
    have hx' : x ∈ S.da.requests ∧ x.id ≠ id := by
      simp only [exec, jsRequestArenaFree] at hx
      split at hx <;> simpa using hx
    exact (h x hx'.1 hgc).trans (usedBy_others hx'.2).symm
  | select id => exact h
  | setMode mode =>
    simp only [exec, setRequestMode]
    split
    · exact h
    · next ra hs =>
      obtain ⟨hr, -⟩ := DualArena.selected_mem hs
      intro x hx hgc
      have hex : ∃ r0 ∈ S.da.requests, r0.id = ra.id := ⟨ra, hr, rfl⟩
      rcases (DualArena.mem_put (by exact hex)).1 hx with rfl | ⟨hx, -⟩
      · exact h ra hr hgc
      · exact h x hx hgc
  | reset id =>
    obtain ⟨ra, hr, rfl⟩ := hok
    simp only [exec, jsRequestArenaReset, L.geo.find hr, hmode]
    intro x hx hgc
    have hid : (requestArenaReset H .request ra S.da.mem).1.id = ra.id := requestArenaReset_id ..
    rcases (DualArena.mem_put ⟨ra, hr, hid.symm⟩).1 hx with rfl | ⟨hx, hne⟩
    · rw [requestArenaReset_used ra _ hgc, hid, usedBy_others_self]
    · exact (h x hx hgc).trans (usedBy_others (hid ▸ hne)).symm
  | freeze => cases hmode.symm.trans hok

/-! ## Runs -/

section
variable {H : Host σ} {da : DualArena σ} {S : Sys σ} {act : Act}

@[simp] theorem bumpResult_mode (n : Nat) (r : Option Nat × RequestArena σ × Mem) :
    (bumpResult da n r).2.mode = da.mode := by
  obtain ⟨_ | _, ra, m⟩ := r <;> rfl

@[simp] theorem msResult_mode (n credit : Nat) (r : Option Nat × RequestArena σ × Mem) :
    (msResult H da n credit r).2.mode = da.mode := by
  obtain ⟨_ | _, ra, m⟩ := r <;> rfl

theorem jdaMalloc_mode (size : Nat) (ds : List Decision) :
    (jdaMalloc H da size ds).2.mode = da.mode := by
  unfold jdaMalloc
  repeat' split
  all_goals first | rfl | simp [park]

theorem jdaCalloc_mode (count size : Nat) (ds : List Decision) :
    (jdaCalloc H da count size ds).2.mode = da.mode := by
  simp only [jdaCalloc]
  repeat' split
  all_goals first | rfl | simp [park]

theorem jdaRealloc_mode (ptr : Option Nat) (size : Nat) (ds : List Decision) :
    (jdaRealloc H da ptr size ds).2.mode = da.mode := by
  simp only [jdaRealloc]
  repeat' split
  all_goals first | rfl | simp [park, jdaMalloc_mode]

theorem jdaFree_mode (ptr : Option Nat) : (jdaFree H da ptr).mode = da.mode := by
  unfold jdaFree
  repeat' split
  all_goals rfl

/-- Only the freeze changes the mode. -/
theorem exec_mode (hact : act ≠ .freeze) : (exec H S act).2.da.mode = S.da.mode := by
  cases act with
  | malloc size ds => simp [exec, afterAlloc_da, jdaMalloc_mode]
  | calloc count size ds => simp [exec, afterAlloc_da, jdaCalloc_mode]
  | realloc ptr size ds => cases ptr <;> simp [exec, afterAlloc_da, jdaRealloc_mode]
  | free ptr => exact jdaFree_mode ptr
  | store | select => rfl
  | newRequest id cap ds =>
    simp only [exec, jsRequestArenaNew]
    split <;> rfl
  | freeRequest id =>
    simp only [exec, jsRequestArenaFree]
    split <;> rfl
  | setMode mode =>
    simp only [exec, setRequestMode]
    split <;> rfl
  | reset id =>
    simp only [exec, jsRequestArenaReset]
    split <;> rfl
  | freeze => exact absurd rfl hact

theorem applyModes_used : ∀ (ras : List (RequestArena σ)) (m : Mem),
    ∀ ra ∈ (applyModes H ras m).1, ra.mode = .gc → ra.used = 0
  | [], _, _, hr => nomatch hr
  | r :: ras, m, ra, hr => by
    rcases List.mem_cons.1 hr with rfl | hr
    · exact requestModeApply_used r m
    · exact applyModes_used ras _ ra hr

/-- A new dual arena is not frozen. -/
theorem dualArenaNew2_mode {m : Mem} {baseSize cap : Nat} {map : Option Nat} {id : ReqId}
    {ds : List Decision} (h : dualArenaNew2 H m baseSize map id cap ds = some da) :
    da.mode = .base := by
  simp only [dualArenaNew2, jsRequestArenaNew] at h
  split at h
  · cases h
  · split at h
    · cases h
    · next heq =>
      split at heq
      · cases heq
      · cases heq
        cases h
        rfl

/-- Every run of a dual arena has its accounts in order from the freeze on. -/
theorem Reach.accounts (C : H.ms.Contract) (h : Reach H S) (hm : S.da.mode = .request) :
    Accounts S.da S.live := by
  induction h with
  | init hi hnew =>
    rw [dualArenaNew2_mode hnew] at hm
    cases hm
  | @step S act hS hok ih =>
    obtain hbase | hreq := ArenaMode.cases S.da.mode
    · by_cases hact : act = .freeze
      · subst hact
        intro ra hr hgc
        rw [applyModes_used S.da.requests S.da.mem ra hr hgc]
        refine (usedBy_eq_zero fun b hb hh => ?_).symm
        rw [((hS.layout C).blocks b hb).home_of_base hbase] at hh
        cases hh
      · rw [exec_mode hact, hbase] at hm
        cases hm
    · exact Sys.accounts_exec (ih hreq) (hS.layout C) hreq hok

end
end ArenaJs
