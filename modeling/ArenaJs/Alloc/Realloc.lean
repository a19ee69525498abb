import ArenaJs.Alloc.Hooks

/-!
# `jda_realloc` and `jda_free` keep the layout

A reallocation resizes the last block of a bump region in place, asks the mspace that owns the
block, or copies it into a fresh one. In every case the first `min (old, new)` bytes survive
(`jdaRealloc_spec`).
-/

namespace ArenaJs

section
variable {σ : Type} {H : Host σ} {C : H.ms.Contract} {da : DualArena σ} {live : List Block}
  {ra : RequestArena σ} {ds : List Decision} {b : Block} {size : Nat}

/-- The outcome `r` of reallocating the block `b` keeps the layout and the first bytes. After the
freeze a base block moves out of the base, which is not written. A call that fails leaves the block
alone. -/
structure Reallocated (C : H.ms.Contract) (da : DualArena σ) (live : List Block) (b : Block)
    (size : Nat) (r : Option Nat × DualArena σ) : Prop where
  ok : Sys.Ok C (afterAlloc H live (reallocGone da b.ptr r.1) size r)
  keeps : ∀ p, r.1 = some p → ∀ i, i < b.size → i < size → r.2.mem (p + i) = da.mem (b.ptr + i)
  moves : b.home = .base → da.mode = .request → MovesOut da size r
  failed : r.1 = none → ∀ x, b.ptr ≤ x → x < b.hi → r.2.mem x = da.mem x

/-- The old block stays where it is. -/
theorem filter_kept {da : DualArena σ} {p : Nat} (hne : p ≠ b.ptr)
    (hh : ∀ c ∈ live, c.ptr = b.ptr → da.cur.map Home.gc ≠ some c.home) :
    (live.filter fun c => !reallocGone da b.ptr (some p) c) = live := by
  refine List.filter_eq_self.2 fun c hc => ?_
  simp only [reallocGone, Option.some.injEq, Bool.not_eq_true', decide_eq_false_iff_not]
  rintro ⟨h, h' | h'⟩
  exacts [hne h', hh c hc h h']

/-- The old block is gone. -/
theorem mem_filter_gone {da : DualArena σ} {p : Nat} {c : Block}
    (hh : c ∈ live → c.ptr = b.ptr → p = b.ptr ∨ da.cur.map Home.gc = some c.home) :
    c ∈ (live.filter fun c => !reallocGone da b.ptr (some p) c) ↔ c ∈ live ∧ c.ptr ≠ b.ptr := by
  simp only [List.mem_filter, reallocGone, Option.some.injEq, Bool.not_eq_true',
    decide_eq_false_iff_not, not_and]
  constructor
  · rintro ⟨hc, hg⟩
    exact ⟨hc, fun h => hg h (hh hc h)⟩
  · rintro ⟨hc, hne⟩
    exact ⟨hc, fun h => absurd h hne⟩

/-! ## Copies -/

theorem copyFrom_of_notMem {ptr old p x : Nat} {m : Mem} (h : x < p ∨ p + size ≤ x) :
    copyFrom ptr old size p m x = m x := by
  refine Mem.memcpy_of_notMem ?_
  split <;> omega

section
variable (L : Layout C da live) (hb : b ∈ live)
include L hb

/-- A block that is not in the selected mspace, copied to a block of `jda_malloc`. -/
theorem jdaMalloc_copied (hsz : SizeOk H da size) (hoff : Offers da ds)
    (hh : da.cur.map Home.gc ≠ some b.home) {old : Nat} (hold : b.size ≤ old) :
    Reallocated C da live b size
      (fillBlock (copyFrom b.ptr old size) (jdaMalloc H da size ds)) := by
  have hsle := (L.blocks b hb).size_le
  obtain ⟨hok, hs⟩ := jdaMalloc_spec L hsz hoff
  generalize jdaMalloc H da size ds = r at hok hs
  obtain ⟨_ | p, da'⟩ := r
  · exact ⟨hok, nofun, fun _ hm => hs.moves hm, fun _ => hs.bytes b hb⟩
  have hne : p ≠ b.ptr := blockOf_ptr (H := H) da' p size ▸ hok.cons.ptr_ne_of_cons hb
  refine ⟨hok.fill (fun _ _ _ => copyFrom_of_notMem) fun _ _ =>
    filter_kept hne fun c hc hp => ?_, ?_,
    fun _ hm => ?_, nofun⟩
  · rw [L.eq_of_ptr hc hb hp]
    exact hh
  · rintro _ ⟨⟩ i hi hi'
    refine (Mem.memcpy_of_mem ?_).trans (hs.bytes b hb _ (by omega) (by omega))
    split <;> omega
  · obtain ⟨hbase, hmem, hplace⟩ := hs.moves hm
    obtain ⟨ra, hr, c, hc, hw⟩ := hplace p rfl
    refine ⟨hbase, fun x hx => (copyFrom_of_notMem ?_).trans (hmem x hx), hplace⟩
    have hout := (hok.cons.geo.base ra hr c hc).not_has (hbase ▸ hx)
    simp only [Span.Has, Span.Within] at hout hw
    omega

/-! ## Base -/

/-- Reallocation before the freeze. -/
theorem jdaRealloc_spec_base (hmode : da.mode = .base) (hsz : SizeOk H da size)
    (hoff : Offers da ds) :
    Reallocated C da live b size (jdaRealloc H da (some b.ptr) size ds) := by
  have hok := L.blocks b hb
  have hh := hok.home_of_base hmode
  have hlo := hok.lo_add
  have hin := (hok.in_base L.base hh).1
  have hfit := hsz
  simp only [SizeOk, hmode] at hfit
  rcases arenaRealloc_cases L.base (p := b.ptr) hfit with ⟨a', m', he, hlast, hblk⟩ | he
  · rw [jdaRealloc_base hmode, he]
    refine ⟨(L.baseResize hmode hlast hblk (List.filter_sublist) ?_).afterBase hmode rfl, ?_,
      fun _ h => absurd (hmode.symm.trans h) (by simp), by rintro ⟨⟩⟩
    · intro c hc
      exact ((mem_filter_gone fun _ _ => .inl rfl).1 hc).2
    · rintro _ ⟨⟩ i - -
      exact hblk.frame _ (by omega) (by omega)
  · rw [jdaRealloc_base_copy hmode he]
    refine jdaMalloc_copied L hb hsz hoff ?_ ?_
    · rw [hh]
      cases da.cur <;> simp
    · have hs := hok.housed
      simp only [Housed, hh] at hs
      exact hs.2.ge

/-! ## Bump mode -/

/-- A live block that ends where the bump allocator's last block starts is that block. -/
theorem Layout.last_own (hr : ra ∈ da.requests)
    {c : ReqChunk} (hcur : BumpOk ra c) (hlast : ra.lastAllocPtr = some b.ptr) :
    b.home.id? = some ra.id := by
  by_contra hne
  have hok := L.blocks b hb
  have hl : (ra.region c).last = some (b.ptr, ra.lastAllocAligned) := by
    simp [RequestArena.region, hlast]
  obtain ⟨hp, htop⟩ := hcur.region.last_top _ _ hl
  have hle := hcur.region.top_le
  have hroom := (ra.room_within c).1
  simp only [RequestArena.region, ReqChunk.span] at hp htop hle hroom
  refine (hok.other_disjoint L.geo L.base hr hne hcur.mem).not_has hok.has_pred.2 ⟨?_, ?_⟩ <;>
    simp only [ReqChunk.span] <;> omega

/-- The size `jda_realloc` reads for a block covers the bytes asked for. -/
theorem Layout.size_le_reqPtrSize
    (hmode : da.mode = .request) : b.size ≤ reqPtrSize H da (da.ptrRequestOwner b.ptr) b.ptr := by
  have hok := L.blocks b hb
  have hs := hok.housed
  cases hh : b.home with
  | base =>
    simp only [Housed, hh] at hs
    rw [L.owner_base hb hh]
    exact hs.2.ge
  | bump id =>
    simp only [Housed, hh] at hs
    obtain ⟨-, hsz, rb, hrb, hrid, hmb, -⟩ := hs
    rw [L.owner_eq hb hrb (by rw [hh, ← hrid]; rfl)]
    simp only [reqPtrSize, hmb, reduceCtorEq, if_false]
    exact hsz.ge
  | gc id =>
    simp only [Housed, hh] at hs
    obtain ⟨-, rb, hrb, hrid, hmb, -⟩ := hs
    rw [L.owner_eq hb hrb (by rw [hh, ← hrid]; rfl)]
    have harena := L.arenas hmode rb hrb
    simp only [ArenaOk, hmb] at harena
    obtain ⟨⟨st, hst, hInv⟩, -⟩ := harena
    have hmem : (toView rb.headBuf b.ptr, b.hi - b.ptr) ∈ gcBlocks live rb :=
      ⟨b, hb, by rw [hh, hrid], rfl⟩
    simp only [reqPtrSize, hmb, if_true]
    rw [msUsable_eq hst hInv hmem rfl]
    have := hok.size_le
    omega

/-- Reallocation with a bump-mode arena selected. -/
theorem jdaRealloc_spec_bump (hmode : da.mode = .request)
    (hsel : da.selected = some ra) (hm : ra.mode = .bump) (hz : 0 < size)
    (hsz : SizeOk H da size) (hoff : Offers da ds) :
    Reallocated C da live b size (jdaRealloc H da (some b.ptr) size ds) := by
  obtain ⟨hr, hcur⟩ := DualArena.selected_mem hsel
  obtain ⟨c, hc⟩ := L.bumpOk hmode hr hm
  have hold := L.size_le_reqPtrSize hb hmode
  have hfit := hsz
  simp only [SizeOk, hmode, hsel, hm] at hfit
  rw [jdaRealloc_bump hz hmode hsel hm]
  rcases reqBumpRealloc_cases (m := da.mem) b.ptr
    (reqPtrSize H da (da.ptrRequestOwner b.ptr) b.ptr) ds
    (L.geo.ra ra hr) hc hz hfit with ⟨ra', m', he, hlast, hfit, hblk⟩ | he
  · rw [he]
    refine ⟨(L.bumpResize hmode hr hm hoff hc hlast hfit hblk List.filter_sublist ?_ ?_).afterBump
      hmode hsel hblk.same.id_eq (hblk.same.mode_eq.trans hm) rfl, ?_, fun hh _ => ?_, by rintro ⟨⟩⟩
    · intro d hd hne
      refine (mem_filter_gone fun _ _ => .inl rfl).2 ⟨hd, fun hp => hne ?_⟩
      exact L.last_own hd hr hc (hp ▸ hlast)
    · intro d hd
      exact ((mem_filter_gone fun _ _ => .inl rfl).1 hd).2
    · rintro _ ⟨⟩ i - -
      exact hblk.frame _ (by omega)
    · have := L.last_own hb hr hc hlast
      rw [hh] at this
      cases this
  · rw [he, bumpResult_copy, ← jdaMalloc_bump hmode hsel hm]
    refine jdaMalloc_copied L hb hsz hoff (fun hh => ?_) hold
    rw [hcur] at hh
    have hid : b.home.id? = some ra.id := by rw [← Option.some.inj hh]; rfl
    rw [L.home_bump hr hm hb hid] at hh
    cases hh

/-! ## GC mode -/

/-- The owner of a block is the selected arena exactly when the block is in its mspace. -/
theorem Layout.owner_iff (hr : ra ∈ da.requests)
    (hgc : ra.mode = .gc) :
    (da.ptrRequestOwner b.ptr).map RequestArena.id = some ra.id ↔ b.home = .gc ra.id := by
  constructor
  · intro h
    cases hid : b.home.id? with
    | none =>
      have hh : b.home = .base := by cases hbh : b.home <;> simp [hbh, Home.id?] at hid ⊢
      rw [L.owner_base hb hh] at h
      cases h
    | some id =>
      obtain ⟨rb, hrb, hrid, -⟩ := (L.blocks b hb).in_room hid
      rw [L.owner_eq hb hrb (by rw [hid, hrid])] at h
      have hrr : rb.id = ra.id := Option.some.inj h
      exact L.home_gc hr hgc hb (by rw [hid, ← hrid, hrr])
  · intro h
    rw [L.owner_eq hb hr (by rw [h]; rfl)]
    rfl

section
variable (hmode : da.mode = .request) (hsel : da.selected = some ra) (hm : ra.mode = .gc)
  (hz : 0 < size) (hoff : Offers da ds)
include hmode hsel hm hz hoff

/-- Reallocation of a block of the selected mspace. -/
theorem jdaRealloc_spec_gc
    (hh : b.home = .gc ra.id) :
    Reallocated C da live b size (jdaRealloc H da (some b.ptr) size ds) := by
  obtain ⟨hr, hcur⟩ := DualArena.selected_mem hsel
  have hg := L.geo.ra ra hr
  have hok := L.blocks b hb
  have hmem : (toView ra.headBuf b.ptr, b.hi - b.ptr) ∈ gcBlocks live ra := ⟨b, hb, hh, rfl⟩
  obtain ⟨st, hst, cs, ra1, ret, st', eff, R, hrun, hQ⟩ :=
    L.msCall hmode hsel hm hoff
      fun st brk h => C.realloc (toView ra.headBuf b.ptr) (b.hi - b.ptr) size brk h hmem
  rw [jdaRealloc_gc hz hmode hsel hm hst ((L.owner_iff hb hr hm).2 hh), hrun]
  have hbase : ∀ {p : Prop}, b.home = .base → da.mode = .request → p := fun h =>
    absurd (hh.symm.trans h) nofun
  cases ret with
  | none => exact ⟨L.msRefused R hQ.1 hQ.2 _, nofun, hbase, fun _ x => L.ms_bytes R hQ.1 hb⟩
  | some v =>
    -- every block at the old pointer is the old block, and it is gone
    have hgone : ∀ c, c ∈ (live.filter fun c =>
        !reallocGone da b.ptr (some (ofView ra.headBuf v)) c) ↔ c ∈ live ∧ c.ptr ≠ b.ptr := by
      intro c
      refine mem_filter_gone fun hc hp => .inr ?_
      rw [L.eq_of_ptr hc hb hp, hh, hcur]
      rfl
    have hkeep : gcBlocks (live.filter fun c =>
        !reallocGone da b.ptr (some (ofView ra.headBuf v)) c) ra =
        msRemove (gcBlocks live ra) (toView ra.headBuf b.ptr) :=
      gcBlocks_remove hg fun c _ => hgone c
    obtain ⟨hframe, ⟨u, hu, hfresh, hInv⟩, hcopy⟩ := hQ
    rw [← hkeep] at hframe hInv
    refine ⟨L.msBranch R _ List.filter_sublist ?_ hframe hu (by rw [hkeep]; exact hfresh)
      hInv rfl, ?_,
      hbase, nofun⟩
    · intro c hc hne
      refine (hgone c).2 ⟨hc, fun hp => hne ?_⟩
      rw [L.eq_of_ptr hc hb hp, hh]
      rfl
    · intro p hp i hi hi'
      obtain rfl := Option.some.inj hp
      obtain ⟨hhpos, -, hhle⟩ := hg.headBuf_lt
      have hback := R.back hInv (Set.mem_insert _ _)
      have hsle := hok.size_le
      show eff _ (toView ra.headBuf (ofView ra.headBuf v + i)) = _
      rw [toView_add hg hback i, hcopy _ i (by omega) hi', ← toView_add hg rfl i,
        ofView_toView (by omega)]

end

/-- `jda_realloc` of a live block keeps the layout and the bytes. -/
theorem jdaRealloc_spec (hsz : SizeOk H da size)
    (hoff : Offers da ds) :
    Reallocated C da live b size (jdaRealloc H da (some b.ptr) size ds) := by
  rcases ArenaMode.cases da.mode with hmode | hmode
  · exact jdaRealloc_spec_base L hb hmode hsz hoff
  by_cases hbad : size = 0 ∨ da.selected = none
  · rw [jdaRealloc_refused hmode hbad]
    exact ⟨L, nofun, fun _ _ => ⟨rfl, fun _ _ => rfl, nofun⟩, fun _ _ _ _ => rfl⟩
  obtain ⟨ra, hsel⟩ := Option.ne_none_iff_exists'.1 fun h => hbad (.inr h)
  obtain ⟨hr, hcur⟩ := DualArena.selected_mem hsel
  have hz : 0 < size := by omega
  cases hm : ra.mode with
  | bump => exact jdaRealloc_spec_bump L hb hmode hsel hm hz hsz hoff
  | gc =>
    by_cases hh : b.home = .gc ra.id
    · exact jdaRealloc_spec_gc L hb hmode hsel hm hz hoff hh
    · rw [jdaRealloc_copy hz hmode hsel (fun h => absurd (hm.symm.trans h) nofun) fun _ h =>
        hh ((L.owner_iff hb hr hm).1 h)]
      refine jdaMalloc_copied L hb hsz hoff ?_ (L.size_le_reqPtrSize hb hmode)
      rw [hcur]
      exact fun h => hh (Option.some.inj h).symm

end

/-- `jda_realloc` of NULL is `jda_malloc`. -/
theorem jdaRealloc_null_spec (L : Layout C da live) (hsz : SizeOk H da size) (hoff : Offers da ds) :
    Sys.Ok C (afterAlloc H live (fun _ => false) size (jdaRealloc H da none size ds)) := by
  have he : jdaRealloc H da none size ds = jdaMalloc H da size ds := by
    rcases ArenaMode.cases da.mode with hmode | hmode
    · rw [jdaRealloc_base hmode, jdaMalloc_base hmode]
      rfl
    · exact jdaRealloc_null hmode
  rw [he]
  exact (jdaMalloc_spec L hsz hoff).1

/-! ## Free -/

theorem Offers.nil (da : DualArena σ) : Offers da [] :=
  ⟨fun _ _ => ⟨nofun, nofun, .nil⟩, nofun, fun _ _ _ => ⟨nofun, nofun, .nil⟩⟩

theorem mem_freed {ptr : Option Nat} : b ∈ freed live ptr ↔
    b ∈ live ∧ ¬ (some b.ptr = ptr ∧ b.home.isGc = true) := by
  simp only [freed, List.mem_filter, Bool.not_eq_true', Bool.and_eq_false_imp, decide_eq_true_eq,
    not_and, Bool.not_eq_true]

theorem freed_eq_self {ptr : Option Nat}
    (h : ∀ c ∈ live, some c.ptr = ptr → c.home.isGc = false) : freed live ptr = live := by
  refine List.filter_eq_self.2 fun c hc => ?_
  simp only [Bool.not_eq_true', Bool.and_eq_false_imp, decide_eq_true_eq]
  exact h c hc

/-- `jda_free` of an mspace block. -/
theorem jdaFree_spec_gc (L : Layout C da live) (hb : b ∈ live) (hmode : da.mode = .request)
    (hr : ra ∈ da.requests) (hm : ra.mode = .gc) (hh : b.home = .gc ra.id) :
    Layout C (jdaFree H da (some b.ptr)) (freed live (some b.ptr)) := by
  have hg := L.geo.ra ra hr
  have harena := L.arenas hmode ra hr
  simp only [ArenaOk, hm] at harena
  obtain ⟨⟨st, hst, hInv⟩, hap⟩ := harena
  have hmem : (toView ra.headBuf b.ptr, b.hi - b.ptr) ∈ gcBlocks live ra := ⟨b, hb, hh, rfl⟩
  obtain ⟨hInv', hframe⟩ := C.free _ _ hInv hmem
  have hfr : ∀ c, c.home = .gc ra.id →
    (c ∈ freed live (some b.ptr) ↔ c ∈ live ∧ c.ptr ≠ b.ptr) := by
    intro c hc
    simp [mem_freed, hc, Home.isGc]
  have hgrow : Grown ra { ra with used := Word.sub ra.used (msUsable H ra b.ptr),
                                  msp := some (H.ms.free st (toView ra.headBuf b.ptr)).1 } [] :=
    ⟨rfl, rfl, rfl, (List.append_nil _).symm⟩
  rw [jdaFree_gc hmode (L.owner_eq hb hr (by rw [hh]; rfl)) hm hst]
  refine L.gcStep hmode hr hm (.nil da) .nil hgrow hap rfl
    (fun x hx => hframe.outside hg _ hx) ?_ ?_ ?_ ?_
  · intro c hc
    refine ⟨fun h => (mem_freed.1 h).1, fun h => mem_freed.2 ⟨h, fun hp => hc ?_⟩⟩
    rw [L.eq_of_ptr h hb (Option.some.inj hp.1), hh]
    rfl
  · intro c hc _ hnc
    exact absurd (mem_freed.1 hc).1 hnc
  · have hk := gcBlocks_remove hg hfr
    rw [← hk] at hInv'
    exact hInv'
  · exact L.own.sublist List.filter_sublist

/-- `jda_free` of a base or bump block does nothing. -/
theorem jdaFree_noop (L : Layout C da live) (hb : b ∈ live) (hgc : b.home.isGc = false) :
    jdaFree H da (some b.ptr) = da := by
  rcases ArenaMode.cases da.mode with hmode | hmode
  · simp only [jdaFree, hmode]
  cases hh : b.home with
  | base => simp [jdaFree, hmode, L.owner_base hb hh]
  | bump id =>
    have hs := (L.blocks b hb).housed
    simp only [Housed, hh] at hs
    obtain ⟨-, -, ra, hr, rfl, hm, -⟩ := hs
    simp only [jdaFree, hmode, L.owner_eq hb hr (by rw [hh]; rfl), hm]
  | gc id => simp [hh, Home.isGc] at hgc

/-- `jda_free` keeps the layout; base and bump blocks stay. -/
theorem jdaFree_spec (L : Layout C da live) {ptr : Option Nat} (hp : LivePtr live ptr) :
    Layout C (jdaFree H da ptr) (freed live ptr) := by
  cases ptr with
  | none =>
    rw [freed_eq_self fun c _ h => absurd h (by simp)]
    exact L
  | some p =>
    obtain ⟨b, hb, rfl⟩ := hp p rfl
    have hok := L.blocks b hb
    by_cases hgc : b.home.isGc = true
    · cases hh : b.home with
      | base | bump => simp [hh, Home.isGc] at hgc
      | gc id =>
        have hs := hok.housed
        simp only [Housed, hh] at hs
        obtain ⟨hmode, ra, hr, rfl, hm, -⟩ := hs
        exact jdaFree_spec_gc L hb hmode hr hm hh
    · have hkeep : freed live (some b.ptr) = live := by
        refine freed_eq_self fun c hc hcp => ?_
        rw [L.eq_of_ptr hc hb (Option.some.inj hcp)]
        simpa using hgc
      rw [hkeep, jdaFree_noop L hb (by simpa using hgc)]
      exact L

end

end ArenaJs
