import ArenaJs.Alloc.Run

/-!
# The bump allocators keep the layout

One lemma per way a bump allocator hands out memory, for the base arena and for a request arena:
`basePush` and `bumpPush` for a fresh block, `baseResize` and `bumpResize` for the last block
resized in place. `Layout.baseStep` and `Layout.bumpStep` are what the two have in common.
-/

namespace ArenaJs

section
variable {σ : Type} {H : Host σ} {C : H.ms.Contract} {da : DualArena σ} {live keep : List Block}
variable {m' : Mem} {b : Block} {a' : JSArena} {R : BumpRegion} {ra' : RequestArena σ}
  {size p : Nat} {cs : List ReqChunk}

/-! ## The base allocator -/

/-- Before the freeze every block is a base block. -/
theorem BlockOk.home_of_base (h : BlockOk da b) (hm : da.mode = .base) :
    b.home = .base := by
  have hs := h.housed
  cases hb : b.home with
  | base => rfl
  | bump id | gc id => simp only [Housed, hb, hm] at hs; exact absurd hs.1 (by decide)

/-- A base block keeps its place when the region does and its header is not written. -/
theorem BlockOk.of_base (h : BlockOk da b) (hh : b.home = .base)
    (hR : (a'.region m').Holds 16 b.foot) (hm : ∀ x, b.foot.Has x → m' x = da.mem x) :
    BlockOk { da with base := a', mem := m' } b := by
  refine { h with housed := ?_ }
  have hs := h.housed
  simp only [Housed, hh] at hs ⊢
  exact ⟨hR, by rw [h.header_word (by rw [hh]; rfl) hm, hs.2]⟩

section
variable (L : Layout C da live) (hmode : da.mode = .base)
include L hmode

/-- The layout after a base call that returned the block `p`. -/
theorem Layout.baseStep
    (hsub : keep.Sublist live)
    (hblk : BaseBlock da.mem da.base size R p a' m')
    (hkeep : ∀ b ∈ keep, R.Holds 16 b.foot ∧ b.foot.Disjoint ⟨p - 16, p + bodyLen size⟩)
    (hnew : R.Holds 16 ⟨p - 16, p + bodyLen size⟩) :
    Layout C { da with base := a', mem := m' } (⟨p, size, p + bodyLen size, .base⟩ :: keep) := by
  have hspan : a'.span = da.base.span := by
    simp [JSArena.span, hblk.buf_eq, hblk.capacity_eq]
  have hp := hblk.above
  have hlen := le_bodyLen size
  refine ⟨hblk.ok, ⟨L.geo.ids, L.geo.ra, ?_, L.geo.cross⟩, L.idle, ?_, ?_, ?_⟩
  · intro r hr c hc
    show a'.span.Disjoint c.span
    rw [hspan]; exact L.geo.base r hr c hc
  · intro hreq; exact absurd (hmode.symm.trans hreq) (by decide)
  · refine List.forall_mem_cons.2 ⟨⟨?_, ?_, hblk.ptr_dvd, ?_, ?_⟩, ?_⟩
    · show p + size ≤ p + bodyLen size
      omega
    · have := hblk.size_pos
      show p < p + bodyLen size
      omega
    · show p - 16 + 16 = p
      omega
    · simp only [Housed]
      exact ⟨by rw [hblk.region_eq]; exact hnew, hblk.header⟩
    · intro b hb
      have hok := L.blocks b (hsub.subset hb)
      have hh := hok.home_of_base hmode
      obtain ⟨hR, hd⟩ := hkeep b hb
      have hin : da.base.buf + 16 ≤ b.lo := (hok.in_base L.base hh).1
      refine hok.of_base hh (hblk.region_eq ▸ hR) fun x hx => hblk.frame x ?_ ?_ <;>
        simp only [Span.Has, Span.Disjoint, Block.foot] at hx hd <;> omega
  · exact List.pairwise_cons.2 ⟨fun b hb _ => (hkeep b hb).2.symm, L.own.sublist hsub⟩

/-- Every base block is placed in the base region. -/
theorem Layout.base_holds
    (hb : b ∈ live) : (da.base.region da.mem).Holds 16 b.foot := by
  have hok := L.blocks b hb
  have hs := hok.housed
  simp only [Housed, hok.home_of_base hmode] at hs
  exact hs.1

/-- A pushed base block. -/
theorem Layout.basePush {size : Nat}
    (hblk : BaseBlock da.mem da.base size ((da.base.region da.mem).push 16 (bodyLen size))
      (da.base.buf + arenaCursor da.mem da.base + 16) a' m') :
    Layout C { da with base := a', mem := m' }
      (⟨da.base.buf + arenaCursor da.mem da.base + 16, size,
        da.base.buf + arenaCursor da.mem da.base + 16 + bodyLen size, .base⟩ :: live) := by
  refine L.baseStep hmode (List.Sublist.refl _) hblk ?_ ?_
  · intro b hb
    have hh := L.base_holds hmode hb
    exact ⟨hh.push, hh.disjoint_push⟩
  · exact L.base.region.push_holds_new

/-- A base block resized in place. -/
theorem Layout.baseResize {size p : Nat}
    (hlast : da.base.lastAllocPtr = some p)
    (hblk : BaseBlock da.mem da.base size ((da.base.region da.mem).resize p (bodyLen size)) p a'
      m') (hsub : keep.Sublist live) (hkeep : ∀ b ∈ keep, b.ptr ≠ p) :
    Layout C { da with base := a', mem := m' } (⟨p, size, p + bodyLen size, .base⟩ :: keep) := by
  have hl : (da.base.region da.mem).last = some (p, da.base.lastAllocAligned) := by
    simp [JSArena.region, hlast]
  refine L.baseStep hmode hsub hblk ?_ (L.base.region.resize_holds_new hl)
  intro b hb
  have hok := L.blocks b (hsub.subset hb)
  have hh := L.base_holds hmode (hsub.subset hb)
  have hne : b.foot.lo + 16 ≠ p := by
    have := hok.lo_add
    rw [hok.home_of_base hmode] at this
    simp only [Home.headerLen] at this
    simp only [Block.foot, this]
    exact hkeep b hb
  exact ⟨hh.resize hl hne, hh.disjoint_resize hl hne⟩

end

/-! ## The bump allocator of a request arena -/

variable {ra : RequestArena σ} {ds : List Decision}

/-- The blocks of a bump-mode arena are bump blocks. -/
theorem Layout.home_bump (L : Layout C da live) (hr : ra ∈ da.requests) (hbump : ra.mode = .bump)
    (hb : b ∈ live) (hid : b.home.id? = some ra.id) : b.home = .bump ra.id := by
  obtain ⟨rb, hrb, hrid, hm, -⟩ := (L.blocks b hb).in_room hid
  obtain rfl := L.geo.eq_of_id hrb hr hrid
  exact hm.1 hbump

/-- Rooms do not move when an arena grows. -/
theorem RaBlock.room_eq {m m' : Mem} {c' : ReqChunk}
    (h : RaBlock ra m size c' cs R p ra' m')
    (hg : RaGeo ra) (c : ReqChunk) : ra'.room c = ra.room c := by
  obtain ⟨d, ds', hd⟩ := List.exists_cons_of_ne_nil hg.nonempty
  have hb : ra'.headBuf = ra.headBuf := by simp [RequestArena.headBuf, h.chunks_eq, hd]
  simp [RequestArena.room, hb, h.same.floor_eq]

/-- The layout after a bump call that returned the block `p`. -/
theorem Layout.bumpStep (L : Layout C da live) (hmode : da.mode = .request)
    (hr : ra ∈ da.requests) (hbump : ra.mode = .bump) (hoff : Offers da ds)
    (hsub : keep.Sublist live) (hother : ∀ b ∈ live, b.home.id? ≠ some ra.id → b ∈ keep)
    {c' : ReqChunk}
    (ht : Taken Span.Disjoint cs ds)
    (hblk : RaBlock ra da.mem size c' cs R p ra' m')
    (hfoot : (⟨p - 16, p + bodyLen size⟩ : Span).Within (ra'.room c'))
    (hnew : R.Holds 16 ⟨p - 16, p + bodyLen size⟩)
    (hdisj : ∀ d ∈ ra.chunks, d ≠ c' → d.span.Disjoint c'.span)
    (hkeep : ∀ b ∈ keep, b.home = .bump ra.id → c' ∈ ra.chunks →
      (ra.cur = some c' → (ra.region c').Holds 16 b.foot) →
      R.Holds 16 b.foot ∧ b.foot.Disjoint ⟨p - 16, p + bodyLen size⟩) :
    Layout C (da.put ra' m') (⟨p, size, p + bodyLen size, .bump ra.id⟩ :: keep) := by
  have hid := hblk.same.id_eq
  have hmode' : ra'.mode = .bump := hblk.same.mode_eq.trans hbump
  have hp := hblk.above
  have hlen := le_bodyLen size
  have hin : ra' ∈ (da.put ra' m').requests :=
    DualArena.mem_put_self ⟨ra, hr, hid.symm⟩
  have hspan := hfoot.trans (ra'.room_within c')
  -- a block of the arena is in the extent being bumped or in another one
  have hplace : ∀ b ∈ keep, b.home.id? = some ra.id →
      RaHolds ra' b.foot ∧ b.foot.Disjoint ⟨p - 16, p + bodyLen size⟩ := by
    intro b hb hbid
    have hh := L.home_bump hr hbump (hsub.subset hb) hbid
    have hs := (L.blocks b (hsub.subset hb)).housed
    simp only [Housed, hh] at hs
    obtain ⟨-, -, rb, hrb, hrid, -, d, hd, hw, hold⟩ := hs
    obtain rfl := L.geo.eq_of_id hrb hr hrid
    have hd' : d ∈ ra'.chunks := by rw [hblk.chunks_eq]; exact List.mem_append_left _ hd
    have hw' := hblk.room_eq (L.geo.ra rb hr) d ▸ hw
    by_cases hdc : d = c'
    · subst hdc
      obtain ⟨hR, hdis⟩ := hkeep b hb hh hd hold
      exact ⟨⟨d, hd', hw', fun _ => hblk.region_eq ▸ hR⟩, hdis⟩
    · refine ⟨⟨d, hd', hw', fun hc => ?_⟩, ?_⟩
      · rw [hblk.ok.cur_eq] at hc
        exact absurd (Option.some.inj hc).symm hdc
      · exact (hdisj d hd hdc).mono (hw.trans (rb.room_within d)) hspan
  refine L.put hr hid
    (L.geo.put hr hid hblk.same.floor_eq hblk.chunks_eq ht hoff.fresh hoff.base) ?_ ?_ ?_
    (fun h => absurd (hmode.symm.trans h) (by decide)) ?_ ?_
  · intro x hx
    have h1 := hx c' hblk.ok.mem
    simp only [Span.Has, Span.Within] at h1 hspan
    exact hblk.frame x (by omega)
  · intro b hne
    rw [List.mem_cons]
    constructor
    · rintro (rfl | hb)
      · exact absurd rfl hne
      · exact hsub.subset hb
    · exact fun hb => .inr (hother b hb hne)
  · refine List.forall_mem_cons.2 ⟨fun _ => ⟨?_, ?_, hblk.ptr_dvd, ?_, ?_⟩, ?_⟩
    · show p + size ≤ p + bodyLen size
      omega
    · have := hblk.size_pos
      show p < p + bodyLen size
      omega
    · show p - 16 + 16 = p
      omega
    · simp only [Housed]
      exact ⟨hmode, hblk.header, ra', hin, hid, hmode', c', hblk.ok.mem, hfoot,
        fun _ => hblk.region_eq ▸ hnew⟩
    · intro b hb hbid
      have hok := L.blocks b (hsub.subset hb)
      have hh := L.home_bump hr hbump (hsub.subset hb) hbid
      have hs := hok.housed
      simp only [Housed, hh] at hs
      obtain ⟨hold, hd⟩ := hplace b hb hbid
      refine { hok with housed := ?_ }
      simp only [Housed, hh]
      refine ⟨hmode, ?_, ra', hin, hid, hmode', hold⟩
      show arenaUserSize m' b.ptr = b.size
      rw [hok.header_word (by rw [hh]; rfl), hs.2.1]
      intro x hx
      refine hblk.frame x ?_
      simp only [Span.Has, Span.Disjoint, Block.foot] at hx hd
      omega
  · intro _
    simp only [ArenaOk, hmode']
    exact ⟨c', hblk.ok⟩
  · refine List.pairwise_cons.2 ⟨fun b hb hh => (hplace b hb ?_).2.symm, L.own.sublist hsub⟩
    rw [← hh]; rfl

section
variable (L : Layout C da live) (hmode : da.mode = .request) (hr : ra ∈ da.requests)
  (hbump : ra.mode = .bump) (hoff : Offers da ds)
include L hmode hr hbump hoff

/-- A pushed bump block. -/
theorem Layout.bumpPush {size : Nat} {c c' : ReqChunk}
    (hcur : BumpOk ra c) (hroom : BumpRoom ra c ds c' cs R) (hR : R.Ok 16)
    (hfit : R.top + 16 + bodyLen size ≤ R.limit)
    (hblk : RaBlock ra da.mem size c' cs (R.push 16 (bodyLen size)) (R.top + 16) ra' m') :
    Layout C (da.put ra' m')
      (⟨R.top + 16, size, R.top + 16 + bodyLen size, .bump ra.id⟩ :: live) := by
  have hg := L.geo.ra ra hr
  have ht : Taken Span.Disjoint cs ds := by
    cases hroom with
    | here => exact .nil
    | fresh ht => exact ht
  have hdisj : ∀ d ∈ ra.chunks, d ≠ c' → d.span.Disjoint c'.span := by
    intro d hd hne
    cases hroom with
    | here => exact hg.disjoint.forall hd hcur.mem hne
    | fresh ht => exact (ht.old separates_disjoint (hoff.fresh ra hr) (.head _) hd).symm
  have hfoot : (⟨R.top + 16 - 16, R.top + 16 + bodyLen size⟩ : Span).Within (ra'.room c') := by
    rw [hblk.room_eq hg]
    cases hroom with
    | here =>
      have := hR.start_le
      simp only [RequestArena.region] at this hfit
      refine ⟨?_, ?_⟩
      · simp only [RequestArena.region]; omega
      · simp only [RequestArena.room, RequestArena.region]; omega
    | fresh ht =>
      have hne := hg.room_fresh (hoff.fresh ra hr) ht (.head _)
      simp only at hfit
      refine ⟨?_, ?_⟩
      · simp only [RequestArena.room, if_neg hne]; omega
      · simp only [RequestArena.room]; omega
  refine L.bumpStep hmode hr hbump hoff (List.Sublist.refl _) (fun b hb _ => hb) ht hblk hfoot
    hR.push_holds_new hdisj ?_
  intro b hb hh hd hold
  cases hroom with
  | here => exact ⟨(hold hcur.cur_eq).push, (hold hcur.cur_eq).disjoint_push⟩
  | fresh ht =>
    have h1 := ht.old separates_disjoint (hoff.fresh ra hr) (.head _) hd
    have h2 := (hg.chunk_ok _ hd).size_pos
    simp only [Span.Disjoint, ReqChunk.span] at h1
    omega

/-- A bump block resized in place. -/
theorem Layout.bumpResize {size p : Nat} {c : ReqChunk} (hcur : BumpOk ra c)
    (hlast : ra.lastAllocPtr = some p) (hfit : p + bodyLen size ≤ c.buf + c.size)
    (hblk : RaBlock ra da.mem size c [] ((ra.region c).resize p (bodyLen size)) p ra' m')
    (hsub : keep.Sublist live) (hother : ∀ b ∈ live, b.home.id? ≠ some ra.id → b ∈ keep)
    (hne : ∀ b ∈ keep, b.ptr ≠ p) :
    Layout C (da.put ra' m') (⟨p, size, p + bodyLen size, .bump ra.id⟩ :: keep) := by
  have hg := L.geo.ra ra hr
  have hl : (ra.region c).last = some (p, ra.lastAllocAligned) := by
    simp [RequestArena.region, hlast]
  have hp := (hcur.region.last_top _ _ hl).1
  have hfoot : (⟨p - 16, p + bodyLen size⟩ : Span).Within (ra'.room c) := by
    rw [hblk.room_eq hg]
    simp only [RequestArena.region] at hp
    exact ⟨by simp only; omega, hfit⟩
  refine L.bumpStep hmode hr hbump hoff hsub hother .nil hblk hfoot
    (hcur.region.resize_holds_new hl) (fun d hd => hg.disjoint.forall hd hcur.mem) ?_
  intro b hb hh _ hold
  have hhold := hold hcur.cur_eq
  have hbne : b.foot.lo + 16 ≠ p := by
    have := (L.blocks b (hsub.subset hb)).lo_add
    rw [hh] at this
    simp only [Home.headerLen] at this
    simp only [Block.foot, this]
    exact hne b hb
  exact ⟨hhold.resize hl hbne, hhold.disjoint_resize hl hbne⟩

end

end

end ArenaJs
