import ArenaJs.Alloc.BumpSteps
import ArenaJs.Alloc.MsSteps

/-!
# The allocator hooks keep the layout

What the branches of the hooks share: the bookkeeping fields that no invariant reads
(`Layout.setFields`), the block a hook returns, and mspace calls on the selected arena (`MsRun`).
`jdaMalloc_spec` and `jdaCalloc_spec` are over the base, bump and mspace branch; next to the layout,
the latter says that the bytes of a fresh block are zero.
-/

namespace ArenaJs

section
variable {σ : Type} {H : Host σ} {C : H.ms.Contract} {da : DualArena σ} {live : List Block}
  {ra : RequestArena σ} {ds : List Decision}
variable {ra1 : RequestArena σ} {cs : List ReqChunk} {st : σ} {K : Set (Nat × Nat)}
  {eff : Mem → Mem}

/-! ## Bookkeeping -/

/-- The fields the layout reads are the same. -/
structure SameAlloc (ra ra' : RequestArena σ) : Prop where
  id_eq : ra'.id = ra.id
  chunks_eq : ra'.chunks = ra.chunks
  floor_eq : ra'.floor = ra.floor
  mode_eq : ra'.mode = ra.mode
  cur_eq : ra'.cur = ra.cur
  cursor_eq : ra'.cursor = ra.cursor
  lastPtr_eq : ra'.lastAllocPtr = ra.lastAllocPtr
  lastAligned_eq : ra'.lastAllocAligned = ra.lastAllocAligned
  msp_eq : ra'.msp = ra.msp

namespace SameAlloc
variable {ra' : RequestArena σ}

theorem headBuf_eq (h : SameAlloc ra ra') : ra'.headBuf = ra.headBuf := by
  simp [RequestArena.headBuf, h.chunks_eq]

theorem room_eq (h : SameAlloc ra ra') (c : ReqChunk) : ra'.room c = ra.room c := by
  simp [RequestArena.room, h.headBuf_eq, h.floor_eq]

theorem region_eq (h : SameAlloc ra ra') (c : ReqChunk) : ra'.region c = ra.region c := by
  simp [RequestArena.region, h.room_eq, h.cursor_eq, h.lastPtr_eq, h.lastAligned_eq]

theorem arenaOk (h : SameAlloc ra ra') (hok : ArenaOk C live ra) : ArenaOk C live ra' := by
  have hsegs : ra'.segs = ra.segs := by
    simp [RequestArena.segs, h.chunks_eq, h.headBuf_eq, h.room_eq]
  have hblocks : gcBlocks live ra' = gcBlocks live ra := by
    simp [gcBlocks, h.id_eq, h.headBuf_eq]
  unfold ArenaOk at hok ⊢
  rw [h.mode_eq, h.msp_eq, hsegs, hblocks, h.chunks_eq]
  cases hm : ra.mode with
  | gc => simpa only [hm] using hok
  | bump =>
    simp only [hm] at hok
    obtain ⟨c, hc⟩ := hok
    exact ⟨c, h.cur_eq.trans hc.cur_eq, h.chunks_eq ▸ hc.mem, h.cursor_eq ▸ hc.cursor_dvd,
      h.lastAligned_eq ▸ hc.last_dvd, by rw [h.region_eq]; exact hc.region⟩

end SameAlloc

/-- Fields that the layout does not read may change. -/
theorem Layout.setFields (L : Layout C da live) {ra' : RequestArena σ} (hr : ra ∈ da.requests)
    (h : SameAlloc ra ra') : Layout C (da.put ra' da.mem) live := by
  have hin : ra' ∈ (da.put ra' da.mem).requests :=
    DualArena.mem_put_self ⟨ra, hr, h.id_eq.symm⟩
  have hg : DaGeo (da.put ra' da.mem) :=
    L.geo.put hr h.id_eq h.floor_eq (by rw [h.chunks_eq, List.append_nil])
      (.nil : Taken Span.Disjoint [] []) (fun r _ => ⟨nofun, nofun, .nil⟩) nofun
  refine L.put hr h.id_eq hg (fun _ _ => rfl) (fun _ _ => Iff.rfl) ?_
    (fun hm => h.chunks_eq ▸ L.idle hm ra hr) (fun hm => h.arenaOk (L.arenas hm ra hr)) L.own
  intro b hb hbid
  have hok := L.blocks b hb
  refine { hok with housed := ?_ }
  have hs := hok.housed
  cases hbh : b.home with
  | base => simp [hbh, Home.id?] at hbid
  | bump id =>
    simp only [Housed, hbh] at hs ⊢
    obtain ⟨hmode, hsz, rb, hrb, hrid, hmb, c, hc, hw, hold⟩ := hs
    obtain rfl := L.geo.eq_of_id hrb hr (by simpa [hbh, Home.id?, ← hrid] using hbid)
    exact ⟨hmode, hsz, ra', hin, h.id_eq.trans hrid, h.mode_eq.trans hmb, c, h.chunks_eq ▸ hc,
      h.room_eq c ▸ hw, fun hc => h.region_eq c ▸ hold (h.cur_eq ▸ hc)⟩
  | gc id =>
    simp only [Housed, hbh] at hs ⊢
    obtain ⟨hmode, rb, hrb, hrid, hmb, c, hc, hw⟩ := hs
    obtain rfl := L.geo.eq_of_id hrb hr (by simpa [hbh, Home.id?, ← hrid] using hbid)
    exact ⟨hmode, ra', hin, h.id_eq.trans hrid, h.mode_eq.trans hmb, c, h.chunks_eq ▸ hc,
      h.room_eq c ▸ hw⟩

/-- `note_oom` writes the latched refusal only. -/
theorem sameAlloc_noteOom (mode : ArenaMode) (ra : RequestArena σ) (n : Nat) :
    SameAlloc ra (noteOom mode ra n) := by
  unfold noteOom
  split <;> exact ⟨rfl, rfl, rfl, rfl, rfl, rfl, rfl, rfl, rfl⟩

/-- Parking an arena changes nothing the layout reads. -/
theorem Layout.park (L : Layout C da live) (ra : RequestArena σ) :
    Layout C (park da ra) live :=
  L.setCur da.cur da.stateCell (some ra.id)

theorem Offers.park (h : Offers da ds) (ra : RequestArena σ) : Offers (park da ra) ds :=
  ⟨h.fresh, h.base, h.apart⟩

/-- The selected arena after its state was stored. -/
theorem Layout.selected_put {ra' : RequestArena σ} {m' : Mem} {live' : List Block}
    (L : Layout C (da.put ra' m') live') (hsel : da.selected = some ra) (hid : ra'.id = ra.id) :
    (da.put ra' m').selected = some ra' := by
  obtain ⟨hm, hcur⟩ := DualArena.selected_mem hsel
  have hin : ra' ∈ (da.put ra' m').requests :=
    DualArena.mem_put_self ⟨ra, hm, hid.symm⟩
  have hc : (da.put ra' m').cur = some ra'.id := by rw [hid]; exact hcur
  simp only [DualArena.selected, hc, Option.bind_some]
  exact L.geo.find hin

theorem Layout.bumpOk (L : Layout C da live) (hmode : da.mode = .request)
    (hr : ra ∈ da.requests) (hm : ra.mode = .bump) : ∃ c, BumpOk ra c := by
  simpa only [ArenaOk, hm] using L.arenas hmode ra hr

/-! ## The returned block -/

theorem blockOf_base (hm : da.mode = .base) (p size : Nat) :
    blockOf H da p size = ⟨p, size, p + bodyLen size, .base⟩ := by
  simp only [blockOf, hm]

theorem blockOf_bump (hm : da.mode = .request) (hs : da.selected = some ra) (hb : ra.mode = .bump)
    (p size : Nat) : blockOf H da p size = ⟨p, size, p + bodyLen size, .bump ra.id⟩ := by
  simp only [blockOf, hm, hs, hb]

theorem blockOf_gc (hm : da.mode = .request) (hs : da.selected = some ra) (hb : ra.mode = .gc)
    (p size : Nat) : blockOf H da p size = ⟨p, size, p + msUsable H ra p, .gc ra.id⟩ := by
  simp only [blockOf, hm, hs, hb]

theorem blockOf_ptr (da : DualArena σ) (p size : Nat) : (blockOf H da p size).ptr = p := by
  unfold blockOf
  split
  · split <;> rfl
  · rfl

theorem blockOf_size (da : DualArena σ) (p size : Nat) : (blockOf H da p size).size = size := by
  unfold blockOf
  split
  · split <;> rfl
  · rfl

theorem filter_not_false (live : List Block) :
    (live.filter fun b => !(fun _ => false) b) = live := by simp

variable {keep : List Block} {gone : Block → Bool} {p size : Nat} {m' : Mem}
  {ra' : RequestArena σ}

theorem Layout.afterBase {a' : JSArena}
    (L : Layout C { da with base := a', mem := m' } (⟨p, size, p + bodyLen size, .base⟩ :: keep))
    (hm : da.mode = .base) (hk : (live.filter fun b => !gone b) = keep) :
    Sys.Ok C (afterAlloc H live gone size (some p, { da with base := a', mem := m' })) := by
  have hm' : DualArena.mode { da with base := a', mem := m' } = .base := hm
  simp only [afterAlloc, hk, Sys.Ok]
  rw [blockOf_base hm']
  exact L

theorem Layout.afterBump
    (L : Layout C (da.put ra' m') (⟨p, size, p + bodyLen size, .bump ra.id⟩ :: keep))
    (hm : da.mode = .request) (hsel : da.selected = some ra) (hid : ra'.id = ra.id)
    (hb : ra'.mode = .bump) (hk : (live.filter fun b => !gone b) = keep) :
    Sys.Ok C (afterAlloc H live gone size (some p, da.put ra' m')) := by
  have hm' : (da.put ra' m').mode = .request := hm
  simp only [afterAlloc, hk, Sys.Ok]
  rw [blockOf_bump hm' (L.selected_put hsel hid) hb, hid]
  exact L

theorem Layout.afterGc {u : Nat}
    (L : Layout C (da.put ra' m') (⟨p, size, p + u, .gc ra.id⟩ :: keep))
    (hm : da.mode = .request) (hsel : da.selected = some ra) (hid : ra'.id = ra.id)
    (hb : ra'.mode = .gc) (hu : msUsable H ra' p = u)
    (hk : (live.filter fun b => !gone b) = keep) :
    Sys.Ok C (afterAlloc H live gone size (some p, da.put ra' m')) := by
  have hm' : (da.put ra' m').mode = .request := hm
  simp only [afterAlloc, hk, Sys.Ok]
  rw [blockOf_gc hm' (L.selected_put hsel hid) hb, hid, hu]
  exact L

/-! ## mspace branches -/

/-- An mspace call on the selected GC-mode arena `ra`: it took the extents `cs` of the offers and
left the arena as `ra1`, its space in the state `st`. -/
structure MsRun (da : DualArena σ) (ra : RequestArena σ) (ds : List Decision) (cs : List ReqChunk)
    (ra1 : RequestArena σ) (st : σ) : Prop where
  mode : da.mode = .request
  sel : da.selected = some ra
  gc : ra.mode = .gc
  offers : Offers da ds
  taken : Taken Span.Apart cs ds
  grown : Grown ra ra1 cs
  msp : ra1.msp = some st
  head : ra1.headBuf = ra.headBuf
  geo : DaGeo (da.put ra1 da.mem)
  apart : ra1.chunks.Pairwise fun c d => c.span.Apart d.span

namespace MsRun

theorem mem (R : MsRun da ra ds cs ra1 st) (m : Mem) : ra1 ∈ (da.put ra1 m).requests :=
  DualArena.mem_put_self ⟨ra, (DualArena.selected_mem R.sel).1, R.grown.id_eq.symm⟩

theorem raGeo (R : MsRun da ra ds cs ra1 st) : RaGeo ra1 := R.geo.ra _ (R.mem _)

/-- The extents of the arena are apart from the base and from the blocks of the other arenas. -/
theorem base (R : MsRun da ra ds cs ra1 st) {c : ReqChunk} (hc : c ∈ ra1.chunks) :
    da.base.span.Disjoint c.span :=
  R.geo.base _ (R.mem _) c hc

theorem foreign (R : MsRun da ra ds cs ra1 st) (L : Layout C da live) {b : Block} (hb : b ∈ live)
    (hid : b.home.id? ≠ some ra.id) {c : ReqChunk} (hc : c ∈ ra1.chunks) :
    b.foot.Disjoint c.span :=
  ((L.blocks b hb).put L.base (DualArena.selected_mem R.sel).1 R.grown.id_eq R.geo (fun _ _ => rfl)
    hid).other_disjoint R.geo L.base (R.mem _) (R.grown.id_eq ▸ hid) hc

/-- The call wrote to the extents of the arena only. -/
theorem outside (R : MsRun da ra ds cs ra1 st) (h : MsFrame ra1.segs K eff) {x : Nat}
    (hx : ∀ c ∈ ra1.chunks, ¬ c.span.Has x) : applyView ra.headBuf eff da.mem x = da.mem x := by
  rw [← R.head]
  exact h.outside R.raGeo da.mem hx

/-- The space and the arena agree on where a block is. -/
theorem back (R : MsRun da ra ds cs ra1 st) (hInv : C.Inv st ra1.segs K) {v u : Nat}
    (hv : (v, u) ∈ K) : toView ra.headBuf (ofView ra.headBuf v) = v :=
  R.head ▸ (ms_place R.raGeo R.apart hInv hv).1

end MsRun

/-- An mspace call made under the arena's own invariant: the arena and memory after it, and the
postcondition. -/
theorem Layout.msCall (L : Layout C da live) (hmode : da.mode = .request)
    (hsel : da.selected = some ra) (hgc : ra.mode = .gc) (hoff : Offers da ds)
    {Q : List Span → Option Nat → σ → (Mem → Mem) → Prop} {call : σ → MsCall σ}
    (hcall : ∀ st brk, C.Inv st ra.segs (gcBlocks live ra) → (call st).Sat Q ra.segs brk) :
    ∃ st, ra.msp = some st ∧ ∃ cs ra1 ret st' eff, MsRun da ra ds cs ra1 st' ∧
      runMs H (call st) ra da.mem ds =
        (ret.map (ofView ra.headBuf), ra1, applyView ra.headBuf eff da.mem) ∧
      Q ra1.segs ret st' eff := by
  obtain ⟨hr, -⟩ := DualArena.selected_mem hsel
  have hg := L.geo.ra ra hr
  have hf := hoff.apart ra hsel hgc
  have hok := L.arenas hmode ra hr
  simp only [ArenaOk, hgc] at hok
  obtain ⟨⟨st, hst, hInv⟩, hold⟩ := hok
  obtain ⟨cs, held, extents, brk, ret, st', eff, ht, hrun, hQ⟩ :=
    runMs_spec (H := H) (m := da.mem) (call st) ra ds hg hf (hcall st _ hInv)
  have hgrow : Grown ra { ra with chunks := ra.chunks ++ cs, held, extents, brk, msp := some st' }
    cs := ⟨rfl, rfl, rfl, rfl⟩
  refine ⟨st, hst, cs, _, ret, st', eff,
    ⟨hmode, hsel, hgc, hoff, ht, hgrow, rfl, hgrow.headBuf_eq hg,
    L.geo.put hr rfl rfl rfl ht.disjoint hoff.fresh hoff.base, List.pairwise_append.2 ⟨hold,
      ht.pairwise, fun c hc d hd => (ht.old separates_apart hf hd hc).symm⟩⟩, hrun, hQ⟩

/-- The arena an mspace branch stores. -/
theorem Grown.setFields {ra1 ra2 : RequestArena σ} (h : Grown ra ra1 cs)
    (h' : SameAlloc ra1 ra2) : Grown ra ra2 cs :=
  ⟨h'.id_eq.trans h.id_eq, h'.floor_eq.trans h.floor_eq, h'.mode_eq.trans h.mode_eq,
    h'.chunks_eq.trans h.chunks_eq⟩

theorem SameAlloc.segs_eq {ra1 ra2 : RequestArena σ} (h : SameAlloc ra1 ra2) :
    ra2.segs = ra1.segs := by
  simp [RequestArena.segs, h.chunks_eq, h.headBuf_eq, h.room_eq]

theorem sameAlloc_used (ra : RequestArena σ) (n : Nat) : SameAlloc ra { ra with used := n } :=
  ⟨rfl, rfl, rfl, rfl, rfl, rfl, rfl, rfl, rfl⟩

/-- dlmalloc's usable size of a block of the arena. -/
theorem msUsable_eq (hst : ra1.msp = some st) {segs : List Span}
    {v u : Nat} (hInv : C.Inv st segs K) (hb : (v, u) ∈ K)
    (hback : toView ra1.headBuf p = v) : msUsable H ra1 p = u := by
  simp only [msUsable, hst, hback]
  exact C.usable_eq hInv _ hb

/-- The layout after an mspace branch that returned a block of `u` usable bytes. -/
theorem Layout.msBranch (L : Layout C da live) (R : MsRun da ra ds cs ra1 st) (used : Nat)
    (hsub : keep.Sublist live) (hother : ∀ b ∈ live, b.home.id? ≠ some ra.id → b ∈ keep)
    (hframe : MsFrame ra1.segs (gcBlocks keep ra) eff) {v u : Nat} (hsize : size ≤ u)
    (hfresh : ∀ w, (v, w) ∉ gcBlocks keep ra)
    (hInv : C.Inv st ra1.segs (insert (v, u) (gcBlocks keep ra)))
    (hk : (live.filter fun b => !gone b) = keep) :
    Sys.Ok C (afterAlloc H live gone size (some (ofView ra.headBuf v),
      (ArenaJs.park da ra).put { ra1 with used := used } (applyView ra.headBuf eff da.mem))) := by
  obtain ⟨hr, -⟩ := DualArena.selected_mem R.sel
  have hg := L.geo.ra ra hr
  have hgrow := R.grown.setFields (sameAlloc_used ra1 used)
  have hmem : (v, u) ∈ insert (v, u) (gcBlocks keep ra) := Set.mem_insert _ _
  obtain ⟨hback, hdvd, hu, h8, c, hc, hw⟩ := ms_place R.raGeo R.apart hInv hmem
  rw [R.head] at hback hdvd hw h8
  have hL : Layout C ((ArenaJs.park da ra).put { ra1 with used := used }
      (applyView ra.headBuf eff da.mem))
        (⟨ofView ra.headBuf v, size, ofView ra.headBuf v + u, .gc ra.id⟩ :: keep) := by
    refine (L.park ra).gcStep R.mode hr R.gc (R.offers.park ra) R.taken hgrow R.apart R.msp
      (fun x hx => R.outside hframe hx) ?_ ?_ ?_ ?_
    · intro b hne
      rw [List.mem_cons]
      constructor
      · rintro (rfl | hb)
        · exact absurd rfl hne
        · exact hsub.subset hb
      · exact fun hb => .inr (hother b hb hne)
    · refine List.forall_mem_cons.2 ⟨fun _ _ => ?_, fun b hb _ hnb => absurd (hsub.subset hb) hnb⟩
      refine ⟨Nat.add_le_add_left hsize _, ?_, hdvd, ?_, ?_⟩
      · simp only; omega
      · simp only [Block.lo, Home.headerLen]; omega
      · simp only [Housed]
        exact ⟨R.mode, _, DualArena.mem_put_self ⟨ra, hr, hgrow.id_eq.symm⟩, hgrow.id_eq,
          hgrow.mode_eq.trans R.gc, c, hc, hw⟩
    · rw [gcBlocks_cons (by rw [hgrow.id_eq]), hgrow.gcBlocks_eq hg, hgrow.headBuf_eq hg, hback,
        Nat.add_sub_cancel_left]
      exact hInv
    · refine List.pairwise_cons.2 ⟨fun b hb hh => ?_, L.own.sublist hsub⟩
      have hbm : (toView ra.headBuf b.ptr, b.hi - b.ptr) ∈ gcBlocks keep ra :=
        ⟨b, hb, hh.symm, rfl⟩
      have hne : v ≠ toView ra.headBuf b.ptr := fun h => hfresh _ (h ▸ hbm)
      have hd := ms_disjoint R.raGeo R.apart hInv hmem (Set.mem_insert_of_mem _ hbm) hne
      have hok := L.blocks b (hsub.subset hb)
      obtain ⟨hhpos, -, hhle⟩ := hg.headBuf_lt
      have hb8 := hok.lo_add
      have hblt := hok.ptr_lt
      rw [R.head, ofView_toView (show ra.headBuf ≤ 2 ^ 64 by omega)] at hd
      simp only [← hh, Home.headerLen] at hb8
      simp only [Span.Disjoint, Block.foot, Block.lo, Home.headerLen, ← hh] at hd hb8 ⊢
      omega
  refine hL.afterGc R.mode R.sel hgrow.id_eq (hgrow.mode_eq.trans R.gc) ?_ hk
  exact msUsable_eq R.msp hInv hmem (by rw [R.head]; exact hback)

/-- The layout after an mspace branch that refused. -/
theorem Layout.msRefused (L : Layout C da live) (R : MsRun da ra ds cs ra1 st)
    (hframe : MsFrame ra1.segs (gcBlocks live ra) eff)
    (hInv : C.Inv st ra1.segs (gcBlocks live ra)) (requested : Nat) :
    Layout C ((ArenaJs.park da ra).put (noteOom (ArenaJs.park da ra).mode ra1 requested)
      (applyView ra.headBuf eff da.mem)) live := by
  obtain ⟨hr, -⟩ := DualArena.selected_mem R.sel
  have hsame := sameAlloc_noteOom (ArenaJs.park da ra).mode ra1 requested
  have hgrow := R.grown.setFields hsame
  refine (L.park ra).gcStep R.mode hr R.gc (R.offers.park ra) R.taken hgrow
    (hsame.chunks_eq ▸ R.apart) (hsame.msp_eq.trans R.msp) (fun x hx => ?_) (fun _ _ => Iff.rfl)
    (fun b hb _ hnb => absurd hb hnb) ?_ L.own
  · rw [hsame.chunks_eq] at hx
    exact R.outside hframe hx
  · rw [hgrow.gcBlocks_eq (L.geo.ra ra hr), hsame.segs_eq]
    exact hInv

theorem toView_add (hg : RaGeo ra) {a v : Nat} (h : toView ra.headBuf a = v) (i : Nat) :
    toView ra.headBuf (a + i) = v + i := by
  obtain ⟨-, -, hle⟩ := hg.headBuf_lt
  subst h
  simp only [toView]
  omega

/-! ## Writes to the returned block -/

/-- What a call leaves of the base, and where the block it returned is: inside a request extent. -/
structure MovesOut (da : DualArena σ) (size : Nat) (r : Option Nat × DualArena σ) : Prop where
  base : r.2.base = da.base
  mem : ∀ x, da.base.span.Has x → r.2.mem x = da.mem x
  place : ∀ p, r.1 = some p → ∃ ra ∈ r.2.requests, ∃ c ∈ ra.chunks,
    (⟨p, p + size⟩ : Span).Within c.span

/-- What a call that returned a block of `size` bytes, or none, leaves alone: the bytes of the live
blocks and, after the freeze, the base. -/
structure Spares (da : DualArena σ) (live : List Block) (size : Nat)
    (r : Option Nat × DualArena σ) :
    Prop where
  bytes : ∀ b ∈ live, ∀ x, b.ptr ≤ x → x < b.hi → r.2.mem x = da.mem x
  moves : da.mode = .request → MovesOut da size r

theorem Spares.refused {da' : DualArena σ} (hb : da'.base = da.base) (hm : da'.mem = da.mem) :
    Spares da live size (none, da') :=
  ⟨fun _ _ x _ _ => congrFun hm x, fun _ => ⟨hb, fun x _ => congrFun hm x, nofun⟩⟩

theorem Sys.Ok.cons {da' : DualArena σ}
    (h : Sys.Ok C (afterAlloc H live (fun _ => false) size (some p, da'))) :
    Layout C da' (blockOf H da' p size :: live) := by
  simpa only [Sys.Ok, afterAlloc, filter_not_false] using h

/-- The block a hook of a frozen dual arena returned is the selected arena's. -/
theorem blockOf_id (hmode : da.mode = .request) (hs : da.selected = some ra) (p size : Nat) :
    (blockOf H da p size).home.id? = some ra.id := by
  obtain hm | hm := ReqMode.cases ra.mode
  · rw [blockOf_gc hmode hs hm]
    rfl
  · rw [blockOf_bump hmode hs hm]
    rfl

/-- The block that a call returned is in a request extent, so the base is unchanged if the call
wrote only that block and request extents. -/
theorem Sys.Ok.movesOut {da' : DualArena σ}
    (h : Sys.Ok C (afterAlloc H live (fun _ => false) size (some p, da')))
    (hmode : da'.mode = .request)
    (hs : da'.selected = some ra) (hbase : da'.base = da.base)
    (hm : ∀ x, ¬ (blockOf H da' p size).foot.Has x →
      (∀ ra ∈ da'.requests, ∀ c ∈ ra.chunks, ¬ c.span.Has x) → da'.mem x = da.mem x) :
    MovesOut da size (some p, da') := by
  have L := h.cons
  have hok := L.blocks _ (.head _)
  obtain ⟨ra, hr, -, -, c, hc, hw⟩ := hok.in_room (blockOf_id hmode hs p size)
  have hw' := hw.trans (ra.room_within c)
  refine ⟨hbase, fun x hx => ?_, ?_⟩
  · have hout : ∀ ra ∈ da'.requests, ∀ c ∈ ra.chunks, ¬ c.span.Has x :=
      fun ra hr c hc => (L.geo.base ra hr c hc).not_has (hbase ▸ hx)
    refine hm x (fun hb => hout ra hr c hc ?_) hout
    exact ⟨Nat.le_trans hw'.1 hb.1, Nat.lt_of_lt_of_le hb.2 hw'.2⟩
  · rintro _ ⟨⟩
    have h1 := hok.lo_add
    have h2 := hok.size_le
    refine ⟨ra, hr, c, hc, ?_⟩
    rw [blockOf_ptr] at h1 h2
    rw [blockOf_size] at h2
    simp only [Span.Within, Block.foot] at hw' ⊢
    omega

/-- A write inside the block that a call returned keeps the layout. -/
theorem Sys.Ok.fill {f : Nat → Mem → Mem} {r : Option Nat × DualArena σ}
    (h : Sys.Ok C (afterAlloc H live (fun _ => false) size r))
    (hf : ∀ p m x, x < p ∨ p + size ≤ x → f p m x = m x)
    (hk : ∀ p, r.1 = some p → (live.filter fun b => !gone b) = live) :
    Sys.Ok C (afterAlloc H live gone size (fillBlock f r)) := by
  obtain ⟨_ | p, da'⟩ := r
  · exact h
  · simp only [fillBlock, afterAlloc, hk p rfl]
    refine h.cons.write fun x => ?_
    by_cases hx : p ≤ x ∧ x < p + size
    · refine .inr (.inl ⟨_, .head _, ?_⟩)
      simp only [Block.bytes, blockOf_ptr, blockOf_size]
      exact hx
    · exact .inl (hf p _ x (by omega))

/-- A new block is apart from the bytes of the others. -/
theorem Layout.off_new {b c : Block} (L : Layout C da (c :: live)) (hb : b ∈ live) {x : Nat}
    (hx : b.ptr ≤ x) (hx' : x < b.hi) : x < c.lo ∨ c.hi ≤ x := by
  have hd := (List.pairwise_cons.1 L.disjoint).1 b hb
  have hlo := (L.blocks b (List.mem_cons_of_mem c hb)).lo_add
  simp only [Span.Disjoint, Block.foot] at hd
  omega

/-- An mspace call leaves the bytes of the blocks it keeps alone. -/
theorem Layout.ms_bytes (L : Layout C da live) (R : MsRun da ra ds cs ra1 st)
    (hframe : MsFrame ra1.segs (gcBlocks live ra) eff) {b : Block} (hb : b ∈ live) {x : Nat}
    (hx : b.ptr ≤ x) (hx' : x < b.hi) : applyView ra.headBuf eff da.mem x = da.mem x := by
  obtain ⟨hr, -⟩ := DualArena.selected_mem R.sel
  have hg := L.geo.ra ra hr
  by_cases hh : b.home = .gc ra.id
  · obtain ⟨hhpos, -, hhle⟩ := hg.headBuf_lt
    have hback : ofView ra.headBuf (toView ra.headBuf b.ptr) = b.ptr := ofView_toView (by omega)
    have hin := hframe.inside hg da.mem (v := toView ra.headBuf b.ptr) (u := b.hi - b.ptr)
      (i := x - b.ptr) ⟨b, hb, hh, rfl⟩ (by omega) (by rw [hback])
    rw [hback, Nat.add_sub_cancel' hx] at hin
    exact hin
  · -- the block is outside the arena
    have hid : b.home.id? ≠ some ra.id := fun h => hh (L.home_gc hr R.gc hb h)
    have hfoot : b.foot.Has x := by
      have := (L.blocks b hb).lo_add
      exact ⟨by simp only [Block.foot]; omega, hx'⟩
    exact R.outside hframe fun c hc => (R.foreign L hb hid hc).not_has hfoot

/-! ## The hooks -/

/-- `jda_malloc` keeps the layout. -/
theorem jdaMalloc_spec (L : Layout C da live) (hsz : SizeOk H da size) (hoff : Offers da ds) :
    Sys.Ok C (afterAlloc H live (fun _ => false) size (jdaMalloc H da size ds)) ∧
      Spares da live size (jdaMalloc H da size ds) := by
  rcases ArenaMode.cases da.mode with hmode | hmode
  · simp only [SizeOk, hmode] at hsz
    rw [jdaMalloc_base hmode]
    rcases arenaAlloc_spec L.base hsz with he | ⟨a', m', he, hblk⟩
    · rw [he]; exact ⟨L, .refused rfl rfl⟩
    · rw [he]
      have hL := L.basePush hmode hblk
      refine ⟨hL.afterBase hmode (filter_not_false live), fun b hb x hx hx' => ?_,
        fun h => by cases hmode.symm.trans h⟩
      -- a live block is apart from the new one and from the cursor
      have hnew := hL.off_new hb hx hx'
      have hcur := L.block_cursor_apart hb
      have hlo := (L.blocks b hb).lo_add
      simp only [Block.lo, Home.headerLen] at hnew
      simp only [Span.Disjoint, Block.foot] at hcur
      exact hblk.frame x (by omega) (by omega)
  cases hsel : da.selected with
  | none => rw [jdaMalloc_none hmode hsel]; exact ⟨L, .refused rfl rfl⟩
  | some ra =>
    obtain ⟨hr, -⟩ := DualArena.selected_mem hsel
    simp only [SizeOk, hmode, hsel] at hsz
    cases hm : ra.mode with
    | bump =>
      simp only [hm] at hsz
      rw [jdaMalloc_bump hmode hsel hm]
      obtain ⟨c, hc⟩ := L.bumpOk hmode hr hm
      rcases reqBumpAlloc_spec (m := da.mem) (L.geo.ra ra hr) hc (hoff.fresh ra hr) hsz with
        he | ⟨c', cs, R, ra', m', hroom, hR, hfit, he, hblk⟩
      · rw [he]
        exact ⟨L.setFields hr (sameAlloc_noteOom _ ra size), .refused rfl rfl⟩
      · rw [he]
        have hL := L.bumpPush hmode hr hm hoff hc hroom hR hfit hblk
        have hm' := hblk.same.mode_eq.trans hm
        have hsel' := hL.selected_put hsel hblk.same.id_eq
        have hok := hL.afterBump (H := H) hmode hsel hblk.same.id_eq hm' (filter_not_false live)
        refine ⟨hok, fun b hb x hx hx' => ?_, fun _ =>
          hok.movesOut hmode hsel' rfl fun x hx _ => ?_⟩
        · have hnew := hL.off_new hb hx hx'
          simp only [Block.lo, Home.headerLen] at hnew
          exact hblk.frame x (by omega)
        · rw [blockOf_bump (by exact hmode) hsel' hm'] at hx
          simp only [Span.Has, Block.foot, Block.lo, Home.headerLen] at hx
          exact hblk.frame x (by omega)
    | gc =>
      obtain ⟨st, hst, cs, ra1, ret, st', eff, R, hrun, hQ⟩ :=
        L.msCall hmode hsel hm hoff fun st brk h => C.malloc size brk h
      rw [jdaMalloc_gc hmode hsel hm hst, hrun]
      cases ret with
      | none =>
        refine ⟨L.msRefused R hQ.1 hQ.2 size, fun b hb x => L.ms_bytes R hQ.1 hb, fun _ =>
          ⟨rfl, fun x hx => R.outside hQ.1 fun c hc => (R.base hc).not_has hx, by rintro _ ⟨⟩⟩⟩
      | some v =>
        obtain ⟨hframe, u, hu, hfresh, hInv⟩ := hQ
        have hok :=
          L.msBranch R (Word.add ra1.used (Word.sub (msUsable H ra1 (ofView ra.headBuf v)) 0))
          (List.Sublist.refl _) (fun b hb _ => hb) hframe hu hfresh hInv (filter_not_false live)
        have hsel' := hok.cons.selected_put hsel R.grown.id_eq
        refine ⟨hok, fun b hb x => L.ms_bytes R hframe hb, fun _ => hok.movesOut hmode hsel' rfl
          fun x _ hout => ?_⟩
        have hx := hout _ (DualArena.selected_mem hsel').1
        exact R.outside hframe hx

/-- `jda_calloc` keeps the layout and returns zeroed bytes. -/
theorem jdaCalloc_spec (L : Layout C da live) {count : Nat}
    (hsz : count * size < 2 ^ 64 → SizeOk H da (count * size)) (hoff : Offers da ds) :
    Sys.Ok C (afterAlloc H live (fun _ => false) (count * size) (jdaCalloc H da count size ds)) ∧
    ∀ p, (jdaCalloc H da count size ds).1 = some p → ∀ i < count * size,
      (jdaCalloc H da count size ds).2.mem (p + i) = 0 := by
  by_cases hbad : count = 0 ∨ size = 0 ∨ 2 ^ 64 ≤ count * size
  · rw [jdaCalloc_refused hbad]; exact ⟨L, nofun⟩
  have hc : 0 < count := by omega
  have hz : 0 < size := by omega
  have hlt : count * size < 2 ^ 64 := by omega
  by_cases hgc : ∃ ra, da.mode = .request ∧ da.selected = some ra ∧ ra.mode = .gc
  · obtain ⟨ra, hmode, hsel, hm⟩ := hgc
    obtain ⟨hr, -⟩ := DualArena.selected_mem hsel
    obtain ⟨st, hst, cs, ra1, ret, st', eff, R, hrun, hQ⟩ :=
      L.msCall hmode hsel hm hoff fun st brk h => C.calloc count size brk h
    rw [jdaCalloc_gc hc hz hlt hmode hsel hm hst, hrun]
    cases ret with
    | none => exact ⟨L.msRefused R hQ.1 hQ.2 _, nofun⟩
    | some v =>
      obtain ⟨hframe, ⟨u, hu, hfresh, hInv⟩, hzero⟩ := hQ
      refine ⟨L.msBranch R _ (List.Sublist.refl _) (fun b hb _ => hb) hframe hu hfresh hInv
        (filter_not_false live), ?_⟩
      intro p hp i hi
      obtain rfl := Option.some.inj hp
      have hview : toView ra.headBuf (ofView ra.headBuf v + i) = v + i :=
        toView_add (L.geo.ra ra hr) (R.back hInv (Set.mem_insert _ _)) i
      show eff _ (toView ra.headBuf (ofView ra.headBuf v + i)) = 0
      rw [hview]
      exact hzero _ i hi
  · rw [jdaCalloc_fill hc hz hlt fun hmode ra hsel =>
      (ReqMode.cases ra.mode).resolve_left fun hm => hgc ⟨ra, hmode, hsel, hm⟩]
    have hok := (jdaMalloc_spec L (hsz hlt) hoff).1
    refine ⟨hok.fill (fun p m x => Mem.memset_of_notMem) fun _ _ => filter_not_false live, ?_⟩
    generalize jdaMalloc H da (count * size) ds = r
    obtain ⟨_ | p, da'⟩ := r
    · nofun
    · rintro _ ⟨⟩ i hi
      exact Mem.memset_of_mem (Nat.le_add_right _ _) (Nat.add_lt_add_left hi _)

end

end ArenaJs
