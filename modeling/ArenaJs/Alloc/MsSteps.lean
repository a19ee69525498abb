import ArenaJs.Alloc.Run

/-!
# mspace calls keep the layout

`ms_place` turns dlmalloc's contract, stated in the addresses the space sees, into a place in one of
the arena's rooms: this is where extents must not touch each other. `Layout.gcStep` is the layout
after an mspace call, with or without a new block.
-/

namespace ArenaJs

section
variable {σ : Type} {H : Host σ} {C : H.ms.Contract} {da : DualArena σ} {live keep : List Block}
  {ra ra' : RequestArena σ} {ds : List Decision}
variable {st : σ} {cs : List ReqChunk} {L : Set (Nat × Nat)} {m' : Mem}

/-- A block of the space lies in one room of the arena. -/
theorem ms_place (hg : RaGeo ra) (hap : ra.chunks.Pairwise fun c d => c.span.Apart d.span)
    (hInv : C.Inv st ra.segs L) {v u : Nat} (hb : (v, u) ∈ L) :
    toView ra.headBuf (ofView ra.headBuf v) = v ∧ 16 ∣ ofView ra.headBuf v ∧ 0 < u ∧
      8 < ofView ra.headBuf v ∧
      ∃ c ∈ ra.chunks, (⟨ofView ra.headBuf v - 8, ofView ra.headBuf v + u⟩ : Span).Within
        (ra.room c) := by
  obtain ⟨hhpos, hhdvd, hhle⟩ := hg.headBuf_lt
  have hhsize := hg.head_size
  have hu := C.usable_pos hInv _ hb
  have hdvd := C.aligned hInv _ hb
  simp only at hu hdvd
  -- an address of the block is, seen from the arena, an address of a room
  have room_of : ∀ x, v - 8 ≤ x → x < v + u → ∃ c ∈ ra.chunks,
      toView ra.headBuf (ra.room c).lo ≤ x ∧ x < toView ra.headBuf (ra.room c).hi := by
    intro x h1 h2
    obtain ⟨s, hs, hx⟩ := C.covered hInv _ hb x ⟨h1, h2⟩
    obtain ⟨c, hc, rfl⟩ := mem_segs.1 hs
    exact ⟨c, hc, hx⟩
  obtain ⟨c0, hc0, hlo0, -⟩ := room_of (v - 8) (Nat.le_refl _) (by omega)
  have hpos0 := (hg.chunk_ok c0 hc0).buf_pos
  have hroom0 := (ra.room_within c0).1
  simp only [ReqChunk.span] at hroom0
  have hv : 2 ^ 64 + 8 < v + ra.headBuf := by
    simp only [toView] at hlo0; omega
  have hback := toView_ofView (by omega : 2 ^ 64 ≤ v + ra.headBuf)
  generalize hp : ofView ra.headBuf v = p at hback ⊢
  have hpv : p + 2 ^ 64 = v + ra.headBuf := by
    rw [← hp]; unfold ofView; omega
  refine ⟨hback, by omega, hu, by omega, ?_⟩
  obtain ⟨t, ht, hw⟩ := Span.within_of_covered (L := ra.chunks.map ra.room)
    (s := ⟨p - 8, p + u⟩) (by simp only; omega)
    (by
      intro t ht t' ht' hne
      obtain ⟨c, hc, rfl⟩ := List.mem_map.1 ht
      obtain ⟨d, hd, rfl⟩ := List.mem_map.1 ht'
      have : Std.Symm fun c d : ReqChunk => c.span.Apart d.span := ⟨fun _ _ => .symm⟩
      exact (hap.forall hc hd fun h => hne (h ▸ rfl)).mono (ra.room_within c) (ra.room_within d))
    (by
      intro x hx
      simp only [Span.Has] at hx
      obtain ⟨c, hc, h1, h2⟩ := room_of (x + 2 ^ 64 - ra.headBuf) (by omega) (by omega)
      refine ⟨_, List.mem_map_of_mem hc, ?_⟩
      simp only [toView] at h1 h2
      simp only [Span.Has]
      omega)
  obtain ⟨c, hc, rfl⟩ := List.mem_map.1 ht
  exact ⟨c, hc, hw⟩

/-- Distinct blocks of the space have disjoint footprints. -/
theorem ms_disjoint (hg : RaGeo ra) (hap : ra.chunks.Pairwise fun c d => c.span.Apart d.span)
    (hInv : C.Inv st ra.segs L) {v u w t : Nat} (hv : (v, u) ∈ L)
    (hw : (w, t) ∈ L) (hne : v ≠ w) :
    (⟨ofView ra.headBuf v - 8, ofView ra.headBuf v + u⟩ : Span).Disjoint
      ⟨ofView ra.headBuf w - 8, ofView ra.headBuf w + t⟩ := by
  have hd := C.disjoint hInv _ hv _ hw fun h => hne (congrArg Prod.fst h)
  obtain ⟨h1, -, -, h2, -⟩ := ms_place hg hap hInv hv
  obtain ⟨h3, -, -, h4, -⟩ := ms_place hg hap hInv hw
  generalize ofView ra.headBuf v = p at *
  generalize ofView ra.headBuf w = q at *
  subst h1 h3
  obtain ⟨hhpos, -, hhle⟩ := hg.headBuf_lt
  simp only [msFoot, Span.Disjoint, toView] at hd ⊢
  omega

/-- What a grown arena keeps. -/
structure Grown (ra ra' : RequestArena σ) (cs : List ReqChunk) : Prop where
  id_eq : ra'.id = ra.id
  floor_eq : ra'.floor = ra.floor
  mode_eq : ra'.mode = ra.mode
  chunks_eq : ra'.chunks = ra.chunks ++ cs

theorem Grown.headBuf_eq (h : Grown ra ra' cs) (hg : RaGeo ra) :
    ra'.headBuf = ra.headBuf := by
  obtain ⟨d, ds', hd⟩ := List.exists_cons_of_ne_nil hg.nonempty
  simp [RequestArena.headBuf, h.chunks_eq, hd]

theorem Grown.room_eq (h : Grown ra ra' cs) (hg : RaGeo ra) (c : ReqChunk) :
    ra'.room c = ra.room c := by
  simp [RequestArena.room, h.headBuf_eq hg, h.floor_eq]

/-- The blocks of a GC-mode arena are mspace blocks. -/
theorem Layout.home_gc (L : Layout C da live) (hr : ra ∈ da.requests) (hgc : ra.mode = .gc)
    {b : Block} (hb : b ∈ live) (hid : b.home.id? = some ra.id) : b.home = .gc ra.id := by
  obtain ⟨rb, hrb, hrid, hm, -⟩ := (L.blocks b hb).in_room hid
  obtain rfl := L.geo.eq_of_id hrb hr hrid
  cases hbh : b.home with
  | base => simp [hbh, Home.id?] at hid
  | bump id =>
    simp only [hbh, Home.id?, Option.some.injEq] at hid
    rw [hbh, hid, hgc] at hm
    exact absurd (hm.2 rfl) (by decide)
  | gc id =>
    simp only [hbh, Home.id?, Option.some.injEq] at hid
    rw [hid]

/-- The layout after an mspace call of the arena `ra`: its own surviving blocks, possibly a new one,
satisfy the contract. -/
theorem Layout.gcStep (L : Layout C da live) (hmode : da.mode = .request)
    (hr : ra ∈ da.requests) (hgc : ra.mode = .gc) (hoff : Offers da ds)
    (ht : Taken Span.Apart cs ds) (hgrow : Grown ra ra' cs)
    (hap : ra'.chunks.Pairwise fun c d => c.span.Apart d.span) (hst : ra'.msp = some st)
    (hm : ∀ x, (∀ c ∈ ra'.chunks, ¬ c.span.Has x) → m' x = da.mem x) {live' : List Block}
    (hother : ∀ b, b.home.id? ≠ some ra.id → (b ∈ live' ↔ b ∈ live))
    (hown : ∀ b ∈ live', b.home.id? = some ra.id → b ∉ live → BlockOk (da.put ra' m') b)
    (hInv : C.Inv st ra'.segs (gcBlocks live' ra'))
    (hpair : live'.Pairwise fun b c => b.home = c.home → b.foot.Disjoint c.foot) :
    Layout C (da.put ra' m') live' := by
  have hg := L.geo.ra ra hr
  have hid := hgrow.id_eq
  have hin : ra' ∈ (da.put ra' m').requests :=
    DualArena.mem_put_self ⟨ra, hr, hid.symm⟩
  refine L.put hr hid
    (L.geo.put hr hid hgrow.floor_eq hgrow.chunks_eq ht.disjoint hoff.fresh hoff.base) hm hother
    ?_ (fun h => absurd (hmode.symm.trans h) (by decide)) ?_ hpair
  · intro b hb hbid
    by_cases hbl : b ∈ live
    · have hok := L.blocks b hbl
      have hh := L.home_gc hr hgc hbl hbid
      obtain ⟨rb, hrb, hrid, -, c, hc, hw⟩ := hok.in_room hbid
      obtain rfl := L.geo.eq_of_id hrb hr hrid
      refine { hok with housed := ?_ }
      simp only [Housed, hh]
      refine ⟨hmode, ra', hin, hid, hgrow.mode_eq.trans hgc, c, ?_, ?_⟩
      · rw [hgrow.chunks_eq]; exact List.mem_append_left _ hc
      · rw [hgrow.room_eq hg]; exact hw
    · exact hown b hb hbid hbl
  · intro _
    simp only [ArenaOk, hgrow.mode_eq.trans hgc]
    exact ⟨⟨st, hst, hInv⟩, hap⟩

/-- What dlmalloc leaves alone, the arena's surroundings included. -/
theorem MsFrame.outside (hg : RaGeo ra) {eff : Mem → Mem}
    (h : MsFrame ra.segs L eff) (m : Mem) {x : Nat} (hx : ∀ c ∈ ra.chunks, ¬ c.span.Has x) :
    applyView ra.headBuf eff m x = m x := by
  obtain ⟨hhpos, -, hhle⟩ := hg.headBuf_lt
  have hxx : ofView ra.headBuf (toView ra.headBuf x) = x := ofView_toView (by omega)
  refine (h _ _ (.inl fun s hs hv => ?_)).trans (congrArg m hxx)
  obtain ⟨c, hc, rfl⟩ := mem_segs.1 hs
  have := ra.room_within c
  refine hx c hc ?_
  simp only [Span.Has, Span.Within, toView] at *
  omega

/-- The bytes of a surviving block are not written. -/
theorem MsFrame.inside (hg : RaGeo ra) {segs : List Span} {eff : Mem → Mem}
    (h : MsFrame segs L eff) (m : Mem) {v u i : Nat} (hb : (v, u) ∈ L) (hi : i < u)
    (hv : toView ra.headBuf (ofView ra.headBuf v) = v) :
    applyView ra.headBuf eff m (ofView ra.headBuf v + i) = m (ofView ra.headBuf v + i) := by
  obtain ⟨hhpos, -, hhle⟩ := hg.headBuf_lt
  have hxx : ofView ra.headBuf (toView ra.headBuf (ofView ra.headBuf v + i)) =
      ofView ra.headBuf v + i := ofView_toView (by omega)
  refine (h _ _ (.inr ⟨_, hb, ?_⟩)).trans (congrArg m hxx)
  generalize ofView ra.headBuf v = p at *
  subst hv
  simp only [toView]
  omega

/-- The blocks of the space do not depend on what else changed in the arena. -/
theorem Grown.gcBlocks_eq (h : Grown ra ra' cs) (hg : RaGeo ra)
    (live : List Block) : gcBlocks live ra' = gcBlocks live ra := by
  simp [gcBlocks, h.id_eq, h.headBuf_eq hg]

/-- One more block. -/
theorem gcBlocks_cons {b : Block} (hh : b.home = .gc ra.id) (live : List Block) :
    gcBlocks (b :: live) ra =
      insert (toView ra.headBuf b.ptr, b.hi - b.ptr) (gcBlocks live ra) := by
  ext x
  simp only [gcBlocks, Set.mem_ofPred_eq, Set.mem_insert_iff, List.mem_cons]
  constructor
  · rintro ⟨c, rfl | hc, hch, rfl⟩
    · exact .inl rfl
    · exact .inr ⟨c, hc, hch, rfl⟩
  · rintro (rfl | ⟨c, hc, hch, rfl⟩)
    · exact ⟨b, .inl rfl, hh, rfl⟩
    · exact ⟨c, .inr hc, hch, rfl⟩

theorem toView_inj {head a b : Nat} (hh : head ≤ 2 ^ 64) (h : toView head a = toView head b) :
    a = b := by
  rw [← ofView_toView (a := a) hh, h, ofView_toView hh]

/-- The blocks that survive without `p`. -/
theorem gcBlocks_remove (hg : RaGeo ra) {p : Nat} {keep : List Block}
    (hk : ∀ b, b.home = .gc ra.id → (b ∈ keep ↔ b ∈ live ∧ b.ptr ≠ p)) :
    gcBlocks keep ra = msRemove (gcBlocks live ra) (toView ra.headBuf p) := by
  obtain ⟨hhpos, -, hhle⟩ := hg.headBuf_lt
  ext x
  constructor
  · rintro ⟨b, hb, hh, rfl⟩
    obtain ⟨hb, hne⟩ := (hk b hh).1 hb
    exact ⟨⟨b, hb, hh, rfl⟩, fun h => hne (toView_inj (by omega) h)⟩
  · rintro ⟨⟨b, hb, hh, rfl⟩, hne⟩
    exact ⟨b, (hk b hh).2 ⟨hb, fun h => hne (h ▸ rfl)⟩, hh, rfl⟩

end

end ArenaJs
