import ArenaJs.Alloc.Realloc

/-!
# The life of a dual arena keeps the layout

Creation, freeze, selection and mode switches of a dual arena, and creation, reset and release of a
request arena. What a fresh allocator looks like is said once, in `requestModeApply_spec`; freeze,
reset and creation use it.
-/

namespace ArenaJs

section
variable {σ : Type} {H : Host σ} {C : H.ms.Contract} {da : DualArena σ} {live : List Block}
  {ra : RequestArena σ} {ds : List Decision} {b : Block} {m : Mem}
variable {id : ReqId} {m' : Mem} {c : ReqChunk}

/-! ## Mode switches and stores -/

/-- `js_dual_arena_set_request_mode` keeps the layout. -/
theorem setRequestMode_spec (L : Layout C da live) (mode : ReqMode) :
    Layout C (setRequestMode da mode) live := by
  unfold setRequestMode
  split
  · exact L
  · next ra hsel =>
    exact L.setFields (DualArena.selected_mem hsel).1 ⟨rfl, rfl, rfl, rfl, rfl, rfl, rfl, rfl, rfl⟩

/-- A byte the engine stores in a block or in a state slot. -/
theorem Layout.store (L : Layout C da live) {addr : Nat} (byte : UInt8)
    (h : (∃ b ∈ live, b.bytes.Has addr) ∨
      ∃ ra ∈ da.requests, (⟨ra.slot, ra.slot + requestSlotSize⟩ : Span).Has addr) :
    Layout C { da with mem := fun x => if x = addr then byte else da.mem x } live := by
  refine L.write fun x => ?_
  by_cases hx : x = addr
  · exact .inr (hx ▸ h)
  · exact .inl (if_neg hx)

/-! ## A fresh allocator -/

/-- An arena fresh from `request_mode_apply`: one extent, an allocator in order, no blocks. -/
structure FreshArena (C : H.ms.Contract) (ra ra' : RequestArena σ) (c : ReqChunk) : Prop where
  id_eq : ra'.id = ra.id
  floor_eq : ra'.floor = ra.floor
  chunks_eq : ra'.chunks = [c]
  ok : ∀ live, (∀ b ∈ live, b.home.id? ≠ some ra.id) → ArenaOk C live ra'

/-- The one segment of a space over the head extent. -/
theorem RequestArena.segs_singleton (hc : ra.chunks = [c]) :
    ra.segs = [⟨toView c.buf (c.buf + ra.floor), toView c.buf (c.buf + c.size)⟩] := by
  have hbuf : ra.headBuf = c.buf := by simp [RequestArena.headBuf, hc]
  simp [segs, room, hc, hbuf]

theorem gcBlocks_empty (h : ∀ b ∈ live, b.home.id? ≠ some ra.id) : gcBlocks live ra = ∅ := by
  refine Set.eq_empty_of_forall_notMem ?_
  rintro x ⟨b, hb, hh, -⟩
  exact h b hb (by rw [hh]; rfl)

/-- `request_mode_apply` on an arena that holds its head extent only. -/
theorem requestModeApply_spec (C : H.ms.Contract) (hg : RaGeo ra)
    (hc : ra.chunks = [c]) (m : Mem) : FreshArena C ra (requestModeApply H ra m).1 c ∧
      ∀ x, ¬ c.span.Has x → (requestModeApply H ra m).2 x = m x := by
  have hfl := hg.floor_eq
  have hhs := hg.head_size
  have hbuf : ra.headBuf = c.buf := by simp [RequestArena.headBuf, hc]
  have hsize : ra.headSize = c.size := by simp [RequestArena.headSize, hc]
  obtain ⟨hpos, hdvd, hle⟩ := hg.headBuf_lt
  rw [hbuf] at hpos hle
  rw [hsize] at hle hhs
  have hroom : ra.room c = ⟨c.buf + ra.floor, c.buf + c.size⟩ := by
    simp [RequestArena.room, hbuf]
  unfold requestModeApply
  split
  · have hseg : (⟨toView c.buf (c.buf + ra.floor), toView c.buf (c.buf + c.size)⟩ : Span) =
        ⟨2 ^ 64 + ra.floor, 2 ^ 64 + ra.floor + Word.sub ra.headSize ra.floor⟩ := by
      rw [hsize, Word.sub_eq (by omega) (by omega)]
      simp only [toView, Span.mk.injEq]
      omega
    have hcreate := C.create (2 ^ 64 + ra.floor) (Word.sub ra.headSize ra.floor)
      (by rw [hfl]; decide)
    rw [← hseg, ← RequestArena.segs_singleton hc] at hcreate
    generalize H.ms.create (2 ^ 64 + ra.floor) (Word.sub ra.headSize ra.floor) = r at hcreate
    obtain ⟨st, eff⟩ := r
    obtain ⟨hInv, hframe⟩ := hcreate
    refine ⟨⟨rfl, rfl, hc, fun live hlive => ⟨⟨st, rfl, ?_⟩, ?_⟩⟩, fun x hx =>
      hframe.outside hg m ?_⟩
    · have hInv' : C.Inv st ra.segs (gcBlocks live ra) := by rw [gcBlocks_empty hlive]; exact hInv
      exact hInv'
    · show ra.chunks.Pairwise _
      rw [hc]
      exact List.pairwise_singleton _ _
    · rw [hc]
      exact List.forall_mem_singleton.2 hx
  · refine ⟨⟨rfl, rfl, hc, fun live _ => ⟨c, ?_, ?_, ?_, ?_, ?_⟩⟩, fun x _ => rfl⟩
    · simp [reqBumpReset, hc]
    · simp [reqBumpReset, hc]
    · simp only [reqBumpReset, hfl]
      decide
    · simp only [reqBumpReset]
      decide
    · have hroom' : RequestArena.room (reqBumpReset { ra with mode := .bump, msp := none }) c =
          ⟨c.buf + ra.floor, c.buf + c.size⟩ := hroom
      refine ⟨?_, ?_, fun p a h => ?_⟩
      · simp only [RequestArena.region, hroom']
        exact Nat.le_refl _
      · simp only [RequestArena.region, reqBumpReset]
        omega
      · simp [RequestArena.region, reqBumpReset] at h

/-! ## Reset and release of a request arena -/

theorem sameAlloc_oomClear (ra : RequestArena σ) : SameAlloc ra (oomClear ra) :=
  ⟨rfl, rfl, rfl, rfl, rfl, rfl, rfl, rfl, rfl⟩

/-- The blocks outside the arena called `id`. -/
theorem mem_others : b ∈ (live.filter fun b => b.home.id? ≠ some id) ↔
    b ∈ live ∧ b.home.id? ≠ some id := by
  simp

/-- An arena keeps its geometry when it gives back every extent but the head. -/
theorem RaGeo.head_only (hg : RaGeo ra) (hc : ra.chunks.head? = some c)
    {ra' : RequestArena σ} (hc' : ra'.chunks = [c]) (hfl : ra'.floor = ra.floor) : RaGeo ra' := by
  have hsize : ra'.headSize = ra.headSize := by
    simp [RequestArena.headSize, hc', hc]
  refine ⟨by rw [hc']; simp, hfl.trans hg.floor_eq, by rw [hfl, hsize]; exact hg.head_size, ?_, ?_⟩
  · rw [hc']
    exact List.forall_mem_singleton.2 (hg.chunk_ok c (List.mem_of_head? hc))
  · rw [hc']
    exact List.pairwise_singleton _ _

/-- An arena stored with fewer extents. -/
theorem DaGeo.put_head (h : DaGeo da) (hr : ra ∈ da.requests) {ra' : RequestArena σ}
    (hid : ra'.id = ra.id) (hg : RaGeo ra') (hsub : ra'.chunks ⊆ ra.chunks) :
    DaGeo (da.put ra' m) := by
  have hmem : ∀ r, r ∈ (da.put ra' m).requests → r = ra' ∨ (r ∈ da.requests ∧ r.id ≠ ra.id) :=
    fun r hr' => hid ▸ (DualArena.mem_put ⟨ra, hr, hid.symm⟩).1 hr'
  refine ⟨DualArena.put_ids h.ids, ?_, ?_, ?_⟩
  · intro r hr'
    rcases hmem r hr' with rfl | ⟨hr', -⟩
    exacts [hg, h.ra r hr']
  · intro r hr' c hc
    rcases hmem r hr' with rfl | ⟨hr', -⟩
    exacts [h.base ra hr c (hsub hc), h.base r hr' c hc]
  · intro r hr' s hs' hne c hc d hd
    rcases hmem r hr' with rfl | ⟨hr1, hne1⟩ <;> rcases hmem s hs' with rfl | ⟨hs1, hne2⟩
    · exact absurd rfl hne
    · exact h.cross ra hr s hs1 (Ne.symm hne2) c (hsub hc) d hd
    · exact h.cross r hr1 ra hr hne1 c hc d (hsub hd)
    · exact h.cross r hr1 s hs1 hne c hc d hd

/-- `js_request_arena_reset` keeps the layout; the arena's blocks are gone. -/
theorem jsRequestArenaReset_spec (L : Layout C da live) (hr : ra ∈ da.requests)
    (hid : ra.id = id) :
    Layout C (jsRequestArenaReset H da id) (live.filter fun b => b.home.id? ≠ some id) := by
  subst hid
  have hg := L.geo.ra ra hr
  obtain ⟨c, hc, hcm, -⟩ := hg.head_mem
  have hrel : (reqReleaseExtents ra).chunks = [c] ∧ (reqReleaseExtents ra).id = ra.id ∧
      (reqReleaseExtents ra).floor = ra.floor := by
    unfold reqReleaseExtents
    split
    · next h => rw [h] at hc; cases hc
    · next h => rw [h] at hc; cases hc; exact ⟨rfl, rfl, rfl⟩
  obtain ⟨hrc, hrid, hrf⟩ := hrel
  have hg' := hg.head_only hc hrc hrf
  have hout : ∀ b ∈ live.filter fun b => b.home.id? ≠ some ra.id, b.home.id? ≠ some ra.id :=
    fun b hb => (mem_others.1 hb).2
  -- the arena after the reset: one extent, and in request mode a fresh allocator
  have hnew : ∃ ra' m', requestArenaReset H da.mode ra da.mem = (ra', m') ∧ ra'.id = ra.id ∧
      ra'.floor = ra.floor ∧ ra'.chunks = [c] ∧ (∀ x, ¬ c.span.Has x → m' x = da.mem x) ∧
      (da.mode = .request → ArenaOk C (live.filter fun b => b.home.id? ≠ some ra.id) ra') := by
    rcases ArenaMode.cases da.mode with hmode | hmode
    · refine ⟨oomClear (reqBumpReset (reqReleaseExtents ra)), da.mem, ?_, hrid, hrf, hrc,
        fun _ _ => rfl, fun h => absurd (hmode.symm.trans h) (by decide)⟩
      simp [requestArenaReset, hmode]
    · obtain ⟨hfresh, hframe⟩ := requestModeApply_spec C hg' hrc da.mem
      refine ⟨oomClear (requestModeApply H (reqReleaseExtents ra) da.mem).1, _, ?_,
        hfresh.id_eq.trans hrid, hfresh.floor_eq.trans hrf, hfresh.chunks_eq, hframe, fun _ => ?_⟩
      · simp [requestArenaReset, hmode]
      · exact (sameAlloc_oomClear _).arenaOk (hfresh.ok _ (by rw [hrid]; exact hout))
  obtain ⟨ra', m', he, hid', hfl', hch', hframe, hok⟩ := hnew
  simp only [jsRequestArenaReset, L.geo.find hr, he]
  have hgeo : DaGeo (da.put ra' m') :=
    L.geo.put_head hr hid' (hg.head_only hc hch' hfl') (by rw [hch']; simpa using hcm)
  refine L.put hr hid' hgeo (fun x hx => hframe x ?_) ?_ ?_ (fun _ => by rw [hch']; rfl) hok
    (L.own.sublist List.filter_sublist)
  · exact hx c (by rw [hch']; exact .head _)
  · intro b hb
    simp [hb]
  · intro b hb hb'
    exact absurd hb' (hout b hb)

/-- A block stays in place when the arena it is in does. -/
theorem BlockOk.requests (h : BlockOk da b) {rs : List (RequestArena σ)}
    (hrs : ∀ r ∈ da.requests, b.home.id? = some r.id → r ∈ rs) :
    BlockOk { da with requests := rs } b := by
  refine { h with housed := ?_ }
  have hs := h.housed
  cases hh : b.home with
  | base => simpa only [Housed, hh] using hs
  | bump i =>
    simp only [Housed, hh] at hs ⊢
    obtain ⟨hmode, hsz, r, hr, rfl, hin⟩ := hs
    exact ⟨hmode, hsz, r, hrs r hr (by rw [hh]; rfl), rfl, hin⟩
  | gc i =>
    simp only [Housed, hh] at hs ⊢
    obtain ⟨hmode, r, hr, rfl, hin⟩ := hs
    exact ⟨hmode, r, hrs r hr (by rw [hh]; rfl), rfl, hin⟩

/-- `js_request_arena_free` keeps the layout; the arena's blocks are gone. -/
theorem jsRequestArenaFree_spec (L : Layout C da live) (id : ReqId) :
    Layout C (jsRequestArenaFree da id) (live.filter fun b => b.home.id? ≠ some id) := by
  have hmem : ∀ r, r ∈ (da.requests.filter fun ra => ra.id ≠ id) ↔ r ∈ da.requests ∧ r.id ≠ id := by
    simp
  have hkeep : Layout C { da with requests := da.requests.filter fun ra => ra.id ≠ id }
      (live.filter fun b => b.home.id? ≠ some id) := by
    refine ⟨L.base, ⟨L.geo.ids.sublist List.filter_sublist, ?_, ?_, ?_⟩, ?_, ?_, ?_,
      L.own.sublist List.filter_sublist⟩
    · exact fun r hr => L.geo.ra r ((hmem r).1 hr).1
    · exact fun r hr => L.geo.base r ((hmem r).1 hr).1
    · exact fun r hr s hs => L.geo.cross r ((hmem r).1 hr).1 s ((hmem s).1 hs).1
    · exact fun hmode r hr => L.idle hmode r ((hmem r).1 hr).1
    · intro hmode r hr
      obtain ⟨hr, hne⟩ := (hmem r).1 hr
      refine (L.arenas hmode r hr).congr fun b hb => ?_
      rw [mem_others, hb]
      exact and_iff_left (by simpa [Home.id?] using hne)
    · intro b hb
      obtain ⟨hb, hne⟩ := mem_others.1 hb
      refine (L.blocks b hb).requests fun r hr hid => (hmem r).2 ⟨hr, fun h => hne ?_⟩
      rw [hid, h]
  simp only [jsRequestArenaFree]
  split
  · exact hkeep.setCur none none da.morecoreRa
  · exact hkeep

/-! ## Creation of a request arena -/

/-- No block claims to be in an arena that does not exist. -/
theorem Layout.home_ne (L : Layout C da live) (hid : ∀ r ∈ da.requests, r.id ≠ id)
    (hb : b ∈ live) : b.home.id? ≠ some id := by
  intro h
  obtain ⟨r, hr, hrid, -⟩ := (L.blocks b hb).in_room h
  exact hid r hr hrid

/-- A new arena joins the list; only its own extents were written. -/
theorem Layout.addArena (L : Layout C da live) (hid : ∀ r ∈ da.requests, r.id ≠ ra.id)
    (hg : RaGeo ra) (hidle : ra.chunks.length = 1)
    (hbase : ∀ c ∈ ra.chunks, da.base.span.Disjoint c.span)
    (hcross : ∀ r ∈ da.requests, ∀ c ∈ r.chunks, ∀ d ∈ ra.chunks, c.span.Disjoint d.span)
    (hok : da.mode = .request → ArenaOk C live ra)
    (hm : ∀ x, (∀ c ∈ ra.chunks, ¬ c.span.Has x) → m' x = da.mem x) :
    Layout C { da with requests := ra :: da.requests, mem := m' } live := by
  have hadd : Layout C { da with requests := ra :: da.requests } live := by
    refine ⟨L.base, ⟨List.pairwise_cons.2 ⟨fun r hr => (hid r hr).symm, L.geo.ids⟩,
      List.forall_mem_cons.2 ⟨hg, L.geo.ra⟩, List.forall_mem_cons.2 ⟨hbase, L.geo.base⟩, ?_⟩,
      fun hmode => List.forall_mem_cons.2 ⟨hidle, L.idle hmode⟩,
      fun hmode => List.forall_mem_cons.2 ⟨hok hmode, L.arenas hmode⟩, ?_, L.own⟩
    · intro r hr s hs hne c hc d hd
      rcases List.mem_cons.1 hr with rfl | hr' <;> rcases List.mem_cons.1 hs with rfl | hs'
      · exact absurd rfl hne
      · exact (hcross s hs' d hd c hc).symm
      · exact hcross r hr' c hc d hd
      · exact L.geo.cross r hr' s hs' hne c hc d hd
    · exact fun b hb => (L.blocks b hb).requests fun r hr _ => .tail _ hr
  refine hadd.setMem (fun x hx hx' => hm x fun c hc hcx => ?_)
    (fun b hb _ x hx => hm x fun c hc => ?_)
  · exact (hadd.cursor_apart (.head _) hc).not_has hcx ⟨hx, hx'⟩
  · have h := hadd.blocks b hb
    refine (h.other_disjoint hadd.geo hadd.base (.head _) (L.home_ne hid hb) hc).not_has ?_
    have := h.ptr_lt
    simp only [Span.Has, Block.header, Block.foot] at hx ⊢
    omega

/-- What `js_request_arena_new` builds: an arena of one extent, taken from an offer. -/
theorem requestArenaNew_spec (C : H.ms.Contract) {mode : ArenaMode} {cap : Nat}
    {ra : RequestArena σ} (hf : Fresh Span.Disjoint [] ds)
    (h : requestArenaNew H mode id m cap ds = some (ra, m')) :
    ra.id = id ∧ RaGeo ra ∧ ∃ c s, ra.chunks = [c] ∧ some s ∈ ds ∧ c.span.Within s ∧
      (∀ x, ¬ c.span.Has x → m' x = m x) ∧
      (mode = .request → ∀ live, (∀ b ∈ live, b.home.id? ≠ some id) → ArenaOk C live ra) := by
  obtain ⟨c, s, held, extents, bound, hs, hw, hcok, hsz, h⟩ := requestArenaNew_cases h
  -- the arena before an allocator takes its extent
  generalize hra0 : (⟨id, [c], _, _, _, _, _, _, _, _, _, _, _, _, _, _, _⟩ : RequestArena σ) =
    ra0 at h
  have hid0 : ra0.id = id := by rw [← hra0]
  have hc0 : ra0.chunks = [c] := by rw [← hra0]
  have hg0 : RaGeo ra0 := by
    refine ⟨by rw [hc0]; simp, by rw [← hra0], ?_, ?_, ?_⟩
    · simp [← hra0, RequestArena.headSize]
      omega
    · rw [hc0]; exact List.forall_mem_singleton.2 (hcok (hf.ok s hs))
    · rw [hc0]; exact List.pairwise_singleton _ _
  have hpre : ∀ x, ¬ c.span.Has x → m.memset c.buf 0 arenaPrefixLen x = m x := by
    intro x hx
    refine Mem.memset_of_notMem ?_
    simp only [Span.Has, ReqChunk.span] at hx
    simp only [arenaPrefixLen] at *
    omega
  cases mode with
  | base =>
    cases h
    exact ⟨hid0, hg0, c, s, hc0, hs, hw, hpre, by simp⟩
  | request =>
    obtain ⟨hfresh, hframe⟩ := requestModeApply_spec C hg0 hc0 (m.memset c.buf 0 arenaPrefixLen)
    rw [← show (ra, m') = requestModeApply H ra0 _ from h] at hfresh hframe
    refine ⟨hfresh.id_eq.trans hid0, hg0.head_only (by rw [hc0]; rfl) hfresh.chunks_eq
      hfresh.floor_eq, c, s, hfresh.chunks_eq, hs, hw, fun x hx => (hframe x hx).trans (hpre x hx),
      fun _ live hl => hfresh.ok live (by rw [hid0]; exact hl)⟩

/-- `js_request_arena_new` keeps the layout. -/
theorem jsRequestArenaNew_spec (L : Layout C da live) (cap : Nat)
    (hid : ∀ r ∈ da.requests, r.id ≠ id) (hf : Fresh Span.Disjoint [] ds)
    (hold : ∀ r ∈ da.requests, Fresh Span.Disjoint r.chunks ds)
    (hbase : ∀ s, some s ∈ ds → da.base.span.Disjoint s) :
    Layout C (jsRequestArenaNew H da id cap ds).2 live := by
  unfold jsRequestArenaNew
  split
  · exact L
  next ra m' he =>
  obtain ⟨rfl, hg, c, s, hc, hs, hw, hm, hok⟩ := requestArenaNew_spec C hf he
  refine L.addArena hid hg (by rw [hc]; rfl) ?_ ?_ (fun hmode => hok hmode live fun b hb =>
    L.home_ne hid hb) fun x hx => hm x (hx c (by rw [hc]; exact .head _))
  · rw [hc]
    exact List.forall_mem_singleton.2 ((hbase s hs).mono .refl hw)
  · intro r hr d hd
    rw [hc]
    refine List.forall_mem_singleton.2 (Span.Disjoint.symm ?_)
    exact ((hold r hr).old s hs d hd).mono hw .refl

/-! ## Freeze -/

/-- Every arena of the list gets a fresh allocator over its extent, and nothing else is written. -/
theorem applyModes_spec (C : H.ms.Contract) :
    ∀ (ras : List (RequestArena σ)) (m : Mem),
      (∀ r ∈ ras, RaGeo r) → (∀ r ∈ ras, r.chunks.length = 1) →
      (applyModes H ras m).1.map RequestArena.id = ras.map RequestArena.id ∧
      (∀ r' ∈ (applyModes H ras m).1, ∃ r ∈ ras, ∃ c, r.chunks = [c] ∧ FreshArena C r r' c) ∧
      ∀ x, (∀ r ∈ ras, ∀ c ∈ r.chunks, ¬ c.span.Has x) → (applyModes H ras m).2 x = m x
  | [], m, _, _ => ⟨rfl, nofun, fun _ _ => rfl⟩
  | r :: ras, m, hg, hone => by
    obtain ⟨c, hc⟩ := List.length_eq_one_iff.1 (hone r (.head _))
    obtain ⟨hfresh, hframe⟩ := requestModeApply_spec C (hg r (.head _)) hc m
    obtain ⟨hids, hall, hmem⟩ := applyModes_spec C ras (requestModeApply H r m).2
      (fun r hr => hg r (.tail _ hr)) fun r hr => hone r (.tail _ hr)
    simp only [applyModes]
    refine ⟨?_, ?_, ?_⟩
    · rw [List.map_cons, List.map_cons, hids, hfresh.id_eq]
    · refine List.forall_mem_cons.2 ⟨⟨r, .head _, c, hc, hfresh⟩, fun r' hr' => ?_⟩
      obtain ⟨s, hs, d, hd, hd'⟩ := hall r' hr'
      exact ⟨s, .tail _ hs, d, hd, hd'⟩
    · intro x hx
      rw [hmem x fun s hs => hx s (.tail _ hs),
        hframe x (hx r (.head _) c (by rw [hc]; exact .head _))]

/-- `js_dual_arena_freeze` keeps the layout: every block is a base block. -/
theorem freeze_spec (L : Layout C da live) (hmode : da.mode = .base) :
    Layout C (freeze H da) live := by
  obtain ⟨hids, hall, hmem⟩ := applyModes_spec C da.requests da.mem L.geo.ra (L.idle hmode)
  simp only [freeze]
  generalize applyModes H da.requests da.mem = r at hids hall hmem
  obtain ⟨ras, m'⟩ := r
  have hcursor : ∀ x, da.base.buf ≤ x → x < da.base.buf + 8 → m' x = da.mem x :=
    fun x hx hx' => hmem x fun r hr c hc hcx => (L.cursor_apart hr hc).not_has hcx ⟨hx, hx'⟩
  have hhome : ∀ b ∈ live, b.home = .base := fun b hb => (L.blocks b hb).home_of_base hmode
  obtain ⟨-, hreg, hbase⟩ := L.base.congr m' hcursor
  refine ⟨hbase, ⟨?_, ?_, ?_, ?_⟩, nofun, ?_, ?_, L.own⟩
  · have := List.pairwise_map.2 L.geo.ids
    rw [← hids] at this
    exact List.pairwise_map.1 this
  · intro r' hr'
    obtain ⟨r, hr, c, hc, hfresh⟩ := hall r' hr'
    exact (L.geo.ra r hr).head_only (by rw [hc]; rfl) hfresh.chunks_eq hfresh.floor_eq
  · intro r' hr' d hd
    obtain ⟨r, hr, c, hc, hfresh⟩ := hall r' hr'
    rw [hfresh.chunks_eq, ← hc] at hd
    exact L.geo.base r hr d hd
  · intro r' hr' s' hs' hne d hd e he
    obtain ⟨r, hr, c, hc, hfresh⟩ := hall r' hr'
    obtain ⟨s, hs, c', hc', hfresh'⟩ := hall s' hs'
    rw [hfresh.chunks_eq, ← hc] at hd
    rw [hfresh'.chunks_eq, ← hc'] at he
    rw [hfresh.id_eq, hfresh'.id_eq] at hne
    exact L.geo.cross r hr s hs hne d hd e he
  · intro _ r' hr'
    obtain ⟨r, hr, c, hc, hfresh⟩ := hall r' hr'
    exact hfresh.ok live fun b hb => by rw [hhome b hb]; simp [Home.id?]
  · intro b hb
    have h := L.blocks b hb
    refine { h with housed := ?_ }
    have hs := h.housed
    simp only [Housed, hhome b hb] at hs ⊢
    have hsize := h.header_word (by rw [hhome b hb]; rfl) (?_ : ∀ x, b.foot.Has x → m' x = da.mem x)
    · rw [hreg, hsize]
      exact hs
    intro x hx
    exact hmem x fun r hr c hc => (h.base_disjoint L.geo L.base (hhome b hb) hr hc).not_has hx

/-! ## Creation -/

/-- `arena_init` starts with an empty region. -/
theorem arenaInit_spec {baseSize : Nat} {map : Option Nat} (hi : InitOk H baseSize map ds)
    {base : JSArena} {m0 : Mem} (h : arenaInit H m baseSize map = some (base, m0)) :
    ∃ buf, map = some buf ∧ base.span = (⟨buf, pagesRound H (if baseSize = 0 then arenaDefaultSize
      else baseSize)⟩ : ReqChunk).span ∧ BaseOk m0 base := by
  simp only [arenaInit] at h
  by_cases hlt : pagesRound H (if baseSize = 0 then arenaDefaultSize else baseSize) <
      arenaPrefixLen + arenaHeaderSize + arenaAlign
  · rw [if_pos hlt] at h
    cases h
  rw [if_neg hlt] at h
  cases map with
  | none => cases h
  | some buf =>
    have hok := hi.base buf rfl
    generalize pagesRound H (if baseSize = 0 then arenaDefaultSize else baseSize) = cap at *
    simp only [arenaPrefixLen, arenaHeaderSize, arenaAlign] at hlt h
    cases h
    have hpos := hok.buf_pos
    have hdvd := hok.buf_dvd
    have hcur : arenaCursor (arenaSetCursor m ⟨buf, cap, 16, none, 0⟩ 16) ⟨buf, cap, 16, none, 0⟩ =
        16 := Mem.readU64_writeU64 _ _ (by decide)
    refine ⟨buf, rfl, rfl, rfl, hpos, ?_,
      hok.fits, by rw [hcur], ⟨0, rfl⟩, ?_, ?_, by rintro _ _ ⟨⟩⟩
    · exact Nat.dvd_trans (by decide) hdvd
    · simp only [JSArena.region, hcur]
      exact Nat.le_refl _
    · simp only [JSArena.region, hcur]
      omega

/-- `js_dual_arena_new2` starts with a layout without blocks. -/
theorem dualArenaNew2_spec (C : H.ms.Contract) {baseSize cap : Nat} {map : Option Nat}
    (hi : InitOk H baseSize map ds) (h : dualArenaNew2 H m baseSize map id cap ds = some da) :
    Layout C da [] := by
  unfold dualArenaNew2 at h
  cases hinit : arenaInit H m baseSize map with
  | none => rw [hinit] at h; cases h
  | some r =>
    obtain ⟨base, m0⟩ := r
    rw [hinit] at h
    obtain ⟨buf, hmap, hspan, hbase⟩ := arenaInit_spec hi hinit
    have L0 : Layout C ⟨m0, base, .base, none, [], none, none⟩ [] :=
      ⟨hbase, ⟨.nil, nofun, nofun, nofun⟩, nofun, nofun, nofun, .nil⟩
    have hnew : ∀ r ∈ ([] : List (RequestArena σ)), r.id ≠ id := nofun
    have L1 := jsRequestArenaNew_spec L0 cap hnew
      ⟨(hi.fresh buf hmap).ok, nofun, (hi.fresh buf hmap).pairwise⟩ nofun
      fun s hs => hspan ▸ ((hi.fresh buf hmap).old s hs _ (.head _)).symm
    simp only at h
    split at h
    · cases h
    · next id' da' he =>
      rw [he] at L1
      rw [← Option.some.inj h]
      exact L1.setCur (some id') _ _

end

end ArenaJs
