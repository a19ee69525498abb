import ArenaJs.Alloc.Dual
import ArenaJs.Alloc.RequestSpec

/-!
# The layout of a dual arena

The blocks handed out and not yet reclaimed, as ghost state beside the dual arena (`Sys`), and the
invariant that ties the two together (`Layout`): extents and base buffer are disjoint ranges
(`DaGeo`), each block lies in a room of its home with its header (`BlockOk`), each arena's allocator
is in order (`ArenaOk`), and blocks of one home do not overlap. Blocks of different homes are apart
because their rooms are (`Layout.disjoint`).

A block stays in the ghost list until its memory is really reclaimed: `jda_free` in base or bump
mode and a reallocation that copies leave the old block where it is.
-/

namespace ArenaJs

variable {σ : Type} {H : Host σ}
variable {da : DualArena σ} {ra : RequestArena σ} {m : Mem}

/-! ## Blocks -/

/-- The allocator a block came from. -/
inductive Home where
  | base
  | bump (id : ReqId)
  | gc (id : ReqId)
deriving DecidableEq, Repr

/-- The bytes before a block that belong to it: the arena's header, or dlmalloc's head word. -/
def Home.headerLen : Home → Nat
  | .base | .bump _ => 16
  | .gc _ => 8

/-- The request arena of a home. -/
def Home.id? : Home → Option ReqId
  | .base => none
  | .bump id | .gc id => some id

theorem Home.eq_base {h : Home} (hid : h.id? = none) : h = .base := by
  cases h <;> simp [id?] at hid ⊢

/-- A block: its pointer, the bytes asked for, the end of the memory reserved for it, its home. -/
structure Block where
  ptr : Nat
  size : Nat
  hi : Nat
  home : Home
deriving DecidableEq, Repr

namespace Block

/-- Where the block's header starts. -/
def lo (b : Block) : Nat := b.ptr - b.home.headerLen

/-- Header and body. -/
def foot (b : Block) : Span := ⟨b.lo, b.hi⟩

/-- The bytes asked for. -/
def bytes (b : Block) : Span := ⟨b.ptr, b.ptr + b.size⟩

/-- The header. -/
def header (b : Block) : Span := ⟨b.lo, b.ptr⟩

end Block

/-- A dual arena with the blocks it has handed out. -/
structure Sys (σ : Type) where
  da : DualArena σ
  live : List Block

/-! ## Geometry of the whole -/

/-- Base buffer and extents are disjoint, arenas have distinct names. -/
structure DaGeo (da : DualArena σ) : Prop where
  ids : da.requests.Pairwise fun r s => r.id ≠ s.id
  ra : ∀ r ∈ da.requests, RaGeo r
  base : ∀ r ∈ da.requests, ∀ c ∈ r.chunks, da.base.span.Disjoint c.span
  cross : ∀ r ∈ da.requests, ∀ s ∈ da.requests, r.id ≠ s.id → ∀ c ∈ r.chunks, ∀ d ∈ s.chunks,
    c.span.Disjoint d.span

theorem DualArena.find_mem {id : ReqId}
    (h : da.find id = some ra) : ra ∈ da.requests ∧ ra.id = id :=
  ⟨List.mem_of_find?_eq_some h, by simpa using List.find?_some h⟩

theorem DualArena.selected_mem
    (h : da.selected = some ra) : ra ∈ da.requests ∧ da.cur = some ra.id := by
  obtain ⟨id, hc, hf⟩ := Option.bind_eq_some_iff.1 h
  obtain ⟨hm, rfl⟩ := DualArena.find_mem hf
  exact ⟨hm, hc⟩

instance : Std.Symm fun r s : RequestArena σ => r.id ≠ s.id := ⟨fun _ _ h => h.symm⟩

theorem DualArena.eq_of_id (hids : da.requests.Pairwise fun r s => r.id ≠ s.id)
    {r s : RequestArena σ} (hr : r ∈ da.requests) (hs : s ∈ da.requests) (he : r.id = s.id) :
    r = s := by
  by_contra hne
  exact hids.forall hr hs hne he

theorem DaGeo.eq_of_id (h : DaGeo da) {r s : RequestArena σ}
    (hr : r ∈ da.requests) (hs : s ∈ da.requests) (he : r.id = s.id) : r = s :=
  DualArena.eq_of_id h.ids hr hs he

/-- Every arena found under its own name. -/
theorem DualArena.find_of_mem (hids : da.requests.Pairwise fun r s => r.id ≠ s.id)
    (hr : ra ∈ da.requests) : da.find ra.id = some ra :=
  find?_of_unique hr (by simp) fun _ hb he => eq_of_id hids hb hr (by simpa using he)

theorem DaGeo.find (h : DaGeo da) (hr : ra ∈ da.requests) : da.find ra.id = some ra :=
  DualArena.find_of_mem h.ids hr

/-- The arenas after one of them got a new state. -/
theorem DualArena.mem_put {ra r : RequestArena σ}
    (hex : ∃ r0 ∈ da.requests, r0.id = ra.id) :
    r ∈ (da.put ra m).requests ↔ r = ra ∨ (r ∈ da.requests ∧ r.id ≠ ra.id) := by
  simp only [put, List.mem_map]
  constructor
  · rintro ⟨r0, hm, rfl⟩
    split
    · exact .inl rfl
    · next hne => exact .inr ⟨hm, hne⟩
  · rintro (rfl | ⟨hm, hne⟩)
    · obtain ⟨r0, hm, he⟩ := hex
      exact ⟨r0, hm, if_pos he⟩
    · exact ⟨r, hm, if_neg hne⟩

theorem DualArena.mem_put_self
    (hex : ∃ r0 ∈ da.requests, r0.id = ra.id) : ra ∈ (da.put ra m).requests :=
  (mem_put hex).2 (.inl rfl)

theorem DualArena.put_ids
    (h : da.requests.Pairwise fun r s => r.id ≠ s.id) :
    (da.put ra m).requests.Pairwise fun r s => r.id ≠ s.id := by
  have hid : ∀ r : RequestArena σ, (if r.id = ra.id then ra else r).id = r.id := by
    intro r; split
    · next he => exact he.symm
    · rfl
  simp only [put, List.pairwise_map, hid]
  exact h

/-- An arena that grew by offered extents, put back. -/
theorem DaGeo.put (h : DaGeo da) {ra ra' : RequestArena σ}
    {cs : List ReqChunk} {ds : List Decision} (hr : ra ∈ da.requests) (hid : ra'.id = ra.id)
    (hfl : ra'.floor = ra.floor) (hc : ra'.chunks = ra.chunks ++ cs)
    (ht : Taken Span.Disjoint cs ds)
    (hf : ∀ r ∈ da.requests, Fresh Span.Disjoint r.chunks ds)
    (hb : ∀ s, some s ∈ ds → da.base.span.Disjoint s) : DaGeo (da.put ra' m) := by
  have hmem : ∀ r, r ∈ (da.put ra' m).requests ↔ r = ra' ∨ (r ∈ da.requests ∧ r.id ≠ ra'.id) :=
    fun r => DualArena.mem_put ⟨ra, hr, hid.symm⟩
  -- an extent of the grown arena against one of another arena
  have hcross : ∀ s ∈ da.requests, s.id ≠ ra'.id → ∀ c ∈ ra'.chunks, ∀ d ∈ s.chunks,
      c.span.Disjoint d.span := by
    intro s hs hne c hcm d hd
    rw [hc] at hcm
    rcases List.mem_append.1 hcm with hcm | hcm
    · exact h.cross ra hr s hs (by rw [← hid]; exact hne.symm) c hcm d hd
    · exact ht.old separates_disjoint (hf s hs) hcm hd
  refine ⟨DualArena.put_ids h.ids, ?_, ?_, ?_⟩
  · intro r hrm
    rcases (hmem r).1 hrm with rfl | ⟨hrm, -⟩
    · exact ((h.ra ra hr).grow r (hf ra hr) ht hc hfl).1
    · exact h.ra r hrm
  · intro r hrm c hcm
    rcases (hmem r).1 hrm with rfl | ⟨hrm, -⟩
    · rw [hc] at hcm
      rcases List.mem_append.1 hcm with hcm | hcm
      · exact h.base ra hr c hcm
      · obtain ⟨s, hs, hw⟩ := ht.offer c hcm
        exact (hb s hs).mono .refl hw
    · exact h.base r hrm c hcm
  · intro r hrm s hsm hne c hcm d hdm
    rcases (hmem r).1 hrm with rfl | ⟨hr', hrne⟩
    · rcases (hmem s).1 hsm with rfl | ⟨hs', hsne⟩
      · exact absurd rfl hne
      · exact hcross s hs' hsne c hcm d hdm
    · rcases (hmem s).1 hsm with rfl | ⟨hs', hsne⟩
      · exact (hcross r hr' hrne d hdm c hcm).symm
      · exact h.cross r hr' s hs' hne c hcm d hdm

/-! ## The invariant -/

/-- A footprint placed in a bump-mode arena: in a room, and below the cursor if that room is the
one being bumped. -/
def RaHolds (ra : RequestArena σ) (s : Span) : Prop :=
  ∃ c ∈ ra.chunks, s.Within (ra.room c) ∧ (ra.cur = some c → (ra.region c).Holds 16 s)

/-- A block lies in a room of its home, and base and bump headers hold its size. -/
def Housed (da : DualArena σ) (b : Block) : Prop :=
  match b.home with
  | .base => (da.base.region da.mem).Holds 16 b.foot ∧ arenaUserSize da.mem b.ptr = b.size
  | .bump id => da.mode = .request ∧ arenaUserSize da.mem b.ptr = b.size ∧
      ∃ ra ∈ da.requests, ra.id = id ∧ ra.mode = .bump ∧ RaHolds ra b.foot
  | .gc id => da.mode = .request ∧
      ∃ ra ∈ da.requests, ra.id = id ∧ ra.mode = .gc ∧ ∃ c ∈ ra.chunks, b.foot.Within (ra.room c)

/-- A block is aligned, its bytes are inside its memory and it is where its home says. -/
structure BlockOk (da : DualArena σ) (b : Block) : Prop where
  size_le : b.ptr + b.size ≤ b.hi
  ptr_lt : b.ptr < b.hi
  ptr_dvd : 16 ∣ b.ptr
  lo_add : b.lo + b.home.headerLen = b.ptr
  housed : Housed da b

/-- The blocks of an arena's mspace, as it sees them. -/
def gcBlocks (live : List Block) (ra : RequestArena σ) : Set (Nat × Nat) :=
  {x | ∃ b ∈ live, b.home = .gc ra.id ∧ x = (toView ra.headBuf b.ptr, b.hi - b.ptr)}

/-- The allocator of a request arena is in order. -/
def ArenaOk (C : H.ms.Contract) (live : List Block) (ra : RequestArena σ) : Prop :=
  match ra.mode with
  | .bump => ∃ c, BumpOk ra c
  | .gc => (∃ st, ra.msp = some st ∧ C.Inv st ra.segs (gcBlocks live ra)) ∧
      ra.chunks.Pairwise fun c d => c.span.Apart d.span

/-- The layout invariant. Before the freeze no request arena is allocated from. -/
structure Layout (C : H.ms.Contract) (da : DualArena σ) (live : List Block) : Prop where
  base : BaseOk da.mem da.base
  geo : DaGeo da
  idle : da.mode = .base → ∀ ra ∈ da.requests, ra.chunks.length = 1
  arenas : da.mode = .request → ∀ ra ∈ da.requests, ArenaOk C live ra
  blocks : ∀ b ∈ live, BlockOk da b
  own : live.Pairwise fun b c => b.home = c.home → b.foot.Disjoint c.foot

/-- The layout of a system. -/
def Sys.Ok (C : H.ms.Contract) (S : Sys σ) : Prop := Layout C S.da S.live

/-! ## Blocks of different homes -/

section
variable {C : H.ms.Contract} {da : DualArena σ} {live : List Block} {b c : Block}
variable {ra : RequestArena σ} {live' : List Block} {m' : Mem}

section
variable (h : BlockOk da b)
include h

/-- A base block lies in the base buffer, past the prefix. -/
theorem BlockOk.in_base (hb : BaseOk da.mem da.base) (hh : b.home = .base) :
    da.base.buf + 16 ≤ b.lo ∧ b.hi ≤ da.base.buf + da.base.capacity := by
  have hs := h.housed
  simp only [Housed, hh] at hs
  have h1 := hs.1.start_le
  have h2 := hs.1.le_top
  have h3 := hb.le_capacity
  simp only [JSArena.region, hb.floor_eq, arenaPrefixLen, Block.foot] at h1 h2
  exact ⟨h1, by omega⟩

/-- A request block lies in a room of its arena. -/
theorem BlockOk.in_room {id : ReqId} (hh : b.home.id? = some id) :
    ∃ ra ∈ da.requests, ra.id = id ∧ (ra.mode = .bump ↔ b.home = .bump id) ∧
      ∃ c ∈ ra.chunks, b.foot.Within (ra.room c) := by
  have hs := h.housed
  cases hb : b.home with
  | base => simp [hb, Home.id?] at hh
  | bump id' =>
    simp only [hb, Home.id?, Option.some.injEq] at hh
    subst hh
    simp only [Housed, hb] at hs
    obtain ⟨-, -, ra, hr, hid, hm, c, hc, hw, -⟩ := hs
    exact ⟨ra, hr, hid, by simp [hm], c, hc, hw⟩
  | gc id' =>
    simp only [hb, Home.id?, Option.some.injEq] at hh
    subst hh
    simp only [Housed, hb] at hs
    obtain ⟨-, ra, hr, hid, hm, c, hc, hw⟩ := hs
    exact ⟨ra, hr, hid, by simp [hm], c, hc, hw⟩

/-- A base footprint is apart from every extent. -/
theorem BlockOk.base_disjoint (hg : DaGeo da) (hb : BaseOk da.mem da.base)
    (hh : b.home = .base) (hr : ra ∈ da.requests) {c : ReqChunk}
    (hc : c ∈ ra.chunks) : b.foot.Disjoint c.span := by
  refine (hg.base ra hr c hc).mono ?_ .refl
  obtain ⟨h1, h2⟩ := h.in_base hb hh
  exact ⟨by simp only [JSArena.span, Block.foot]; omega, h2⟩

/-- A footprint is apart from the extents of every arena but its own. -/
theorem BlockOk.other_disjoint (hg : DaGeo da) (hb : BaseOk da.mem da.base)
    (hr : ra ∈ da.requests) (hne : b.home.id? ≠ some ra.id) {c : ReqChunk}
    (hc : c ∈ ra.chunks) : b.foot.Disjoint c.span := by
  cases hid : b.home.id? with
  | none => exact h.base_disjoint hg hb (Home.eq_base hid) hr hc
  | some id =>
    obtain ⟨rb, hrb, hrid, -, d, hd, hw⟩ := h.in_room hid
    have hne' : rb.id ≠ ra.id := by rw [hrid]; rintro rfl; exact hne hid
    exact (hg.cross rb hrb ra hr hne' d hd c hc).mono (hw.trans (rb.room_within d))
      .refl

/-- Blocks of different homes do not overlap. -/
theorem BlockOk.disjoint_of_home_ne (h' : BlockOk da c) (hg : DaGeo da)
    (hb : BaseOk da.mem da.base) (hne : b.home ≠ c.home) : b.foot.Disjoint c.foot := by
  cases hid : c.home.id? with
  | none =>
    have hc := Home.eq_base hid
    cases hid' : b.home.id? with
    | none => exact absurd ((Home.eq_base hid').trans hc.symm) hne
    | some id =>
      obtain ⟨ra, hr, -, -, d, hd, hw⟩ := h.in_room hid'
      exact ((h'.base_disjoint hg hb hc hr hd).mono .refl
        (hw.trans (ra.room_within d))).symm
  | some id =>
    obtain ⟨ra, hr, hrid, hm, d, hd, hw⟩ := h'.in_room hid
    have hd' := hw.trans (ra.room_within d)
    by_cases hsame : b.home.id? = some ra.id
    · -- one arena has one mode, so one home
      obtain ⟨rb, hrb, hrbid, hmb, -⟩ := h.in_room hsame
      obtain rfl := hg.eq_of_id hrb hr hrbid
      subst hrid
      cases hbh : b.home <;> cases hch : c.home <;>
        simp_all [Home.id?]
    · exact (h.other_disjoint hg hb hr hsame hd).mono .refl hd'

/-- The byte before a block's pointer is its own. -/
theorem BlockOk.has_pred : 0 < b.ptr ∧ b.foot.Has (b.ptr - 1) := by
  have h1 := h.lo_add
  have h2 := h.ptr_lt
  have h3 : 8 ≤ b.home.headerLen := by cases b.home <;> simp [Home.headerLen]
  simp only [Span.Has, Block.foot]
  omega

end

/-- No two blocks of the layout overlap. -/
theorem Layout.disjoint (L : Layout C da live) :
    live.Pairwise fun b c => b.foot.Disjoint c.foot := by
  refine L.own.imp_of_mem fun {b c} hb hc h => ?_
  by_cases hh : b.home = c.home
  · exact h hh
  · exact (L.blocks b hb).disjoint_of_home_ne (L.blocks c hc) L.geo L.base hh

/-- A pointer names one block. -/
theorem Layout.eq_of_ptr (L : Layout C da live) (hb : b ∈ live) (hc : c ∈ live)
    (h : b.ptr = c.ptr) : b = c := by
  by_contra hne
  have : Std.Symm fun b c : Block => b.foot.Disjoint c.foot := ⟨fun _ _ => .symm⟩
  have hd := L.disjoint.forall hb hc hne
  exact hd.not_has (L.blocks b hb).has_pred.2 (h ▸ (L.blocks c hc).has_pred.2)

/-- A new block is at a new pointer. -/
theorem Layout.ptr_ne_of_cons (L : Layout C da (c :: live)) (hb : b ∈ live) : c.ptr ≠ b.ptr := by
  intro h
  have hd := (List.pairwise_cons.1 L.disjoint).1 b hb
  have hb' := (L.blocks b (List.mem_cons_of_mem c hb)).has_pred.2
  exact hd.not_has (L.blocks c List.mem_cons_self).has_pred.2 (h ▸ hb')

/-- The arena `js_arena_ptr_request_owner` finds for a block is its home's. -/
theorem Layout.owner_eq (L : Layout C da live) (hb : b ∈ live)
    (hr : ra ∈ da.requests) (hid : b.home.id? = some ra.id) :
    da.ptrRequestOwner b.ptr = some ra := by
  have hok := L.blocks b hb
  have hmem : ∀ r ∈ da.requests, r.contains b.ptr = true → r = ra := by
    intro r hrm hcon
    simp only [RequestArena.contains, List.any_eq_true, decide_eq_true_eq] at hcon
    obtain ⟨d, hd, hp⟩ := hcon
    by_contra hne
    have hidne : b.home.id? ≠ some r.id := by
      rw [hid]; intro h
      exact hne (L.geo.eq_of_id hrm hr (Option.some.inj h).symm)
    refine (hok.other_disjoint L.geo L.base hrm hidne hd).not_has ⟨?_, hok.ptr_lt⟩ hp
    have := hok.lo_add
    simp only [Block.foot]; omega
  have hcon : ra.contains b.ptr = true := by
    obtain ⟨rb, hrb, hrid, -, d, hd, hw⟩ := hok.in_room hid
    obtain rfl := L.geo.eq_of_id hrb hr hrid
    have h1 := hw.trans (rb.room_within d)
    have h2 := hok.lo_add
    have h3 := hok.ptr_lt
    simp only [RequestArena.contains, List.any_eq_true, decide_eq_true_eq]
    refine ⟨d, hd, ?_⟩
    simp only [Span.Within, Span.Has, Block.foot] at *
    omega
  exact find?_of_unique hr hcon hmem

/-- A base block has no owner. -/
theorem Layout.owner_base (L : Layout C da live) (hb : b ∈ live) (hh : b.home = .base) :
    da.ptrRequestOwner b.ptr = none := by
  have hok := L.blocks b hb
  refine List.find?_eq_none.2 fun r hr hcon => ?_
  simp only [RequestArena.contains, List.any_eq_true, decide_eq_true_eq] at hcon
  obtain ⟨d, hd, hp⟩ := hcon
  refine (hok.base_disjoint L.geo L.base hh hr hd).not_has ⟨?_, hok.ptr_lt⟩ hp
  have := hok.lo_add
  simp only [Block.foot]; omega

/-! ## Changing one arena -/

theorem gcBlocks_congr
    (h : ∀ b, b.home = .gc ra.id → (b ∈ live' ↔ b ∈ live)) :
    gcBlocks live' ra = gcBlocks live ra := by
  ext x
  constructor
  · rintro ⟨b, hb, hh, rfl⟩; exact ⟨b, (h b hh).1 hb, hh, rfl⟩
  · rintro ⟨b, hb, hh, rfl⟩; exact ⟨b, (h b hh).2 hb, hh, rfl⟩

theorem ArenaOk.congr (h : ArenaOk C live ra)
    (hl : ∀ b, b.home = .gc ra.id → (b ∈ live' ↔ b ∈ live)) : ArenaOk C live' ra := by
  unfold ArenaOk at h ⊢
  rw [gcBlocks_congr hl]
  exact h

/-- The first word of a block's header is inside its footprint. -/
theorem BlockOk.header_word (h : BlockOk da b) (hh : b.home.headerLen = 16)
    (hm : ∀ x, b.foot.Has x → m' x = da.mem x) :
    arenaUserSize m' b.ptr = arenaUserSize da.mem b.ptr := by
  have h1 := h.lo_add
  have h2 := h.size_le
  refine Mem.readU64_congr fun x hx hx' => hm x ?_
  simp only [arenaHeaderSize] at hx hx'
  simp only [Block.foot, Span.Has]
  omega

/-- A block of another home keeps its place when one arena and memory inside that arena change. -/
theorem BlockOk.put {ra ra' : RequestArena σ} (h : BlockOk da b)
    (hb : BaseOk da.mem da.base) (hr : ra ∈ da.requests) (hid : ra'.id = ra.id)
    (hg' : DaGeo (da.put ra' m'))
    (hm : ∀ x, (∀ c ∈ ra'.chunks, ¬ c.span.Has x) → m' x = da.mem x)
    (hne : b.home.id? ≠ some ra.id) : BlockOk (da.put ra' m') b := by
  have hin : ra' ∈ (da.put ra' m').requests :=
    DualArena.mem_put_self ⟨ra, hr, hid.symm⟩
  refine { h with housed := ?_ }
  have hs := h.housed
  cases hbh : b.home with
  | base =>
    simp only [Housed, hbh] at hs ⊢
    obtain ⟨h1, h2⟩ := h.in_base hb hbh
    have hout : ∀ x, da.base.buf ≤ x → x < da.base.buf + da.base.capacity → m' x = da.mem x :=
      fun x hx hx' => hm x fun c hc => (hg'.base ra' hin c hc).not_has ⟨hx, hx'⟩
    have hreg : da.base.region m' = da.base.region da.mem :=
      (hb.congr m' fun x hx hx' => hout x hx (by
        have := hb.le_capacity; have := hb.floor_le; omega)).2.1
    refine ⟨?_, ?_⟩
    · show (da.base.region m').Holds 16 b.foot
      rw [hreg]; exact hs.1
    · show arenaUserSize m' b.ptr = b.size
      rw [h.header_word (by rw [hbh]; rfl), hs.2]
      intro x hx
      simp only [Block.foot, Span.Has] at hx
      exact hout x (by omega) (by omega)
  | bump id =>
    simp only [Housed, hbh] at hs ⊢
    obtain ⟨hmode, hsz, rb, hrb, hrid, hmb, d, hd, hw, hcur⟩ := hs
    have hne' : rb.id ≠ ra'.id := by
      rw [hid, hrid]; rintro rfl; exact hne (by rw [hbh]; rfl)
    have hrb' : rb ∈ (da.put ra' m').requests :=
      (DualArena.mem_put ⟨ra, hr, hid.symm⟩).2 (.inr ⟨hrb, hne'⟩)
    refine ⟨hmode, ?_, rb, hrb', hrid, hmb, d, hd, hw, hcur⟩
    show arenaUserSize m' b.ptr = b.size
    rw [h.header_word (by rw [hbh]; rfl), hsz]
    intro x hx
    refine hm x fun c hc => (hg'.cross rb hrb' ra' hin hne' d hd c hc).not_has ?_
    obtain ⟨h1, h2⟩ := hw.trans (rb.room_within d)
    exact ⟨Nat.le_trans h1 hx.1, Nat.lt_of_lt_of_le hx.2 h2⟩
  | gc id =>
    simp only [Housed, hbh] at hs ⊢
    obtain ⟨hmode, rb, hrb, hrid, hmb, hroom⟩ := hs
    have hne' : rb.id ≠ ra'.id := by
      rw [hid, hrid]; rintro rfl; exact hne (by rw [hbh]; rfl)
    exact ⟨hmode, rb, (DualArena.mem_put ⟨ra, hr, hid.symm⟩).2 (.inr ⟨hrb, hne'⟩), hrid, hmb, hroom⟩

/-- The layout after one arena, memory inside it and its own blocks changed. -/
theorem Layout.put (L : Layout C da live) {ra ra' : RequestArena σ}
    (hr : ra ∈ da.requests) (hid : ra'.id = ra.id)
    (hg' : DaGeo (da.put ra' m'))
    (hm : ∀ x, (∀ c ∈ ra'.chunks, ¬ c.span.Has x) → m' x = da.mem x)
    (hother : ∀ b, b.home.id? ≠ some ra.id → (b ∈ live' ↔ b ∈ live))
    (hown : ∀ b ∈ live', b.home.id? = some ra.id → BlockOk (da.put ra' m') b)
    (hidle : da.mode = .base → ra'.chunks.length = 1)
    (harena : da.mode = .request → ArenaOk C live' ra')
    (hpair : live'.Pairwise fun b c => b.home = c.home → b.foot.Disjoint c.foot) :
    Layout C (da.put ra' m') live' := by
  have hin : ra' ∈ (da.put ra' m').requests :=
    DualArena.mem_put_self ⟨ra, hr, hid.symm⟩
  refine ⟨?_, hg', ?_, ?_, ?_, hpair⟩
  · refine (L.base.congr m' fun x hx hx' => hm x fun c hc => ?_).2.2
    refine (hg'.base ra' hin c hc).not_has ⟨hx, ?_⟩
    have h1 := L.base.le_capacity
    have h2 := L.base.floor_le
    simp only [JSArena.span, DualArena.put] at *
    omega
  · intro hmode r hrm
    rcases (DualArena.mem_put ⟨ra, hr, hid.symm⟩).1 hrm with rfl | ⟨hrm, -⟩
    · exact hidle hmode
    · exact L.idle hmode r hrm
  · intro hmode r hrm
    rcases (DualArena.mem_put ⟨ra, hr, hid.symm⟩).1 hrm with rfl | ⟨hrm, hne⟩
    · exact harena hmode
    · refine (L.arenas hmode r hrm).congr fun b hb => hother b ?_
      rw [hb, ← hid]
      simpa [Home.id?] using hne
  · intro b hb
    by_cases hh : b.home.id? = some ra.id
    · exact hown b hb hh
    · exact (L.blocks b ((hother b hh).1 hb)).put L.base hr hid hg' hm hh

/-! ## Selection and memory -/

section
variable (L : Layout C da live)
include L

/-- Selection, the state cell and the parked arena are not part of the layout. -/
theorem Layout.setCur (cur : Option ReqId) (cell : Option Nat)
    (parked : Option ReqId) :
    Layout C { da with cur := cur, stateCell := cell, morecoreRa := parked } live :=
  ⟨L.base, ⟨L.geo.ids, L.geo.ra, L.geo.base, L.geo.cross⟩, L.idle, L.arenas,
    fun b hb => let h := L.blocks b hb
      ⟨h.size_le, h.ptr_lt, h.ptr_dvd, h.lo_add, h.housed⟩, L.own⟩

/-- A write that leaves the base cursor and the headers alone. -/
theorem Layout.setMem
    (hcur : ∀ x, da.base.buf ≤ x → x < da.base.buf + 8 → m' x = da.mem x)
    (hhdr : ∀ b ∈ live, b.home.headerLen = 16 → ∀ x, b.header.Has x → m' x = da.mem x) :
    Layout C { da with mem := m' } live := by
  obtain ⟨-, hreg, hbase⟩ := L.base.congr m' hcur
  refine ⟨hbase, ⟨L.geo.ids, L.geo.ra, L.geo.base, L.geo.cross⟩, L.idle, L.arenas, ?_, L.own⟩
  intro b hb
  have hok := L.blocks b hb
  refine { hok with housed := ?_ }
  have hs := hok.housed
  have hlo := hok.lo_add
  have hsize : b.home.headerLen = 16 → arenaUserSize m' b.ptr = arenaUserSize da.mem b.ptr := by
    intro h16
    refine Mem.readU64_congr fun x hx hx' => hhdr b hb h16 x ⟨?_, ?_⟩ <;>
      simp only [arenaHeaderSize, Block.header] at * <;> omega
  cases hh : b.home with
  | base =>
    simp only [Housed, hh] at hs ⊢
    rw [hreg, hsize (by rw [hh]; rfl)]
    exact hs
  | bump id =>
    simp only [Housed, hh] at hs ⊢
    rw [hsize (by rw [hh]; rfl)]
    exact hs
  | gc id => simpa only [Housed, hh] using hs

/-- No block reaches into a state slot. -/
theorem Layout.slot_disjoint (hb : b ∈ live) (hr : ra ∈ da.requests) :
    b.foot.Disjoint ⟨ra.slot, ra.slot + requestSlotSize⟩ := by
  have hok := L.blocks b hb
  have hg := L.geo.ra ra hr
  obtain ⟨h, -, hh, hbuf, hsize⟩ := hg.head_mem
  have hfl := hg.floor_eq
  have hhs := hg.head_size
  have hin : (⟨ra.slot, ra.slot + requestSlotSize⟩ : Span).Within h.span := by
    simp only [Span.Within, RequestArena.slot, ReqChunk.span]
    omega
  by_cases hid : b.home.id? = some ra.id
  · obtain ⟨rb, hrb, hrid, -, c, hc, hw⟩ := hok.in_room hid
    obtain rfl := L.geo.eq_of_id hrb hr hrid
    by_cases hch : c = h
    · -- in the head extent the room starts past the slot
      subst hch
      simp only [RequestArena.room, hbuf, if_true, Span.Within] at hw
      simp only [Span.Disjoint, RequestArena.slot]
      omega
    · exact (hg.disjoint.forall hc hh hch).mono (hw.trans (rb.room_within c)) hin
  · exact (hok.other_disjoint L.geo L.base hr hid hh).mono .refl hin

/-- The extents of the request arenas are apart from the base cursor. -/
theorem Layout.cursor_apart {ra : RequestArena σ} {c : ReqChunk}
    (hr : ra ∈ da.requests) (hc : c ∈ ra.chunks) :
    c.span.Disjoint ⟨da.base.buf, da.base.buf + 8⟩ := by
  refine (L.geo.base ra hr c hc).symm.mono .refl ⟨Nat.le_refl _, ?_⟩
  have h1 := L.base.le_capacity
  have h2 := L.base.floor_le
  simp only [JSArena.span]
  omega

/-- No block reaches into the base cursor. -/
theorem Layout.block_cursor_apart (hb : b ∈ live) :
    b.foot.Disjoint ⟨da.base.buf, da.base.buf + 8⟩ := by
  have hok := L.blocks b hb
  cases hid : b.home.id? with
  | none =>
    have := (hok.in_base L.base (Home.eq_base hid)).1
    simp only [Span.Disjoint, Block.foot]
    omega
  | some id =>
    obtain ⟨ra, hr, -, -, c, hc, hw⟩ := hok.in_room hid
    exact (L.cursor_apart hr hc).mono (hw.trans (ra.room_within c)) .refl

end

/-- An address the engine may write: in a block, or in a state slot. -/
def Writable (da : DualArena σ) (live : List Block) (addr : Nat) : Prop :=
  (∃ b ∈ live, b.bytes.Has addr) ∨
    ∃ ra ∈ da.requests, (⟨ra.slot, ra.slot + requestSlotSize⟩ : Span).Has addr

/-- Writes to blocks and state slots keep the layout. -/
theorem Layout.write (L : Layout C da live)
    (h : ∀ x, m' x = da.mem x ∨ Writable da live x) : Layout C { da with mem := m' } live := by
  refine L.setMem (fun x hx hx' => (h x).resolve_right ?_)
    (fun c hc _ x hx => (h x).resolve_right ?_)
  · rintro (⟨b, hb, hin⟩ | ⟨ra, hr, hin⟩)
    · have hok := L.blocks b hb
      have h1 := hok.lo_add
      have h2 := hok.size_le
      refine (L.block_cursor_apart hb).not_has ?_ ⟨hx, hx'⟩
      simp only [Span.Has, Block.bytes, Block.foot] at hin ⊢
      omega
    · obtain ⟨c, -, hc, hbuf, hsize⟩ := (L.geo.ra ra hr).head_mem
      have h1 := (L.geo.ra ra hr).floor_eq
      have h2 := (L.geo.ra ra hr).head_size
      refine (L.cursor_apart hr hc).not_has ?_ ⟨hx, hx'⟩
      simp only [Span.Has, RequestArena.slot, ReqChunk.span] at hin ⊢
      omega
  · have hcok := L.blocks c hc
    have hfoot : c.foot.Has x := by
      have := hcok.ptr_lt
      simp only [Span.Has, Block.header, Block.foot] at hx ⊢
      omega
    rintro (⟨b, hb, hin⟩ | ⟨ra, hr, hin⟩)
    · have hok := L.blocks b hb
      have h1 := hok.lo_add
      have h2 := hok.size_le
      by_cases hbc : b = c
      · subst hbc
        simp only [Span.Has, Block.header, Block.bytes] at hx hin
        omega
      · have : Std.Symm fun b c : Block => b.foot.Disjoint c.foot := ⟨fun _ _ => .symm⟩
        refine (L.disjoint.forall hb hc hbc).not_has ?_ hfoot
        simp only [Span.Has, Block.bytes, Block.foot] at hin ⊢
        omega
    · exact (L.slot_disjoint hc hr).not_has hfoot hin

end

end ArenaJs
