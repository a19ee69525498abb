import ArenaJs.Alloc.BumpSpace
import ArenaJs.Alloc.Life

/-!
# Block safety of the allocator hooks

Every action keeps the layout (`Layout.exec`), so every reachable state has one (`Reach.layout`).
`block_safe` reads the consequences off for the block a hook returns: where it lies, what it does
not overlap, and what it contains.

The assumptions of a step are those of `Act.Ok`. Without `SizeOk` the size computations wrap and a
hook returns a block that its region does not hold (`malloc_wraps`).
-/

namespace ArenaJs

section
variable {σ : Type} {H : Host σ} {C : H.ms.Contract} {S : Sys σ} {act : Act}

/-- Every action keeps the layout. -/
theorem Sys.Ok.exec (L : S.Ok C) (h : act.Ok H S) : (exec H S act).2.Ok C := by
  cases act with
  | malloc size ds => exact (jdaMalloc_spec L h.1 h.2).1
  | calloc count size ds => exact (jdaCalloc_spec L h.1 h.2).1
  | realloc ptr size ds =>
    obtain ⟨hsz, hoff, hp⟩ := h
    cases ptr with
    | none => exact jdaRealloc_null_spec L hsz hoff
    | some p =>
      obtain ⟨b, hb, rfl⟩ := hp p rfl
      exact (jdaRealloc_spec L hb hsz hoff).ok
  | free ptr => exact jdaFree_spec L h
  | store addr byte => exact Layout.store L byte h
  | newRequest id cap ds =>
    obtain ⟨hid, hoff, hf⟩ := h
    exact jsRequestArenaNew_spec L cap hid hf hoff.fresh hoff.base
  | freeRequest id => exact jsRequestArenaFree_spec L id
  | select id => exact Layout.setCur L id _ _
  | setMode mode => exact setRequestMode_spec L mode
  | reset id =>
    obtain ⟨ra, hr, hid⟩ := h
    exact jsRequestArenaReset_spec L hr hid
  | freeze => exact freeze_spec L h

/-- Every reachable state has a layout. -/
theorem Reach.layout (C : H.ms.Contract) (h : Reach H S) : S.Ok C := by
  induction h with
  | init hi hnew => exact dualArenaNew2_spec C hi hnew
  | step _ hok ih => exact ih.exec hok

/-! ## The returned block -/

/-- The block a reallocation starts from. -/
def Act.source? : Act → Option Nat
  | .realloc ptr _ _ => ptr
  | _ => none

theorem afterAlloc_live {live : List Block} {gone : Block → Bool} {size p : Nat}
    {r : Option Nat × DualArena σ} (h : r.1 = some p) : (afterAlloc H live gone size r).live =
      blockOf H r.2 p size :: live.filter fun b => !gone b := by
  simp only [afterAlloc, h]

theorem afterAlloc_da {live : List Block} {gone : Block → Bool} {size : Nat}
    {r : Option Nat × DualArena σ} : (afterAlloc H live gone size r).da = r.2 := by
  unfold afterAlloc
  split <;> rfl

/-- A hook that returned `p` put a block at `p` in front of the blocks it left alone. -/
theorem exec_live {size p : Nat} (hsize : act.bytes? = some size) (hp : (exec H S act).1 = some p) :
    ∃ b keep, (exec H S act).2.live = b :: keep ∧ b.ptr = p ∧ b.size = size ∧
      ∀ c ∈ S.live, act.source? ≠ some c.ptr → c ∈ keep := by
  have key : ∀ {gone : Block → Bool} {r : Option Nat × DualArena σ}, r.1 = some p →
      (∀ c, gone c = true → act.source? = some c.ptr) →
      ∃ b keep, (afterAlloc H S.live gone size r).live = b :: keep ∧ b.ptr = p ∧ b.size = size ∧
        ∀ c ∈ S.live, act.source? ≠ some c.ptr → c ∈ keep := by
    intro gone r hr hgone
    refine ⟨_, _, afterAlloc_live hr, blockOf_ptr _ _ _, blockOf_size _ _ _, fun c hc hne => ?_⟩
    simp only [List.mem_filter, hc, Bool.not_eq_true', true_and]
    exact Bool.eq_false_iff.2 fun h => hne (hgone c h)
  cases act with
  | malloc n ds =>
    cases hsize
    exact key hp nofun
  | calloc count n ds =>
    cases hsize
    exact key hp nofun
  | realloc ptr n ds =>
    cases hsize
    cases ptr with
    | none => exact key hp nofun
    | some q =>
      refine key hp fun c hc => ?_
      simp only [reallocGone, decide_eq_true_eq] at hc
      rw [Act.source?, hc.1]
  | _ => cases hsize

/-- A block of the layout lies inside the base buffer or one extent. -/
theorem Layout.block_within {da : DualArena σ} {live : List Block}
    (L : Layout C da live) {b : Block}
    (hb : b ∈ live) : b.foot.Within da.base.span ∨
      ∃ ra ∈ da.requests, ∃ c ∈ ra.chunks, b.foot.Within c.span := by
  have hok := L.blocks b hb
  cases hid : b.home.id? with
  | none =>
    have := hok.in_base L.base (Home.eq_base hid)
    refine .inl ⟨?_, ?_⟩ <;> simp only [Block.foot, JSArena.span] <;> omega
  | some id =>
    obtain ⟨ra, hr, -, -, c, hc, hw⟩ := hok.in_room hid
    exact .inr ⟨ra, hr, c, hc, hw.trans (ra.room_within c)⟩

theorem BlockOk.bytes_within {da : DualArena σ} {b : Block} (h : BlockOk da b) :
    b.bytes.Within b.foot ∧ b.header.Within b.foot ∧ b.bytes.Disjoint b.header := by
  have h1 := h.size_le
  have h2 := h.lo_add
  have h3 := h.ptr_lt
  simp only [Span.Within, Span.Disjoint, Block.bytes, Block.header, Block.foot]
  omega

/-- Block safety: in every reachable state, the block a hook returns for `size` bytes is aligned,
lies inside the base buffer or one extent, overlaps no other live block, no header and no state
slot; `jda_calloc` zeroes it, and `jda_realloc` keeps the bytes of the old block. -/
theorem block_safe (C : H.ms.Contract) (hS : Reach H S) (hok : act.Ok H S) {size p : Nat}
    (hsize : act.bytes? = some size) (hp : (exec H S act).1 = some p) :
    16 ∣ p ∧
    ((⟨p, p + size⟩ : Span).Within (exec H S act).2.da.base.span ∨
      ∃ ra ∈ (exec H S act).2.da.requests, ∃ c ∈ ra.chunks,
        (⟨p, p + size⟩ : Span).Within c.span) ∧
    (∀ b ∈ S.live, act.source? ≠ some b.ptr → (⟨p, p + size⟩ : Span).Disjoint b.bytes) ∧
    (∀ b ∈ (exec H S act).2.live, (⟨p, p + size⟩ : Span).Disjoint b.header) ∧
    (∀ ra ∈ (exec H S act).2.da.requests,
      (⟨p, p + size⟩ : Span).Disjoint ⟨ra.slot, ra.slot + requestSlotSize⟩) ∧
    (∀ count n ds, act = .calloc count n ds → ∀ i < size, (exec H S act).2.da.mem (p + i) = 0) ∧
    (∀ b ∈ S.live, act.source? = some b.ptr → ∀ i, i < b.size → i < size →
      (exec H S act).2.da.mem (p + i) = S.da.mem (b.ptr + i)) := by
  have L := hS.layout C
  have L' : Layout C _ _ := Sys.Ok.exec L hok
  obtain ⟨b, keep, hlive, rfl, rfl, hkeep⟩ := exec_live hsize hp
  rw [hlive] at L'
  have hb := L'.blocks b (.head _)
  obtain ⟨hw, hh, hbh⟩ := hb.bytes_within
  refine ⟨hb.ptr_dvd, ?_, ?_, ?_, ?_, ?_, ?_⟩
  · rcases L'.block_within (.head _) with h | ⟨ra, hr, c, hc, h⟩
    exacts [.inl (hw.trans h), .inr ⟨ra, hr, c, hc, hw.trans h⟩]
  · intro c hc hne
    have hc' := hkeep c hc hne
    have hd := (List.pairwise_cons.1 L'.disjoint).1 c hc'
    exact hd.mono hw (L'.blocks c (.tail _ hc')).bytes_within.1
  · rw [hlive]
    refine List.forall_mem_cons.2 ⟨hbh, fun c hc => ?_⟩
    have hd := (List.pairwise_cons.1 L'.disjoint).1 c hc
    exact hd.mono hw (L'.blocks c (.tail _ hc)).bytes_within.2.1
  · intro ra hr
    exact (L'.slot_disjoint (.head _) hr).mono hw .refl
  · rintro count n ds rfl i hi
    obtain ⟨-, hz⟩ := jdaCalloc_spec L hok.1 hok.2
    simp only [exec, afterAlloc_da]
    exact hz b.ptr hp i (Option.some.inj hsize ▸ hi)
  · intro c hc hsrc i hi hi'
    cases act with
    | realloc ptr n ds =>
      obtain rfl : ptr = some c.ptr := hsrc
      simp only [exec, afterAlloc_da]
      exact (jdaRealloc_spec L hc hok.1 hok.2.1).keeps b.ptr hp i hi (Option.some.inj hsize ▸ hi')
    | _ => cases hsrc

end

/-! ## A run -/

/-- `js_dual_arena_new2` with default sizes on a bump host. -/
def bumpArena? : Option (DualArena BumpSpace) :=
  dualArenaNew2 bumpHost (fun _ => 0) 0 (some 65536) 0 0 [some ⟨2 ^ 25, 2 ^ 25 + 2 ^ 20⟩]

/-- The system it starts. -/
def bumpSys : Sys BumpSpace := ⟨bumpArena?.get rfl, []⟩

theorem bumpSys_reach : Reach bumpHost bumpSys := by
  have hnew : dualArenaNew2 bumpHost (fun _ => 0) 0 (some 65536) 0 0
      [some ⟨2 ^ 25, 2 ^ 25 + 2 ^ 20⟩] = some bumpSys.da :=
    (Option.some_get (show bumpArena?.isSome = true from rfl)).symm
  refine .init ⟨?_, ?_⟩ hnew
  · rintro _ ⟨⟩
    exact ⟨by decide, by decide, by decide +kernel, by decide +kernel⟩
  · rintro _ ⟨⟩
    exact .single ⟨by decide, by decide, by decide⟩ (by decide +kernel)

/-- Before the freeze a block of 608 bytes is allocated, and its first three bytes are set. -/
def usedSys : Sys BumpSpace :=
  [.malloc 608 [], .store 65568 0xff, .store 65569 0xff, .store 65570 0xff].foldl
    (fun S act => (exec bumpHost S act).2) bumpSys

theorem usedSys_reach : Reach bumpHost usedSys := by
  have h1 := bumpSys_reach.step (show Act.Ok bumpHost bumpSys (.malloc 608 []) from
    ⟨show FitsWord (arenaCursor bumpSys.da.mem bumpSys.da.base) 608 by
      unfold FitsWord; decide +kernel, .nil _⟩)
  have h2 := h1.step (show Act.Ok bumpHost _ (.store 65568 0xff) from .inl (by decide +kernel))
  have h3 := h2.step (show Act.Ok bumpHost _ (.store 65569 0xff) from .inl (by decide +kernel))
  exact h3.step (show Act.Ok bumpHost _ (.store 65570 0xff) from .inl (by decide +kernel))

/-- A request block is allocated after the freeze. -/
def busySys : Sys BumpSpace :=
  (exec bumpHost (exec bumpHost usedSys .freeze).2 (.malloc 100 [])).2

/-- The block of the snapshot grows to 1000 bytes: its bytes are copied to request memory, apart
from the live request block. -/
theorem block_safe_grown : ∃ p,
    (exec bumpHost busySys (.realloc (some 65568) 1000 [])).1 = some p ∧ 16 ∣ p ∧
    (⟨p, p + 1000⟩ : Span).Disjoint ⟨33554976, 33554976 + 100⟩ ∧
    (exec bumpHost busySys (.realloc (some 65568) 1000 [])).2.da.mem (p + 2) = 0xff := by
  have hreach := (usedSys_reach.step (show Act.Ok bumpHost usedSys .freeze from rfl)).step
    (show Act.Ok bumpHost _ (.malloc 100 []) from ⟨trivial, .nil _⟩)
  have hold : (⟨65568, 608, 65568 + bodyLen 608, .base⟩ : Block) ∈ busySys.live := by decide +kernel
  have hok : Act.Ok bumpHost busySys (.realloc (some 65568) 1000 []) := by
    refine ⟨trivial, .nil _, ?_⟩
    rintro _ ⟨⟩
    exact ⟨_, hold, rfl⟩
  obtain ⟨hdvd, -, hdisj, -, -, -, hkeep⟩ := block_safe BumpSpace.contract hreach hok rfl
    (show _ = some 33555104 by decide +kernel)
  refine ⟨33555104, by decide +kernel, hdvd, ?_, ?_⟩
  · obtain ⟨c, hc, h⟩ : ∃ c ∈ busySys.live, c.ptr = 33554976 ∧ c.size = 100 := by decide +kernel
    have := hdisj c hc (by rw [h.1]; decide)
    rwa [Block.bytes, h.1, h.2] at this
  · exact (hkeep _ hold rfl 2 (by decide) (by decide)).trans (by decide +kernel)

/-- `jda_malloc(SIZE_MAX)` before the freeze: `ALIGN_UP` wraps to 0, the block takes its header
only, and the hook returns it. -/
theorem malloc_wraps : Reach bumpHost bumpSys ∧ ∃ p,
    (exec bumpHost bumpSys (.malloc (2 ^ 64 - 1) [])).1 = some p ∧
      ¬ ((⟨p, p + (2 ^ 64 - 1)⟩ : Span).Within
          (exec bumpHost bumpSys (.malloc (2 ^ 64 - 1) [])).2.da.base.span ∨
        ∃ ra ∈ (exec bumpHost bumpSys (.malloc (2 ^ 64 - 1) [])).2.da.requests, ∃ c ∈ ra.chunks,
          (⟨p, p + (2 ^ 64 - 1)⟩ : Span).Within c.span) :=
  ⟨bumpSys_reach, 65568, by decide +kernel, by decide +kernel⟩

end ArenaJs
