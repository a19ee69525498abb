import ArenaJs.Lib.Span

/-!
# The bump discipline

A bump region hands out memory from `start` upward; `top` is the next free address. Each block is a
header of `h` bytes and its body, and the body handed out last may be resized in place. `Ok` is the
region's own invariant and `Holds` places a footprint (header and body) in it; the lemmas say what
the two moves, `push` and `resize`, do to footprints already placed.
-/

namespace ArenaJs

/-- A bump region; `last` is the body handed out last, as its address and its length. -/
structure BumpRegion where
  start : Nat
  top : Nat
  limit : Nat
  last : Option (Nat × Nat)

namespace BumpRegion

variable {h a : Nat} {R : BumpRegion} {s : Span}

/-- The last body ends at the top of the region, behind its header. -/
structure Ok (h : Nat) (R : BumpRegion) : Prop where
  start_le : R.start ≤ R.top
  top_le : R.top ≤ R.limit
  last_top : ∀ p a, R.last = some (p, a) → R.start + h ≤ p ∧ p + a = R.top

/-- A footprint placed in the region: that of the last body, or wholly below its header. -/
structure Holds (h : Nat) (R : BumpRegion) (s : Span) : Prop where
  start_le : R.start ≤ s.lo
  le_top : s.hi ≤ R.top
  last_or : ∀ p a, R.last = some (p, a) → s.lo + h = p ∨ s.hi + h ≤ p

/-- Hand out a header and a body of `a` bytes. -/
def push (h : Nat) (R : BumpRegion) (a : Nat) : BumpRegion :=
  { R with top := R.top + h + a, last := some (R.top + h, a) }

/-- Give the last body, at `p`, the length `a`. -/
def resize (R : BumpRegion) (p a : Nat) : BumpRegion :=
  { R with top := p + a, last := some (p, a) }

theorem Ok.push (hR : R.Ok h) (ha : R.top + h + a ≤ R.limit) : (R.push h a).Ok h where
  start_le := by have := hR.start_le; simp only [BumpRegion.push]; omega
  top_le := ha
  last_top := by
    rintro _ _ ⟨⟩
    exact ⟨Nat.add_le_add_right hR.start_le h, rfl⟩

/-- The new block's footprint. -/
theorem Ok.push_holds_new (hR : R.Ok h) : (R.push h a).Holds h ⟨R.top, R.top + h + a⟩ where
  start_le := hR.start_le
  le_top := Nat.le_refl _
  last_or := by rintro _ _ ⟨⟩; exact .inl rfl

/-- Footprints placed before stay placed. -/
theorem Holds.push (hs : R.Holds h s) : (R.push h a).Holds h s where
  start_le := hs.start_le
  le_top := by have := hs.le_top; simp only [BumpRegion.push]; omega
  last_or := by
    have := hs.le_top
    rintro _ _ ⟨⟩
    exact .inr (by omega)

/-- The new footprint is disjoint from those placed before. -/
theorem Holds.disjoint_push (hs : R.Holds h s) : s.Disjoint ⟨R.top, R.top + h + a⟩ :=
  .inl hs.le_top

theorem Ok.resize {p o : Nat} (hR : R.Ok h) (hl : R.last = some (p, o)) (ha : p + a ≤ R.limit) :
    (R.resize p a).Ok h where
  start_le := by have := hR.last_top p o hl; simp only [BumpRegion.resize]; omega
  top_le := ha
  last_top := by
    rintro _ _ ⟨⟩
    exact ⟨(hR.last_top p o hl).1, rfl⟩

/-- The resized block's footprint. -/
theorem Ok.resize_holds_new {p o : Nat} (hR : R.Ok h) (hl : R.last = some (p, o)) :
    (R.resize p a).Holds h ⟨p - h, p + a⟩ where
  start_le := by have := hR.last_top p o hl; simp only [BumpRegion.resize]; omega
  le_top := Nat.le_refl _
  last_or := by
    have := hR.last_top p o hl
    rintro _ _ ⟨⟩
    exact .inl (by simp only; omega)

/-- Every other footprint stays placed. -/
theorem Holds.resize {p o : Nat} (hs : R.Holds h s) (hl : R.last = some (p, o))
    (hne : s.lo + h ≠ p) : (R.resize p a).Holds h s := by
  have hp := (hs.last_or p o hl).resolve_left hne
  refine ⟨hs.start_le, ?_, ?_⟩
  · simp only [BumpRegion.resize]; omega
  · rintro _ _ ⟨⟩; exact .inr hp

/-- The resized footprint is disjoint from every other one. -/
theorem Holds.disjoint_resize {p o : Nat} (hs : R.Holds h s) (hl : R.last = some (p, o))
    (hne : s.lo + h ≠ p) : s.Disjoint ⟨p - h, p + a⟩ := by
  have hp := (hs.last_or p o hl).resolve_left hne
  exact .inl (by simp only; omega)

end BumpRegion

end ArenaJs
