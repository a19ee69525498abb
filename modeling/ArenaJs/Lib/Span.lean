import Mathlib.Order.Interval.Finset.Nat
import Mathlib.Tactic.Ring

/-!
# Address ranges

Half-open ranges `[lo, hi)` of addresses: containment, disjointness, and ranges with a gap between
them (`Apart`). The one fact that is not linear arithmetic is `within_of_covered`: a range covered
by pieces that do not touch each other lies inside one piece.
-/

namespace ArenaJs

/-- The addresses from `lo` up to, but not including, `hi`. -/
structure Span where
  lo : Nat
  hi : Nat
deriving DecidableEq, Repr

namespace Span

variable {s t : Span} {L : List Span}

/-- `x` is an address of the range. -/
def Has (s : Span) (x : Nat) : Prop := s.lo ≤ x ∧ x < s.hi

/-- The first range lies inside the second. -/
def Within (s t : Span) : Prop := t.lo ≤ s.lo ∧ s.hi ≤ t.hi

/-- One range ends before the other starts. -/
def Disjoint (s t : Span) : Prop := s.hi ≤ t.lo ∨ t.hi ≤ s.lo

/-- Disjoint ranges that do not touch either. -/
def Apart (s t : Span) : Prop := s.hi < t.lo ∨ t.hi < s.lo

instance (s : Span) (x : Nat) : Decidable (s.Has x) := inferInstanceAs (Decidable (_ ∧ _))
instance (s t : Span) : Decidable (s.Within t) := inferInstanceAs (Decidable (_ ∧ _))
instance (s t : Span) : Decidable (s.Disjoint t) := inferInstanceAs (Decidable (_ ∨ _))
instance (s t : Span) : Decidable (s.Apart t) := inferInstanceAs (Decidable (_ ∨ _))

theorem Disjoint.symm (h : s.Disjoint t) : t.Disjoint s := Or.symm h

theorem Apart.symm (h : s.Apart t) : t.Apart s := Or.symm h

theorem Apart.disjoint (h : s.Apart t) : s.Disjoint t :=
  h.imp Nat.le_of_lt Nat.le_of_lt

theorem Within.refl {s : Span} : s.Within s := ⟨Nat.le_refl _, Nat.le_refl _⟩

theorem Within.trans {s t u : Span} (h1 : s.Within t) (h2 : t.Within u) : s.Within u :=
  ⟨Nat.le_trans h2.1 h1.1, Nat.le_trans h1.2 h2.2⟩

/-- Parts of disjoint ranges are disjoint. -/
theorem Disjoint.mono {s t s' t' : Span} (h : s.Disjoint t) (hs : s'.Within s)
    (ht : t'.Within t) : s'.Disjoint t' := by
  simp only [Disjoint, Within] at *
  omega

/-- Parts of ranges with a gap between them have a gap between them. -/
theorem Apart.mono {s t s' t' : Span} (h : s.Apart t) (hs : s'.Within s)
    (ht : t'.Within t) : s'.Apart t' := by
  simp only [Apart, Within] at *
  omega

/-- An address of one of two disjoint ranges is not in the other. -/
theorem Disjoint.not_has (h : s.Disjoint t) {x : Nat} (hx : s.Has x) :
    ¬ t.Has x := by
  simp only [Disjoint, Has] at *
  omega

/-- A range covered by pieces that do not touch each other lies inside one of them. -/
theorem within_of_covered {s : Span} (hs : s.lo < s.hi)
    (hL : ∀ t ∈ L, ∀ u ∈ L, t ≠ u → t.Apart u)
    (hc : ∀ x, s.Has x → ∃ t ∈ L, t.Has x) : ∃ t ∈ L, s.Within t := by
  obtain ⟨t, htL, ht⟩ := hc s.lo ⟨Nat.le_refl _, hs⟩
  refine ⟨t, htL, ht.1, ?_⟩
  -- walk up from `s.lo`: the piece of the next address touches `t`, so it is `t`
  have walk : ∀ n, s.lo + n < s.hi → t.Has (s.lo + n) := by
    intro n
    induction n with
    | zero => intro _; exact ht
    | succ n ih =>
      intro hn
      have hx := ih (by omega)
      obtain ⟨u, huL, hu⟩ := hc (s.lo + (n + 1)) ⟨by omega, hn⟩
      by_cases htu : t = u
      · exact htu ▸ hu
      · have := hL t htL u huL htu
        simp only [Apart, Has] at *
        omega
  have := walk (s.hi - s.lo - 1) (by omega)
  simp only [Has] at this
  omega

/-- The addresses of disjoint ranges, as one set. -/
theorem exists_addresses (hL : L.Pairwise Disjoint) : ∃ F : Finset Nat,
    F.card = (L.map fun t => t.hi - t.lo).sum ∧ ∀ x ∈ F, ∃ t ∈ L, t.Has x := by
  induction L with
  | nil => exact ⟨∅, rfl, by simp⟩
  | cons t L ih =>
    obtain ⟨hhead, htail⟩ := List.pairwise_cons.1 hL
    obtain ⟨F, hcard, hF⟩ := ih htail
    have hdis : ∀ x ∈ Finset.Ico t.lo t.hi, x ∉ F := by
      intro x hx hxF
      obtain ⟨u, hu, hux⟩ := hF x hxF
      exact (hhead u hu).not_has (Finset.mem_Ico.1 hx) hux
    refine ⟨Finset.Ico t.lo t.hi ∪ F, ?_, fun x hx => ?_⟩
    · rw [Finset.card_union_of_disjoint (Finset.disjoint_left.2 fun _ => hdis _), Nat.card_Ico,
        hcard, List.map_cons, List.sum_cons]
    · rcases Finset.mem_union.1 hx with hx | hx
      · exact ⟨t, .head _, Finset.mem_Ico.1 hx⟩
      · obtain ⟨u, hu, hux⟩ := hF x hx
        exact ⟨u, .tail _ hu, hux⟩

/-- Disjoint ranges inside another one are together no longer than it. -/
theorem sum_length_le {s : Span} (hL : L.Pairwise Disjoint)
    (hin : ∀ t ∈ L, t.Within s) : (L.map fun t => t.hi - t.lo).sum ≤ s.hi - s.lo := by
  obtain ⟨F, hcard, hF⟩ := exists_addresses hL
  rw [← hcard, ← Nat.card_Ico]
  refine Finset.card_le_card fun x hx => ?_
  obtain ⟨t, ht, hx⟩ := hF x hx
  have hw := hin t ht
  simp only [Within, Has, Finset.mem_Ico] at *
  omega

end Span

/-- A search finds the one element that passes. -/
theorem find?_of_unique {α : Type*} {p : α → Bool} {l : List α} {a : α} (ha : a ∈ l)
    (hp : p a = true) (hu : ∀ b ∈ l, p b = true → b = a) : l.find? p = some a := by
  cases hf : l.find? p with
  | none => exact absurd hp (List.find?_eq_none.1 hf a ha)
  | some b => rw [hu b (List.mem_of_find?_eq_some hf) (List.find?_some hf)]

end ArenaJs
