import Mathlib.Tactic.Ring

/-!
# Singly linked lists in a heap

Nodes live at addresses and point to their successor. `Linked next p l` says that following `next`
from `p` visits the addresses `l` and then ends.
-/

namespace ArenaJs

/-- The list that starts at `p` consists of the nodes at `l`; `next a` is `none` where there is no
node, and otherwise the node's successor. -/
def Linked (next : Nat → Option (Option Nat)) : Option Nat → List Nat → Prop
  | p, [] => p = none
  | p, a :: l => p = some a ∧ ∃ q, next a = some q ∧ Linked next q l

section
variable {next next' : Nat → Option (Option Nat)} {p : Option Nat} {l : List Nat}

/-- A list only depends on its own nodes. -/
theorem Linked.congr (h : Linked next p l) (heq : ∀ a ∈ l, next' a = next a) :
    Linked next' p l := by
  induction l generalizing p with
  | nil => exact h
  | cons a l ih =>
    obtain ⟨hp, q, hq, hl⟩ := h
    exact ⟨hp, q, by rw [heq a (.head _), hq], ih hl fun b hb => heq b (.tail _ hb)⟩

theorem Linked.isSome (h : Linked next p l) {a : Nat} (ha : a ∈ l) : (next a).isSome := by
  induction l generalizing p with
  | nil => cases ha
  | cons b l ih =>
    obtain ⟨-, q, hq, hl⟩ := h
    cases ha with
    | head => rw [hq]; rfl
    | tail _ ha => exact ih hl ha

/-- Linking a node after the last one. -/
theorem Linked.append (h : Linked next p l) {c t : Nat} (ht : l.getLast? = some t)
    (hnodup : l.Nodup) (hc : next' c = some none) (hlink : next' t = some (some c))
    (heq : ∀ a ∈ l, a ≠ t → next' a = next a) : Linked next' p (l ++ [c]) := by
  induction l generalizing p with
  | nil => cases ht
  | cons a l ih =>
    obtain ⟨hp, q, hq, hl⟩ := h
    cases l with
    | nil =>
      obtain rfl : a = t := by simpa using ht
      exact ⟨hp, some c, hlink, rfl, none, hc, rfl⟩
    | cons b l =>
      have hat : a ≠ t := by
        rintro rfl
        have hmem : a ∈ b :: l := List.mem_of_getLast? (by simpa using ht)
        exact (List.nodup_cons.1 hnodup).1 hmem
      refine ⟨hp, q, by rw [heq a (.head _) hat, hq], ih hl (by simpa using ht)
        (List.nodup_cons.1 hnodup).2 fun d hd => heq d (.tail _ hd)⟩

end

end ArenaJs
