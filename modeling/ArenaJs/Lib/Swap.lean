import Mathlib.Data.List.Perm.Basic
import Mathlib.Tactic.Ring

/-!
# Removal by swapping with the last element

An unordered table kept in a prefix of an array removes an entry by moving the last one into its
slot. Up to the order of the entries this is erasing the entry (`swapErase_perm`).
-/

namespace ArenaJs

variable {α : Type}

/-- Move the last element into slot `i` and drop the last slot. -/
def swapRemove (l : List α) (i : Nat) : List α :=
  match l.getLast? with
  | none => []
  | some x => (l.set i x).dropLast

/-- Remove the first occurrence of `a` by swapping, if there is one. -/
def swapErase [DecidableEq α] (l : List α) (a : α) : List α :=
  match l.findIdx? fun b => b = a with
  | none => l
  | some i => swapRemove l i

theorem swapRemove_perm {l : List α} {i : Nat} (h : i < l.length) :
    (swapRemove l i).Perm (l.eraseIdx i) := by
  obtain ⟨init, x, rfl⟩ := List.eq_nil_or_concat l |>.resolve_left (by rintro rfl; simp at h)
  simp only [List.concat_eq_append, List.length_append, List.length_singleton] at h ⊢
  simp only [swapRemove, List.getLast?_append, List.getLast?_singleton, Option.some_or]
  by_cases hi : i < init.length
  · rw [List.set_append_left _ _ hi, List.dropLast_concat, List.eraseIdx_append_of_lt_length hi]
    exact (List.set_perm_cons_eraseIdx hi x).trans (List.perm_append_singleton _ _).symm
  · obtain rfl : i = init.length := by omega
    simp [List.eraseIdx_append_of_length_le]

/-- Removal by swapping erases the entry. -/
theorem swapErase_perm [DecidableEq α] (l : List α) (a : α) : (swapErase l a).Perm (l.erase a) := by
  rw [List.erase_eq_eraseIdx, swapErase]
  have hf : l.findIdx? (fun b => decide (b = a)) = l.idxOf? a := by
    rw [List.idxOf?]; congr 1
  rw [hf]
  cases hi : l.idxOf? a with
  | none => simp
  | some i =>
    obtain ⟨hlt, -⟩ := List.findIdx?_eq_some_iff_getElem.1 hi
    exact swapRemove_perm hlt

end ArenaJs
