import Mathlib.Tactic.IntervalCases

/-!
# Unsigned 64-bit size arithmetic

`size_t` values are natural numbers below `2 ^ 64`; the operations reduce modulo `2 ^ 64`, as C's
do. `alignUp k n` is the usual `(n + k - 1) & ~(k - 1)` at a power of two `k`: clearing the low
bits of a word is dividing by `k` and multiplying back.

Each operation has one lemma that removes the reduction where nothing wraps; the lemmas after it
are stated at unwrapped values only.
-/

namespace ArenaJs.Word

/-- `SIZE_MAX`. -/
def sizeMax : Nat := 2 ^ 64 - 1

/-- `a + b` on `size_t`. -/
def add (a b : Nat) : Nat := (a + b) % 2 ^ 64

/-- `a - b` on `size_t`. -/
def sub (a b : Nat) : Nat := (a + (2 ^ 64 - b)) % 2 ^ 64

/-- `a * b` on `size_t`. -/
def mul (a b : Nat) : Nat := a * b % 2 ^ 64

/-- `(n + k - 1) & ~(k - 1)` on `size_t`, for a power of two `k`. -/
def alignUp (k n : Nat) : Nat := (n + (k - 1)) % 2 ^ 64 / k * k

/-- An addition that does not wrap is the sum. -/
theorem add_eq {a b : Nat} (h : a + b < 2 ^ 64) : add a b = a + b := Nat.mod_eq_of_lt h

/-- A subtraction that does not wrap is the difference. -/
theorem sub_eq {a b : Nat} (ha : a < 2 ^ 64) (h : b ≤ a) : sub a b = a - b := by
  unfold sub; omega

/-- A multiplication that does not wrap is the product. -/
theorem mul_eq {a b : Nat} (h : a * b < 2 ^ 64) : mul a b = a * b := Nat.mod_eq_of_lt h

/-- Rounding that does not wrap is division and multiplication on the naturals. -/
theorem alignUp_eq {k n : Nat} (h : n + (k - 1) < 2 ^ 64) :
    alignUp k n = (n + (k - 1)) / k * k := by
  rw [alignUp, Nat.mod_eq_of_lt h]

/-- A rounded value is a word, whether or not the rounding wrapped. -/
theorem alignUp_lt (k n : Nat) : alignUp k n < 2 ^ 64 :=
  Nat.lt_of_le_of_lt (Nat.div_mul_le_self _ _) (Nat.mod_lt _ (by decide))

/-- Rounding that does not wrap only enlarges. -/
theorem le_alignUp {k n : Nat} (hk : 0 < k) (h : n + (k - 1) < 2 ^ 64) : n ≤ alignUp k n := by
  rw [alignUp_eq h]
  have := Nat.lt_div_mul_add hk (a := n + (k - 1))
  omega

end ArenaJs.Word
