import Mathlib.Tactic.Ring

/-!
# Byte memory

A memory is a byte for every address. Words are stored little-endian, `memset` and `memcpy` act on
a range. Every operation has a lemma for the bytes it writes and one for those it leaves alone;
reads of words depend on the bytes they read only (`readU64_congr`).
-/

namespace ArenaJs

/-- A byte for every address. -/
abbrev Mem := Nat → UInt8

namespace Mem

variable {m : Mem}

/-- The little-endian number in `n` bytes at `a`. -/
def readLE (m : Mem) (a : Nat) : Nat → Nat
  | 0 => 0
  | n + 1 => (m a).toNat + 256 * readLE m (a + 1) n

/-- Store the low `n` bytes of `v` at `a`, little-endian. -/
def writeLE (m : Mem) (a v n : Nat) : Mem :=
  fun x => if a ≤ x ∧ x < a + n then UInt8.ofNat (v / 256 ^ (x - a)) else m x

/-- `*(uint64_t *)a`. -/
def readU64 (m : Mem) (a : Nat) : Nat := readLE m a 8

/-- `*(uint64_t *)a = v`. -/
def writeU64 (m : Mem) (a v : Nat) : Mem := writeLE m a v 8

/-- `memset(a, b, n)`. -/
def memset (m : Mem) (a : Nat) (b : UInt8) (n : Nat) : Mem :=
  fun x => if a ≤ x ∧ x < a + n then b else m x

/-- `memcpy(dst, src, n)` between ranges that do not overlap. -/
def memcpy (m : Mem) (dst src n : Nat) : Mem :=
  fun x => if dst ≤ x ∧ x < dst + n then m (src + (x - dst)) else m x

/-! ## Reads of words -/

theorem readLE_congr {m m' : Mem} : ∀ {n a : Nat}, (∀ x, a ≤ x → x < a + n → m x = m' x) →
    readLE m a n = readLE m' a n
  | 0, _, _ => rfl
  | n + 1, a, h => by
    rw [readLE, readLE, h a (Nat.le_refl a) (by omega),
      readLE_congr fun x h1 h2 => h x (by omega) (by omega)]

/-- A word depends on its eight bytes only. -/
theorem readU64_congr {m m' : Mem} {a : Nat} (h : ∀ x, a ≤ x → x < a + 8 → m x = m' x) :
    readU64 m a = readU64 m' a :=
  readLE_congr h

/-- The bytes of `v / 256 ^ i` from position `i` on read back the rest of `v`. -/
theorem readLE_digits (v : Nat) : ∀ {n a i : Nat},
    (∀ x, a ≤ x → x < a + n → m x = UInt8.ofNat (v / 256 ^ (x - a + i))) →
    readLE m a n = v / 256 ^ i % 256 ^ n
  | 0, _, _, _ => by simp [readLE, Nat.mod_one]
  | n + 1, a, i, h => by
    have hd : ∀ x, a + 1 ≤ x → x < a + 1 + n → m x =
      UInt8.ofNat (v / 256 ^ (x - (a + 1) + (i + 1))) := by
      intro x h1 h2
      rw [h x (by omega) (by omega), show x - a + i = x - (a + 1) + (i + 1) by omega]
    rw [readLE, h a (Nat.le_refl a) (by omega), readLE_digits v hd, Nat.pow_succ 256 n,
      Nat.mul_comm (256 ^ n) 256, Nat.mod_mul, Nat.pow_succ 256 i, ← Nat.div_div_eq_div_mul]
    simp

/-- A stored value reads back. -/
theorem readLE_writeLE (m : Mem) (a n : Nat) {v : Nat} (hv : v < 256 ^ n) :
    readLE (writeLE m a v n) a n = v := by
  have h := readLE_digits (m := writeLE m a v n) v (n := n) (a := a) (i := 0) (by
    intro x h1 h2
    simp [writeLE, h1, h2])
  rw [h, Nat.pow_zero, Nat.div_one]
  exact Nat.mod_eq_of_lt hv

theorem readU64_writeU64 (m : Mem) (a : Nat) {v : Nat} (hv : v < 2 ^ 64) :
    readU64 (writeU64 m a v) a = v :=
  readLE_writeLE m a 8 (by simpa using hv)

/-! ## What the writes leave alone -/

theorem writeLE_of_notMem {a v n x : Nat} (h : x < a ∨ a + n ≤ x) :
    writeLE m a v n x = m x := by
  simp only [writeLE]
  rw [if_neg (by omega)]

theorem writeU64_of_notMem {a v x : Nat} (h : x < a ∨ a + 8 ≤ x) :
    writeU64 m a v x = m x :=
  writeLE_of_notMem h

/-- A word apart from the stored one keeps its value. -/
theorem readU64_writeU64_of_disjoint {a b v : Nat} (h : b + 8 ≤ a ∨ a + 8 ≤ b) :
    readU64 (writeU64 m a v) b = readU64 m b :=
  readU64_congr fun _ _ _ => writeU64_of_notMem (by omega)

theorem memset_of_mem {a n x : Nat} {b : UInt8} (h1 : a ≤ x) (h2 : x < a + n) :
    memset m a b n x = b := if_pos ⟨h1, h2⟩

theorem memset_of_notMem {a n x : Nat} {b : UInt8} (h : x < a ∨ a + n ≤ x) :
    memset m a b n x = m x := if_neg (by omega)

theorem memcpy_of_mem {dst src n i : Nat} (h : i < n) :
    memcpy m dst src n (dst + i) = m (src + i) := by
  simp only [memcpy]
  rw [if_pos (by omega), show src + (dst + i - dst) = src + i by omega]

theorem memcpy_of_notMem {dst src n x : Nat} (h : x < dst ∨ dst + n ≤ x) :
    memcpy m dst src n x = m x := if_neg (by omega)

end Mem

end ArenaJs
