import ArenaJs.Lib.Wire

/-!
# SHA-256 and HMAC

The hash function of the standard, on bytes. The message is padded to whole blocks of 64 bytes, and
each block is compressed into the eight words of the hash value. The constants are the standard's:
bits of the roots of the first primes. `hmac` is the keyed hash over it.

`absorb` is the hash value after the whole blocks of a message. A caller that keeps the bytes behind
them (`rest`) can go on with more: `absorb_append` until a block is full, `absorb_append_full` when
it is.
-/

namespace ArenaJs.Sha256

variable (m : List UInt8) (x : UInt32)

/-! ## The compression function -/

/-- A hash value, and the working variables of a round. -/
structure Words where
  (a b c d e f g h : UInt32)
  deriving DecidableEq, Repr

instance : Add Words :=
  ⟨fun x y =>
    ⟨x.a + y.a, x.b + y.b, x.c + y.c, x.d + y.d, x.e + y.e, x.f + y.f, x.g + y.g, x.h + y.h⟩⟩

def rotr (n : Nat) (x : UInt32) : UInt32 := ⟨x.toBitVec.rotateRight n⟩

def ch (x y z : UInt32) : UInt32 := (x &&& y) ^^^ (~~~x &&& z)

def maj (x y z : UInt32) : UInt32 := (x &&& y) ^^^ (x &&& z) ^^^ (y &&& z)

def upperSigma0 : UInt32 := rotr 2 x ^^^ rotr 13 x ^^^ rotr 22 x

def upperSigma1 : UInt32 := rotr 6 x ^^^ rotr 11 x ^^^ rotr 25 x

def lowerSigma0 : UInt32 := rotr 7 x ^^^ rotr 18 x ^^^ (x >>> 3)

def lowerSigma1 : UInt32 := rotr 17 x ^^^ rotr 19 x ^^^ (x >>> 10)

/-- The first 32 bits of the fractional part of the `k`-th root of the prime number `t`. -/
noncomputable def rootBits (k t : Nat) : UInt32 :=
  UInt32.ofNat (Nat.nthRoot k (Nat.nth Nat.Prime t * 2 ^ (32 * k)))

/-- The message schedule of a block. -/
def schedule (block : List UInt8) (t : Nat) : UInt32 :=
  if t < 16 then UInt32.ofNat (ofBe ((block.drop (4 * t)).take 4))
  else lowerSigma1 (schedule block (t - 2)) + schedule block (t - 7) +
    lowerSigma0 (schedule block (t - 15)) + schedule block (t - 16)

/-- One round, with the constant `k` and the word `w` of the schedule. -/
def round (v : Words) (k w : UInt32) : Words :=
  let t1 := v.h + upperSigma1 v.e + ch v.e v.f v.g + k + w
  let t2 := upperSigma0 v.a + maj v.a v.b v.c
  ⟨t1 + t2, v.a, v.b, v.c, v.d + t1, v.e, v.f, v.g⟩

noncomputable def compress (v : Words) (block : List UInt8) : Words :=
  v + (List.range 64).foldl (fun u t => round u (rootBits 3 t) (schedule block t)) v

/-! ## The hash -/

noncomputable def initial : Words :=
  ⟨rootBits 2 0, rootBits 2 1, rootBits 2 2, rootBits 2 3, rootBits 2 4, rootBits 2 5, rootBits 2 6,
    rootBits 2 7⟩

/-- Block `i` of a message. -/
def block (i : Nat) : List UInt8 := (m.drop (64 * i)).take 64

/-- The bytes behind the last whole block. -/
def rest : List UInt8 := m.drop (64 * (m.length / 64))

/-- The hash value after the whole blocks of a message. -/
noncomputable def absorb : Words :=
  (List.range (m.length / 64)).foldl (fun v i => compress v (block m i)) initial

/-- A one, the fewest zeros that leave eight bytes of a block, and the length in bits. -/
def pad : List UInt8 :=
  m ++ [0x80] ++ List.replicate ((119 - m.length % 64) % 64) 0 ++ beBytes 8 (8 * m.length)

def Words.bytes (v : Words) : List UInt8 :=
  [v.a, v.b, v.c, v.d, v.e, v.f, v.g, v.h].flatMap fun w => beBytes 4 w.toNat

/-- SHA-256. -/
noncomputable def hash : List UInt8 := (absorb (pad m)).bytes

/-- HMAC with SHA-256: a key longer than a block is hashed, a shorter one filled up with zeros. -/
noncomputable def hmac (key text : List UInt8) : List UInt8 :=
  let k := if 64 < key.length then hash key else key
  let k := k ++ List.replicate (64 - k.length) 0
  hash (k.map (· ^^^ 0x5c) ++ hash (k.map (· ^^^ 0x36) ++ text))

/-! ## Going on with more bytes -/

section
variable {m c : List UInt8}

theorem length_rest (m : List UInt8) : (rest m).length = m.length % 64 := by
  rw [rest, List.length_drop]
  omega

theorem block_append {i : Nat} (h : i < m.length / 64) : block (m ++ c) i = block m i := by
  rw [block, block, List.drop_append_of_le_length (by omega), List.take_append_of_le_length]
  rw [List.length_drop]
  omega

/-- The blocks of `m` give the same whatever follows. -/
theorem foldl_block_append (m c : List UInt8) :
    (List.range (m.length / 64)).foldl (fun v i => compress v (block (m ++ c) i)) initial =
      absorb m :=
  List.foldl_ext _ _ _ fun v i hi => by rw [block_append (List.mem_range.1 hi)]

/-- Bytes that do not fill a block wait. -/
theorem absorb_append (h : m.length % 64 + c.length < 64) :
    absorb (m ++ c) = absorb m ∧ rest (m ++ c) = rest m ++ c := by
  have hdiv : (m ++ c).length / 64 = m.length / 64 := by
    rw [List.length_append]
    omega
  rw [absorb, rest, hdiv, foldl_block_append]
  exact ⟨rfl, List.drop_append_of_le_length (by omega)⟩

/-- Bytes that fill a block. -/
theorem absorb_append_full (h : m.length % 64 + c.length = 64) :
    absorb (m ++ c) = compress (absorb m) (rest m ++ c) ∧ rest (m ++ c) = [] := by
  have hdiv : (m ++ c).length / 64 = m.length / 64 + 1 := by
    rw [List.length_append]
    omega
  have hlast : block (m ++ c) (m.length / 64) = rest m ++ c := by
    rw [block, List.drop_append_of_le_length (by omega), List.take_of_length_le]
    · rfl
    · rw [List.length_append, List.length_drop]
      omega
  rw [absorb, rest, hdiv, List.range_succ, List.foldl_append, foldl_block_append, List.foldl_cons,
    List.foldl_nil, hlast]
  exact ⟨rfl, List.drop_eq_nil_of_le (by rw [List.length_append]; omega)⟩

end

end ArenaJs.Sha256
