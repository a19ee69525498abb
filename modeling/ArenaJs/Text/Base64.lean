import Mathlib.Tactic.Linarith

/-!
# Base64 and `atob`

The alphabets and `b64_decode`, the decoder of `atob`. The decoder reads its input once: it counts
the characters of the group it is in, skips white space, and looks at padding when the first
character that is neither turns up. The algorithm it implements works on the whole string
(`forgivingDecode`); the two agree on every input (`b64Decode_eq_forgivingDecode`).
-/

namespace ArenaJs.Base64

/-! ## Tables -/

/-- The values of the option `alphabet`. -/
inductive Alphabet where
  | base64
  | base64url
  deriving DecidableEq, Repr

/-- `b64_enc` and `b64url_enc`. -/
def Alphabet.enc (alpha : Alphabet) (v : Nat) : UInt8 :=
  if v < 26 then UInt8.ofNat (65 + v)
  else if v < 52 then UInt8.ofNat (97 + (v - 26))
  else if v < 62 then UInt8.ofNat (48 + (v - 52))
  else match alpha with
    | .base64 => if v = 62 then '+'.toUInt8 else '/'.toUInt8
    | .base64url => if v = 62 then '-'.toUInt8 else '_'.toUInt8

/-- The 64 characters of an alphabet in their order. -/
def Alphabet.table (alpha : Alphabet) : List UInt8 := (List.range 64).map alpha.enc

/-- `b64_val`. -/
def b64Val (ch : UInt8) : Nat :=
  let c := ch.toNat
  if 65 ≤ c ∧ c ≤ 90 then c - 65
  else if 97 ≤ c ∧ c ≤ 122 then c - 97 + 26
  else if 48 ≤ c ∧ c ≤ 57 then c - 48 + 52
  else if ch = '+'.toUInt8 ∨ ch = '-'.toUInt8 then 62
  else if ch = '/'.toUInt8 ∨ ch = '_'.toUInt8 then 63
  else 0

/-- ASCII white space. -/
def isWhitespace (ch : UInt8) : Bool :=
  ch = ' '.toUInt8 || ch = 9 || ch = 10 || ch = 12 || ch = 13

/-- The bit `K_VAL`. -/
def kVal : UInt8 := 1

/-- The bit `K_WS`. -/
def kWs : UInt8 := 2

/-- `b64_flags` and `b64_flags_url`. -/
def Alphabet.flags (alpha : Alphabet) (ch : UInt8) : UInt8 :=
  let c := ch.toNat
  if isWhitespace ch then kWs
  else if 65 ≤ c ∧ c ≤ 90 ∨ 97 ≤ c ∧ c ≤ 122 ∨ 48 ≤ c ∧ c ≤ 57 then kVal
  else match alpha with
    | .base64 => if ch = '+'.toUInt8 ∨ ch = '/'.toUInt8 then kVal else 0
    | .base64url => if ch = '-'.toUInt8 ∨ ch = '_'.toUInt8 then kVal else 0

/-- The test of the bit `K_VAL`. -/
def Alphabet.isVal (alpha : Alphabet) (ch : UInt8) : Bool := alpha.flags ch &&& kVal != 0

/-- The test of the bit `K_WS`. -/
def Alphabet.isWs (alpha : Alphabet) (ch : UInt8) : Bool := alpha.flags ch &&& kWs != 0

/-- The sign of padding. -/
def pad : UInt8 := '='.toUInt8

/-- A fact about all characters is decided by looking at each. -/
theorem forall_char {P : UInt8 → Prop} (h : ∀ n < 256, P (UInt8.ofNat n)) (ch : UInt8) : P ch := by
  simpa using h ch.toNat ch.toNat_lt

section
variable (alpha : Alphabet) (ch : UInt8)

@[simp] theorem isWs_eq : alpha.isWs ch = isWhitespace ch := by
  revert ch
  cases alpha <;> exact forall_char (by decide +kernel)

/-- The flags mark the characters of the alphabet, and `b64_val` is the place there. -/
theorem isVal_iff : alpha.isVal ch = decide (ch ∈ alpha.table) ∧
    (ch ∈ alpha.table → b64Val ch = alpha.table.idxOf ch) := by
  revert ch
  cases alpha <;> exact forall_char (by decide +kernel)

end

theorem not_isWhitespace_pad : isWhitespace pad = false := by decide

theorem not_isVal_pad (alpha : Alphabet) : alpha.isVal pad = false := by cases alpha <;> decide

/-! ## Groups -/

/-- The three bytes of a number of 24 bits. -/
def triple (v : Nat) : List UInt8 :=
  [UInt8.ofNat (v / 2 ^ 16), UInt8.ofNat (v / 2 ^ 8), UInt8.ofNat v]

/-- The bytes of six-bit values: three for four values, and for a shorter group at the end the bytes
that it determines, its last bits being discarded. -/
def bytesOf : List Nat → List UInt8
  | a :: b :: c :: d :: vs => triple (((a * 2 ^ 6 + b) * 2 ^ 6 + c) * 2 ^ 6 + d) ++ bytesOf vs
  | [a, b, c] =>
    let v := (a * 2 ^ 6 + b) * 2 ^ 6 + c
    [UInt8.ofNat (v / 2 ^ 10), UInt8.ofNat (v / 2 ^ 2)]
  | [a, b] => [UInt8.ofNat ((a * 2 ^ 6 + b) / 2 ^ 4)]
  | [_] | [] => []

theorem length_bytesOf (vs : List Nat) : (bytesOf vs).length ≤ 3 * (vs.length / 4) + 2 := by
  fun_induction bytesOf vs with
  | case1 a b c d vs ih => simp [triple]; omega
  | _ => simp

/-- The state of a decoder: the bits of the group it is in, the number of their characters, and the
bytes written. -/
structure Acc where
  acc : Nat
  seen : Nat
  dst : List UInt8
  deriving DecidableEq, Repr

/-- A character of the alphabet with the value `v`. -/
def Acc.push (s : Acc) (v : Nat) : Acc :=
  let acc := s.acc * 2 ^ 6 + v
  if s.seen + 1 = 4 then ⟨0, 0, s.dst ++ triple acc⟩ else ⟨acc, s.seen + 1, s.dst⟩

/-- What the last, shorter group is written as. -/
def Acc.finish (s : Acc) : List UInt8 :=
  if s.seen = 3 then s.dst ++ [UInt8.ofNat (s.acc / 2 ^ 10), UInt8.ofNat (s.acc / 2 ^ 2)]
  else if s.seen = 2 then s.dst ++ [UInt8.ofNat (s.acc / 2 ^ 4)]
  else s.dst

theorem foldl_push (vs : List Nat) (dst : List UInt8) :
    (vs.foldl Acc.push ⟨0, 0, dst⟩).finish = dst ++ bytesOf vs ∧
      (vs.foldl Acc.push ⟨0, 0, dst⟩).seen = vs.length % 4 := by
  fun_induction bytesOf vs generalizing dst with
  | case1 a b c d vs ih =>
    have h := ih (dst ++ triple (((a * 2 ^ 6 + b) * 2 ^ 6 + c) * 2 ^ 6 + d))
    have hfour : ∀ vs, List.foldl Acc.push ⟨0, 0, dst⟩ (a :: b :: c :: d :: vs) =
        List.foldl Acc.push ⟨0, 0, dst ++ triple (((a * 2 ^ 6 + b) * 2 ^ 6 + c) * 2 ^ 6 + d)⟩ vs :=
      fun vs => by simp [Acc.push]
    rw [hfour, ← List.append_assoc]
    exact ⟨h.1, h.2.trans (Nat.add_mod_right ..).symm⟩
  | _ => simp +zetaDelta [Acc.push, Acc.finish]

/-! ## `b64_decode` -/

/-- The first loop of `b64_decode`: the state, and the input from the character it stopped at. -/
def decodeVals (s : Acc) : List UInt8 → Acc × List UInt8
  | [] => (s, [])
  | ch :: src =>
    if Alphabet.base64.isWs ch then decodeVals s src
    else if !Alphabet.base64.isVal ch then (s, ch :: src)
    else decodeVals (s.push (b64Val ch)) src

/-- The second loop: the number of signs of padding, and the input from where it stopped. -/
def decodePad (n : Nat) : List UInt8 → Nat × List UInt8
  | [] => (n, [])
  | ch :: src =>
    if n < 2 ∧ ch = pad then decodePad (n + 1) src
    else if !Alphabet.base64.isWs ch then (n, ch :: src)
    else decodePad n src

/-- What `b64_decode` leaves: the bytes stored at `dst`, the value returned and `*err`. -/
structure Decode where
  dst : List UInt8
  ret : Nat
  err : Bool
  deriving DecidableEq, Repr

/-- `b64_decode`. -/
def b64Decode (src : List UInt8) : Decode :=
  let (s, rest) := decodeVals ⟨0, 0, []⟩ src
  if s.seen ≠ 0 then
    if s.seen = 3 ∨ s.seen = 2 then
      let dst := s.finish
      let (n, rest) := decodePad 0 rest
      if n ≠ 0 ∧ s.seen + n ≠ 4 then ⟨dst, 0, true⟩ else ⟨dst, dst.length, decide (rest ≠ [])⟩
    else ⟨s.dst, 0, true⟩
  else ⟨s.dst, s.dst.length, decide (rest ≠ [])⟩

/-- The bytes that the caller takes, if there is no error. -/
def Decode.bytes? (d : Decode) : Option (List UInt8) :=
  if d.err then none else some (d.dst.take d.ret)

/-! ## Forgiving-base64 decode -/

/-- One or two signs of padding at the end are removed. -/
def dropPadding (data : List UInt8) : List UInt8 :=
  if [pad, pad] <:+ data then data.dropLast.dropLast
  else if [pad] <:+ data then data.dropLast
  else data

/-- The WHATWG algorithm on a whole string. -/
def forgivingDecode (data : List UInt8) : Option (List UInt8) :=
  let data := data.filter (!isWhitespace ·)
  let data := if data.length % 4 = 0 then dropPadding data else data
  if data.length % 4 = 1 then none
  else if data.all (· ∈ Alphabet.base64.table) then
    some (bytesOf (data.map Alphabet.base64.table.idxOf))
  else none

/-- The answer for the characters `cs` of the alphabet before the rest `tail`. -/
def outcome (cs tail : List UInt8) : Option (List UInt8) :=
  if tail = [] ∧ cs.length % 4 ≠ 1 ∨ tail = [pad] ∧ cs.length % 4 = 3 ∨
      tail = [pad, pad] ∧ cs.length % 4 = 2 then
    some (bytesOf (cs.map b64Val))
  else none

/-- A string without white space, split at its first character outside the alphabet. -/
structure Split (data cs tail : List UInt8) : Prop where
  eq : data = cs ++ tail
  vals : ∀ c ∈ cs, Alphabet.base64.isVal c
  stop : ∀ c ∈ tail.head?, ¬Alphabet.base64.isVal c

theorem dropPadding_spec (data : List UInt8) :
    ∃ k ≤ 2, data = dropPadding data ++ List.replicate k pad ∧
      (k < 2 → ¬[pad] <:+ dropPadding data) := by
  unfold dropPadding
  split
  next h =>
    obtain ⟨l, rfl⟩ := h
    exact ⟨2, le_rfl, by simp [List.replicate], fun h => absurd h (lt_irrefl 2)⟩
  next h2 =>
    split
    next h =>
      obtain ⟨l, rfl⟩ := h
      refine ⟨1, by decide, by simp, fun _ h => h2 ?_⟩
      obtain ⟨l', rfl⟩ : [pad] <:+ l := by simpa using h
      exact ⟨l', by simp⟩
    next h => exact ⟨0, by decide, by simp, fun _ => h⟩

section
variable {cs tail src : List UInt8}

/-- The value of a string that is all of the alphabet, as the algorithm finds it. -/
theorem decode_vals (h : ∀ c ∈ cs, Alphabet.base64.isVal c) :
    cs.all (· ∈ Alphabet.base64.table) ∧
      cs.map Alphabet.base64.table.idxOf = cs.map b64Val := by
  have hmem : ∀ c ∈ cs, c ∈ Alphabet.base64.table := fun c hc => by
    simpa [(isVal_iff .base64 c).1] using h c hc
  exact ⟨by simpa using hmem,
    List.map_congr_left fun c hc => ((isVal_iff .base64 c).2 (hmem c hc)).symm⟩

theorem forgivingDecode_eq (h : Split (src.filter (!isWhitespace ·)) cs tail) :
    forgivingDecode src = outcome cs tail := by
  obtain ⟨heq, hvals, hstop⟩ := h
  have hpad : ∀ k ≠ 0, ∀ l, cs ≠ l ++ List.replicate k pad := by
    rintro k hk l rfl
    have := hvals pad (by simp [hk])
    simp [not_isVal_pad] at this
  obtain ⟨d, k, hk, hd, hd4, hmax, hdef⟩ : ∃ d k, k ≤ 2 ∧ cs ++ tail = d ++ List.replicate k pad ∧
      (k ≠ 0 → (cs ++ tail).length % 4 = 0) ∧
      ((cs ++ tail).length % 4 = 0 → k < 2 → ¬[pad] <:+ d) ∧
      d = if (cs ++ tail).length % 4 = 0 then dropPadding (cs ++ tail) else cs ++ tail := by
    by_cases h4 : (cs ++ tail).length % 4 = 0
    · obtain ⟨k, hk, hd, hmax⟩ := dropPadding_spec (cs ++ tail)
      exact ⟨_, k, hk, hd, fun _ => h4, fun _ => hmax, (if_pos h4).symm⟩
    · exact ⟨_, 0, by decide, by simp, by simp, fun h => absurd h h4, (if_neg h4).symm⟩
  obtain ⟨e, rfl, rfl⟩ : ∃ e, d = cs ++ e ∧ tail = e ++ List.replicate k pad := by
    rcases List.append_eq_append_iff.1 hd with h | ⟨e, rfl, he⟩
    · exact h
    · have he' := List.append_eq_replicate_iff.1 he.symm
      cases e with
      | nil => exact ⟨[], by simp, by simpa using he.symm⟩
      | cons q e => exact absurd (congrArg _ he'.2.1) (hpad (e.length + 1) (by simp) d)
  simp only [forgivingDecode, heq, ← hdef]
  cases e with
  | nil =>
    -- what is left is the characters of the alphabet
    obtain ⟨hall, hmap⟩ := decode_vals hvals
    simp only [List.append_nil, List.nil_append, hall, hmap, outcome, if_true]
    obtain rfl | rfl | rfl : k = 0 ∨ k = 1 ∨ k = 2 := by omega
    all_goals simp [List.replicate] at hd4 ⊢
    all_goals grind
  | cons q e =>
    -- a character from outside the alphabet stays
    have hq : q ∉ Alphabet.base64.table := by
      simpa [(isVal_iff .base64 q).1] using hstop q (by simp)
    have hno : ∀ m ≤ 2, (cs.length + m) % 4 = 0 → q :: e ++ List.replicate k pad ≠
        List.replicate m pad := by
      intro m hm h4 h
      have hlen := congrArg List.length h
      have hqe := (List.append_eq_replicate_iff.1 h).2.1
      simp only [List.length_append, List.length_cons, List.length_replicate] at hlen hqe
      refine hmax (by simp; omega) (by omega) ⟨cs ++ List.replicate e.length pad, ?_⟩
      rw [hqe, List.replicate_succ', List.append_assoc]
    have hnone : outcome cs (q :: e ++ List.replicate k pad) = none := by
      refine if_neg ?_
      rintro (⟨h, _⟩ | ⟨h, h4⟩ | ⟨h, h4⟩)
      · simp at h
      · exact hno 1 (by decide) (by omega) h
      · exact hno 2 (by decide) (by omega) h
    rw [hnone]
    simp [hq]

/-- What the first loop makes of its input. -/
theorem decodeVals_spec (s : Acc) (src : List UInt8) :
    ∃ cs rest, decodeVals s src = ((cs.map b64Val).foldl Acc.push s, rest) ∧
      Split (src.filter (!isWhitespace ·)) cs (rest.filter (!isWhitespace ·)) ∧
      cs.length ≤ src.length ∧ (rest.filter (!isWhitespace ·) = [] → rest = []) := by
  induction src generalizing s with
  | nil => exact ⟨[], [], rfl, ⟨rfl, by simp, by simp⟩, by simp, fun _ => rfl⟩
  | cons ch src ih =>
    simp only [decodeVals, isWs_eq]
    split
    next hw =>
      obtain ⟨cs, rest, h, hs, hlen, hr⟩ := ih s
      exact ⟨cs, rest, h, by simpa [hw] using hs, by simp; omega, hr⟩
    next hw =>
      split
      next hv =>
        exact ⟨[], ch :: src, rfl, ⟨rfl, by simp, by simpa [hw] using hv⟩, by simp, by simp [hw]⟩
      next hv =>
        obtain ⟨cs, rest, h, hs, hlen, hr⟩ := ih (s.push (b64Val ch))
        refine ⟨ch :: cs, rest, h, ⟨by simp [hw, hs.eq], ?_, hs.stop⟩, by simpa using hlen, hr⟩
        simpa using ⟨by simpa using hv, hs.vals⟩

/-- The second loop gets to the end of its input over at most two signs of padding. -/
theorem decodePad_eq_iff (n m : Nat) (rest : List UInt8) (hn : n ≤ 2) :
    decodePad n rest = (m, []) ↔
      n ≤ m ∧ m ≤ 2 ∧ rest.filter (!isWhitespace ·) = List.replicate (m - n) pad := by
  induction rest generalizing n with
  | nil => simp [decodePad]; omega
  | cons ch rest ih =>
    simp only [decodePad, isWs_eq]
    split
    next h =>
      rw [ih (n + 1) (by omega), List.filter_cons_of_pos (by simp [h.2, not_isWhitespace_pad]), h.2]
      rcases Nat.lt_or_ge n m with hm | hm
      · rw [show m - n = m - (n + 1) + 1 by omega, List.replicate_succ]
        simp
        omega
      · rw [Nat.sub_eq_zero_of_le hm]
        simp
        omega
    next h =>
      split
      next hw =>
        refine iff_of_false (by simp) ?_
        rintro ⟨hnm, hm, hrep⟩
        rw [List.filter_cons, if_pos hw, List.eq_replicate_iff] at hrep
        have hlen := hrep.1
        rw [List.length_cons] at hlen
        exact h ⟨by omega, hrep.2 ch List.mem_cons_self⟩
      next hw => simpa [hw] using ih n hn

theorem b64Decode_spec (src : List UInt8) : ∃ cs tail,
    Split (src.filter (!isWhitespace ·)) cs tail ∧ cs.length ≤ src.length ∧
      (b64Decode src).bytes? = outcome cs tail ∧
      (b64Decode src).dst = bytesOf (cs.map b64Val) := by
  obtain ⟨cs, rest, hrun, hs, hlen, hrest⟩ := decodeVals_spec ⟨0, 0, []⟩ src
  obtain ⟨hfin, hseen⟩ := foldl_push (cs.map b64Val) []
  have hpad := fun k => decodePad_eq_iff 0 k rest (by decide)
  refine ⟨cs, _, hs, hlen, ?_⟩
  simp only [b64Decode, hrun]
  generalize (cs.map b64Val).foldl Acc.push ⟨0, 0, []⟩ = s at hfin hseen ⊢
  rw [List.length_map] at hseen
  rw [List.nil_append] at hfin
  have hdst : s.seen < 2 → s.dst = bytesOf (cs.map b64Val) := fun h => by
    rw [← hfin, Acc.finish, if_neg (by omega), if_neg (by omega)]
  generalize decodePad 0 rest = p at hpad ⊢
  obtain ⟨n, rest'⟩ := p
  simp only [Prod.mk.injEq, Nat.zero_le, true_and, Nat.sub_zero] at hpad
  have h0 := hpad 0
  have h1 := hpad 1
  have h2 := hpad 2
  have hnil : rest = [] ↔ rest.filter (!isWhitespace ·) = [] := ⟨fun h => by simp [h], hrest⟩
  generalize rest.filter (!isWhitespace ·) = tail at *
  simp only [List.replicate, Nat.zero_le, true_and, Nat.one_le_ofNat, le_rfl] at h0 h1 h2
  refine ⟨?_, ?_⟩
  · simp only [outcome, ← h0, ← h1, ← h2, Decode.bytes?]
    grind
  · split
    · split
      · split <;> exact hfin
      · exact hdst (by omega)
    · exact hdst (by omega)

/-- `b64_decode` decides forgiving-base64 and decodes it, and the bytes it writes fit into the
buffer of `js_atob`. -/
theorem b64Decode_eq_forgivingDecode (src : List UInt8) :
    (b64Decode src).bytes? = forgivingDecode src ∧
      (b64Decode src).dst.length ≤ 3 * (src.length / 4) + 3 := by
  obtain ⟨cs, tail, hs, hlen, hbytes, hdst⟩ := b64Decode_spec src
  refine ⟨hbytes.trans (forgivingDecode_eq hs).symm, ?_⟩
  have hle := length_bytesOf (cs.map b64Val)
  rw [List.length_map] at hle
  rw [hdst]
  omega

end

/-! ## `b64_encode` -/

/-- Three bytes as a number, shifted for each of the four characters. -/
def shifts (x y z : UInt8) : List Nat :=
  let v := 65536 * x.toNat + 256 * y.toNat + z.toNat
  [v / 2 ^ 18, v / 2 ^ 12, v / 2 ^ 6, v]

/-- The character of the low six bits. -/
def Alphabet.enc6 (alpha : Alphabet) (v : Nat) : UInt8 := alpha.enc (v % 64)

/-- `b64_encode`: what it stores at `dst`. -/
def b64Encode (alpha : Alphabet) : List UInt8 → List UInt8
  | x :: y :: z :: src => (shifts x y z).map alpha.enc6 ++ b64Encode alpha src
  | [x, y] => ((shifts x y 0).take 3).map alpha.enc6 ++ [pad]
  | [x] => ((shifts x 0 0).take 2).map alpha.enc6 ++ [pad, pad]
  | [] => []

theorem bytesOf_shifts (x y z : UInt8) (vs : List Nat) :
    bytesOf ((shifts x y z).map (· % 64) ++ vs) = x :: y :: z :: bytesOf vs ∧
      bytesOf (((shifts x y 0).take 3).map (· % 64)) = [x, y] ∧
      bytesOf (((shifts x 0 0).take 2).map (· % 64)) = [x] := by
  have hx := x.toNat_lt
  have hy := y.toNat_lt
  have hz := z.toNat_lt
  simp [shifts, bytesOf, triple, ← UInt8.toNat_inj]
  omega

/-- The output is characters for the bytes, and padding. -/
theorem b64Encode_eq (alpha : Alphabet) (src : List UInt8) :
    ∃ (vs : List Nat) (k : Nat), b64Encode alpha src = vs.map alpha.enc6 ++ List.replicate k pad ∧
      bytesOf (vs.map (· % 64)) = src ∧ vs.length + k = 4 * ((src.length + 2) / 3) ∧ k ≤ 2 := by
  fun_induction b64Encode alpha src with
  | case1 x y z src ih =>
    obtain ⟨vs, k, heq, hsrc, hlen, hk⟩ := ih
    refine ⟨shifts x y z ++ vs, k, by simp [heq], ?_, by simp [shifts]; omega, hk⟩
    rw [List.map_append, (bytesOf_shifts x y z _).1, hsrc]
  | case2 x y => exact ⟨_, 1, rfl, (bytesOf_shifts x y 0 []).2.1, by simp [shifts], by decide⟩
  | case3 x => exact ⟨_, 2, rfl, (bytesOf_shifts x 0 0 []).2.2, by simp [shifts], by decide⟩
  | case4 => exact ⟨[], 0, rfl, rfl, rfl, by decide⟩

/-- The first loop of the decoder stops at the padding. -/
theorem decodeVals_enc6 (s : Acc) (vs : List Nat) (k : Nat) :
    decodeVals s (vs.map Alphabet.base64.enc6 ++ List.replicate k pad) =
      ((vs.map (· % 64)).foldl Acc.push s, List.replicate k pad) := by
  have henc : ∀ v < 64, let ch := Alphabet.base64.enc v
      isWhitespace ch = false ∧ Alphabet.base64.isVal ch ∧ b64Val ch = v := by
    decide +kernel
  induction vs generalizing s with
  | nil => cases k <;> simp [decodeVals, not_isVal_pad, not_isWhitespace_pad, List.replicate_succ]
  | cons v vs ih =>
    obtain ⟨hws, hval, hv⟩ := henc (v % 64) (Nat.mod_lt v (by decide))
    simp [decodeVals, Alphabet.enc6, hws, hval, hv, ← ih]

/-- What was encoded is decoded to itself, and fills the buffer that `js_btoa` allocates. -/
theorem b64Decode_b64Encode (src : List UInt8) :
    (b64Decode (b64Encode .base64 src)).bytes? = some src ∧
      (b64Encode .base64 src).length = 4 * ((src.length + 2) / 3) := by
  obtain ⟨vs, k, heq, rfl, hlen, hk⟩ := b64Encode_eq .base64 src
  obtain ⟨hfin, hseen⟩ := foldl_push (vs.map (· % 64)) []
  refine ⟨?_, by simpa [heq] using hlen⟩
  simp only [b64Decode, heq, decodeVals_enc6]
  generalize (vs.map (· % 64)).foldl Acc.push ⟨0, 0, []⟩ = s at *
  rw [List.length_map] at hseen
  have hs : s.seen = 0 ∧ k = 0 ∨ s.seen = 3 ∧ k = 1 ∨ s.seen = 2 ∧ k = 2 := by omega
  rcases hs with ⟨hs, rfl⟩ | ⟨hs, rfl⟩ | ⟨hs, rfl⟩
  · simp [Acc.finish, hs] at hfin
    simp [hs, hfin, Decode.bytes?]
  all_goals simp [hs, hfin, Decode.bytes?, List.replicate, decodePad]

end ArenaJs.Base64
