import Mathlib.Tactic.Ring

/-!
# Decoding UTF-8

The decoder of `cutils.h` as `JS_NewStringLen` uses it: `utf8_scan` finds out how wide the text is,
and one of two loops writes its code units. Bytes and code units are numbers, and the fuel of a loop
is the number of bytes. A byte above 0x7F is never decoded to a code unit of the same
value in its place, so the text is the bytes themselves only for ASCII (`decodeText_eq_iff`).
-/

namespace ArenaJs.Atoms

/-- A sequence of two bytes. An error takes one byte. -/
def need1 (c : Nat) (p : List Nat) : Nat × List Nat :=
  match p with
  | d :: p' =>
    if 0x80 ≤ d ∧ d ≤ 0xBF then ((c - 0xC0) * 2 ^ 6 + (d - 0x80), p') else (0xFFFD, p)
  | _ => (0xFFFD, p)

/-- The label `need2` of `utf8_decode`. -/
def need2 (c lower : Nat) (p : List Nat) : Nat × List Nat :=
  match p with
  | d :: e :: p' =>
    if lower ≤ d ∧ d ≤ 0xBF ∧ 0x80 ≤ e ∧ e ≤ 0xBF then
      ((c - 0xE0) * 2 ^ 12 + (d - 0x80) * 2 ^ 6 + (e - 0x80), p')
    else (0xFFFD, p)
  | _ => (0xFFFD, p)

/-- The label `need3` of `utf8_decode`. -/
def need3 (c lower upper : Nat) (p : List Nat) : Nat × List Nat :=
  match p with
  | d :: e :: f :: p' =>
    if lower ≤ d ∧ d ≤ upper ∧ 0x80 ≤ e ∧ e ≤ 0xBF ∧ 0x80 ≤ f ∧ f ≤ 0xBF then
      ((c - 0xF0) * 2 ^ 18 + (d - 0x80) * 2 ^ 12 + (e - 0x80) * 2 ^ 6 + (f - 0x80), p')
    else (0xFFFD, p)
  | _ => (0xFFFD, p)

/-- `utf8_decode` at the byte `c`: the code point, and the bytes after it. -/
def utf8Decode (c : Nat) (p : List Nat) : Nat × List Nat :=
  if c < 0x80 then (c, p)
  else if 0xC2 ≤ c ∧ c ≤ 0xDF then need1 c p
  else if c = 0xE0 then need2 c 0xA0 p
  else if 0xE1 ≤ c ∧ c ≤ 0xEF then need2 c 0x80 p
  else if c = 0xF0 then need3 c 0x90 0xBF p
  else if c = 0xF4 then need3 c 0x80 0x8F p
  else if 0xF1 ≤ c ∧ c ≤ 0xF3 then need3 c 0x80 0xBF p
  else (0xFFFD, p)

/-- `utf8_decode_len`: a sequence that does not fit into the buffer is an error. -/
def utf8DecodeLen (c : Nat) (p : List Nat) : Nat × List Nat :=
  match p.length with
  | 0 => if c < 0x80 then utf8Decode c p else (0xFFFD, p)
  | 1 => if c < 0xE0 then utf8Decode c p else (0xFFFD, p)
  | 2 => if c < 0xF0 then utf8Decode c p else (0xFFFD, p)
  | _ => utf8Decode c p

/-- The bits of `utf8_scan`. -/
structure Utf8Kind where
  nonAscii : Bool
  has16bit : Bool
  hasNonBmp1 : Bool
  hasErrors : Bool
  deriving DecidableEq, Repr

/-- The loop of `utf8_scan`, with the number of units. -/
def utf8ScanFrom : Nat → List Nat → Utf8Kind × Nat
  | 0, _ | _, [] => (⟨true, false, false, false⟩, 0)
  | n + 1, c :: p =>
    if c < 0x80 then
      let (kind, len) := utf8ScanFrom n p
      (kind, len + 1)
    else
      let (v, p') := utf8DecodeLen c p
      let (kind, len) := utf8ScanFrom n p'
      ({ kind with
          has16bit := kind.has16bit || decide (0xFF < v)
          hasNonBmp1 := kind.hasNonBmp1 || decide (0xFFFF < v)
          hasErrors := kind.hasErrors || decide (p'.length = p.length) },
        len + if 0xFFFF < v then 2 else 1)

/-- `utf8_scan`. -/
def utf8Scan (buf : List Nat) : Utf8Kind × Nat :=
  if buf.all (· < 0x80) then (⟨false, false, false, false⟩, buf.length)
  else utf8ScanFrom buf.length buf

/-- `utf8_decode_buf8`. -/
def utf8DecodeBuf8 : Nat → List Nat → List Nat
  | 0, _ | _, [] => []
  | n + 1, c :: p =>
    if 0xC0 ≤ c then
      (c * 2 ^ 6 + p.headD 0 + (2 ^ 32 - (0xC0 * 2 ^ 6 + 0x80))) % 2 ^ 8 ::
        utf8DecodeBuf8 n (p.drop 1)
    else c :: utf8DecodeBuf8 n p

/-- `utf8_decode_buf16`. -/
def utf8DecodeBuf16 : Nat → List Nat → List Nat
  | 0, _ | _, [] => []
  | n + 1, c :: p =>
    if c < 0x80 then c :: utf8DecodeBuf16 n p
    else
      let (v, p') := utf8DecodeLen c p
      if 0xFFFF < v then
        -- `get_hi_surrogate`, `get_lo_surrogate`
        ((v - 0x10000) / 2 ^ 10 + 0xD800) :: (v % 2 ^ 10 + 0xDC00) :: utf8DecodeBuf16 n p'
      else v :: utf8DecodeBuf16 n p'

/-- The switch of `JS_NewStringLen`: whether the string is wide, its length and its units. -/
def decodeText (buf : List Nat) : Bool × Nat × List Nat :=
  let (kind, len) := utf8Scan buf
  if kind = ⟨false, false, false, false⟩ then (false, len, buf)
  else if kind = ⟨true, false, false, false⟩ then (false, len, utf8DecodeBuf8 buf.length buf)
  else (true, len, utf8DecodeBuf16 buf.length buf)

/-! ## ASCII -/

section
variable {n c v : Nat} {p p' buf : List Nat}

/-- What is decoded at a byte above 0x7F: an error of one byte, or a longer sequence. -/
def Long (c : Nat) (p : List Nat) (r : Nat × List Nat) : Prop :=
  r = (0xFFFD, p) ∨ 0x80 ≤ r.1 ∧ r.2.length < p.length ∧ (r.1 ≤ 0xFF → 0xC0 ≤ c) ∧
    (0xFFFF < r.1 → r.2.length + 3 ≤ p.length)

theorem need1_long (hc : 0xC2 ≤ c) (hc' : c ≤ 0xDF) : Long c p (need1 c p) := by
  unfold need1
  split
  · split
    · refine .inr ⟨?_, by simp, fun _ => ?_, fun h => ?_⟩ <;> simp only at * <;> omega
    · exact .inl rfl
  · exact .inl rfl

theorem need2_long {lower : Nat} (hc : 0xE0 ≤ c) (hc' : c ≤ 0xEF)
    (hlow : 0xA0 ≤ lower ∨ 0xE1 ≤ c) : Long c p (need2 c lower p) := by
  unfold need2
  split
  · split
    · refine .inr ⟨?_, by simp only [List.length_cons]; omega, fun _ => ?_, fun h => ?_⟩ <;>
        simp only at * <;> omega
    · exact .inl rfl
  · exact .inl rfl

theorem need3_long {lower upper : Nat} (hc : 0xF0 ≤ c) (hlow : 0x90 ≤ lower ∨ 0xF1 ≤ c) :
    Long c p (need3 c lower upper p) := by
  unfold need3
  split
  · split
    · refine .inr ⟨?_, by simp only [List.length_cons]; omega, fun _ => ?_, fun h => ?_⟩ <;>
        simp only [List.length_cons] at * <;> omega
    · exact .inl rfl
  · exact .inl rfl

theorem utf8Decode_long (hc : 0x80 ≤ c) : Long c p (utf8Decode c p) := by
  unfold utf8Decode
  rw [if_neg (by omega)]
  split
  · exact need1_long (by omega) (by omega)
  · split
    · exact need2_long (by omega) (by omega) (.inl (Nat.le_refl _))
    · split
      · exact need2_long (by omega) (by omega) (by omega)
      · split
        · exact need3_long (by omega) (.inl (Nat.le_refl _))
        · split
          · exact need3_long (by omega) (by omega)
          · split
            · exact need3_long (by omega) (by omega)
            · exact .inl rfl

theorem utf8DecodeLen_long (hc : 0x80 ≤ c) : Long c p (utf8DecodeLen c p) := by
  have hif : ∀ {q : Prop} [Decidable q],
      Long c p (if q then utf8Decode c p else (0xFFFD, p)) := by
    intro q _
    split
    · exact utf8Decode_long hc
    · exact .inl rfl
  unfold utf8DecodeLen
  split
  · exact hif
  · exact hif
  · exact hif
  · exact utf8Decode_long hc

/-- The loop of the wide text makes no more units than there are bytes. -/
theorem utf8DecodeBuf16_length (n : Nat) (p : List Nat) :
    (utf8DecodeBuf16 n p).length ≤ p.length := by
  fun_induction utf8DecodeBuf16 n p with
  | case1 => simp
  | case2 => simp
  | case3 n c p hc ih => simpa using ih
  | case4 n c p hc v p' hv hbig ih =>
    have hlong := utf8DecodeLen_long (p := p) (Nat.le_of_not_lt hc)
    rw [hv] at hlong
    rcases hlong with h | ⟨-, -, -, h⟩
    · rw [(Prod.mk.inj h).1] at hbig
      omega
    · have := h hbig
      simp only [List.length_cons]
      simp only at this
      omega
  | case5 n c p hc v p' hv hbig ih =>
    have hlong := utf8DecodeLen_long (p := p) (Nat.le_of_not_lt hc)
    rw [hv] at hlong
    rcases hlong with h | ⟨-, h, -⟩
    · obtain ⟨-, rfl⟩ := Prod.mk.inj h
      simpa using ih
    · simp only [List.length_cons]
      simp only at h
      omega

/-- The wide text of bytes is the bytes only for ASCII. -/
theorem utf8DecodeBuf16_eq (n : Nat) (p : List Nat) (hb : ∀ c ∈ p, c < 0x100)
    (h : utf8DecodeBuf16 n p = p) : ∀ c ∈ p, c < 0x80 := by
  fun_induction utf8DecodeBuf16 n p with
  | case1 => simp_all
  | case2 => simp
  | case3 n c p hc ih =>
    have hrest := ih (fun d hd => hb d (List.mem_cons_of_mem c hd)) (List.cons.inj h).2
    intro d hd
    rcases List.mem_cons.1 hd with rfl | hd
    · exact hc
    · exact hrest d hd
  | case4 n c p hc v p' hv hbig ih =>
    have hlen := congrArg List.length h
    have hle := utf8DecodeBuf16_length n p'
    have hlong := utf8DecodeLen_long (p := p) (Nat.le_of_not_lt hc)
    rw [hv] at hlong
    rcases hlong with h | ⟨-, -, -, h⟩
    · rw [(Prod.mk.inj h).1] at hbig
      omega
    · have := h hbig
      simp only [List.length_cons] at hlen this
      omega
  | case5 n c p hc v p' hv hbig ih =>
    have hlong := utf8DecodeLen_long (p := p) (Nat.le_of_not_lt hc)
    rw [hv] at hlong
    rcases hlong with h' | ⟨-, h', -⟩
    · -- an error is no byte
      have hv' := (List.cons.inj h).1
      have := hb c List.mem_cons_self
      rw [(Prod.mk.inj h').1] at hv'
      omega
    · have hlen := congrArg List.length h
      have hle := utf8DecodeBuf16_length n p'
      simp only [List.length_cons] at hlen h'
      omega

/-- The loop of the narrow text makes no more units than there are bytes. -/
theorem utf8DecodeBuf8_length (n : Nat) (p : List Nat) :
    (utf8DecodeBuf8 n p).length ≤ p.length := by
  fun_induction utf8DecodeBuf8 n p with
  | case1 => simp
  | case2 => simp
  | case3 n c p hc ih =>
    simp only [List.length_drop] at ih
    simp only [List.length_cons]
    omega
  | case4 n c p hc ih => simpa using ih

/-- The narrow text of bytes without a 16-bit code point is the bytes only for ASCII. -/
theorem utf8DecodeBuf8_eq (n : Nat) (p : List Nat) (hk : (utf8ScanFrom n p).1.has16bit = false)
    (h : utf8DecodeBuf8 n p = p) : ∀ c ∈ p, c < 0x80 := by
  fun_induction utf8ScanFrom n p with
  | case1 => simp_all [utf8DecodeBuf8]
  | case2 => simp
  | case3 n c p hc kind len hrec ih =>
    rw [utf8DecodeBuf8, if_neg (by omega)] at h
    have hrest := ih (by rw [hrec]; exact hk) (List.cons.inj h).2
    intro d hd
    rcases List.mem_cons.1 hd with rfl | hd
    · exact hc
    · exact hrest d hd
  | case4 n c p hc v p' hv kind len hrec ih =>
    exfalso
    have hv16 : v ≤ 0xFF := by
      simp only [Bool.or_eq_false_iff, decide_eq_false_iff_not] at hk
      omega
    have hlong := utf8DecodeLen_long (p := p) (Nat.le_of_not_lt hc)
    rw [hv] at hlong
    rcases hlong with h' | ⟨-, h', hlead, -⟩
    · rw [(Prod.mk.inj h').1] at hv16
      omega
    · rw [utf8DecodeBuf8, if_pos (hlead hv16)] at h
      have hlen := congrArg List.length h
      have hle := utf8DecodeBuf8_length n (p.drop 1)
      simp only [List.length_cons, List.length_drop] at hlen hle h'
      omega

theorem utf8ScanFrom_nonAscii (n : Nat) (p : List Nat) :
    (utf8ScanFrom n p).1.nonAscii = true := by
  fun_induction utf8ScanFrom n p with
  | case1 => rfl
  | case2 => rfl
  | case3 n c p hc kind len hrec ih => rwa [hrec] at ih
  | case4 n c p hc v p' hv kind len hrec ih => rwa [hrec] at ih

/-- ASCII text is narrow. -/
theorem decodeText_ascii (h : ∀ c ∈ buf, c < 0x80) :
    decodeText buf = (false, buf.length, buf) := by
  have hall : buf.all (· < 0x80) := by simpa using h
  simp [decodeText, utf8Scan, hall]

/-- The text of bytes is the bytes only for ASCII. -/
theorem decodeText_eq_iff (hb : ∀ c ∈ buf, c < 0x100) :
    (decodeText buf).2.2 = buf ↔ ∀ c ∈ buf, c < 0x80 := by
  constructor
  · intro h
    by_cases hall : buf.all (· < 0x80)
    · simpa using hall
    · have hkind := utf8ScanFrom_nonAscii buf.length buf
      rw [decodeText, utf8Scan, if_neg hall] at h
      generalize hs : utf8ScanFrom buf.length buf = r at h hkind
      obtain ⟨kind, len⟩ := r
      simp only at h
      split at h
      · rename_i hplain
        rw [hplain] at hkind
        cases hkind
      · split at h
        · rename_i hnarrow
          refine utf8DecodeBuf8_eq buf.length buf ?_ h
          rw [hs]
          simp only [hnarrow]
        · exact utf8DecodeBuf16_eq buf.length buf hb h
  · intro h
    rw [decodeText_ascii h]

end

end ArenaJs.Atoms
