import ArenaJs.Atoms.Table
import Mathlib.Data.Nat.Digits.Lemmas

/-!
# Texts of small integers

Atoms for the numbers up to `JS_ATOM_MAX_INT` carry the number itself, and their text is its decimal
form. `isNumString_decimal` and `decimal_of_isNumString` say that `is_num_string` recognises exactly
these texts, so that a number and a string atom never stand for the same text.
-/

namespace ArenaJs.Atoms

variable {n : Nat} {cs : List Nat}

/-- `u32toa`: the decimal text of a number. -/
def decimal (n : Nat) : List Nat :=
  if n = 0 then [48] else ((Nat.digits 10 n).map (· + 48)).reverse

/-- The text of an atom with its type; a tagged integer is a string. -/
def Runtime.denotes (rt : Runtime) (i : Nat) : Option (AtomType × List Nat) :=
  if atomIsTaggedInt i then some (.string, decimal (i - tagInt))
  else (rt.atom i).bind fun s => s.atomType.map fun t => (t, s.chars)

/-- The value `is_num_string` gives to digits after `n`. -/
def digitsFrom (n : Nat) (cs : List Nat) : Nat := cs.foldl (fun n c => n * 10 + (c - 48)) n

theorem le_digitsFrom : n ≤ digitsFrom n cs := by
  induction cs generalizing n with
  | nil => exact Nat.le_refl n
  | cons c cs ih =>
    calc n ≤ n * 10 + (c - 48) := by omega
      _ ≤ digitsFrom n (c :: cs) := ih

/-- The loop of `is_num_string`: it ends with the value, unless that has no 32 bits. -/
theorem foldlM_numDigit {n m : Nat} :
    cs.foldlM numDigit n = some m ↔
      (∀ c ∈ cs, isNum c = true) ∧ m = digitsFrom n cs ∧ (cs ≠ [] → m < 2 ^ 32) := by
  induction cs generalizing n with
  | nil =>
    exact ⟨fun h => ⟨nofun, (Option.some.inj h).symm, fun hne => absurd rfl hne⟩,
      fun ⟨_, hm, _⟩ => congrArg some hm.symm⟩
  | cons c cs ih =>
    rw [List.foldlM_cons]
    by_cases hc : isNum c = true
    · have hstep : digitsFrom n (c :: cs) = digitsFrom (n * 10 + (c - 48)) cs := rfl
      have hle : n * 10 + (c - 48) ≤ digitsFrom n (c :: cs) := le_digitsFrom
      by_cases hbig : 2 ^ 32 ≤ n * 10 + (c - 48)
      · simp only [numDigit, hc, if_true, if_pos hbig]
        constructor
        · nofun
        · rintro ⟨-, hm, hlt⟩
          have := hlt (List.cons_ne_nil c cs)
          omega
      · simp only [numDigit, hc, if_true, if_neg hbig]
        refine (ih (n := n * 10 + (c - 48))).trans ?_
        rw [hstep]
        constructor
        · rintro ⟨hall, hm, hlt⟩
          refine ⟨List.forall_mem_cons.2 ⟨hc, hall⟩, hm, fun _ => ?_⟩
          by_cases hcs : cs = []
          · subst hcs hm
            exact Nat.lt_of_not_le hbig
          · exact hlt hcs
        · rintro ⟨hall, hm, hlt⟩
          exact ⟨(List.forall_mem_cons.1 hall).2, hm, fun _ => hlt (List.cons_ne_nil c cs)⟩
    · simp only [numDigit, if_neg hc]
      constructor
      · nofun
      · rintro ⟨hall, -⟩
        exact absurd (hall c (.head _)) hc

/-- The value in positional notation. -/
theorem digitsFrom_eq :
    digitsFrom n cs = n * 10 ^ cs.length + Nat.ofDigits 10 (cs.map (· - 48)).reverse := by
  induction cs generalizing n with
  | nil => simp [digitsFrom]
  | cons c cs ih =>
    have hstep : digitsFrom n (c :: cs) = digitsFrom (n * 10 + (c - 48)) cs := rfl
    rw [hstep, ih, List.map_cons, List.reverse_cons, Nat.ofDigits_append, Nat.ofDigits_singleton,
      List.length_reverse, List.length_map, List.length_cons, Nat.pow_succ]
    ring

/-- The texts `is_num_string` accepts. -/
theorem isNumString_cons {c : Nat} :
    isNumString (c :: cs) = some n ↔ (c :: cs).length ≤ 10 ∧ (∀ d ∈ c :: cs, isNum d = true) ∧
      (c = 48 → cs = []) ∧ n = digitsFrom 0 (c :: cs) ∧ n < 2 ^ 32 := by
  have hfirst : digitsFrom 0 (c :: cs) = digitsFrom (c - 48) cs := by
    show digitsFrom (0 * 10 + (c - 48)) cs = _
    rw [Nat.zero_mul, Nat.zero_add]
  rw [isNumString, hfirst]
  by_cases hlen : 10 < (c :: cs).length
  · rw [if_pos hlen]
    exact ⟨nofun, fun h => absurd h.1 (by omega)⟩
  rw [if_neg hlen]
  by_cases hc : isNum c = true
  · rw [if_pos hc]
    by_cases h48 : c = 48
    · rw [if_pos h48]
      by_cases hcs : cs = []
      · subst h48 hcs
        rw [if_neg (by simp)]
        constructor
        · rintro h
          cases h
          exact ⟨by decide, List.forall_mem_cons.2 ⟨hc, nofun⟩, fun _ => rfl, rfl, by decide⟩
        · rintro ⟨-, -, -, hn, -⟩
          exact congrArg some hn.symm
      · rw [if_pos hcs]
        exact ⟨nofun, fun h => absurd (h.2.2.1 h48) hcs⟩
    · rw [if_neg h48, foldlM_numDigit]
      constructor
      · rintro ⟨hall, hn, hlt⟩
        refine ⟨by omega, List.forall_mem_cons.2 ⟨hc, hall⟩, fun h => absurd h h48, hn, ?_⟩
        by_cases hcs : cs = []
        · subst hcs
          simp only [isNum, decide_eq_true_eq] at hc
          rw [hn, digitsFrom, List.foldl_nil]
          omega
        · exact hlt hcs
      · rintro ⟨-, hall, -, hn, hlt⟩
        exact ⟨(List.forall_mem_cons.1 hall).2, hn, fun _ => hlt⟩
  · rw [if_neg hc]
    exact ⟨nofun, fun h => absurd (h.2.1 c (.head _)) hc⟩

/-- A text that `is_num_string` accepts is the decimal form of its number. -/
theorem decimal_of_isNumString {chars : List Nat} (h : isNumString chars = some n) :
    decimal n = chars := by
  cases chars with
  | nil => cases h
  | cons c cs =>
    obtain ⟨-, hall, hzero, hn, -⟩ := isNumString_cons.1 h
    have hdig : ∀ d ∈ c :: cs, 48 ≤ d ∧ d ≤ 57 := fun d hd => by simpa [isNum] using hall d hd
    have hback : (((c :: cs).map (· - 48)).map (· + 48)) = c :: cs := by
      rw [List.map_map]
      refine (List.map_congr_left fun d hd => ?_).trans (List.map_id _)
      have := hdig d hd
      simp only [Function.comp_apply, id_eq]
      omega
    rw [digitsFrom_eq, Nat.zero_mul, Nat.zero_add] at hn
    by_cases h48 : c = 48
    · obtain rfl := hzero h48
      subst h48
      rw [hn]
      rfl
    · -- the first digit is not zero, so the digits are those of the number
      have hdigits : Nat.digits 10 n = ((c :: cs).map (· - 48)).reverse := by
        rw [hn]
        refine Nat.digits_ofDigits 10 (by decide) _ (fun d hd => ?_) fun hne => ?_
        · obtain ⟨e, he, rfl⟩ := List.mem_map.1 (List.mem_reverse.1 hd)
          have := hdig e he
          omega
        · have hc := hdig c (.head _)
          rw [List.getLast_reverse]
          simp only [List.map_cons, List.head_cons]
          omega
      have hn0 : n ≠ 0 := fun h0 => by rw [h0] at hdigits; simp at hdigits
      rw [decimal, if_neg hn0, hdigits, List.map_reverse, List.reverse_reverse, hback]

/-- `is_num_string` accepts the decimal form of a 32-bit number. -/
theorem isNumString_decimal (h : n < 2 ^ 32) : isNumString (decimal n) = some n := by
  by_cases h0 : n = 0
  · subst h0
    rfl
  have hne : Nat.digits 10 n ≠ [] := Nat.digits_ne_nil_iff_ne_zero.2 h0
  obtain ⟨c, cs, hcs⟩ : ∃ c cs, decimal n = c :: cs := by
    rw [decimal, if_neg h0]
    cases hl : ((Nat.digits 10 n).map (· + 48)).reverse with
    | nil => simp [hne] at hl
    | cons c cs => exact ⟨c, cs, rfl⟩
  rw [hcs]
  have hmem : ∀ d ∈ c :: cs, ∃ e ∈ Nat.digits 10 n, d = e + 48 := fun d hd => by
    rw [← hcs, decimal, if_neg h0] at hd
    obtain ⟨e, he, rfl⟩ := List.mem_map.1 (List.mem_reverse.1 hd)
    exact ⟨e, he, rfl⟩
  have hsub : ((c :: cs).map (· - 48)).reverse = Nat.digits 10 n := by
    rw [← hcs, decimal, if_neg h0, List.map_reverse, List.reverse_reverse, List.map_map]
    exact (List.map_congr_left fun d _ => by simp).trans (List.map_id _)
  refine isNumString_cons.2 ⟨?_, fun d hd => ?_, fun h48 => ?_, ?_, h⟩
  · have hlen : (Nat.digits 10 n).length ≤ 10 :=
      (Nat.digits_length_le_iff (by decide) n).2 (Nat.lt_trans h (by decide))
    rwa [← hsub, List.length_reverse, List.length_map] at hlen
  · obtain ⟨e, he, rfl⟩ := hmem d hd
    have := Nat.digits_lt_base (by decide) he
    simp only [isNum, decide_eq_true_eq]
    omega
  · -- the first digit is the last of `Nat.digits`, which is not zero
    have hlast := Nat.getLast_digit_ne_zero 10 h0
    refine absurd ?_ hlast
    simp only [← hsub]
    rw [List.getLast_reverse]
    simp [h48]
  · rw [digitsFrom_eq, Nat.zero_mul, Nat.zero_add, hsub, Nat.ofDigits_digits]

end ArenaJs.Atoms
