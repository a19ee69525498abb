import Mathlib

/-!
# Readers of binary formats

A reader takes values off the front of a byte list or throws. A length-prefixed payload may be read
with a slice that ends where the bytes end, and such a reader does not notice that the payload was
cut short. `Reads r w a n` says what `r` does on the bytes `w` and on all their prefixes: it reads
`w` as the value `a` and leaves what follows, it throws when fewer than the first `n` bytes are
there, and with these it returns some value. The rules follow the ways readers are put together.
-/

namespace ArenaJs

/-! ## Numbers -/

/-- The last `k` bytes of a number, the most significant one first. -/
def beBytes (k n : Nat) : List UInt8 :=
  (List.range k).map fun i => UInt8.ofNat (n / 256 ^ (k - 1 - i))

/-- The number with the given bytes. -/
def ofBe (b : List UInt8) : Nat := b.foldl (fun n x => 256 * n + x.toNat) 0

@[simp] theorem length_beBytes (k n : Nat) : (beBytes k n).length = k := by simp [beBytes]

theorem beBytes_succ (k n : Nat) : beBytes (k + 1) n = beBytes k (n / 256) ++ [UInt8.ofNat n] := by
  rw [beBytes, List.range_succ, List.map_append, List.map_singleton]
  refine congrArg₂ _ (List.map_congr_left fun i hi => ?_) (by simp)
  have hi := List.mem_range.1 hi
  rw [show k + 1 - 1 - i = 1 +
    (k - 1 - i) by omega, Nat.pow_add, Nat.pow_one, Nat.div_div_eq_div_mul]

theorem ofBe_beBytes (k n : Nat) : ofBe (beBytes k n) = n % 256 ^ k := by
  induction k generalizing n with
  | zero => simp [beBytes, ofBe, Nat.mod_one]
  | succ k ih =>
    have hstep : ofBe (beBytes (k + 1) n) = 256 * ofBe (beBytes k (n / 256)) + n % 256 := by
      simp [beBytes_succ, ofBe]
    rw [hstep, ih, Nat.pow_succ', Nat.mod_mul, Nat.add_comm]

/-! ## Readers -/

/-- A reader: the value and the bytes left, or nothing if it throws. -/
abbrev Reader (α : Type) := StateT (List UInt8) Option α

namespace Reader

/-- A number of `k` bytes. -/
def number (k : Nat) : Reader Nat := fun b =>
  if b.length < k then none else some (ofBe (b.take k), b.drop k)

/-- The next `n` bytes, or as many as there are. -/
def slice (n : Nat) : Reader (List UInt8) := fun b => some (b.take n, b.drop n)

/-- A number that has to be `v`. -/
def expect (k v : Nat) : Reader Unit := do
  if (← number k) = v then return () else failure

/-- The next `n` values. -/
def many {α : Type} (r : Reader α) : Nat → Reader (List α)
  | 0 => pure []
  | n + 1 => do
    let a ← r
    let as ← many r n
    return a :: as

/-- A length, and a value in a slice of that length. -/
def framed {α : Type} (r : Reader α) : Reader α := fun b =>
  match number 4 b with
  | none => none
  | some (n, b) => (r (b.take n)).map fun x => (x.1, b.drop n)

end Reader

/-- `r` reads `w` as `a`, and of the prefixes of `w` those with at least `n` bytes as something. -/
structure Reads {α : Type} (r : Reader α) (w : List UInt8) (a : α) (n : Nat) : Prop where
  le : n ≤ w.length
  full : ∀ rest, r (w ++ rest) = some (a, rest)
  short : ∀ t < n, r (w.take t) = none
  long : ∀ t, n ≤ t → t < w.length → ∃ a', r (w.take t) = some (a', [])

namespace Reads

open Reader

variable {α β : Type} {r : Reader α} {w w' : List UInt8} {a : α} {n n' : Nat}

theorem number {k v : Nat} (hv : v < 256 ^ k) : Reads (number k) (beBytes k v) v k where
  le := (length_beBytes k v).ge
  full rest := by
    rw [Reader.number, if_neg (by simp), List.take_append_of_le_length (by simp),
      List.take_of_length_le (by simp), List.drop_left' (length_beBytes k v), ofBe_beBytes,
      Nat.mod_eq_of_lt hv]
  short t ht := if_pos (by rw [List.length_take, length_beBytes]; omega)
  long t h ht := absurd ht (by rw [length_beBytes]; omega)

theorem slice (w : List UInt8) : Reads (slice w.length) w w 0 where
  le := Nat.zero_le _
  full rest := by rw [Reader.slice, List.take_left, List.drop_left]
  short t ht := absurd ht (Nat.not_lt_zero t)
  long t _ _ := ⟨_, congrArg (fun l => some (_, l)) (List.drop_eq_nil_of_le (by simp))⟩

theorem map (h : Reads r w a n) (f : α → β) : Reads (f <$> r) w (f a) n where
  le := h.le
  full rest := show (r (w ++ rest)).bind _ = _ by rw [h.full]; rfl
  short t ht := show (r (w.take t)).bind _ = _ by rw [h.short t ht]; rfl
  long t hn ht := by
    obtain ⟨a', ha⟩ := h.long t hn ht
    exact ⟨f a', show (r (w.take t)).bind _ = _ by rw [ha]; rfl⟩

/-- One reader after another. If the first can be cut short, the second throws at the end. -/
theorem bind {k : α → Reader β} {b : β} (h : Reads r w a n) (h' : Reads (k a) w' b n')
    (hcut : n = w.length ∨ 0 < n' ∧ ∀ a', k a' [] = none) :
    Reads (r >>= k) (w ++ w') b (w.length + n') where
  le := by rw [List.length_append]; exact Nat.add_le_add_left h'.le _
  full rest := by
    show (r _).bind _ = _
    rw [List.append_assoc, h.full]
    exact h'.full rest
  short t ht := by
    show (r _).bind _ = _
    rcases Nat.lt_or_ge t w.length with hlt | hge
    · rw [List.take_append_of_le_length hlt.le]
      rcases Nat.lt_or_ge t n with hn | hn
      · rw [h.short t hn]; rfl
      · obtain ⟨a', ha⟩ := h.long t hn hlt
        rw [ha]
        exact (hcut.resolve_left (by omega)).2 a'
    · rw [List.take_append, List.take_of_length_le hge, h.full]
      exact h'.short _ (by omega)
  long t hn ht := by
    rw [List.length_append] at ht
    obtain ⟨b', hb⟩ := h'.long (t - w.length) (by omega) (by omega)
    refine ⟨b', show (r _).bind _ = _ from ?_⟩
    rw [List.take_append, List.take_of_length_le (by omega), h.full]
    exact hb

theorem expect {k v : Nat} (hv : v < 256 ^ k) : Reads (expect k v) (beBytes k v) () k := by
  have hnil : Reads (if v = v then pure () else failure) [] () 0 := by
    rw [if_pos rfl]
    exact ⟨Nat.le_refl 0, fun _ => rfl, nofun, nofun⟩
  have h := (number hv).bind (k := fun n => if n = v then pure () else failure) hnil
    (.inl (length_beBytes k v).symm)
  rwa [List.append_nil, length_beBytes] at h

/-- A length and that many bytes. -/
theorem lenPrefixed (hw : w.length < 2 ^ 32) :
    Reads (do Reader.slice (← Reader.number 4)) (beBytes 4 w.length ++ w) w 4 := by
  have h := (number (k := 4) hw).bind (slice w) (.inl (length_beBytes ..).symm)
  rwa [length_beBytes] at h

/-- A length and a value in that many bytes. -/
theorem framed (h : Reads r w a n) (hw : w.length < 2 ^ 32) :
    Reads (framed r) (beBytes 4 w.length ++ w) a (4 + n) := by
  have hnum := number (k := 4) hw
  have hlen := length_beBytes 4 w.length
  refine ⟨by rw [List.length_append, hlen]; exact Nat.add_le_add_left h.le 4, fun rest => ?_,
    fun t ht => ?_, fun t hn ht => ?_⟩
  · have := h.full []
    rw [List.append_nil] at this
    rw [Reader.framed, List.append_assoc, hnum.full]
    simp [this]
  · rw [List.take_append, hlen]
    rcases Nat.lt_or_ge t 4 with hlt | hge
    · rw [show t - 4 = 0 by omega, List.take_zero, List.append_nil, Reader.framed, hnum.short t hlt]
    · rw [List.take_of_length_le (by omega), Reader.framed, hnum.full]
      simp only
      rw [List.take_take, Nat.min_eq_right (by have := h.le; omega), h.short _ (by omega),
        Option.map_none]
  · rw [List.length_append, hlen] at ht
    obtain ⟨a', ha⟩ := h.long (t - 4) (by omega) (by omega)
    refine ⟨a', ?_⟩
    rw [List.take_append, hlen, List.take_of_length_le (by omega), Reader.framed,
      hnum.full]
    simp only
    rw [List.take_take, Nat.min_eq_right (by omega), ha, Option.map_some,
      List.drop_eq_nil_of_le (by rw [List.length_take]; omega)]

/-- The bytes that may be missing at the end of a list of values. -/
def slack (cut : β → Nat) (l : List β) : Nat := (l.getLast?.map cut).getD 0

/-- Values one after the other, if each throws at the end of the bytes. Only the last one can be cut
short. -/
theorem many (out : β → α) (bytes : β → List UInt8) (cut : β → Nat) (hend : r [] = none)
    {l : List β}
    (h : ∀ x ∈ l, Reads r (bytes x) (out x) ((bytes x).length - cut x) ∧ cut x < (bytes x).length) :
    Reads (many r l.length) (l.flatMap bytes) (l.map out) ((l.flatMap bytes).length - slack cut l) ∧
      (l ≠ [] → slack cut l < (l.flatMap bytes).length) := by
  induction l with
  | nil => exact ⟨⟨Nat.le_refl _, fun _ => rfl, nofun, nofun⟩, nofun⟩
  | cons x l ih =>
    obtain ⟨hx, hlt⟩ := h x List.mem_cons_self
    obtain ⟨hl, hpos⟩ := ih fun y hy => h y (List.mem_cons_of_mem x hy)
    cases l with
    | nil =>
      have hmap : Reader.many r 1 = (fun a => [a]) <$> r := by simp [Reader.many]
      simp only [List.flatMap_cons, List.flatMap_nil, List.append_nil]
      exact ⟨hmap ▸ hx.map _, fun _ => hlt⟩
    | cons y l =>
      have hsl : slack cut (x :: y :: l) = slack cut (y :: l) := by simp [slack]
      have hpos := hpos (List.cons_ne_nil y l)
      have hbind := hx.bind (k := fun a => (a :: ·) <$> Reader.many r (y :: l).length) (hl.map _)
        (.inr ⟨by omega, fun a' => ?_⟩)
      · rw [hsl, List.flatMap_cons, List.length_append, Nat.add_sub_assoc hpos.le]
        refine ⟨?_, fun _ => by omega⟩
        simpa [Reader.many] using hbind
      · show ((r []).bind _).bind _ = _
        rw [hend]
        rfl

end Reads

end ArenaJs
