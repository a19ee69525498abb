import ArenaJs.Collections.Refine

/-!
# The keys of a collection

`js_same_value_zero` and `map_hash_key` on values. A string is a flat sequence of code units or a
rope, the concatenation of two strings that has not been carried out. The two functions agree
on normalised keys that are not ropes (`keyOps_lawful`), and so the collections with such keys
are insertion-ordered maps. They do not agree on ropes: a rope is compared by its text, but its hash
is not that of the flat string, so that an entry may not be found under the other form of its key.
-/

namespace ArenaJs.Collections

/-! ## Values -/

/-- The two forms of a string, by code units. -/
inductive JSString where
  | flat (units : List UInt16)
  | rope (left right : JSString)
deriving DecidableEq, Repr

/-- The text of a string. -/
def JSString.units : JSString → List UInt16
  | .flat units => units
  | .rope left right => left.units ++ right.units

/-- A value that is used as a key. The limbs of a big integer that is not short are at least two,
as `JS_CompactBigInt` leaves them. -/
inductive MapKey where
  | undefined
  | null
  | bool (b : Bool)
  | int (n : Int32)
  | float64 (bits : UInt64)
  | shortBigInt (n : Int32)
  | bigInt (tab : { tab : List UInt32 // 2 ≤ tab.length })
  | string (s : JSString)
  | symbol (ptr : UInt64)
  | object (ptr : UInt64)
deriving DecidableEq, Repr

/-- The conversion of an `int32_t` to a `double`. -/
def float64OfInt (n : Int32) : UInt64 :=
  float64OfNat n.toInt.natAbs + if n < 0 then 0x8000000000000000 else 0

/-- `isnan`. -/
def isNan (bits : UInt64) : Bool :=
  decide (bits.toNat / 2 ^ 52 % 2 ^ 11 = 2047 ∧ bits.toNat % 2 ^ 52 ≠ 0)

/-- `d == 0.0`. -/
def isZero (bits : UInt64) : Bool := bits == 0 || bits == 0x8000000000000000

/-! ## Comparison -/

/-- The end of `js_strict_eq2` for numbers, with `JS_EQ_SAME_VALUE_ZERO`. -/
def numberTest (d1 d2 : UInt64) : Bool :=
  if isNan d1 || isNan d2 then isNan d1 == isNan d2
  else d1 == d2 || (isZero d1 && isZero d2)

/-- `js_same_value_zero`. -/
def sameValueZero : MapKey → MapKey → Bool
  | .bool a, .bool b => a == b
  | .null, .null => true
  | .undefined, .undefined => true
  | .string a, .string b => a.units == b.units
  | .symbol a, .symbol b => a == b
  | .object a, .object b => a == b
  | .int a, .int b => numberTest (float64OfInt a) (float64OfInt b)
  | .int a, .float64 b => numberTest (float64OfInt a) b
  | .float64 a, .float64 b => numberTest a b
  | .float64 a, .int b => numberTest a (float64OfInt b)
  | .shortBigInt a, .shortBigInt b => a == b
  | .bigInt a, .bigInt b => a.1 == b.1
  | _, _ => false

/-- `map_normalize_key`. -/
def mapNormalizeKey : MapKey → MapKey
  | .float64 d => if isZero d then .int 0 else .float64 d
  | key => key

/-! ## Hashing -/

/-- `hash32`. -/
def hash32 (a : UInt32) : UInt32 := a * 0x61c88647

/-- `hash_string8`, `hash_string16`. -/
def hashUnits (units : List UInt32) (h : UInt32) : UInt32 :=
  units.foldl (fun h c => h * 263 + c) h ^^^ hash32 (.ofNat units.length)

/-- `hash_string_rope`; on a flat string, `hash_string`. -/
def hashStringRope : JSString → UInt32 → UInt32
  | .flat units, h => hashUnits (units.map UInt16.toUInt32) h
  | .rope left right, h => hashStringRope right (hashStringRope left h)

/-- The tags of the values that are hashed. -/
def MapKey.tag : MapKey → Int32
  | .bigInt _ => -9
  | .symbol _ => -8
  | .string (.flat _) => -7
  | .string (.rope _ _) => -6
  | .object _ => -1
  | .int _ => 0
  | .bool _ => 1
  | .null => 2
  | .undefined => 3
  | .shortBigInt _ => 7
  | .float64 _ => 8

/-- The bits of the `double` that is hashed. -/
def hashFloat64 (bits : UInt64) : UInt32 := (bits.toUInt32 ^^^ (bits >>> 32).toUInt32) * 3163

/-- The bytes of a limb. -/
def limbBytes (v : UInt32) : List UInt32 :=
  [v &&& 255, v >>> 8 &&& 255, v >>> 16 &&& 255, v >>> 24]

/-- `map_hash_key`. -/
def mapHashKey (hashSeed : UInt32) (key : MapKey) : UInt32 :=
  let (h, tag) : UInt32 × Int32 := match key with
    | .bool b => (b.toUInt32, key.tag)
    | .string s => (hashStringRope s 0, key.tag)
    | .object ptr | .symbol ptr => (ptr.toUInt32 * 3163, key.tag)
    | .int n => (hashFloat64 (float64OfInt n), 8)
    | .shortBigInt n => (hashFloat64 (float64OfInt n), 8)
    | .bigInt tab => (hashUnits (tab.1.flatMap limbBytes) 0, key.tag)
    | .float64 d => (hashFloat64 (if isNan d then 0x7ff8000000000000 else d), 8)
    | .null | .undefined => (0, key.tag)
  h ^^^ hashSeed ^^^ hash32 tag.toUInt32

/-- The keys of the collections of a context. -/
def keyOps (hashSeed : UInt32) : KeyOps MapKey where
  undefined := .undefined
  normalize := mapNormalizeKey
  same := sameValueZero
  hash key := (mapHashKey hashSeed key).toNat

/-! ## Comparison and hashing agree -/

/-- The exponent field of the double equal to a number below `2^32`. -/
theorem float64OfNat_toNat {n : Nat} (h0 : n ≠ 0) (h : n < 2 ^ 32) :
    (float64OfNat n).toNat / 2 ^ 52 = n.log2 + 1023 := by
  have he : n.log2 < 32 := (Nat.log2_lt h0).2 h
  have hle : 2 ^ n.log2 ≤ n := Nat.log2_self_le h0
  have hlt : n < 2 ^ (n.log2 + 1) := Nat.lt_log2_self
  have hpow : 2 ^ n.log2 * 2 ^ (52 - n.log2) = 2 ^ 52 := by
    rw [← Nat.pow_add]
    congr 1
    omega
  have hfrac : (n - 2 ^ n.log2) * 2 ^ (52 - n.log2) < 2 ^ 52 := by
    rw [← hpow]
    refine Nat.mul_lt_mul_of_pos_right ?_ (Nat.two_pow_pos _)
    rw [Nat.pow_succ] at hlt
    omega
  rw [float64OfNat, if_neg h0, UInt64.toNat_ofNat_of_lt']
  · omega
  · simp only [UInt64.size]
    omega

/-- The double equal to an integer other than zero is neither zero nor a NaN. -/
theorem float64OfInt_exponent {n : Int32} (h0 : n ≠ 0) :
    1023 ≤ (float64OfInt n).toNat / 2 ^ 52 % 2 ^ 11 ∧
      (float64OfInt n).toNat / 2 ^ 52 % 2 ^ 11 < 2047 := by
  have hne : n.toInt ≠ 0 := fun e => h0 (Int32.toInt.inj e)
  have habs : n.toInt.natAbs ≠ 0 := Int.natAbs_ne_zero.2 hne
  have hlt : n.toInt.natAbs < 2 ^ 32 := by
    have h1 := n.toInt_lt
    have h2 := n.le_toInt
    omega
  have hlog : n.toInt.natAbs.log2 < 32 := (Nat.log2_lt habs).2 hlt
  have hexp := float64OfNat_toNat habs hlt
  have hsign : (if n < 0 then (0x8000000000000000 : UInt64) else 0).toNat = 2 ^ 63 ∨
      (if n < 0 then (0x8000000000000000 : UInt64) else 0).toNat = 0 := by
    split
    · exact .inl rfl
    · exact .inr rfl
  rw [float64OfInt, UInt64.toNat_add]
  omega

/-- The one form of a number that the others compare equal to. -/
def canonBits (d : UInt64) : UInt64 :=
  if isNan d then 0x7ff8000000000000 else if isZero d then 0 else d

/-- The one form of a key that the others compare equal to. -/
def MapKey.canon : MapKey → MapKey
  | .int n => .float64 (canonBits (float64OfInt n))
  | .float64 d => .float64 (canonBits d)
  | .string s => .string (.flat s.units)
  | key => key

theorem isNan_canonBits (d : UInt64) : isNan (canonBits d) = isNan d := by
  unfold canonBits
  split
  · rename_i h
    rw [h]
    decide
  · rename_i h
    split
    · rw [Bool.not_eq_true] at h
      rw [h]
      decide
    · rfl

theorem numberTest_iff {a b : UInt64} : numberTest a b = true ↔ canonBits a = canonBits b := by
  constructor
  · intro h
    unfold numberTest at h
    cases ha : isNan a <;> cases hb : isNan b <;> simp only [ha, hb, Bool.or_self, Bool.or_true,
      Bool.true_or, if_true, Bool.false_eq_true, if_false] at h
    · rcases Bool.or_eq_true_iff.1 h with h | h
      · rw [beq_iff_eq.1 h]
      · obtain ⟨h1, h2⟩ := Bool.and_eq_true_iff.1 h
        simp [canonBits, ha, hb, h1, h2]
    · cases h
    · cases h
    · simp [canonBits, ha, hb]
  · intro h
    have hnan : isNan a = isNan b := by rw [← isNan_canonBits a, h, isNan_canonBits]
    unfold numberTest
    cases hb : isNan b with
    | true => simp [hnan, hb]
    | false =>
      rw [hb] at hnan
      simp only [hnan, Bool.or_self, Bool.false_eq_true, if_false]
      simp only [canonBits, hnan, hb, Bool.false_eq_true, if_false] at h
      cases hza : isZero a <;> cases hzb : isZero b <;>
        simp only [hza, hzb, Bool.false_eq_true, if_false, if_true] at h
      · simp [h]
      · rw [h] at hza
        cases hza
      · rw [← h] at hzb
        cases hzb
      · simp

/-- `js_same_value_zero` compares the forms. -/
theorem sameValueZero_iff {a b : MapKey} : sameValueZero a b = true ↔ a.canon = b.canon := by
  cases a <;> cases b <;> simp [sameValueZero, MapKey.canon, numberTest_iff, Subtype.ext_iff]

/-- A key that `map_normalize_key` returns, unless it is a rope. -/
def MapKey.good : MapKey → Prop
  | .string (.rope _ _) => False
  | .float64 d => isZero d = false
  | _ => True

theorem canonBits_float64OfInt (n : Int32) :
    isNan (float64OfInt n) = false ∧ canonBits (float64OfInt n) = float64OfInt n := by
  by_cases h0 : n = 0
  · subst h0
    decide
  · obtain ⟨hge, hlt⟩ := float64OfInt_exponent h0
    have hnan : isNan (float64OfInt n) = false := by
      rw [isNan, decide_eq_false_iff_not]
      omega
    have hzero : isZero (float64OfInt n) = false := by
      rw [Bool.eq_false_iff]
      intro h
      rcases Bool.or_eq_true_iff.1 h with h | h <;> rw [beq_iff_eq.1 h] at hge <;>
        exact absurd hge (by decide)
    exact ⟨hnan, by simp [canonBits, hnan, hzero]⟩

/-- `map_hash_key` hashes the form, on these keys. -/
theorem mapHashKey_canon (hashSeed : UInt32) {key : MapKey} (h : key.good) :
    mapHashKey hashSeed key.canon = mapHashKey hashSeed key := by
  cases key with
  | int n =>
    obtain ⟨hnan, hcanon⟩ := canonBits_float64OfInt n
    simp [mapHashKey, MapKey.canon, hcanon, hnan]
  | float64 d =>
    have hz : isZero d = false := h
    simp only [mapHashKey, MapKey.canon, isNan_canonBits]
    cases hn : isNan d <;> simp [canonBits, hn, hz]
  | string s =>
    cases s with
    | flat units => rfl
    | rope left right => exact h.elim
  | _ => rfl

theorem keyOps_lawful (hashSeed : UInt32) : (keyOps hashSeed).Lawful MapKey.good where
  symm _ _ h := sameValueZero_iff.2 (sameValueZero_iff.1 h).symm
  trans _ _ _ h1 h2 := sameValueZero_iff.2 ((sameValueZero_iff.1 h1).trans (sameValueZero_iff.1 h2))
  hash ha hb h := by
    show (mapHashKey hashSeed _).toNat = (mapHashKey hashSeed _).toNat
    rw [← mapHashKey_canon hashSeed ha, sameValueZero_iff.1 h, mapHashKey_canon hashSeed hb]

/-! ## Collections of values -/

/-- Every sequence of calls and iterator steps on a `Map` or `Set` gives what the insertion-ordered
map gives: the results of all steps are the same, the size is the number of entries, the entries
are in the order of their insertion with no two keys the same, and each cursor meets entries in
that order and none twice. The keys are not ropes, there is room in the counters, and the record
that `clear` or `forEach` goes on with outlives the iterators that go with the values it
releases. -/
theorem collections_insertion_ordered (hashSeed : UInt32) (isSet : Bool) (l : List (MapOp MapKey))
    (hl : AdmitsAll (keyOps hashSeed) MapKey.good (.new isSet) l) :
    ∃ S, mapRun (keyOps hashSeed) ⟨mapConstructor (keyOps hashSeed) isSet, []⟩ l =
        some (((Ordered.new isSet).run (keyOps hashSeed) l).1, S) ∧
      S.abs = ((Ordered.new isSet).run (keyOps hashSeed) l).2 ∧
      S.map.recordCount = S.abs.entries.length ∧
      S.abs.entries.Pairwise (fun a b => a.id < b.id ∧ ¬ sameValueZero a.key b.key) ∧
      ∀ i, ((Ordered.new isSet).visits (keyOps hashSeed) i l).Pairwise (· < ·) := by
  let S0 : MapRun MapKey := ⟨mapConstructor (keyOps hashSeed) isSet, []⟩
  obtain ⟨S, hrun, hinv, habs⟩ := @run_refines _ _ _ (keyOps_lawful hashSeed) l S0
    (mapInv_new isSet) hl
  exact ⟨S, hrun, habs.symm, (MapInv.count_abs hinv).symm, MapInv.entries hinv,
    fun i => Ordered.visits_sorted _ i l⟩

/-- An entry is deleted under an iterator and another is added before it goes on; a second iterator
is released by `clear`. -/
theorem collections_insertion_ordered_deleted :
    let l : List (MapOp MapKey) := [.set (.int 1) .null [], .iterator .key, .next 0,
      .delete (.int 1) [], .set (.float64 0x8000000000000000) .null [], .next 0, .next 0, .size,
      .iterator .key, .next 1, .set (.int 5) (.object 64) [], .clear [[], [1]], .size]
    ((Ordered.new false).run (keyOps 0) l).1 = [.undefined, .cursor 0, .value (.int 1), .bool true,
      .undefined, .value (.int 0), .done, .uint32 1, .cursor 1, .value (.int 0), .undefined,
      .undefined, .uint32 0] ∧
    ∃ S, mapRun (keyOps 0) ⟨mapConstructor (keyOps 0) false, []⟩ l =
        some (((Ordered.new false).run (keyOps 0) l).1, S) ∧
      S.abs = ((Ordered.new false).run (keyOps 0) l).2 ∧
      S.map.recordCount = S.abs.entries.length ∧
      S.abs.entries.Pairwise (fun a b => a.id < b.id ∧ ¬ sameValueZero a.key b.key) ∧
      ∀ i, ((Ordered.new false).visits (keyOps 0) i l).Pairwise (· < ·) :=
  ⟨by decide +kernel, collections_insertion_ordered 0 false _
    ⟨⟨trivial, by decide⟩, (by decide : 0 + 1 < 2 ^ 31), trivial, trivial,
      ⟨trivial, by decide⟩, trivial, trivial, trivial, (by decide : 1 + 1 < 2 ^ 31), trivial,
      ⟨trivial, by decide⟩, ⟨by decide +kernel, by decide +kernel, trivial⟩, trivial, trivial⟩⟩

/-- `MapInv` holds after such a sequence of calls, and no record is kept for nothing: once every
cursor has ended, the records are the entries. -/
theorem records_reclaimed (hashSeed : UInt32) (isSet : Bool) (l : List (MapOp MapKey))
    (hl : AdmitsAll (keyOps hashSeed) MapKey.good (.new isSet) l) :
    ∃ out S, mapRun (keyOps hashSeed) ⟨mapConstructor (keyOps hashSeed) isSet, []⟩ l =
        some (out, S) ∧ MapInv (keyOps hashSeed) MapKey.good S.map S.cursors ∧
      ((∀ c ∈ S.cursors, c.active = false) → S.map.records = S.map.live) := by
  obtain ⟨S, hrun, hinv, -⟩ := @run_refines _ _ _ (keyOps_lawful hashSeed) l
    ⟨mapConstructor (keyOps hashSeed) isSet, []⟩ (mapInv_new isSet) hl
  refine ⟨_, S, hrun, hinv, fun hend => (List.filter_eq_self.2 fun mr hmr => ?_).symm⟩
  by_contra hempty
  -- a cursor at an empty record has not ended
  obtain ⟨c, hc, hcur⟩ := List.countP_pos_iff.1 (hinv.listed.held mr hmr (by simpa using hempty))
  simp [hinv.listed.idle c hc (hend c hc)] at hcur

/-- An entry is deleted under two iterators, of which one ends and the other is released. -/
theorem records_reclaimed_deleted :
    let l :=
      [.set (.int 1) .null [], .set (.int 2) .null [], .iterator .key, .iterator .key, .next 0,
      .next 1, .delete (.int 1) [], .next 1, .next 1, .drop 0]
    ∃ out S, mapRun (keyOps 0) ⟨mapConstructor (keyOps 0) false, []⟩ l = some (out, S) ∧
      MapInv (keyOps 0) MapKey.good S.map S.cursors ∧ (∀ c ∈ S.cursors, c.active = false) ∧
      S.map.records = S.map.live := by
  intro l
  obtain ⟨out, S, hrun, hinv, hend⟩ := records_reclaimed 0 false l
    ⟨⟨trivial, by decide⟩, ⟨trivial, by decide⟩, (by decide : 0 + 1 < 2 ^ 31),
      (by decide : 1 + 1 < 2 ^ 31), trivial, trivial, trivial, trivial, trivial, trivial, trivial⟩
  have hact : (mapRun (keyOps 0) ⟨mapConstructor (keyOps 0) false, []⟩ l).map
      (fun r => r.2.cursors.all (!·.active)) = some true := by decide +kernel
  rw [hrun, Option.map_some, Option.some_inj, List.all_eq_true] at hact
  have hact : ∀ c ∈ S.cursors, c.active = false := fun c hc => by simpa using hact c hc
  exact ⟨out, S, hrun, hinv, hact, hend hact⟩

/-- A rope of more than 512 units, the sum of `"a"` and `"b".repeat(513)`, is the key of the fourth
entry, and the table grows to four buckets. The flat string with the same text is the same key, but
hashes into another bucket: it is not found, and another entry is added for it.

In the second script an iterator at the deleted second entry is the value of the first. `clear` has
the deleted record as the next one when it releases that value; the iterator's finalizer frees the
record, and the loop of `clear` goes on in freed memory. -/
theorem rope_key_not_found :
    let rope : MapKey := .string (.rope (.flat [97]) (.flat (List.replicate 513 98)))
    let flat : MapKey := .string (.flat (97 :: List.replicate 513 98))
    let l : List (MapOp MapKey) := [.set (.int 1) .null [], .set (.int 2) .null [],
      .set (.int 3) .null [], .set rope (.int 7) [], .get flat, .set flat (.int 8) [], .size]
    let l' : List (MapOp MapKey) := [.set (.int 1) .null [], .set (.int 2) .null [], .iterator .key,
      .next 0, .next 0, .delete (.int 2) [], .set (.int 1) (.object 64) [], .clear [[0]], .size]
    sameValueZero rope flat = true ∧
    (mapRun (keyOps 0) ⟨mapConstructor (keyOps 0) false, []⟩ l).map Prod.fst =
      some [.undefined, .undefined, .undefined, .undefined, .undefined, .undefined, .uint32 5] ∧
    ((Ordered.new false).run (keyOps 0) l).1 =
      [.undefined, .undefined, .undefined, .undefined, .value (.int 7), .undefined, .uint32 4] ∧
    mapRun (keyOps 0) ⟨mapConstructor (keyOps 0) false, []⟩ l' = none ∧
    ((Ordered.new false).run (keyOps 0) l').1 =
      [.undefined, .undefined, .cursor 0, .value (.int 1), .value (.int 2), .bool true, .undefined,
        .undefined, .uint32 0] := by
  decide +kernel

end ArenaJs.Collections
