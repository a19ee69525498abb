import Mathlib.Data.Finset.Card
import Mathlib.Tactic.Ring

/-!
# Linear probing in a table of power-of-two size

Slots `0 … mask` hold a key and a value or are empty. A search starts at the key's home slot and
goes up cyclically until it meets the key or an empty slot. Deletion leaves no tombstones: it walks
the cluster after the hole and moves back every entry whose way from home leads over the hole.

A table is well formed (`WF`) when its keys are distinct and no entry has an empty slot between its
home and its place. With one empty slot every search ends (`find_spec`), and then insertion and
deletion are those of a finite map (`put_spec`, `del_spec`); a table that only grows needs less of
it (`add_spec`, `readd_spec`). The searches carry fuel; running out of it is `none` and stands for a
loop that does not end.
-/

namespace ArenaJs.Probe

variable {K V : Type}

/-- The slots of a table. -/
abbrev Slots (K V : Type) := Nat → Option (K × V)

/-- A table without entries. -/
def empty : Slots K V := fun _ => none

variable (mask : Nat) (s : Slots K V)

/-- Write one slot. -/
def set (i : Nat) (e : Option (K × V)) : Slots K V :=
  fun x => if x = i then e else s x

@[simp] theorem set_same (i : Nat) (e : Option (K × V)) : set s i e i = e :=
  if_pos rfl

theorem set_other {i x : Nat} (e : Option (K × V)) (h : x ≠ i) :
    set s i e x = s x := if_neg h

/-- The entries of a table with one slot filled. -/
theorem set_some {i x : Nat} {e f : K × V} (h : set s i (some e) x = some f) :
    x = i ∧ f = e ∨ x ≠ i ∧ s x = some f := by
  by_cases hx : x = i
  · subst hx
    rw [set_same] at h
    exact .inl ⟨rfl, (Option.some.inj h).symm⟩
  · rw [set_other s _ hx] at h
    exact .inr ⟨hx, h⟩

theorem set_ne_none (i : Nat) (e : K × V) {x : Nat} (h : s x ≠ none) :
    set s i (some e) x ≠ none := by
  unfold set
  split
  · simp
  · exact h

/-- The slot after `i`. -/
def next (mask i : Nat) : Nat := (i + 1) &&& mask

/-- Walk from slot `i` to the key or to an empty slot. -/
def find [DecidableEq K] (mask : Nat) (s : Slots K V) (k : K) : Nat → Nat → Option Nat
  | 0, _ => none
  | fuel + 1, i =>
    match s i with
    | none => some i
    | some e => if e.1 = k then some i else find mask s k fuel (next mask i)

/-- The value under a key. -/
def get [DecidableEq K] (home : K → Nat) (s : Slots K V) (k : K) :
    Option (Option V) :=
  (find mask s k (mask + 1) (home k)).map fun i => (s i).map Prod.snd

/-- Write a key's value. -/
def put [DecidableEq K] (home : K → Nat) (s : Slots K V) (k : K) (v : V) :
    Option (Slots K V) :=
  (find mask s k (mask + 1) (home k)).map fun i => set s i (some (k, v))

/-- An entry at `j` with home `h` need not move back over the hole `i`. -/
def stays (i j h : Nat) : Bool :=
  if i ≤ j then decide (i < h ∧ h ≤ j) else decide (i < h ∨ h ≤ j)

/-- The backward shift: the hole is at `i`, and the walk has reached `j`. -/
def shift (mask : Nat) (home : K → Nat) : Nat → Slots K V → Nat → Nat → Option (Slots K V)
  | 0, _, _, _ => none
  | fuel + 1, s, i, j =>
    match s (next mask j) with
    | none => some (set s i none)
    | some e =>
      if stays i (next mask j) (home e.1) then shift mask home fuel s i (next mask j)
      else shift mask home fuel (set s i (some e)) (next mask j) (next mask j)

/-- Delete slot `i`. -/
def del (home : K → Nat) (s : Slots K V) (i : Nat) : Option (Slots K V) :=
  shift mask home (mask + 1) s i i

/-! ## Cyclic distances -/

/-- The number of steps from `a` up to `b`. -/
def dist (mask a b : Nat) : Nat := if a ≤ b then b - a else b + (mask + 1) - a

section
variable {mask b a h i j x y : Nat}

theorem next_eq (hm : mask + 1 = 2 ^ b) (hi : i ≤ mask) :
    next mask i = if i = mask then 0 else i + 1 := by
  have hmask : mask = 2 ^ b - 1 := by omega
  rw [next, hmask, Nat.and_two_pow_sub_one_eq_mod, ← hm]
  split
  · rw [show i + 1 = mask + 1 by omega, Nat.mod_self]
  · exact Nat.mod_eq_of_lt (by omega)

theorem next_le (hm : mask + 1 = 2 ^ b) (hi : i ≤ mask) : next mask i ≤ mask := by
  rw [next_eq hm hi]; split <;> omega

theorem dist_self : dist mask a a = 0 := by simp [dist]

theorem dist_le (ha : a ≤ mask) (hb : b ≤ mask) : dist mask a b ≤ mask := by
  unfold dist; split <;> omega

theorem dist_inj (hx : x ≤ mask) (hy : y ≤ mask) (ha : a ≤ mask)
    (h : dist mask a x = dist mask a y) : x = y := by
  unfold dist at h; split at h <;> split at h <;> omega

theorem dist_next (hm : mask + 1 = 2 ^ b) (ha : a ≤ mask) (hi : i ≤ mask)
    (h : dist mask a i < mask) : dist mask a (next mask i) = dist mask a i + 1 := by
  rw [next_eq hm hi]
  unfold dist at *
  split_ifs at * <;> omega

theorem dist_next_left {e : Nat} (hm : mask + 1 = 2 ^ b) (hi : i ≤ mask) (he : e ≤ mask)
    (hne : i ≠ e) : dist mask (next mask i) e + 1 = dist mask i e := by
  rw [next_eq hm hi]
  unfold dist
  split_ifs <;> omega

/-- A point reached from `i` before `x`, where `i` is on the way to `x`. -/
theorem dist_between (ha : a ≤ mask) (hi : i ≤ mask) (hx : x ≤ mask)
    (h : dist mask a i < dist mask a x) (hij : dist mask i j < dist mask i x) :
    dist mask a j < dist mask a x := by
  unfold dist at *
  split_ifs at * <;> omega

/-- The test of the backward shift: an entry moves when the hole is on its way. -/
theorem stays_eq_false_iff (hi : i ≤ mask) (hj : j ≤ mask) (hh : h ≤ mask) (hij : i ≠ j) :
    stays i j h = false ↔ dist mask h i < dist mask h j := by
  unfold stays dist
  split <;> simp only [decide_eq_false_iff_not] <;> split <;> split <;> omega

end

/-! ## Well-formed tables -/

/-- `k` is stored with value `v`. -/
def Has (k : K) (v : V) : Prop := ∃ i ≤ mask, s i = some (k, v)

/-- Distinct keys, and no empty slot on an entry's way from its home. -/
structure WF (mask : Nat) (home : K → Nat) (s : Slots K V) : Prop where
  uniq : ∀ {i j k v w}, i ≤ mask → j ≤ mask → s i = some (k, v) → s j = some (k, w) → i = j
  path : ∀ {i k v}, i ≤ mask → s i = some (k, v) → ∀ x ≤ mask,
    dist mask (home k) x < dist mask (home k) i → s x ≠ none

/-- A mask below a power of two, and homes inside the table. -/
structure Sized (mask : Nat) (home : K → Nat) : Prop where
  pow : ∃ b, mask + 1 = 2 ^ b
  home_le : ∀ k, home k ≤ mask

theorem WF.empty {mask : Nat} {home : K → Nat} : WF mask home (empty : Slots K V) :=
  ⟨nofun, nofun⟩

section
variable {mask : Nat} {s : Slots K V}

/-! ## Occupancy -/

/-- The number of entries. -/
def load (mask : Nat) (s : Slots K V) : Nat :=
  ((Finset.range (mask + 1)).filter fun i => (s i).isSome).card

theorem exists_empty (h : load mask s ≤ mask) : ∃ e ≤ mask, s e = none := by
  by_contra hall
  push Not at hall
  have hfull : (Finset.range (mask + 1)).filter (fun i => (s i).isSome) = Finset.range (mask + 1) :=
    Finset.filter_true_of_mem fun i hi =>
      Option.isSome_iff_ne_none.2 (hall i (Nat.lt_succ_iff.1 (Finset.mem_range.1 hi)))
  rw [load, hfull, Finset.card_range] at h
  omega

theorem load_set_some {i : Nat} (hi : i ≤ mask) (e : K × V) :
    load mask (set s i (some e)) = if (s i).isSome then load mask s else load mask s + 1 := by
  have hset : (Finset.range (mask + 1)).filter (fun x => (set s i (some e) x).isSome) =
      insert i ((Finset.range (mask + 1)).filter fun x => (s x).isSome) := by
    ext x
    by_cases hx : x = i
    · subst hx; simp; omega
    · simp [set_other s _ hx, hx]
  rw [load, hset]
  split
  · next h => rw [Finset.insert_eq_of_mem (by simp [h]; omega), load]
  · next h => rw [Finset.card_insert_of_notMem (by simp [h]), load]

theorem load_set_none {i : Nat} (hi : i ≤ mask) (h : (s i).isSome) :
    load mask (set s i none) + 1 = load mask s := by
  have hset : (Finset.range (mask + 1)).filter (fun x => (set s i none x).isSome) =
      ((Finset.range (mask + 1)).filter fun x => (s x).isSome).erase i := by
    ext x
    by_cases hx : x = i
    · subst hx; simp
    · simp [set_other s _ hx, hx]
  rw [load, hset, Finset.card_erase_add_one (by simp [h]; omega), load]

theorem load_empty : load mask (empty : Slots K V) = 0 := by simp [load, empty]

end

section
variable [DecidableEq K] {mask : Nat} {home : K → Nat} {s : Slots K V} {k : K} {v : V}

/-- Where a search ends: at the key or at an empty slot, past slots that hold other keys. -/
structure FindsAt (mask : Nat) (home : K → Nat) (s : Slots K V) (k : K) (i : Nat) : Prop where
  le : i ≤ mask
  stop : ∀ e, s i = some e → e.1 = k
  past : ∀ x ≤ mask, dist mask (home k) x < dist mask (home k) i → ∃ e, s x = some e ∧ e.1 ≠ k

/-- A search that has passed every slot before `i` ends before it passes the empty slot `e`. -/
theorem find_walk (hs : Sized mask home) {e : Nat} (he : e ≤ mask) (hempty : s e = none)
    {fuel i : Nat} (hi : i ≤ mask) (hie : dist mask (home k) i ≤ dist mask (home k) e)
    (hfuel : dist mask (home k) e < fuel + dist mask (home k) i)
    (hpast : ∀ x ≤ mask, dist mask (home k) x < dist mask (home k) i →
      ∃ e, s x = some e ∧ e.1 ≠ k) :
    ∃ j, find mask s k fuel i = some j ∧ FindsAt mask home s k j := by
  obtain ⟨b, hb⟩ := hs.pow
  have hk := hs.home_le k
  induction fuel generalizing i with
  | zero => omega
  | succ fuel ih =>
    cases hsi : s i with
    | none => exact ⟨i, by simp [find, hsi], hi, by simp [hsi], hpast⟩
    | some w =>
      by_cases hw : w.1 = k
      · exact ⟨i, by simp [find, hsi, hw], hi, by simpa [hsi] using hw, hpast⟩
      · have hne : i ≠ e := by rintro rfl; rw [hempty] at hsi; cases hsi
        have hlt : dist mask (home k) i < dist mask (home k) e :=
          Nat.lt_of_le_of_ne hie fun h => hne (dist_inj hi he hk h)
        have hd := dist_next hb hk hi (Nat.lt_of_lt_of_le hlt (dist_le hk he))
        obtain ⟨j, hj, hat⟩ := ih (next_le hb hi) (by omega) (by omega) <| by
          intro x hx hxd
          by_cases hxi : x = i
          · exact ⟨w, hxi ▸ hsi, hw⟩
          · have : dist mask (home k) x ≠ dist mask (home k) i := fun h => hxi (dist_inj hx hi hk h)
            exact hpast x hx (by omega)
        exact ⟨j, by simpa [find, hsi, hw] using hj, hat⟩

/-- With an empty slot every search ends. -/
theorem find_spec (hs : Sized mask home) (hroom : ∃ e ≤ mask, s e = none) (k : K) :
    ∃ i, find mask s k (mask + 1) (home k) = some i ∧ FindsAt mask home s k i := by
  obtain ⟨e, he, hempty⟩ := hroom
  have hk := hs.home_le k
  have hle := dist_le hk he
  refine find_walk hs he hempty hk ?_ ?_ ?_ <;> simp only [dist_self]
  · exact Nat.zero_le _
  · omega
  · exact fun x _ h => absurd h (Nat.not_lt_zero _)

omit [DecidableEq K] in
/-- In a well-formed table the search for a stored key ends at its entry. -/
theorem FindsAt.eq (hw : WF mask home s) (hs : Sized mask home) {i p : Nat}
    (h : FindsAt mask home s k i) (hp : p ≤ mask) (hkp : s p = some (k, v)) : i = p := by
  rcases Nat.lt_trichotomy (dist mask (home k) i) (dist mask (home k) p) with hlt | heq | hgt
  · have hne := hw.path hp hkp i h.le hlt
    obtain ⟨e, he⟩ := Option.ne_none_iff_exists'.1 hne
    obtain rfl := h.stop e he
    exact hw.uniq h.le hp he hkp
  · exact dist_inj h.le hp (hs.home_le k) heq
  · obtain ⟨e, he, hne⟩ := h.past p hp hgt
    rw [hkp] at he
    cases he
    exact absurd rfl hne

/-- A lookup ends and returns what is stored. -/
theorem get_spec (hw : WF mask home s) (hs : Sized mask home) (hroom : ∃ e ≤ mask, s e = none)
    (k : K) : ∃ o, get mask home s k = some o ∧ ∀ v, o = some v ↔ Has mask s k v := by
  obtain ⟨i, hi, hat⟩ := find_spec hs hroom k
  refine ⟨(s i).map Prod.snd, by rw [get, hi]; rfl, fun v => ?_⟩
  constructor
  · intro h
    obtain ⟨e, he, rfl⟩ := Option.map_eq_some_iff.1 h
    obtain rfl := hat.stop e he
    exact ⟨i, hat.le, he⟩
  · rintro ⟨p, hp, hkp⟩
    rw [hat.eq hw hs hp hkp, hkp]
    rfl

/-- What an insertion does: it writes the key and counts it once. -/
theorem put_spec (hw : WF mask home s) (hs : Sized mask home) (hroom : ∃ e ≤ mask, s e = none)
    (k : K) (v : V) : ∃ s', put mask home s k v = some s' ∧ WF mask home s' ∧
      (∀ k' v', Has mask s' k' v' ↔ if k' = k then v' = v else Has mask s k' v') ∧
      load mask s' ≤ load mask s + 1 := by
  obtain ⟨i, hi, hat⟩ := find_spec hs hroom k
  have hle := hat.le
  -- the key is nowhere else
  have honly : ∀ {x w}, x ≤ mask → x ≠ i → s x ≠ some (k, w) :=
    fun hx hxi h => hxi (hat.eq hw hs hx h).symm
  refine ⟨set s i (some (k, v)), by rw [put, hi]; rfl, ⟨?_, ?_⟩, ?_, ?_⟩
  · intro x y k' w w' hx hy h1 h2
    rcases set_some s h1 with ⟨hxi, he⟩ | ⟨hxi, hx'⟩ <;>
      rcases set_some s h2 with ⟨hyi, he'⟩ | ⟨hyi, hy'⟩
    · rw [hxi, hyi]
    · cases he
      exact absurd hy' (honly hy hyi)
    · cases he'
      exact absurd hx' (honly hx hxi)
    · exact hw.uniq hx hy hx' hy'
  · intro x k' w hx h y hy hd
    refine set_ne_none s i _ ?_
    rcases set_some s h with ⟨rfl, he⟩ | ⟨-, hx'⟩
    · cases he
      obtain ⟨e, he, -⟩ := hat.past y hy hd
      simp [he]
    · exact hw.path hx hx' y hy hd
  · intro k' v'
    constructor
    · rintro ⟨x, hx, h⟩
      rcases set_some s h with ⟨-, he⟩ | ⟨hxi, hx'⟩
      · cases he
        rw [if_pos rfl]
      · rw [if_neg (by rintro rfl; exact honly hx hxi hx')]
        exact ⟨x, hx, hx'⟩
    · intro h
      split at h
      · next hk => exact ⟨i, hle, by rw [set_same, hk, h]⟩
      · next hk =>
        obtain ⟨x, hx, hsx⟩ := h
        refine ⟨x, hx, ?_⟩
        rw [set_other s _ (by rintro rfl; exact hk (hat.stop _ hsx)), hsx]
  · rw [load_set_some hle]
    split <;> omega

end

/-! ## Deletion -/

section
variable {mask : Nat} {home : K → Nat} {s : Slots K V} {i j : Nat}

/-- The table in the middle of a backward shift: the entry at the hole `i` no longer counts, the
others are well formed, and those the walk from `i` to `j` has passed do not lead over the hole. -/
structure Hole (mask : Nat) (home : K → Nat) (s : Slots K V) (i j : Nat) : Prop where
  hole_le : i ≤ mask
  walk_le : j ≤ mask
  occupied : s i ≠ none
  uniq : ∀ {x y k v w}, x ≤ mask → y ≤ mask → x ≠ i → y ≠ i → s x = some (k, v) →
    s y = some (k, w) → x = y
  path : ∀ {x k v}, x ≤ mask → x ≠ i → s x = some (k, v) → ∀ y ≤ mask,
    dist mask (home k) y < dist mask (home k) x → s y ≠ none
  passed : ∀ {x k v}, x ≤ mask → x ≠ i → s x = some (k, v) → dist mask i x ≤ dist mask i j →
    ¬ dist mask (home k) i < dist mask (home k) x

/-- The walk starts at the entry to delete. -/
theorem Hole.start (hw : WF mask home s) (hi : i ≤ mask) (hocc : s i ≠ none) :
    Hole mask home s i i :=
  ⟨hi, hi, hocc, fun hx hy _ _ => hw.uniq hx hy, fun hx _ => hw.path hx,
    fun hx hne _ hd => absurd (dist_inj hx hi hi
      (Nat.le_antisymm hd (dist_self ▸ Nat.zero_le _))) hne⟩

section
variable (hs : Sized mask home) (h : Hole mask home s i j)
include hs h

/-- The entry at the next slot stays. -/
theorem Hole.stay
    (hd : dist mask i (next mask j) = dist mask i j + 1) {e : K × V}
    (he : s (next mask j) = some e) (hstay : stays i (next mask j) (home e.1) = true) :
    Hole mask home s i (next mask j) := by
  obtain ⟨b, hb⟩ := hs.pow
  have hj := next_le hb h.walk_le
  refine ⟨h.hole_le, hj, h.occupied, h.uniq, h.path, ?_⟩
  intro x k v hx hne hsx hle
  by_cases hxj : x = next mask j
  · subst hxj
    rw [he] at hsx
    cases hsx
    intro hlt
    rw [(stays_eq_false_iff h.hole_le hj (hs.home_le _) (Ne.symm hne)).2 hlt] at hstay
    cases hstay
  · have : dist mask i x ≠ dist mask i (next mask j) :=
      fun heq => hxj (dist_inj hx hj h.hole_le heq)
    exact h.passed hx hne hsx (by omega)

/-- The entry at the next slot moves into the hole. -/
theorem Hole.move (hne : next mask j ≠ i)
    {e : K × V} (he : s (next mask j) = some e)
    (hmove : stays i (next mask j) (home e.1) = false) :
    Hole mask home (set s i (some e)) (next mask j) (next mask j) := by
  obtain ⟨b, hb⟩ := hs.pow
  have hj := next_le hb h.walk_le
  have hway := (stays_eq_false_iff h.hole_le hj (hs.home_le _) (Ne.symm hne)).1 hmove
  refine ⟨hj, hj, set_ne_none s i e (by simp [he]), ?_, ?_, ?_⟩
  · intro x y k v w hx hy hxj hyj h1 h2
    rcases set_some s h1 with ⟨hxi, hx'⟩ | ⟨hxi, hx'⟩ <;>
      rcases set_some s h2 with ⟨hyi, hy'⟩ | ⟨hyi, hy'⟩
    · rw [hxi, hyi]
    · cases hx'
      exact absurd (h.uniq hy hj hyi hne hy' he) hyj
    · cases hy'
      exact absurd (h.uniq hx hj hxi hne hx' he) hxj
    · exact h.uniq hx hy hxi hyi hx' hy'
  · intro x k v hx _ h1 y hy hd
    refine set_ne_none s i e ?_
    rcases set_some s h1 with ⟨rfl, hx'⟩ | ⟨hxi, hx'⟩
    · cases hx'
      exact h.path hj hne he y hy (hd.trans hway)
    · exact h.path hx hxi hx' y hy hd
  · intro x k v hx hxj _ hle
    rw [dist_self] at hle
    exact absurd (dist_inj hx hj hj (by rw [dist_self]; omega)) hxj

/-- The walk has met an empty slot: nothing leads over the hole any more, and it is cleared. -/
theorem Hole.close
    (hd : dist mask i (next mask j) = dist mask i j + 1) (he : s (next mask j) = none) :
    WF mask home (set s i none) := by
  obtain ⟨b, hb⟩ := hs.pow
  have hj := next_le hb h.walk_le
  have hother : ∀ {x k v}, set s i none x = some (k, v) → x ≠ i ∧ s x = some (k, v) := by
    intro x k v hx
    by_cases hxi : x = i
    · rw [hxi, set_same] at hx; cases hx
    · exact ⟨hxi, by rwa [set_other s _ hxi] at hx⟩
  refine ⟨fun hx hy h1 h2 => h.uniq hx hy (hother h1).1 (hother h2).1 (hother h1).2 (hother h2).2,
    ?_⟩
  intro x k v hx hset y hy hlt
  obtain ⟨hxi, hsx⟩ := hother hset
  by_cases hyi : y = i
  · -- an entry past the hole was passed by the walk, or lies behind the empty slot
    subst hyi
    exfalso
    have hpass : dist mask y j < dist mask y x := Nat.lt_of_not_le fun hle =>
      h.passed hx hxi hsx hle hlt
    have hne : dist mask y x ≠ dist mask y (next mask j) := fun heq => by
      rw [dist_inj hx hj h.hole_le heq, he] at hsx; cases hsx
    exact h.path hx hxi hsx _ hj
      (dist_between (hs.home_le k) h.hole_le hx hlt (by omega)) he
  · rw [set_other s _ hyi]
    exact h.path hx hxi hsx y hy hlt

end

/-- The entries that count while the hole is at `i`. -/
def Rest (mask : Nat) (s : Slots K V) (i : Nat) (k : K) (v : V) : Prop :=
  ∃ x ≤ mask, x ≠ i ∧ s x = some (k, v)

theorem rest_move {e : K × V} {i j : Nat} (hi : i ≤ mask) (hj : j ≤ mask) (hne : j ≠ i)
    (he : s j = some e) (k : K) (v : V) :
    Rest mask (set s i (some e)) j k v ↔ Rest mask s i k v := by
  constructor
  · rintro ⟨x, hx, hxj, h⟩
    by_cases hxi : x = i
    · rw [hxi, set_same] at h
      exact ⟨j, hj, hne, he.trans h⟩
    · exact ⟨x, hx, hxi, by rwa [set_other s _ hxi] at h⟩
  · rintro ⟨x, hx, hxi, h⟩
    by_cases hxj : x = j
    · exact ⟨i, hi, Ne.symm hne, by rw [set_same, ← he, ← hxj, h]⟩
    · exact ⟨x, hx, hxj, by rwa [set_other s _ hxi]⟩

theorem has_set_none {i : Nat} (k : K) (v : V) :
    Has mask (set s i none) k v ↔ Rest mask s i k v := by
  constructor
  · rintro ⟨x, hx, h⟩
    by_cases hxi : x = i
    · rw [hxi, set_same] at h; cases h
    · exact ⟨x, hx, hxi, by rwa [set_other s _ hxi] at h⟩
  · rintro ⟨x, hx, hxi, h⟩
    exact ⟨x, hx, by rwa [set_other s _ hxi]⟩

/-- The backward shift ends at an empty slot and drops exactly the entry at the hole. -/
theorem shift_spec (hs : Sized mask home) {fuel e : Nat} (he : e ≤ mask) (hempty : s e = none)
    (h : Hole mask home s i j) (hje : dist mask i j < dist mask i e)
    (hfuel : dist mask j e ≤ fuel) : ∃ s', shift mask home fuel s i j = some s' ∧
      WF mask home s' ∧ (∀ k v, Has mask s' k v ↔ Rest mask s i k v) ∧
      load mask s' + 1 = load mask s := by
  obtain ⟨b, hb⟩ := hs.pow
  induction fuel generalizing s i j with
  | zero =>
    have : j = e := dist_inj h.walk_le he h.walk_le (by rw [dist_self]; omega)
    subst this
    exact absurd hje (Nat.lt_irrefl _)
  | succ fuel ih =>
    have hi := h.hole_le
    have hj := h.walk_le
    have hj' := next_le hb hj
    have hd := dist_next hb hi hj (Nat.lt_of_lt_of_le hje (dist_le hi he))
    have hstep := dist_next_left hb hj he (by rintro rfl; exact Nat.lt_irrefl _ hje)
    have hne : next mask j ≠ i := by
      intro heq; rw [heq, dist_self] at hd; omega
    cases hsj : s (next mask j) with
    | none =>
      have hsome : (s i).isSome := Option.isSome_iff_ne_none.2 h.occupied
      exact ⟨set s i none, by simp [shift, hsj], h.close hs hd hsj, has_set_none,
        load_set_none hi hsome⟩
    | some w =>
      have hne' : next mask j ≠ e := by rintro heq; rw [heq, hempty] at hsj; cases hsj
      cases hstay : stays i (next mask j) (home w.1) with
      | true =>
        have hlt : dist mask i (next mask j) ≠ dist mask i e :=
          fun heq => hne' (dist_inj hj' he hi heq)
        obtain ⟨s', hs', hrest⟩ := ih hempty (h.stay hs hd hsj hstay) (by omega) (by omega)
        exact ⟨s', by simpa [shift, hsj, hstay] using hs', hrest⟩
      | false =>
        have hpos : dist mask (next mask j) e ≠ dist mask (next mask j) (next mask j) :=
          fun heq => hne' (dist_inj he hj' hj' heq).symm
        have hei : e ≠ i := by rintro rfl; exact h.occupied hempty
        rw [dist_self] at hpos
        obtain ⟨s', hs', hwf, hhas, hload⟩ := ih (by rw [set_other s _ hei, hempty])
          (h.move hs hne hsj hstay) (by rw [dist_self]; omega) (by omega)
        refine ⟨s', by simpa [shift, hsj, hstay] using hs', hwf,
          fun k v => (hhas k v).trans (rest_move hi hj' hne hsj k v), ?_⟩
        rw [hload, load_set_some hi, if_pos (Option.isSome_iff_ne_none.2 h.occupied)]

/-- Deleting a slot drops its entry and no other. -/
theorem del_spec (hw : WF mask home s) (hs : Sized mask home) (hroom : ∃ e ≤ mask, s e = none)
    (hi : i ≤ mask) {k : K} {v : V} (hk : s i = some (k, v)) :
    ∃ s', del mask home s i = some s' ∧ WF mask home s' ∧
      (∀ k' v', Has mask s' k' v' ↔ k' ≠ k ∧ Has mask s k' v') ∧
      load mask s' + 1 = load mask s := by
  obtain ⟨e, he, hempty⟩ := hroom
  have hne : e ≠ i := by rintro rfl; rw [hempty] at hk; cases hk
  have hpos : dist mask i e ≠ dist mask i i := fun heq => hne (dist_inj he hi hi heq)
  rw [dist_self] at hpos
  obtain ⟨s', hs', hwf, hhas, hload⟩ := shift_spec hs he hempty
    (Hole.start hw hi (by simp [hk])) (by rw [dist_self]; omega)
    (Nat.le_succ_of_le (dist_le hi he))
  refine ⟨s', hs', hwf, fun k' v' => (hhas k' v').trans ?_, hload⟩
  constructor
  · rintro ⟨x, hx, hxi, h⟩
    exact ⟨by rintro rfl; exact hxi (hw.uniq hx hi h hk), x, hx, h⟩
  · rintro ⟨hkk, x, hx, h⟩
    exact ⟨x, hx, by rintro rfl; rw [hk] at h; cases h; exact hkk rfl, h⟩

end

/-! ## Whole tables -/

/-- Enter the kept entries of the slots below `n` into an empty table, and count them. -/
def rehash [DecidableEq K] (s : Slots K V) (mask' : Nat) (home' : K → Nat) (keep : K × V → Bool) :
    Nat → Option (Slots K V × Nat)
  | 0 => some (empty, 0)
  | n + 1 => (rehash s mask' home' keep n).bind fun r =>
    match s n with
    | none => some r
    | some e =>
      if keep e then (put mask' home' r.1 e.1 e.2).map fun t => (t, r.2 + 1) else some r

/-- Change every value. -/
def mapVal (f : V → V) (s : Slots K V) : Slots K V := fun i => (s i).map fun e => (e.1, f e.2)

section
variable {mask mask' : Nat} {home home' : K → Nat} {s : Slots K V}

/-- The occupied slots below `n`. -/
def occ (s : Slots K V) (n : Nat) : Nat := ((Finset.range n).filter fun i => (s i).isSome).card

theorem occ_succ (s : Slots K V) (n : Nat) :
    occ s (n + 1) = if (s n).isSome then occ s n + 1 else occ s n := by
  rw [occ, Finset.range_add_one, Finset.filter_insert]
  split
  · rw [Finset.card_insert_of_notMem (by simp), occ]
  · rfl

theorem occ_mono {n m : Nat} (h : n ≤ m) : occ s n ≤ occ s m :=
  Finset.card_le_card (Finset.filter_subset_filter _ (Finset.range_mono h))

/-- The entries up to an occupied slot. -/
theorem below_succ [DecidableEq K] (hw : WF mask home s) {n : Nat} (hn : n ≤ mask) {e : K × V}
    (hsn : s n = some e) (k : K) (v : V) : (∃ i < n + 1, s i = some (k, v)) ↔
      if k = e.1 then v = e.2 else ∃ i < n, s i = some (k, v) := by
  rw [Nat.exists_lt_succ_right, hsn]
  split
  · next hk =>
    subst hk
    constructor
    · rintro (⟨i, hi, h⟩ | h)
      · exact absurd (hw.uniq (by omega) hn h hsn) (by omega)
      · exact (congrArg Prod.snd (Option.some.inj h)).symm
    · rintro rfl
      exact .inr rfl
  · next hk =>
    refine or_iff_left ?_
    rintro ⟨⟩
    exact hk rfl

/-- Rehashing keeps the kept entries. -/
theorem rehash_spec [DecidableEq K] (hw : WF mask home s) (hs : Sized mask' home')
    (keep : K × V → Bool) {n : Nat} (hn : n ≤ mask + 1) (hroom : load mask s ≤ mask') :
    ∃ t kept, rehash s mask' home' keep n = some (t, kept) ∧ WF mask' home' t ∧
      (∀ k v, Has mask' t k v ↔ keep (k, v) ∧ ∃ i < n, s i = some (k, v)) ∧
      load mask' t ≤ kept ∧ kept ≤ occ s n := by
  induction n with
  | zero =>
    refine ⟨empty, 0, rfl, .empty, fun k v => ?_, Nat.le_of_eq load_empty, Nat.zero_le _⟩
    simp [Has, empty]
  | succ n ih =>
    obtain ⟨t, kept, ht, hwt, hhas, hload, hkept⟩ := ih (by omega)
    have hocc := occ_succ s n
    have hmono : occ s (n + 1) ≤ load mask s := occ_mono hn
    cases hsn : s n with
    | none =>
      simp only [hsn, Option.isSome_none, Bool.false_eq_true, if_false] at hocc
      refine ⟨t, kept, by simp [rehash, ht, hsn], hwt, fun k v => ?_, hload, by omega⟩
      rw [hhas, Nat.exists_lt_succ_right, hsn, or_iff_left nofun]
    | some e =>
      simp only [hsn, Option.isSome_some, if_true] at hocc
      cases hkeep : keep e with
      | false =>
        refine ⟨t, kept, by simp [rehash, ht, hsn, hkeep], hwt, fun k v => ?_, hload, by omega⟩
        rw [hhas, Nat.exists_lt_succ_right, hsn]
        refine and_congr_right fun hk => (or_iff_left ?_).symm
        rintro ⟨⟩
        rw [hk] at hkeep
        cases hkeep
      | true =>
        obtain ⟨t', ht', hwt', hhas', hload'⟩ :=
          put_spec hwt hs (exists_empty (by omega)) e.1 e.2
        refine ⟨t', kept + 1, by simp [rehash, ht, hsn, hkeep, ht'], hwt', fun k v => ?_,
          by omega, by omega⟩
        rw [hhas', below_succ hw (by omega) hsn]
        split
        · next hk =>
          subst hk
          refine (and_iff_right_of_imp ?_).symm
          rintro rfl
          exact hkeep
        · exact hhas k v

theorem mapVal_eq_some {f : V → V} {i : Nat} {k : K} {v : V} :
    mapVal f s i = some (k, v) ↔ ∃ w, s i = some (k, w) ∧ f w = v := by
  simp only [mapVal, Option.map_eq_some_iff, Prod.exists, Prod.mk.injEq]
  constructor
  · rintro ⟨_, w, h, rfl, rfl⟩; exact ⟨w, h, rfl⟩
  · rintro ⟨w, h, rfl⟩; exact ⟨k, w, h, rfl, rfl⟩

theorem mapVal_none_iff {f : V → V} {i : Nat} : mapVal f s i = none ↔ s i = none := by
  simp [mapVal]

/-- Changing values leaves the keys where they are. -/
theorem WF.mapVal (h : WF mask home s) (f : V → V) : WF mask home (mapVal f s) := by
  constructor
  · intro i j k v w hi hj h1 h2
    obtain ⟨_, h1, -⟩ := mapVal_eq_some.1 h1
    obtain ⟨_, h2, -⟩ := mapVal_eq_some.1 h2
    exact h.uniq hi hj h1 h2
  · intro i k v hi h1 x hx hd
    obtain ⟨_, h1, -⟩ := mapVal_eq_some.1 h1
    exact fun hnone => h.path hi h1 x hx hd (mapVal_none_iff.1 hnone)

theorem has_mapVal {f : V → V} {k : K} {v : V} :
    Has mask (mapVal f s) k v ↔ ∃ w, Has mask s k w ∧ f w = v := by
  simp only [Has, mapVal_eq_some]
  exact ⟨fun ⟨i, hi, w, h, hf⟩ => ⟨w, ⟨i, hi, h⟩, hf⟩, fun ⟨w, ⟨i, hi, h⟩, hf⟩ => ⟨i, hi, w, h, hf⟩⟩

theorem load_mapVal (f : V → V) : load mask (mapVal f s) = load mask s := by
  simp [load, mapVal]

/-- A table without entries stores nothing. -/
theorem not_has_of_load (h : load mask s = 0) (k : K) (v : V) : ¬ Has mask s k v := by
  rintro ⟨i, hi, hk⟩
  have : i ∈ (Finset.range (mask + 1)).filter fun i => (s i).isSome := by simp [hk]; omega
  rw [Finset.card_eq_zero.1 h] at this
  cases this

end

/-! ## Tables without deletion -/

/-- Walk from slot `i` to an empty slot. -/
def free (mask : Nat) (s : Slots K V) : Nat → Nat → Option Nat
  | 0, _ => none
  | fuel + 1, i =>
    match s i with
    | none => some i
    | some _ => free mask s fuel (next mask i)

/-- Write a key that is not in the table: only empty slots are looked for. -/
def add (home : K → Nat) (s : Slots K V) (k : K) (v : V) : Option (Slots K V) :=
  (free mask s (mask + 1) (home k)).map fun i => set s i (some (k, v))

/-- Enter the entries of the slots below `n` into an empty table. -/
def readd (s : Slots K V) (mask' : Nat) (home' : K → Nat) : Nat → Option (Slots K V)
  | 0 => some empty
  | n + 1 => (readd s mask' home' n).bind fun t =>
    match s n with
    | none => some t
    | some e => add mask' home' t e.1 e.2

section
variable [DecidableEq K] {mask mask' : Nat} {home home' : K → Nat} {s : Slots K V} {k : K} {v : V}

/-- Without the key a search for it and a search for an empty slot are the same. -/
theorem free_eq_find {b : Nat} (hm : mask + 1 = 2 ^ b) (hk : ∀ v, ¬ Has mask s k v) {fuel i : Nat}
    (hi : i ≤ mask) : free mask s fuel i = find mask s k fuel i := by
  induction fuel generalizing i with
  | zero => rfl
  | succ fuel ih =>
    cases hsi : s i with
    | none => simp only [free, find, hsi]
    | some e =>
      have hne : e.1 ≠ k := by
        rintro rfl
        exact hk e.2 ⟨i, hi, hsi⟩
      simp only [free, find, hsi, if_neg hne]
      exact ih (next_le hm hi)

/-- What adding a new key does. -/
theorem add_spec (hw : WF mask home s) (hs : Sized mask home) (hroom : ∃ e ≤ mask, s e = none)
    (hk : ∀ v, ¬ Has mask s k v) (v : V) :
    ∃ s', add mask home s k v = some s' ∧ WF mask home s' ∧
      (∀ k' v', Has mask s' k' v' ↔ if k' = k then v' = v else Has mask s k' v') ∧
      load mask s' = load mask s + 1 := by
  obtain ⟨b, hb⟩ := hs.pow
  obtain ⟨s', hput, hwf, hhas, -⟩ := put_spec hw hs hroom k v
  obtain ⟨i, hi, hat⟩ := find_spec hs hroom k
  have hadd : add mask home s k v = put mask home s k v := by
    rw [add, put, free_eq_find hb hk (hs.home_le k)]
  have hs' : set s i (some (k, v)) = s' := by
    rw [put, hi] at hput
    exact Option.some.inj hput
  have hempty : s i = none := by
    cases hsi : s i with
    | none => rfl
    | some e =>
      obtain rfl := hat.stop e hsi
      exact absurd ⟨i, hat.le, hsi⟩ (hk e.2)
  refine ⟨s', hadd.trans hput, hwf, hhas, ?_⟩
  rw [← hs', load_set_some hat.le, hempty]
  simp

/-- Entering all entries into a larger table keeps them. -/
theorem readd_spec (hw : WF mask home s) (hs : Sized mask' home') {n : Nat} (hn : n ≤ mask + 1)
    (hroom : load mask s ≤ mask') :
    ∃ t, readd s mask' home' n = some t ∧ WF mask' home' t ∧
      (∀ k v, Has mask' t k v ↔ ∃ i < n, s i = some (k, v)) ∧ load mask' t = occ s n := by
  induction n with
  | zero =>
    refine ⟨empty, rfl, .empty, fun k v => ?_, ?_⟩
    · simp [Has, empty]
    · rw [load_empty]
      simp [occ]
  | succ n ih =>
    obtain ⟨t, ht, hwt, hhas, hload⟩ := ih (by omega)
    have hocc := occ_succ s n
    have hmono : occ s (n + 1) ≤ load mask s := occ_mono hn
    cases hsn : s n with
    | none =>
      simp only [hsn, Option.isSome_none, Bool.false_eq_true, if_false] at hocc
      refine ⟨t, by simp [readd, ht, hsn], hwt, fun k v => ?_, by omega⟩
      rw [hhas, Nat.exists_lt_succ_right, hsn, or_iff_left nofun]
    | some e =>
      simp only [hsn, Option.isSome_some, if_true] at hocc
      have hnew : ∀ v, ¬ Has mask' t e.1 v := by
        intro v hv
        obtain ⟨i, hi, hsi⟩ := (hhas _ _).1 hv
        exact absurd (hw.uniq (by omega) (by omega) hsi hsn) (by omega)
      obtain ⟨t', ht', hwt', hhas', hload'⟩ :=
        add_spec hwt hs (exists_empty (by omega)) hnew e.2
      refine ⟨t', by simp [readd, ht, hsn, ht'], hwt', fun k v => ?_, by omega⟩
      rw [hhas', hhas, below_succ hw (by omega) hsn]

end

end ArenaJs.Probe
