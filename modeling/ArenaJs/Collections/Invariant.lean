import ArenaJs.Collections.Ordered
import Mathlib.Data.List.Nodup

/-!
# The records of a collection and its cursors

`MapInv` ties the three parts together: the list of records is in the order they were made and holds
the live ones and those a cursor is at; a record counts one reference for being live and one for
each cursor; and the hash table holds exactly the live records, each in the bucket of its key. The
lemmas say what adding, deleting, locking and unlocking a record does to it, and what `resize` does
to the table.
-/

namespace ArenaJs.Collections

open Function (update update_of_ne update_self)

variable {α : Type} {ops : KeyOps α} {good : α → Prop}

/-- On the keys in `good` comparison is symmetric and transitive, and hashing respects it. -/
structure KeyOps.Lawful (ops : KeyOps α) (good : α → Prop) : Prop where
  symm : ∀ {a b}, good a → good b → ops.same a b → ops.same b a
  trans : ∀ {a b c}, good a → good b → good c → ops.same a b → ops.same b c → ops.same a c
  hash : ∀ {a b}, good a → good b → ops.same a b → ops.hash a = ops.hash b

/-- The records that are not empty. -/
def JSMapState.live (s : JSMapState α) : List Nat := s.records.filter fun mr => !(s.mem mr).empty

/-- The number of cursors at a record. -/
def locks (cs : List Cursor) (mr : Nat) : Nat := cs.countP fun c => c.curRecord == some mr

/-- The list of records and the cursors in it. -/
structure Listed (s : JSMapState α) (cs : List Cursor) : Prop where
  sorted : s.records.Pairwise (· < ·)
  lt : ∀ mr ∈ s.records, mr < s.fresh
  refs : ∀ mr ∈ s.records,
    (s.mem mr).refCount = (if (s.mem mr).empty then 0 else 1) + locks cs mr
  held : ∀ mr ∈ s.records, (s.mem mr).empty → 0 < locks cs mr
  locked : ∀ c ∈ cs, ∀ mr, c.curRecord = some mr → mr ∈ s.records
  idle : ∀ c ∈ cs, c.active = false → c.curRecord = none
  bound : cs.length < 2 ^ 31

/-- The hash table and the keys in it. -/
structure Tabled (ops : KeyOps α) (good : α → Prop) (s : JSMapState α) : Prop where
  mem : ∀ h mr, mr ∈ s.hashTable h ↔ mr ∈ s.live ∧ bucket ops s.hashSize (s.mem mr).key = h
  nodup : ∀ h, (s.hashTable h).Nodup
  good : ∀ mr ∈ s.live, good (s.mem mr).key
  distinct : ∀ a ∈ s.live, ∀ b ∈ s.live, ops.same (s.mem a).key (s.mem b).key → a = b
  size : ∃ b ≤ 30, s.hashSize = 2 ^ b
  threshold : s.recordCountThreshold = if s.hashSize = 1 then 4 else s.hashSize * 2

/-- The states of a collection with cursors. -/
structure MapInv (ops : KeyOps α) (good : α → Prop) (s : JSMapState α) (cs : List Cursor) :
    Prop where
  listed : Listed s cs
  tabled : Tabled ops good s
  count : s.recordCount = s.live.length
  countLt : s.recordCount < 2 ^ 31

section
variable {s s' : JSMapState α} {cs : List Cursor} {mr : Nat} {key : α}

theorem JSMapState.mem_live : mr ∈ s.live ↔ mr ∈ s.records ∧ (s.mem mr).empty = false := by
  simp [JSMapState.live]

theorem mapInv_new (isSet : Bool) : MapInv ops good (mapConstructor ops isSet) [] := by
  have hlive : (mapConstructor ops isSet).live = [] := rfl
  refine ⟨⟨.nil, nofun, nofun, nofun, nofun, nofun, by decide⟩, ⟨fun h mr => ?_, fun _ => .nil, ?_,
    ?_, ⟨0, by decide, rfl⟩, rfl⟩, rfl, Nat.two_pow_pos 31⟩
  · rw [hlive]
    simp [mapConstructor]
  · simp [hlive]
  · simp [hlive]

/-! ## Lookups -/

section
variable (hk : ops.Lawful good) (h : Tabled ops good s) (hkey : good key)
include hk h hkey

/-- `map_find_record` finds the live record with the key. -/
theorem mapFindRecord_eq :
    mapFindRecord ops s key = s.live.find? fun mr => ops.same (s.mem mr).key key := by
  unfold mapFindRecord
  cases hl : s.live.find? fun mr => ops.same (s.mem mr).key key with
  | none =>
    rw [List.find?_eq_none] at hl ⊢
    exact fun mr hmr => hl mr ((h.mem _ mr).1 hmr).1
  | some a =>
    have ha : a ∈ s.live := List.mem_of_find?_eq_some hl
    have hsame : ops.same (s.mem a).key key := by simpa using List.find?_some hl
    have hin : a ∈ s.hashTable (bucket ops s.hashSize key) := by
      refine (h.mem _ a).2 ⟨ha, ?_⟩
      rw [bucket, bucket, hk.hash (h.good a ha) hkey hsame]
    -- the bucket has no other record with the key
    obtain ⟨b, hb⟩ : ∃ b, (s.hashTable (bucket ops s.hashSize key)).find?
        (fun mr => ops.same (s.mem mr).key key) = some b :=
      Option.isSome_iff_exists.1 (List.find?_isSome.2 ⟨a, hin, hsame⟩)
    have hbl := ((h.mem _ b).1 (List.mem_of_find?_eq_some hb)).1
    have hbs : ops.same (s.mem b).key key := by simpa using List.find?_some hb
    have hab := hk.trans (h.good b hbl) hkey (h.good a ha) hbs
      (hk.symm (h.good a ha) hkey hsame)
    rw [hb, h.distinct b hbl a ha hab]

theorem mapFindRecord_some
    (hf : mapFindRecord ops s key = some mr) : mr ∈ s.live ∧ ops.same (s.mem mr).key key := by
  rw [mapFindRecord_eq hk h hkey] at hf
  exact ⟨List.mem_of_find?_eq_some hf, by simpa using List.find?_some hf⟩

theorem mapFindRecord_none
    (hf : mapFindRecord ops s key = none) : ∀ mr ∈ s.live, ¬ ops.same (s.mem mr).key key := by
  rw [mapFindRecord_eq hk h hkey, List.find?_eq_none] at hf
  exact hf

end

/-! ## Adding -/

theorem mem_addTail {t : Nat → List Nat} {h h' x : Nat} :
    x ∈ addTail t h mr h' ↔ x ∈ t h' ∨ (h' = h ∧ x = mr) := by
  unfold addTail
  by_cases he : h' = h
  · subst he
    simp
  · simp [he]

theorem nodup_addTail {t : Nat → List Nat} {h : Nat} (ht : ∀ h, (t h).Nodup)
    (hmr : mr ∉ t h) (h' : Nat) : (addTail t h mr h').Nodup := by
  unfold addTail
  by_cases he : h' = h
  · subst he
    rw [update_self]
    exact List.nodup_append.2 ⟨ht h', List.nodup_singleton mr, by
      rintro a ha b hb rfl
      rw [List.mem_singleton] at hb
      exact hmr (hb ▸ ha)⟩
  · rw [update_of_ne he]
    exact ht h'

/-- The buckets `map_hash_resize` fills. -/
theorem resize_buckets (s : JSMapState α) (size : Nat) {l : List Nat} (hl : l.Nodup)
    {t : Nat → List Nat} (ht : ∀ h, (t h).Nodup) (hdisj : ∀ mr ∈ l, ∀ h, mr ∉ t h) :
    let t' := l.foldl (fun t mr =>
      if (s.mem mr).empty then t else addTail t (bucket ops size (s.mem mr).key) mr) t
    (∀ h mr, mr ∈ t' h ↔ mr ∈ t h ∨
      (mr ∈ l ∧ (s.mem mr).empty = false ∧ bucket ops size (s.mem mr).key = h)) ∧
    ∀ h, (t' h).Nodup := by
  induction l generalizing t with
  | nil => simpa using ht
  | cons a l ih =>
    rw [List.nodup_cons] at hl
    rw [List.foldl_cons]
    cases ha : (s.mem a).empty with
    | true =>
      simp only [if_true]
      obtain ⟨hmem, hnd⟩ := ih hl.2 ht fun mr hmr => hdisj mr (List.mem_cons_of_mem a hmr)
      refine ⟨fun h mr => (hmem h mr).trans (or_congr_right ?_), hnd⟩
      rw [List.mem_cons]
      constructor
      · exact fun ⟨h₁, h2⟩ => ⟨.inr h₁, h2⟩
      · rintro ⟨rfl | h₁, h2⟩
        · rw [ha] at h2
          cases h2.1
        · exact ⟨h₁, h2⟩
    | false =>
      simp only [Bool.false_eq_true, if_false]
      have hfresh := hdisj a List.mem_cons_self
      obtain ⟨hmem, hnd⟩ := ih hl.2 (t := addTail t (bucket ops size (s.mem a).key) a)
        (nodup_addTail ht (hfresh _)) fun mr hmr h hin => by
          rcases mem_addTail.1 hin with hin | ⟨_, rfl⟩
          · exact hdisj mr (List.mem_cons_of_mem a hmr) h hin
          · exact hl.1 hmr
      refine ⟨fun h mr => ?_, hnd⟩
      rw [hmem, mem_addTail, List.mem_cons]
      constructor
      · rintro ((h₁ | ⟨rfl, rfl⟩) | ⟨h₁, h2⟩)
        · exact .inl h₁
        · exact .inr ⟨.inl rfl, ha, rfl⟩
        · exact .inr ⟨.inr h₁, h2⟩
      · rintro (h₁ | ⟨rfl | h₁, h2, h3⟩)
        · exact .inl (.inl h₁)
        · exact .inl (.inr ⟨h3.symm, rfl⟩)
        · exact .inr ⟨h₁, h2, h3⟩

/-- `map_hash_resize` keeps the entries. -/
theorem Tabled.resize (h : Tabled ops good s) (hl : s.records.Nodup) (hsize : s.hashSize ≤ 2 ^ 29) :
    Tabled ops good (mapHashResize ops s) := by
  obtain ⟨b, hb, hpow⟩ := h.size
  -- the new size
  obtain ⟨c, hc, hc', hnew⟩ : ∃ c ≤ 30, 1 ≤ c ∧
      (if s.hashSize = 1 then 4 else s.hashSize * 2 % 2 ^ 32) = 2 ^ c := by
    by_cases h1 : s.hashSize = 1
    · exact ⟨2, by decide, by decide, if_pos h1⟩
    · have hb29 : b ≤ 29 := by
        rw [hpow] at hsize
        exact (Nat.pow_le_pow_iff_right (by decide)).1 hsize
      refine ⟨b + 1, by omega, by omega, ?_⟩
      rw [if_neg h1, Nat.mod_eq_of_lt (by omega), hpow, Nat.pow_succ]
  have hgt : 2 ^ 1 ≤ 2 ^ c := Nat.pow_le_pow_right (by decide) hc'
  have hle : (2 : Nat) ^ c ≤ 2 ^ 30 := Nat.pow_le_pow_right (by decide) hc
  obtain ⟨hmem, hnd⟩ := @resize_buckets _ ops s (2 ^ c) _ hl (fun _ => [])
    (fun _ => .nil) fun _ _ _ => List.not_mem_nil
  have hres : mapHashResize ops s = { s with
      hashTable := s.records.foldl (fun t mr =>
        if (s.mem mr).empty then t else addTail t (bucket ops (2 ^ c) (s.mem mr).key) mr)
          fun _ => []
      hashSize := 2 ^ c
      recordCountThreshold := 2 ^ c * 2 % 2 ^ 32 } := by
    rw [mapHashResize, hnew]
  rw [hres]
  refine ⟨fun h mr => ?_, hnd, h.good, h.distinct, ⟨c, hc, rfl⟩, ?_⟩
  · refine (hmem h mr).trans ?_
    rw [JSMapState.mem_live]
    simp [and_assoc]
  · show 2 ^ c * 2 % 2 ^ 32 = if 2 ^ c = 1 then 4 else 2 ^ c * 2
    rw [if_neg (by omega), Nat.mod_eq_of_lt (by omega)]

theorem Listed.nodup (h : Listed s cs) : s.records.Nodup := h.sorted.imp Nat.ne_of_lt

theorem Listed.fresh_notMem (h : Listed s cs) : s.fresh ∉ s.records :=
  fun hm => Nat.lt_irrefl _ (h.lt _ hm)

theorem Listed.locks_eq_zero (h : Listed s cs) (hmr : mr ∉ s.records) : locks cs mr = 0 := by
  rw [locks, List.countP_eq_zero]
  intro c hc hcur
  exact hmr (h.locked c hc mr (by simpa using hcur))

/-- The collection with one more record, before the table grows. -/
def JSMapState.added (ops : KeyOps α) (s : JSMapState α) (key value : α) : JSMapState α :=
  { s with
    mem := update s.mem s.fresh ⟨1, false, key, value⟩
    fresh := s.fresh + 1
    hashTable := addTail s.hashTable (bucket ops s.hashSize key) s.fresh
    records := s.records ++ [s.fresh]
    recordCount := (s.recordCount + 1) % 2 ^ 32 }

section
variable {value : α}

theorem added_mem (hmr : mr ∈ s.records) (h : Listed s cs) :
    (s.added ops key value).mem mr = s.mem mr := by
  have hne : mr ≠ s.fresh := fun e => h.fresh_notMem (e ▸ hmr)
  exact update_of_ne hne _ _

theorem added_mem_fresh : (s.added ops key value).mem s.fresh = ⟨1, false, key, value⟩ :=
  update_self _ _ _

theorem Listed.live_added (h : Listed s cs) :
    (s.added ops key value).live = s.live ++ [s.fresh] := by
  have hold : s.records.filter (fun mr => !((s.added ops key value).mem mr).empty) = s.live :=
    List.filter_congr fun mr hmr => by rw [added_mem hmr h]
  show (s.records ++ [s.fresh]).filter _ = _
  rw [List.filter_append, hold, List.filter_cons_of_pos (by rw [added_mem_fresh]; rfl),
    List.filter_nil]

theorem Listed.added (h : Listed s cs) : Listed (s.added ops key value) cs where
  sorted := List.pairwise_append.2 ⟨h.sorted, List.pairwise_singleton _ _, by
    intro a ha b hb
    rw [List.mem_singleton.1 hb]
    exact h.lt a ha⟩
  lt mr hmr := by
    rcases List.mem_append.1 hmr with hmr | hmr
    · exact Nat.lt_succ_of_lt (h.lt mr hmr)
    · rw [List.mem_singleton.1 hmr]
      exact Nat.lt_succ_self _
  refs mr hmr := by
    rcases List.mem_append.1 hmr with hmr | hmr
    · rw [added_mem hmr h]
      exact h.refs mr hmr
    · rw [List.mem_singleton.1 hmr, added_mem_fresh, h.locks_eq_zero h.fresh_notMem]
      rfl
  held mr hmr he := by
    rcases List.mem_append.1 hmr with hmr | hmr
    · rw [added_mem hmr h] at he
      exact h.held mr hmr he
    · rw [List.mem_singleton.1 hmr, added_mem_fresh] at he
      cases he
  locked c hc mr hcur := List.mem_append_left _ (h.locked c hc mr hcur)
  idle := h.idle
  bound := h.bound

theorem Tabled.added (hk : ops.Lawful good) (h : Tabled ops good s) (hl : Listed s cs)
    (hkey : good key) (hnew : ∀ mr ∈ s.live, ¬ ops.same (s.mem mr).key key) :
    Tabled ops good (s.added ops key value) := by
  have hrec : ∀ mr ∈ s.live, mr ∈ s.records := fun mr hmr => (JSMapState.mem_live.1 hmr).1
  have hold : ∀ mr ∈ s.live, (s.added ops key value).mem mr = s.mem mr := fun mr hmr =>
    added_mem (hrec mr hmr) hl
  have hfresh : ∀ h', s.fresh ∉ s.hashTable h' := fun h' hm =>
    hl.fresh_notMem (hrec _ ((h.mem h' _).1 hm).1)
  have hmem : ∀ x, x ∈ (s.added ops key value).live ↔ x ∈ s.live ∨ x = s.fresh := by
    intro x
    rw [hl.live_added, List.mem_append, List.mem_singleton]
  refine ⟨fun h' x => ?_, nodup_addTail h.nodup (hfresh _), fun x hx => ?_, fun x hx y hy hxy => ?_,
    h.size, h.threshold⟩
  · rw [hmem]
    refine mem_addTail.trans ?_
    rw [h.mem]
    constructor
    · rintro (⟨hx, hb⟩ | ⟨rfl, rfl⟩)
      · exact ⟨.inl hx, by rw [hold x hx]; exact hb⟩
      · exact ⟨.inr rfl, by rw [added_mem_fresh]; rfl⟩
    · rintro ⟨hx | rfl, hb⟩
      · exact .inl ⟨hx, by rw [hold x hx] at hb; exact hb⟩
      · rw [added_mem_fresh] at hb
        exact .inr ⟨hb.symm, rfl⟩
  · rcases (hmem x).1 hx with hx | rfl
    · rw [hold x hx]
      exact h.good x hx
    · rw [added_mem_fresh]
      exact hkey
  · rcases (hmem x).1 hx with hx | rfl <;> rcases (hmem y).1 hy with hy | rfl
    · rw [hold x hx, hold y hy] at hxy
      exact h.distinct x hx y hy hxy
    · rw [hold x hx, added_mem_fresh] at hxy
      exact absurd hxy (hnew x hx)
    · rw [hold y hy, added_mem_fresh] at hxy
      exact absurd (hk.symm hkey (h.good y hy) hxy) (hnew y hy)
    · rfl

/-- What `map_add_record` does, apart from the table. -/
structure Adds (s : JSMapState α) (key value : α) (s' : JSMapState α) : Prop where
  isSet : s'.isSet = s.isSet
  mem : s'.mem = update s.mem s.fresh ⟨1, false, key, value⟩
  fresh : s'.fresh = s.fresh + 1
  records : s'.records = s.records ++ [s.fresh]
  live : s'.live = s.live ++ [s.fresh]

/-- `map_add_record` of a new key. -/
theorem MapInv.add (hk : ops.Lawful good) (h : MapInv ops good s cs) (hkey : good key)
    (hnew : ∀ mr ∈ s.live, ¬ ops.same (s.mem mr).key key) (hfit : s.recordCount + 1 < 2 ^ 31) :
    MapInv ops good (mapAddRecord ops s key value) cs ∧
      Adds s key value (mapAddRecord ops s key value) := by
  have hlist : Listed (s.added ops key value) cs := h.listed.added
  have htab : Tabled ops good (s.added ops key value) := h.tabled.added hk h.listed hkey hnew
  have hcount : (s.added ops key value).recordCount = s.recordCount + 1 :=
    Nat.mod_eq_of_lt (by omega)
  have hlive : (s.added ops key value).live = s.live ++ [s.fresh] := h.listed.live_added
  have hcountLt : (s.added ops key value).recordCount < 2 ^ 31 := by rwa [hcount]
  have hlen : s.recordCount + 1 = (s.added ops key value).live.length := by
    rw [hlive, List.length_append, h.count]
    rfl
  have hdef : mapAddRecord ops s key value =
      if (s.added ops key value).recordCount ≥ (s.added ops key value).recordCountThreshold then
        mapHashResize ops (s.added ops key value)
      else s.added ops key value := rfl
  rw [hdef]
  split
  · rename_i hge
    have hsize : (s.added ops key value).hashSize ≤ 2 ^ 29 := by
      obtain ⟨b, hb, hpow⟩ := htab.size
      rw [hcount, htab.threshold] at hge
      rw [hpow] at hge ⊢
      refine Nat.pow_le_pow_right (by decide) ?_
      by_contra hgt
      have hb30 : b = 30 := by omega
      subst hb30
      rw [if_neg (by decide)] at hge
      omega
    exact ⟨⟨⟨hlist.sorted, hlist.lt, hlist.refs, hlist.held, hlist.locked, hlist.idle, hlist.bound⟩,
      htab.resize hlist.nodup hsize, hcount.trans hlen, hcountLt⟩, rfl, rfl, rfl, rfl, hlive⟩
  · exact ⟨⟨hlist, htab, hcount.trans hlen, hcountLt⟩, rfl, rfl, rfl, rfl, hlive⟩

end

/-! ## Deleting -/

theorem decr_of_pos {n : Nat} (h : 0 < n) : decr n = n - 1 := if_neg (Nat.ne_of_gt h)

theorem Listed.locks_lt (h : Listed s cs) (mr : Nat) : locks cs mr < 2 ^ 31 :=
  Nat.lt_of_le_of_lt List.countP_le_length h.bound

theorem Listed.mem_of_locks (h : Listed s cs) (hmr : 0 < locks cs mr) : mr ∈ s.records := by
  by_contra hnot
  exact Nat.ne_of_gt hmr (h.locks_eq_zero hnot)

/-- What `map_delete_record` does, apart from the table and the locks. -/
structure Deletes (s : JSMapState α) (mr : Nat) (s' : JSMapState α) : Prop where
  isSet : s'.isSet = s.isSet
  fresh : s'.fresh = s.fresh
  mem : ∀ x, x ≠ mr → s'.mem x = s.mem x
  records : ∀ x, x ≠ mr → (x ∈ s'.records ↔ x ∈ s.records)
  live : s'.live = s.live.filter (· ≠ mr)

/-- A record that no cursor is at leaves the list. -/
theorem Listed.erase (h : Listed s cs) (hz : locks cs mr = 0) :
    Listed { s with records := s.records.erase mr } cs ∧
      Deletes s mr { s with records := s.records.erase mr } := by
  have herase : s.records.erase mr = s.records.filter (fun x => decide (x ≠ mr)) := by
    rw [h.nodup.erase_eq_filter]
    exact List.filter_congr fun x _ => by simp [bne, Bool.beq_eq_decide_eq]
  have hsub : ∀ x ∈ s.records.erase mr, x ∈ s.records := fun x hx => List.mem_of_mem_erase hx
  refine ⟨⟨h.sorted.sublist List.erase_sublist, fun x hx => h.lt x (hsub x hx),
    fun x hx => h.refs x (hsub x hx), fun x hx => h.held x (hsub x hx), fun c hc x hcur => ?_,
    h.idle, h.bound⟩, rfl, rfl, fun _ _ => rfl, fun x hx => List.mem_erase_of_ne hx, ?_⟩
  · refine (List.mem_erase_of_ne ?_).2 (h.locked c hc x hcur)
    rintro rfl
    rw [locks, List.countP_eq_zero] at hz
    exact hz c hc (by simpa using hcur)
  · simp only [JSMapState.live, herase, List.filter_filter, Bool.and_comm]

/-- A record that a cursor is at stays in the list, empty. -/
theorem Listed.bury (h : Listed s cs) (hz : locks cs mr ≠ 0) (key value : α) :
    Listed (s.setRec mr ⟨locks cs mr, true, key, value⟩) cs ∧
      Deletes s mr (s.setRec mr ⟨locks cs mr, true, key, value⟩) := by
  have hmem : ∀ x, x ≠ mr → (s.setRec mr ⟨locks cs mr, true, key, value⟩).mem x = s.mem x :=
    fun x hx => update_of_ne hx _ _
  have hself : (s.setRec mr ⟨locks cs mr, true, key, value⟩).mem mr =
      ⟨locks cs mr, true, key, value⟩ := update_self _ _ _
  refine ⟨⟨h.sorted, h.lt, fun x hx => ?_, fun x hx hx' => ?_, h.locked, h.idle, h.bound⟩, rfl,
    rfl, hmem, fun _ _ => Iff.rfl, ?_⟩
  · by_cases hxm : x = mr
    · subst hxm
      rw [hself]
      simp
    · rw [hmem x hxm]
      exact h.refs x hx
  · by_cases hxm : x = mr
    · subst hxm
      exact Nat.pos_of_ne_zero hz
    · rw [hmem x hxm] at hx'
      exact h.held x hx hx'
  · show s.records.filter (fun x => !((s.setRec mr _).mem x).empty) = (s.records.filter _).filter _
    rw [List.filter_filter]
    refine List.filter_congr fun x _ => ?_
    by_cases hxm : x = mr
    · subst hxm
      rw [hself]
      simp
    · rw [hmem x hxm]
      simp [hxm]

/-- The collection with a record taken out of its bucket and no longer counted. -/
def JSMapState.unlinked (s : JSMapState α) (mr : Nat) : JSMapState α :=
  { s with
    hashTable := fun h => (s.hashTable h).erase mr
    recordCount := decr s.recordCount }

theorem Listed.unlinked (h : Listed s cs) : Listed (s.unlinked mr) cs :=
  { h with }

theorem Listed.delete (h : Listed s cs) (hmr : mr ∈ s.live) :
    Listed (dropRecord ops (unhash s mr) mr) cs ∧ Deletes s mr
      (dropRecord ops (unhash s mr) mr) := by
  obtain ⟨hin, he⟩ := JSMapState.mem_live.1 hmr
  have href : (s.mem mr).refCount = 1 + locks cs mr := by
    rw [h.refs mr hin, he]
    rfl
  have hdecr : decr (s.mem mr).refCount = locks cs mr := by
    rw [href, decr_of_pos (by omega), Nat.add_sub_cancel_left]
  have hdef : dropRecord ops (unhash s mr) mr =
      if locks cs mr = 0 then { s.unlinked mr with records := (s.unlinked mr).records.erase mr }
      else (s.unlinked mr).setRec mr ⟨locks cs mr, true, ops.undefined, ops.undefined⟩ := by
    simp only [dropRecord, unhash, hdecr]
    rfl
  have h₁ : Listed (s.unlinked mr) cs := h.unlinked
  rw [hdef]
  split
  · rename_i hz
    obtain ⟨hl, hd⟩ := h₁.erase hz
    exact ⟨hl, { hd with }⟩
  · rename_i hz
    obtain ⟨hl, hd⟩ := h₁.bury hz ops.undefined ops.undefined
    exact ⟨hl, { hd with }⟩

theorem Deletes.mem_live (hd : Deletes s mr s') {x : Nat} :
    x ∈ s'.live ↔ x ∈ s.live ∧ x ≠ mr := by
  rw [hd.live]
  simp

theorem dropRecord_table :
    (dropRecord ops (unhash s mr) mr).hashTable = (fun h => (s.hashTable h).erase mr) ∧
      (dropRecord ops (unhash s mr) mr).hashSize = s.hashSize ∧
      (dropRecord ops (unhash s mr) mr).recordCountThreshold = s.recordCountThreshold ∧
      (dropRecord ops (unhash s mr) mr).recordCount = decr s.recordCount := by
  simp only [dropRecord]
  split <;> exact ⟨rfl, rfl, rfl, rfl⟩

/-- `map_delete_record` of a live record. -/
theorem MapInv.delete (h : MapInv ops good s cs) (hmr : mr ∈ s.live) :
    MapInv ops good (dropRecord ops (unhash s mr) mr) cs ∧
      Deletes s mr (dropRecord ops (unhash s mr) mr) := by
  obtain ⟨hlist, hd⟩ := @Listed.delete _ ops _ _ _ h.listed hmr
  obtain ⟨htab, hsize, hthr, hcount⟩ := @dropRecord_table _ ops s mr
  have hlen : (dropRecord ops (unhash s mr) mr).live.length = s.live.length - 1 := by
    have hnd : s.live.Nodup := h.listed.nodup.filter _
    rw [hd.live, ← List.length_erase_of_mem hmr, hnd.erase_eq_filter]
    exact congrArg List.length (List.filter_congr fun x _ => by simp [bne, Bool.beq_eq_decide_eq])
  have hpos : 0 < s.recordCount := by
    rw [h.count]
    exact List.length_pos_of_mem hmr
  refine ⟨⟨hlist, ⟨fun h' x => ?_, fun h' => ?_, fun x hx => ?_, fun x hx y hy hxy => ?_, ?_, ?_⟩,
    ?_, ?_⟩, hd⟩
  · rw [htab, hsize, hd.mem_live, (h.tabled.nodup h').mem_erase_iff, h.tabled.mem]
    constructor
    · rintro ⟨hne, hx, hb⟩
      exact ⟨⟨hx, hne⟩, by rw [hd.mem x hne]; exact hb⟩
    · rintro ⟨⟨hx, hne⟩, hb⟩
      rw [hd.mem x hne] at hb
      exact ⟨hne, hx, hb⟩
  · rw [htab]
    exact (h.tabled.nodup h').erase mr
  · obtain ⟨hx, hne⟩ := hd.mem_live.1 hx
    rw [hd.mem x hne]
    exact h.tabled.good x hx
  · obtain ⟨hx, hxm⟩ := hd.mem_live.1 hx
    obtain ⟨hy, hym⟩ := hd.mem_live.1 hy
    rw [hd.mem x hxm, hd.mem y hym] at hxy
    exact h.tabled.distinct x hx y hy hxy
  · rw [hsize]
    exact h.tabled.size
  · rw [hsize, hthr]
    exact h.tabled.threshold
  · rw [hcount, decr_of_pos hpos, hlen, h.count]
  · have := h.countLt
    rw [hcount, decr_of_pos hpos]
    omega

/-! ## Values and locks -/

/-- The two collections have the same entries, and the second has no record that the first has
not. -/
structure Alike (s s' : JSMapState α) : Prop where
  isSet : s'.isSet = s.isSet
  fresh : s'.fresh = s.fresh
  live : s'.live = s.live
  empty : ∀ x, (s'.mem x).empty = (s.mem x).empty
  key : ∀ x, (s'.mem x).key = (s.mem x).key
  value : ∀ x, (s'.mem x).value = (s.mem x).value
  records : ∀ x ∈ s'.records, x ∈ s.records

theorem Alike.refl (s : JSMapState α) : Alike s s :=
  ⟨rfl, rfl, rfl, fun _ => rfl, fun _ => rfl, fun _ => rfl, fun _ => id⟩

theorem Alike.trans {t : JSMapState α} (h1 : Alike s s') (h2 : Alike s' t) : Alike s t :=
  ⟨h2.isSet.trans h1.isSet, h2.fresh.trans h1.fresh, h2.live.trans h1.live,
    fun x => (h2.empty x).trans (h1.empty x), fun x => (h2.key x).trans (h1.key x),
    fun x => (h2.value x).trans (h1.value x), fun x hx => h1.records x (h2.records x hx)⟩

/-- The table is about the keys of the live records only. -/
theorem Tabled.congr (h : Tabled ops good s) (hlive : s'.live = s.live)
    (hkey : ∀ x, (s'.mem x).key = (s.mem x).key) (htab : s'.hashTable = s.hashTable)
    (hsize : s'.hashSize = s.hashSize)
    (hthr : s'.recordCountThreshold = s.recordCountThreshold) : Tabled ops good s' where
  mem h' x := by
    rw [htab, hsize, hlive, hkey]
    exact h.mem h' x
  nodup := by
    rw [htab]
    exact h.nodup
  good := by
    simp only [hlive, hkey]
    exact h.good
  distinct := by
    simp only [hlive, hkey]
    exact h.distinct
  size := by
    rw [hsize]
    exact h.size
  threshold := by
    rw [hsize, hthr]
    exact h.threshold

theorem live_setRec {r : JSMapRecord α} (hr : r.empty = (s.mem mr).empty) :
    (s.setRec mr r).live = s.live := by
  refine List.filter_congr fun x _ => ?_
  by_cases hx : x = mr
  · subst hx
    simp [JSMapState.setRec, hr]
  · simp [JSMapState.setRec, hx]

theorem key_setRec {r : JSMapRecord α} (hr : r.key = (s.mem mr).key) (x : Nat) :
    ((s.setRec mr r).mem x).key = (s.mem x).key := by
  by_cases hx : x = mr
  · subst hx
    simp [JSMapState.setRec, hr]
  · simp [JSMapState.setRec, hx]

/-- A record gets another reference count. -/
theorem alike_setRec (s : JSMapState α) (mr n : Nat) :
    Alike s (s.setRec mr { s.mem mr with refCount := n }) := by
  refine ⟨rfl, rfl, live_setRec rfl, fun x => ?_, key_setRec rfl, fun x => ?_, fun _ => id⟩ <;>
    by_cases hx : x = mr
  · subst hx
    simp [JSMapState.setRec]
  · simp [JSMapState.setRec, hx]
  · subst hx
    simp [JSMapState.setRec]
  · simp [JSMapState.setRec, hx]

/-- A live record gets another value. -/
theorem MapInv.setValue (h : MapInv ops good s cs) (mr : Nat) (value : α) :
    MapInv ops good (s.setRec mr { s.mem mr with value := value }) cs := by
  have hlive : (s.setRec mr { s.mem mr with value := value }).live = s.live := live_setRec rfl
  have hrec : ∀ x, ((s.setRec mr { s.mem mr with value := value }).mem x).empty = (s.mem x).empty ∧
      ((s.setRec mr { s.mem mr with value := value }).mem x).refCount = (s.mem x).refCount := by
    intro x
    by_cases hx : x = mr
    · subst hx
      simp [JSMapState.setRec]
    · simp [JSMapState.setRec, hx]
  refine ⟨⟨h.listed.sorted, h.listed.lt, fun x hx => ?_, fun x hx he => ?_, h.listed.locked,
    h.listed.idle, h.listed.bound⟩, h.tabled.congr hlive (key_setRec rfl) rfl rfl rfl, ?_,
    h.countLt⟩
  · rw [(hrec x).1, (hrec x).2]
    exact h.listed.refs x hx
  · rw [(hrec x).1] at he
    exact h.listed.held x hx he
  · rw [hlive]
    exact h.count

/-- The cursors with one more of them at a record. -/
def Gains (cs cs' : List Cursor) (mr : Nat) : Prop :=
  ∀ x, locks cs' x = locks cs x + if x = mr then 1 else 0

/-- A cursor that has ended is at no record. -/
def Idle (cs : List Cursor) : Prop := ∀ c ∈ cs, c.active = false → c.curRecord = none

theorem mem_of_curRecord {c : Cursor} (hc : c ∈ cs) (hcur : c.curRecord = some mr) :
    0 < locks cs mr :=
  List.countP_pos_iff.2 ⟨c, hc, by simp [hcur]⟩

/-- Cursors that move without a lock. -/
theorem MapInv.cursors {cs' : List Cursor} (h : MapInv ops good s cs)
    (hsame : ∀ x, locks cs' x = locks cs x) (hidle : Idle cs') (hbound : cs'.length < 2 ^ 31) :
    MapInv ops good s cs' := by
  refine ⟨⟨h.listed.sorted, h.listed.lt, fun x hx => ?_, fun x hx he => ?_, fun c hc x hcur => ?_,
    hidle, hbound⟩, h.tabled, h.count, h.countLt⟩
  · rw [hsame]
    exact h.listed.refs x hx
  · rw [hsame]
    exact h.listed.held x hx he
  · have hpos := mem_of_curRecord hc hcur
    rw [hsame] at hpos
    exact h.listed.mem_of_locks hpos

/-- A cursor comes to a record. -/
theorem MapInv.lock {cs' : List Cursor} (h : MapInv ops good s cs) (hmr : mr ∈ s.records)
    (hgain : Gains cs cs' mr) (hidle : Idle cs') (hbound : cs'.length < 2 ^ 31) :
    MapInv ops good (mapLockRecord s mr) cs' := by
  have hal : Alike s (mapLockRecord s mr) := alike_setRec s mr _
  have hrefs : ∀ x ∈ s.records, ((mapLockRecord s mr).mem x).refCount =
      (s.mem x).refCount + if x = mr then 1 else 0 := by
    intro x hx
    by_cases hxm : x = mr
    · subst hxm
      have hlt := h.listed.locks_lt x
      have href := h.listed.refs x hx
      have hle : (if (s.mem x).empty then 0 else 1) ≤ 1 := by split <;> decide
      have hbig : (s.mem x).refCount + 1 < 2 ^ 32 := by omega
      simp only [mapLockRecord, JSMapState.setRec, update_self, if_true]
      exact Nat.mod_eq_of_lt hbig
    · simp [mapLockRecord, JSMapState.setRec, hxm]
  refine ⟨⟨h.listed.sorted, h.listed.lt, fun x hx => ?_, fun x hx he => ?_, fun c hc x hcur => ?_,
    hidle, hbound⟩, h.tabled.congr hal.live hal.key rfl rfl rfl, ?_, h.countLt⟩
  · rw [hrefs x hx, hal.empty, hgain, h.listed.refs x hx, Nat.add_assoc]
  · rw [hal.empty] at he
    rw [hgain]
    exact Nat.lt_of_lt_of_le (h.listed.held x hx he) (Nat.le_add_right _ _)
  · by_cases hxm : x = mr
    · exact hxm ▸ hmr
    · have hpos := mem_of_curRecord hc hcur
      rw [hgain, if_neg hxm] at hpos
      exact h.listed.mem_of_locks hpos
  · rw [hal.live]
    exact h.count

/-- A cursor leaves a record, which goes if it was empty and no other cursor is at it. -/
theorem MapInv.unlock {cs' : List Cursor} (h : MapInv ops good s cs) (hgain : Gains cs' cs mr)
    (hidle : Idle cs') (hbound : cs'.length < 2 ^ 31) :
    ∃ s', mapDecrefRecord s mr = some s' ∧ MapInv ops good s' cs' ∧ Alike s s' := by
  have hlocks : locks cs mr = locks cs' mr + 1 := by rw [hgain, if_pos rfl]
  have hmr : mr ∈ s.records := h.listed.mem_of_locks (by omega)
  have href := h.listed.refs mr hmr
  have hdecr : decr (s.mem mr).refCount = (if (s.mem mr).empty then 0 else 1) + locks cs' mr := by
    rw [decr_of_pos (by omega)]
    omega
  have hother : ∀ x, x ≠ mr → locks cs' x = locks cs x := fun x hx => by
    rw [hgain, if_neg hx, Nat.add_zero]
  simp only [mapDecrefRecord, hdecr]
  by_cases hz : (if (s.mem mr).empty then 0 else 1) + locks cs' mr = 0
  · have he : (s.mem mr).empty = true := by
      by_contra he
      rw [if_neg he] at hz
      omega
    rw [if_pos hz, if_pos he]
    have hz' : locks cs' mr = 0 := by omega
    have hsub : ∀ x ∈ s.records.erase mr, x ∈ s.records ∧ x ≠ mr := fun x hx =>
      (h.listed.nodup.mem_erase_iff.1 hx).symm
    have hlive : JSMapState.live { s with records := s.records.erase mr } = s.live := by
      rw [JSMapState.live, h.listed.nodup.erase_eq_filter, List.filter_filter]
      refine List.filter_congr fun x _ => ?_
      by_cases hxm : x = mr
      · subst hxm
        simp [he]
      · simp [hxm]
    refine ⟨_, rfl, ⟨⟨h.listed.sorted.sublist List.erase_sublist, fun x hx => ?_, fun x hx => ?_,
      fun x hx hxe => ?_, fun c hc x hcur => ?_, hidle, hbound⟩,
      h.tabled.congr hlive (fun _ => rfl) rfl rfl rfl, ?_, h.countLt⟩, rfl, rfl, hlive,
      fun _ => rfl, fun _ => rfl, fun _ => rfl, fun x hx => (hsub x hx).1⟩
    · exact h.listed.lt x (hsub x hx).1
    · rw [hother x (hsub x hx).2]
      exact h.listed.refs x (hsub x hx).1
    · rw [hother x (hsub x hx).2]
      exact h.listed.held x (hsub x hx).1 hxe
    · have hpos := mem_of_curRecord hc hcur
      have hxm : x ≠ mr := by
        rintro rfl
        omega
      rw [hother x hxm] at hpos
      exact (List.mem_erase_of_ne hxm).2 (h.listed.mem_of_locks hpos)
    · rw [hlive]
      exact h.count
  · rw [if_neg hz]
    have hal := alike_setRec s mr ((if (s.mem mr).empty then 0 else 1) + locks cs' mr)
    refine ⟨_, rfl, ⟨⟨h.listed.sorted, h.listed.lt, fun x hx => ?_, fun x hx he => ?_,
      fun c hc x hcur => ?_, hidle, hbound⟩, h.tabled.congr hal.live hal.key rfl rfl rfl, ?_,
      h.countLt⟩, hal⟩
    · rw [hal.empty]
      by_cases hxm : x = mr
      · subst hxm
        simp [JSMapState.setRec]
      · rw [hother x hxm, ← h.listed.refs x hx]
        simp [JSMapState.setRec, hxm]
    · rw [hal.empty] at he
      by_cases hxm : x = mr
      · subst hxm
        rw [if_pos he] at hz
        omega
      · rw [hother x hxm]
        exact h.listed.held x hx he
    · by_cases hxm : x = mr
      · exact hxm ▸ hmr
      · have hpos := mem_of_curRecord hc hcur
        rw [hother x hxm] at hpos
        exact h.listed.mem_of_locks hpos
    · rw [hal.live]
      exact h.count

end

end ArenaJs.Collections
