import Mathlib.Data.List.Sort
import Mathlib.Data.Finset.Card
import Mathlib.Tactic.Ring

/-!
# Insertion-ordered dictionaries and sorted pages

A dictionary is a list of entries with distinct keys, in the order in which the keys first arrived.
It is read by key (`get`), written by key (`set`, which keeps the place of a key it has) and cut by
key (`delete`). A page is the first `cap` selected keys in a given order, with their values.

Two dictionaries of which one holds part of the other have the same page exactly when the part
holds the whole page (`page_eq_iff`).
-/

namespace ArenaJs

/-- Entries with distinct keys, in arrival order. -/
structure Dict (κ ν : Type) where
  entries : List (κ × ν)
  nodup : (entries.map Prod.fst).Nodup

namespace Dict

variable {κ ν : Type}
variable {d : Dict κ ν} {k : κ}

/-- The dictionary without entries. -/
def empty : Dict κ ν := ⟨[], List.nodup_nil⟩

/-- The keys, in arrival order. -/
def keys (d : Dict κ ν) : List κ := d.entries.map Prod.fst

variable [DecidableEq κ]

/-- The value under a key. -/
def get (d : Dict κ ν) (k : κ) : Option ν := (d.entries.find? fun e => e.1 = k).map Prod.snd

/-- The dictionary has the key. -/
def has (d : Dict κ ν) (k : κ) : Bool := (d.get k).isSome

/-- The entries after a write: in place for a key that is there, at the end for a new one. -/
def setEntries (l : List (κ × ν)) (k : κ) (v : ν) : List (κ × ν) :=
  match l with
  | [] => [(k, v)]
  | e :: l => if e.1 = k then (k, v) :: l else e :: setEntries l k v

theorem keys_setEntries (l : List (κ × ν)) (k : κ) (v : ν) :
    (setEntries l k v).map Prod.fst =
      if k ∈ l.map Prod.fst then l.map Prod.fst else l.map Prod.fst ++ [k] := by
  induction l with
  | nil => simp [setEntries]
  | cons e l ih =>
    by_cases h : e.1 = k
    · subst h
      simp [setEntries]
    · have hk : k ≠ e.1 := fun he => h he.symm
      simp only [setEntries, if_neg h, List.map_cons, ih, List.mem_cons, hk, false_or]
      split <;> simp

/-- Write a key's value. -/
def set (d : Dict κ ν) (k : κ) (v : ν) : Dict κ ν where
  entries := setEntries d.entries k v
  nodup := by
    rw [keys_setEntries]
    split
    · exact d.nodup
    · rename_i h
      exact List.nodup_append.mpr ⟨d.nodup, List.nodup_singleton k,
        fun a ha b hb => by rintro rfl; exact h (List.mem_singleton.mp hb ▸ ha)⟩

/-- Remove a key. -/
def delete (d : Dict κ ν) (k : κ) : Dict κ ν where
  entries := d.entries.filter fun e => e.1 ≠ k
  nodup := d.nodup.sublist (List.filter_sublist.map _)

@[simp] theorem get_empty (k : κ) : (empty : Dict κ ν).get k = none := rfl

/-- A key is in the dictionary when it has a value. -/
theorem mem_keys : k ∈ d.keys ↔ (d.get k).isSome := by
  simp [keys, get, List.find?_isSome]

/-- A value under a key is an entry. -/
theorem mem_entries {v : ν} (h : d.get k = some v) :
    (k, v) ∈ d.entries := by
  obtain ⟨e, he, rfl⟩ := Option.map_eq_some_iff.mp h
  obtain rfl : e.1 = k := by simpa using List.find?_some he
  exact List.mem_of_find?_eq_some he

theorem find?_setEntries (l : List (κ × ν)) (k x : κ) (v : ν) :
    (setEntries l k v).find? (fun e => e.1 = x) =
      if x = k then some (k, v) else l.find? fun e => e.1 = x := by
  induction l with
  | nil => by_cases h : k = x <;> simp [setEntries, h, eq_comm]
  | cons e l ih =>
    by_cases he : e.1 = k
    · by_cases hx : x = k
      · simp [setEntries, he, hx]
      · have hk : ¬ k = x := fun h => hx h.symm
        simp [setEntries, he, hx, hk]
    · by_cases hx : e.1 = x
      · have hk : ¬ x = k := fun h => he (hx.trans h)
        simp [setEntries, hx, hk]
      · simp [setEntries, he, hx, ih]

/-- A write changes the value of its key alone. -/
theorem get_set (d : Dict κ ν) (k x : κ) (v : ν) :
    (d.set k v).get x = if x = k then some v else d.get x := by
  simp only [get, set, find?_setEntries]
  split <;> rfl

/-- A removal changes its key alone. -/
theorem get_delete (d : Dict κ ν) (k x : κ) :
    (d.delete k).get x = if x = k then none else d.get x := by
  simp only [get, delete, List.find?_filter]
  by_cases h : x = k
  · subst h
    simp
  · rw [if_neg h]
    congr 2
    funext e
    by_cases he : e.1 = x
    · simp [he, h]
    · simp [he]

/-- Write the listed entries one after another. -/
def setAll (d : Dict κ ν) (l : List (κ × ν)) : Dict κ ν := l.foldl (fun d e => d.set e.1 e.2) d

/-- After writing entries with distinct keys, a listed key has its listed value. -/
theorem get_setAll {l : List (κ × ν)} (hl : (l.map Prod.fst).Nodup) (d : Dict κ ν) (k : κ) :
    (d.setAll l).get k = ((l.find? fun e => e.1 = k).map Prod.snd).or (d.get k) := by
  induction l generalizing d with
  | nil => rfl
  | cons e l ih =>
    obtain ⟨he, hl⟩ := List.nodup_cons.mp hl
    rw [setAll, List.foldl_cons, ← setAll, ih hl, get_set]
    by_cases hk : e.1 = k
    · have hn : l.find? (fun e => e.1 = k) = none := by
        simp only [List.find?_eq_none, decide_eq_true_eq]
        exact fun x hx hxk => he (List.mem_map.mpr ⟨x, hx, hxk.trans hk.symm⟩)
      simp [hk, hn]
    · have hk' : ¬ k = e.1 := fun h => hk h.symm
      simp [hk, hk']

/-- A key that has a value after writing entries was listed or had one before. -/
theorem mem_of_get_setAll {l : List (κ × ν)} (h : ((d.setAll l).get k).isSome) :
    k ∈ l.map Prod.fst ∨ (d.get k).isSome := by
  induction l generalizing d with
  | nil => exact .inr h
  | cons e l ih =>
    rcases ih (d := d.set e.1 e.2) h with hk | hk
    · exact .inl (List.mem_cons_of_mem _ hk)
    · rw [get_set] at hk
      split at hk
      · next he => exact .inl (he ▸ List.mem_cons_self)
      · exact .inr hk

section Page

variable (r : κ → κ → Prop) [DecidableRel r]
variable {sel : κ → Bool} {cap : Nat} {d : Dict κ ν}

/-- The first `cap` selected keys in the order `r`. -/
def pageKeys (sel : κ → Bool) (cap : Nat) (d : Dict κ ν) : List κ :=
  ((d.keys.filter sel).insertionSort r).take cap

/-- The first `cap` selected keys in the order `r`, with their values. -/
def page (sel : κ → Bool) (cap : Nat) (d : Dict κ ν) : List (κ × ν) :=
  (d.pageKeys r sel cap).filterMap fun k => (d.get k).map (Prod.mk k)

variable {r}

theorem mem_of_mem_pageKeys {k : κ}
    (h : k ∈ d.pageKeys r sel cap) : (d.get k).isSome ∧ sel k = true := by
  have hk := (List.mem_insertionSort r).mp (List.mem_of_mem_take h)
  obtain ⟨hk, hs⟩ := List.mem_filter.mp hk
  exact ⟨mem_keys.mp hk, hs⟩

/-- A row of a page is an entry of the dictionary. -/
theorem mem_page {e : κ × ν}
    (h : e ∈ d.page r sel cap) : d.get e.1 = some e.2 ∧ e.1 ∈ d.pageKeys r sel cap := by
  obtain ⟨k, hk, he⟩ := List.mem_filterMap.mp h
  obtain ⟨v, hv, rfl⟩ := Option.map_eq_some_iff.mp he
  exact ⟨hv, hk⟩

/-- The keys of a page's rows. -/
theorem map_fst_page (sel : κ → Bool) (cap : Nat) (d : Dict κ ν) :
    (d.page r sel cap).map Prod.fst = d.pageKeys r sel cap := by
  rw [page, List.map_filterMap]
  refine (List.filterMap_congr fun k hk => ?_).trans List.filterMap_some
  obtain ⟨v, hv⟩ := Option.isSome_iff_exists.mp (mem_of_mem_pageKeys hk).1
  simp [hv]

omit [DecidableEq κ] in
theorem nodup_pageKeys (sel : κ → Bool) (cap : Nat) (d : Dict κ ν) :
    (d.pageKeys r sel cap).Nodup := by
  have hn : (d.keys.filter sel).Nodup := List.Nodup.filter sel d.nodup
  exact ((List.perm_insertionSort r _).nodup_iff.mpr hn).sublist (List.take_sublist _ _)

omit [DecidableEq κ] in
/-- Two orders that agree on the selected keys give the same page. -/
theorem pageKeys_congr {s : κ → κ → Prop} [DecidableRel s]
    (h : ∀ a ∈ d.keys, ∀ b ∈ d.keys, r a b ↔ s a b) :
    d.pageKeys r sel cap = d.pageKeys s sel cap := by
  have hs := List.map_insertionSort (r := r) (s := s) id (d.keys.filter sel) fun a ha b hb =>
    h a (List.mem_of_mem_filter ha) b (List.mem_of_mem_filter hb)
  rw [List.map_id, List.map_id] at hs
  rw [pageKeys, pageKeys, hs]

end Page

/-- A sublist that holds the first `n` elements of a list without repetitions begins with them. -/
theorem take_eq_take_of_sublist {α : Type} {l1 l2 : List α} (h : l1.Sublist l2) (hn : l2.Nodup)
    {n : Nat} (hc : ∀ a ∈ l2.take n, a ∈ l1) : l1.take n = l2.take n := by
  induction h generalizing n with
  | slnil => rfl
  | @cons l1 l2 a h ih =>
    obtain ⟨ha, hn⟩ := List.nodup_cons.mp hn
    cases n with
    | zero => simp
    | succ n =>
      -- The element the sublist skips would have to be among its own.
      exact absurd (h.subset (hc a (by simp))) ha
  | @cons_cons l1 l2 a h ih =>
    obtain ⟨ha, hn⟩ := List.nodup_cons.mp hn
    cases n with
    | zero => simp
    | succ n =>
      rw [List.take_succ_cons, List.take_succ_cons, ih hn]
      intro b hb
      have hm := hc b (by simp [hb])
      exact (List.mem_cons.mp hm).resolve_left fun hba =>
        ha (hba ▸ List.mem_of_mem_take hb)

/-! ### Pages in a linear order -/

section Linear

variable {α β : Type} [LinearOrder α] {m : α → Option β}

/-- The first `cap` entries of a map at the keys in `after`, in increasing order. -/
structure FirstRows (m : α → Option β) (after : α → Prop) (cap : Nat) (rows : List (α × β)) :
    Prop where
  sorted : (rows.map Prod.fst).Pairwise (· < ·)
  sound : ∀ e ∈ rows, m e.1 = some e.2 ∧ after e.1
  length : rows.length ≤ cap
  first : ∀ k, (m k).isSome → after k →
    k ∈ rows.map Prod.fst ∨ rows.length = cap ∧ ∀ e ∈ rows, e.1 < k

/-- A page has the first rows. -/
theorem page_firstRows [DecidableEq α] [DecidableRel fun a b : α => a ≤ b] (d : Dict α β)
    (sel : α → Bool) (cap : Nat) :
    FirstRows d.get (fun k => sel k = true) cap (d.page (· ≤ ·) sel cap) := by
  have hkeys := map_fst_page (r := (· ≤ ·)) sel cap d
  have hsort : ((d.keys.filter sel).insertionSort (· ≤ ·)).Pairwise (· < ·) :=
    ((List.pairwise_insertionSort (· ≤ ·) _).and
      ((List.perm_insertionSort _ _).nodup_iff.mpr (List.Nodup.filter sel d.nodup))).imp
      fun h => lt_of_le_of_ne h.1 h.2
  have hlen : (d.page (· ≤ ·) sel cap).length = (d.pageKeys (· ≤ ·) sel cap).length := by
    rw [← hkeys, List.length_map]
  refine ⟨?_, fun e he => ?_, ?_, fun k hk hs => ?_⟩
  · rw [hkeys]
    exact hsort.sublist (List.take_sublist _ _)
  · obtain ⟨hg, hp⟩ := mem_page he
    exact ⟨hg, (mem_of_mem_pageKeys hp).2⟩
  · rw [hlen]
    exact List.length_take_le _ _
  · have hmem : k ∈ (d.keys.filter sel).insertionSort (· ≤ ·) :=
      (List.mem_insertionSort _).mpr (List.mem_filter.mpr ⟨mem_keys.mpr hk, hs⟩)
    rw [hkeys]
    rw [← List.take_append_drop cap ((d.keys.filter sel).insertionSort (· ≤ ·))] at hmem hsort
    rcases List.mem_append.mp hmem with hmem | hmem
    · exact .inl hmem
    · refine .inr ⟨?_, fun e he => ?_⟩
      · rw [hlen]
        have := List.length_pos_of_mem hmem
        rw [List.length_drop] at this
        exact (List.length_take ..).trans (Nat.min_eq_left (by omega))
      · exact (List.pairwise_append.mp hsort).2.2 _ (mem_page he).2 _ hmem

/-- The rows of up to `n` pages, each of them from the last key of the one before. -/
def pages (f : α → List (α × β)) : Nat → α → List (α × β)
  | 0, _ => []
  | n + 1, cursor =>
    f cursor ++ match (f cursor).getLast? with
      | none => []
      | some e => pages f n e.1

/-- Enough pages list every entry after the cursor once, in order. -/
theorem pages_spec {f : α → List (α × β)} {cap n : Nat} (hcap : 0 < cap) {good : α → Prop}
    (hf : ∀ c, good c → FirstRows m (c < ·) cap (f c)) (hgood : ∀ k, (m k).isSome → good k)
    (cursor : α) (hc : good cursor) {S : Finset α} (hS : ∀ k, (m k).isSome → cursor < k → k ∈ S)
    (hn : S.card < n) :
    ((pages f n cursor).map Prod.fst).Pairwise (· < ·) ∧
      ∀ e, e ∈ pages f n cursor ↔ m e.1 = some e.2 ∧ cursor < e.1 := by
  induction n generalizing cursor S with
  | zero => exact absurd hn (Nat.not_lt_zero _)
  | succ n ih =>
    have h := hf cursor hc
    rw [pages]
    cases hl : (f cursor).getLast? with
    | none =>
      have hnil := List.getLast?_eq_none_iff.mp hl
      refine ⟨by simp [hnil], fun e => ⟨fun he => by simp [hnil] at he, fun he => ?_⟩⟩
      have := h.first e.1 (by simp [he.1]) he.2
      simp only [hnil, List.map_nil, List.not_mem_nil, List.length_nil, false_or] at this
      omega
    | some r =>
      obtain ⟨rows, hrows⟩ := List.getLast?_eq_some_iff.mp hl
      have hr : r ∈ f cursor := by simp [hrows]
      obtain ⟨hrm, hrc⟩ := h.sound r hr
      -- every row but the last is before the last
      have hlt : ∀ e ∈ f cursor, e.1 ≤ r.1 := fun e he => by
        have hs := h.sorted
        rw [hrows, List.map_append, List.pairwise_append] at hs
        rw [hrows] at he
        rcases List.mem_append.mp he with he | he
        · exact (hs.2.2 e.1 (List.mem_map_of_mem he) r.1 (by simp)).le
        · rw [List.mem_singleton.mp he]
      have hrest := ih r.1 (hgood r.1 (by simp [hrm])) (S := S.erase r.1)
        (fun k hk hlt => Finset.mem_erase.mpr ⟨hlt.ne', hS k hk (hrc.trans hlt)⟩)
        (by have := Finset.card_erase_lt_of_mem (hS r.1 (by simp [hrm]) hrc); omega)
      refine ⟨?_, fun e => ⟨fun he => ?_, fun he => ?_⟩⟩
      · rw [List.map_append, List.pairwise_append]
        refine ⟨h.sorted, hrest.1, fun a ha b hb => ?_⟩
        obtain ⟨e, he, rfl⟩ := List.mem_map.mp ha
        obtain ⟨e', he', rfl⟩ := List.mem_map.mp hb
        exact lt_of_le_of_lt (hlt e he) ((hrest.2 e').mp he').2
      · rcases List.mem_append.mp he with he | he
        · exact h.sound e he
        · obtain ⟨hm, hlt⟩ := (hrest.2 e).mp he
          exact ⟨hm, hrc.trans hlt⟩
      · rcases h.first e.1 (by simp [he.1]) he.2 with hmem | ⟨-, hall⟩
        · obtain ⟨e', he', heq⟩ := List.mem_map.mp hmem
          have hv := (h.sound e' he').1
          rw [heq, he.1] at hv
          exact List.mem_append_left _ (by rwa [← Prod.ext heq (Option.some.inj hv).symm])
        · exact List.mem_append_right _ ((hrest.2 e).mpr ⟨he.1, hall r hr⟩)

end Linear

section Part

variable {r : κ → κ → Prop} [DecidableRel r] [Std.Total r] [IsTrans κ r] [Std.Antisymm r]
variable {d d' : Dict κ ν} {sel sel' : κ → Bool} {cap : Nat}

/-- The selected keys of a part, sorted, are among the sorted selected keys of the whole. -/
theorem sorted_sublist (hp : ∀ k v, d'.get k = some v → sel' k = true →
    d.get k = some v ∧ sel k = true) :
    ((d'.keys.filter sel').insertionSort r).Sublist ((d.keys.filter sel).insertionSort r) := by
  have hn : (d'.keys.filter sel').Nodup := List.Nodup.filter sel' d'.nodup
  have hsub : d'.keys.filter sel' ⊆ d.keys.filter sel := by
    intro k hk
    obtain ⟨hk, hs⟩ := List.mem_filter.mp hk
    obtain ⟨v, hv⟩ := Option.isSome_iff_exists.mp (mem_keys.mp hk)
    obtain ⟨hd, hs⟩ := hp k v hv hs
    exact List.mem_filter.mpr ⟨mem_keys.mpr (by simp [hd]), hs⟩
  have hperm : ((d'.keys.filter sel').insertionSort r).Subperm
      ((d.keys.filter sel).insertionSort r) :=
    ((List.perm_insertionSort r _).subperm.trans (List.subperm_of_subset hn hsub)).trans
      (List.perm_insertionSort r _).symm.subperm
  exact List.sublist_of_subperm_of_pairwise hperm (List.pairwise_insertionSort r _)
    (List.pairwise_insertionSort r _)

/-- A part of a dictionary has the page of the whole exactly when it has every key on it. -/
theorem page_eq_iff (hp : ∀ k v, d'.get k = some v → sel' k = true →
      d.get k = some v ∧ sel k = true)
    (hsel : ∀ k, (d'.get k).isSome → sel k = true → sel' k = true) :
    d'.page r sel' cap = d.page r sel cap ↔ ∀ k ∈ d.pageKeys r sel cap, (d'.get k).isSome := by
  constructor
  · intro h k hk
    rw [← map_fst_page, ← h, map_fst_page] at hk
    exact (mem_of_mem_pageKeys hk).1
  · intro h
    have hn : ((d.keys.filter sel).insertionSort r).Nodup :=
      (List.perm_insertionSort r _).nodup_iff.mpr (List.Nodup.filter sel d.nodup)
    have hkeys : d'.pageKeys r sel' cap = d.pageKeys r sel cap :=
      take_eq_take_of_sublist (sorted_sublist hp) hn fun k hk =>
        (List.mem_insertionSort r).mpr (List.mem_filter.mpr
          ⟨mem_keys.mpr (h k hk), hsel k (h k hk) (mem_of_mem_pageKeys hk).2⟩)
    rw [page, page, hkeys]
    refine List.filterMap_congr fun k hk => ?_
    obtain ⟨v, hv⟩ := Option.isSome_iff_exists.mp (h k hk)
    rw [hv, (hp k v hv (hsel k (h k hk) (mem_of_mem_pageKeys hk).2)).1]

end Part

end Dict

end ArenaJs
