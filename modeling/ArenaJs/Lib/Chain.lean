import ArenaJs.Lib.Linked
import Mathlib.Data.List.Nodup
import Mathlib.Data.List.Perm.Subperm

/-!
# Hash indexes threaded through their nodes

Nodes have numbers, and 0 is no node. A hash index is an array of chain heads; every node of a chain
holds the number of the next one. `HashIndex` says which nodes are in which chain, and each
operation of such an index has a lemma: following a chain (`chainFind_spec`, `chainSeek_spec`),
putting a node in front of one (`HashIndex.push`), taking one out (`HashIndex.unlink`).
-/

namespace ArenaJs

/-- The node a link names. -/
def nodeOf (i : Nat) : Option Nat := if i = 0 then none else some i

/-- A successor function as `Linked` reads it. -/
def links (next : Nat → Option Nat) : Nat → Option (Option Nat) := fun i => (next i).map nodeOf

theorem nodeOf_eq_some {i j : Nat} : nodeOf i = some j ↔ i = j ∧ i ≠ 0 := by
  unfold nodeOf
  split <;> simp_all

theorem nodeOf_eq_none {i : Nat} : nodeOf i = none ↔ i = 0 := by
  unfold nodeOf
  split <;> simp_all

/-- The chain that starts at `i` is `l`. -/
def Chain (next : Nat → Option Nat) (i : Nat) (l : List Nat) : Prop :=
  Linked (links next) (nodeOf i) l

section
variable {next next' : Nat → Option Nat} {i a : Nat} {l : List Nat}

theorem Chain.nil : Chain next 0 [] := rfl

theorem Chain.nil_iff : Chain next i [] ↔ i = 0 := nodeOf_eq_none

theorem Chain.cons_iff :
    Chain next i (a :: l) ↔ i = a ∧ a ≠ 0 ∧ ∃ j, next a = some j ∧ Chain next j l := by
  constructor
  · rintro ⟨hi, q, hq, hl⟩
    obtain ⟨rfl, hne⟩ := nodeOf_eq_some.1 hi
    obtain ⟨j, hj, rfl⟩ := Option.map_eq_some_iff.1 hq
    exact ⟨rfl, hne, j, hj, hl⟩
  · rintro ⟨rfl, hne, j, hj, hl⟩
    exact ⟨nodeOf_eq_some.2 ⟨rfl, hne⟩, nodeOf j, by simp [links, hj], hl⟩

theorem Chain.congr (h : Chain next i l) (heq : ∀ a ∈ l, next' a = next a) : Chain next' i l :=
  Linked.congr h fun a ha => by simp only [links, heq a ha]

theorem Chain.ne_zero (h : Chain next i l) : ∀ a ∈ l, a ≠ 0 := by
  induction l generalizing i with
  | nil => nofun
  | cons a l ih =>
    obtain ⟨-, hne, j, -, hl⟩ := Chain.cons_iff.1 h
    exact List.forall_mem_cons.2 ⟨hne, ih hl⟩

/-- Successors determine the chain. -/
theorem Chain.unique {l' : List Nat} (h : Chain next i l) (h' : Chain next i l') : l = l' := by
  induction l generalizing i l' with
  | nil =>
    cases l' with
    | nil => rfl
    | cons a l' =>
      exact absurd (Chain.nil_iff.1 h) ((Chain.cons_iff.1 h').1 ▸ (Chain.cons_iff.1 h').2.1)
  | cons a l ih =>
    obtain ⟨rfl, hne, j, hj, hl⟩ := Chain.cons_iff.1 h
    cases l' with
    | nil => exact absurd (Chain.nil_iff.1 h') hne
    | cons b l' =>
      obtain ⟨rfl, -, j', hj', hl'⟩ := Chain.cons_iff.1 h'
      cases hj.symm.trans hj'
      rw [ih hl hl']

/-- The chain from one of its nodes on. -/
theorem Chain.suffix {l1 l2 : List Nat} (h : Chain next i (l1 ++ a :: l2)) :
    Chain next a (a :: l2) := by
  induction l1 generalizing i with
  | nil => exact (Chain.cons_iff.1 h).1 ▸ h
  | cons b l1 ih =>
    obtain ⟨-, -, j, -, hl⟩ := Chain.cons_iff.1 h
    exact ih hl

/-- A chain that ends visits no node twice. -/
theorem Chain.nodup (h : Chain next i l) : l.Nodup := by
  induction l generalizing i with
  | nil => exact List.nodup_nil
  | cons a l ih =>
    obtain ⟨rfl, -, j, -, hl⟩ := Chain.cons_iff.1 h
    refine List.nodup_cons.2 ⟨fun hmem => ?_, ih hl⟩
    -- the two places of the node would start chains of different lengths
    obtain ⟨l1, l2, rfl⟩ := List.append_of_mem hmem
    have := congrArg List.length (h.unique hl.suffix)
    simp at this
    omega

/-- Nodes linked in order up to the end `size` form the chain of an interval. -/
theorem Chain.range (next : Nat → Option Nat) {size : Nat} (ha : 0 < a)
    (h : ∀ k, a ≤ k → k < size → next k = some (if k = size - 1 then 0 else k + 1)) :
    Chain next (if a < size then a else 0) (List.range' a (size - a)) := by
  -- by the number of nodes left
  induction hn : size - a generalizing a with
  | zero => rw [if_neg (by omega)]; exact Chain.nil
  | succ n ih =>
    have hlt : a < size := by omega
    have hrest := ih (a := a + 1) (by omega) (fun k hk hks => h k (by omega) hks) (by omega)
    rw [if_pos hlt]
    refine Chain.cons_iff.2 ⟨rfl, by omega, _, h a (Nat.le_refl a) hlt, ?_⟩
    have hlink : (if a = size - 1 then 0 else a + 1) = if a + 1 < size then a + 1 else 0 := by
      split <;> split <;> omega
    rwa [hlink]

/-- Distinct numbers from an interval are no more than its length. -/
theorem length_le_of_interval {l : List Nat} (hnd : l.Nodup) {a n : Nat}
    (hl : ∀ i ∈ l, a ≤ i ∧ i - a < n) : l.length ≤ n := by
  have hsub : l ⊆ List.range' a n := fun i hi => by
    have := hl i hi
    exact List.mem_range'_1.2 ⟨this.1, by omega⟩
  simpa using (hnd.subperm hsub).length_le

/-- Splicing a node out: its predecessor takes over its link. -/
theorem Chain.splice {l1 l2 : List Nat} {b : Nat} (h : Chain next i (l1 ++ b :: a :: l2))
    (hb : next' b = next a) (heq : ∀ c ∈ l1 ++ l2, next' c = next c) :
    Chain next' i (l1 ++ b :: l2) := by
  induction l1 generalizing i with
  | nil =>
    obtain ⟨rfl, hne, j, -, hl⟩ := Chain.cons_iff.1 h
    obtain ⟨rfl, -, k, hk, hl2⟩ := Chain.cons_iff.1 hl
    exact Chain.cons_iff.2 ⟨rfl, hne, k, hb.trans hk, hl2.congr heq⟩
  | cons c l1 ih =>
    obtain ⟨rfl, hne, j, hj, hl⟩ := Chain.cons_iff.1 h
    refine Chain.cons_iff.2 ⟨rfl, hne, j, (heq _ (.head _)).trans hj, ih hl fun c hc => ?_⟩
    exact heq c (.tail _ hc)

end

/-! ## Following a chain -/

/-- Follow the chain from `i` to the first node that passes; 0 if there is none. `none` if the walk
takes more than `fuel` steps or leaves the nodes. -/
def chainFind (next : Nat → Option Nat) (test : Nat → Bool) : Nat → Nat → Option Nat
  | 0, _ => none
  | fuel + 1, i =>
    if i = 0 then some 0
    else if test i then some i
    else (next i).bind (chainFind next test fuel)

/-- Follow the chain from `i` to the node that passes, which has to be there. -/
def chainSeek (next : Nat → Option Nat) (test : Nat → Bool) : Nat → Nat → Option Nat
  | 0, _ => none
  | fuel + 1, i =>
    if test i then some i
    else if i = 0 then none
    else (next i).bind (chainSeek next test fuel)

section
variable {next : Nat → Option Nat} {test : Nat → Bool} {i : Nat} {l : List Nat}

theorem chainFind_spec (h : Chain next i l) (test : Nat → Bool) {fuel : Nat}
    (hf : l.length < fuel) :
    chainFind next test fuel i = some ((l.find? test).getD 0) := by
  induction l generalizing i fuel with
  | nil =>
    obtain ⟨n, rfl⟩ := Nat.exists_eq_succ_of_ne_zero (Nat.ne_zero_of_lt hf)
    obtain rfl := Chain.nil_iff.1 h
    rfl
  | cons a l ih =>
    obtain ⟨n, rfl⟩ := Nat.exists_eq_succ_of_ne_zero (Nat.ne_zero_of_lt hf)
    obtain ⟨rfl, hne, j, hj, hl⟩ := Chain.cons_iff.1 h
    simp only [List.length_cons] at hf
    rw [chainFind, if_neg hne, List.find?_cons]
    cases ht : test i with
    | true => simp
    | false => simpa [hj] using ih hl (by omega)

theorem chainSeek_spec (h : Chain next i l) {a : Nat} (ha : a ∈ l) (hta : test a = true)
    (hone : ∀ b ∈ l, test b = true → b = a) {fuel : Nat} (hf : l.length < fuel) :
    chainSeek next test fuel i = some a := by
  induction l generalizing i fuel with
  | nil => cases ha
  | cons b l ih =>
    obtain ⟨n, rfl⟩ := Nat.exists_eq_succ_of_ne_zero (Nat.ne_zero_of_lt hf)
    obtain ⟨rfl, hne, j, hj, hl⟩ := Chain.cons_iff.1 h
    simp only [List.length_cons] at hf
    rw [chainSeek]
    by_cases ht : test i = true
    · rw [if_pos ht, hone i (.head _) ht]
    · have hal : a ∈ l := (List.mem_cons.1 ha).resolve_left fun h => ht (h ▸ hta)
      rw [if_neg ht, if_neg hne, hj]
      exact ih hl hal (fun b hb => hone b (.tail _ hb)) (by omega)

/-- The node the walk ends at passes. -/
theorem chainSeek_sound {fuel j : Nat} (h : chainSeek next test fuel i = some j) :
    test j = true := by
  induction fuel generalizing i with
  | zero => cases h
  | succ n ih =>
    rw [chainSeek] at h
    split at h
    · next ht => exact Option.some.inj h ▸ ht
    · split at h
      · cases h
      · obtain ⟨k, -, hk⟩ := Option.bind_eq_some_iff.1 h
        exact ih hk

/-- A sought node that is met is on the chain. -/
theorem chainSeek_mem (h : Chain next i l) (h0 : test 0 = false) {fuel j : Nat}
    (hr : chainSeek next test fuel i = some j) : j ∈ l := by
  induction fuel generalizing i l with
  | zero => cases hr
  | succ n ih =>
    rw [chainSeek] at hr
    cases l with
    | nil =>
      obtain rfl := Chain.nil_iff.1 h
      simp [h0] at hr
    | cons a l =>
      obtain ⟨rfl, hne, k, hk, hl⟩ := Chain.cons_iff.1 h
      split at hr
      · exact Option.some.inj hr ▸ .head _
      · rw [hk] at hr
        exact .tail _ (ih hl (by simpa [hne] using hr))

end

/-- Follow the chain from `i` to the first node that passes; returns the node before it, `prev` at
the start, and the node, 0 if there is none. -/
def chainFindPrev (next : Nat → Option Nat) (test : Nat → Bool) :
    Nat → Nat → Nat → Option (Nat × Nat)
  | 0, _, _ => none
  | fuel + 1, prev, i =>
    if i = 0 then some (prev, 0)
    else if test i then some (prev, i)
    else (next i).bind (chainFindPrev next test fuel i)

section
variable {next : Nat → Option Nat} {test : Nat → Bool} {i : Nat}

theorem chainFindPrev_absent {l : List Nat} (h : Chain next i l) (test : Nat → Bool)
    (hno : ∀ a ∈ l, test a = false)
    {fuel : Nat} (hf : l.length < fuel) (prev : Nat) :
    ∃ prev', chainFindPrev next test fuel prev i = some (prev', 0) := by
  induction l generalizing i fuel prev with
  | nil =>
    obtain ⟨n, rfl⟩ := Nat.exists_eq_succ_of_ne_zero (Nat.ne_zero_of_lt hf)
    obtain rfl := Chain.nil_iff.1 h
    exact ⟨prev, rfl⟩
  | cons a l ih =>
    obtain ⟨n, rfl⟩ := Nat.exists_eq_succ_of_ne_zero (Nat.ne_zero_of_lt hf)
    obtain ⟨rfl, hne, j, hj, hl⟩ := Chain.cons_iff.1 h
    obtain ⟨prev', hr⟩ := ih hl (fun b hb => hno b (.tail _ hb)) (by simpa using hf) i
    exact ⟨prev', by
      rw [chainFindPrev, if_neg hne, if_neg (by simp [hno i (.head _)]), hj]; exact hr⟩

/-- The walk stops at the first node that passes. -/
theorem chainFindPrev_found {l1 l2 : List Nat} {a : Nat} (h : Chain next i (l1 ++ a :: l2))
    (hno : ∀ b ∈ l1, test b = false) (ha : test a = true) {fuel : Nat}
    (hf : (l1 ++ a :: l2).length < fuel) (prev : Nat) :
    chainFindPrev next test fuel prev i = some (l1.getLast?.getD prev, a) := by
  induction l1 generalizing i fuel prev with
  | nil =>
    obtain ⟨n, rfl⟩ := Nat.exists_eq_succ_of_ne_zero (Nat.ne_zero_of_lt hf)
    obtain ⟨rfl, hne, -⟩ := Chain.cons_iff.1 h
    rw [chainFindPrev, if_neg hne, if_pos ha]
    rfl
  | cons b l1 ih =>
    obtain ⟨n, rfl⟩ := Nat.exists_eq_succ_of_ne_zero (Nat.ne_zero_of_lt hf)
    obtain ⟨rfl, hne, j, hj, hl⟩ := Chain.cons_iff.1 h
    rw [chainFindPrev, if_neg hne, if_neg (by simp [hno i (.head _)]), hj, Option.bind_some,
      ih hl (fun b hb => hno b (.tail _ hb)) (by simpa using hf) i, List.getLast?_cons]
    cases l1.getLast? <;> rfl

end

/-! ## The index -/

/-- The chains of an index: `ids b` are the nodes of bucket `b`, each with a hash that selects
it. -/
structure HashIndex (next hash : Nat → Option Nat) (heads : List Nat) (ids : Nat → List Nat) :
    Prop where
  chain : ∀ {b h : Nat}, heads[b]? = some h → Chain next h (ids b)
  bucket : ∀ {b i : Nat}, b < heads.length → i ∈ ids b →
    ∃ v, hash i = some v ∧ v % heads.length = b

namespace HashIndex

section
variable {next next' hash hash' : Nat → Option Nat} {heads : List Nat} {ids : Nat → List Nat}

/-- The nodes of the index. -/
def Mem (heads : List Nat) (ids : Nat → List Nat) (i : Nat) : Prop := ∃ b < heads.length, i ∈ ids b

/-- The index only depends on its own nodes. -/
theorem congr (h : HashIndex next hash heads ids)
    (hn : ∀ i, Mem heads ids i → next' i = next i) (hh : ∀ i, Mem heads ids i → hash' i = hash i) :
    HashIndex next' hash' heads ids where
  chain hb := (h.chain hb).congr fun a ha => hn a ⟨_, (List.getElem?_eq_some_iff.1 hb).1, ha⟩
  bucket hb hi := by
    obtain ⟨v, hv, hvb⟩ := h.bucket hb hi
    exact ⟨v, (hh _ ⟨_, hb, hi⟩).trans hv, hvb⟩

/-- A node is in the chain its hash selects. -/
theorem mem_bucket (h : HashIndex next hash heads ids) {i v : Nat} (hi : Mem heads ids i)
    (hv : hash i = some v) : i ∈ ids (v % heads.length) := by
  obtain ⟨b, hb, hib⟩ := hi
  obtain ⟨w, hw, rfl⟩ := h.bucket hb hib
  cases hv.symm.trans hw
  exact hib

/-- No node in any bucket. -/
theorem empty (next hash : Nat → Option Nat) (h0 : ∀ v ∈ heads, v = 0) :
    HashIndex next hash heads fun _ => [] := by
  refine ⟨fun hb => ?_, fun _ hi => (List.not_mem_nil hi).elim⟩
  rw [h0 _ (List.mem_of_getElem? hb)]
  exact Chain.nil

theorem not_mem_empty (heads : List Nat) (i : Nat) : ¬ Mem heads (fun _ => []) i := by
  rintro ⟨b, -, hi⟩
  cases hi

theorem ne_zero (h : HashIndex next hash heads ids) {i : Nat} (hi : Mem heads ids i) : i ≠ 0 := by
  obtain ⟨b, hb, hib⟩ := hi
  exact (h.chain (List.getElem?_eq_getElem hb)).ne_zero i hib

/-- The nodes of an index, bucket by bucket. -/
theorem flatten (h : HashIndex next hash heads ids) :
    ((List.range heads.length).map ids).flatten.Nodup ∧
      ∀ n, n ∈ ((List.range heads.length).map ids).flatten ↔ Mem heads ids n := by
  have hmem : ∀ n, n ∈ ((List.range heads.length).map ids).flatten ↔ Mem heads ids n := fun n => by
    simp [Mem, List.mem_flatten]
  refine ⟨List.nodup_flatten.2 ⟨fun l hl => ?_, ?_⟩, hmem⟩
  · obtain ⟨b, hb, rfl⟩ := List.mem_map.1 hl
    exact (h.chain (List.getElem?_eq_getElem (List.mem_range.1 hb))).nodup
  · rw [List.pairwise_map]
    refine List.Pairwise.imp_of_mem (fun {b c} hb hc hne n hnb hnc => ?_) List.nodup_range
    obtain ⟨v, hv, rfl⟩ := h.bucket (List.mem_range.1 hb) hnb
    obtain ⟨w, hw, rfl⟩ := h.bucket (List.mem_range.1 hc) hnc
    exact hne (by rw [Option.some.inj (hv.symm.trans hw)])

/-- The chain of each head. -/
theorem forall₂ (h : HashIndex next hash heads ids) :
    List.Forall₂ (Chain next) heads ((List.range heads.length).map ids) := by
  refine List.forall₂_iff_get.2 ⟨by simp, fun i hi hi' => ?_⟩
  have := h.chain (List.getElem?_eq_getElem hi)
  simpa using this

/-- The nodes after `i` went to the front of bucket `b`. -/
def pushed (ids : Nat → List Nat) (b i : Nat) : Nat → List Nat :=
  fun c => if c = b then i :: ids b else ids c

theorem mem_pushed {b i j : Nat} (hb : b < heads.length) :
    Mem (heads.set b i) (pushed ids b i) j ↔ j = i ∨ Mem heads ids j := by
  simp only [Mem, pushed, List.length_set]
  constructor
  · rintro ⟨c, hc, hj⟩
    split at hj
    · rcases List.mem_cons.1 hj with h | h
      exacts [.inl h, .inr ⟨b, hb, h⟩]
    · exact .inr ⟨c, hc, hj⟩
  · rintro (rfl | ⟨c, hc, hj⟩)
    · exact ⟨b, hb, by simp⟩
    · refine ⟨c, hc, ?_⟩
      split
      · next h => exact .tail _ (h ▸ hj)
      · exact hj

/-- Putting a new node in front of the chain its hash selects. -/
theorem push (h : HashIndex next hash heads ids) (next' hash' : Nat → Option Nat)
    {i b v head : Nat} (hi : i ≠ 0) (hnew : ¬ Mem heads ids i) (hb : heads[b]? = some head)
    (hni : next' i = some head)
    (hhi : hash' i = some v) (hv : v % heads.length = b)
    (hn : ∀ j, j ≠ i → next' j = next j) (hh : ∀ j, j ≠ i → hash' j = hash j) :
    HashIndex next' hash' (heads.set b i) (pushed ids b i) := by
  have hne : ∀ j, Mem heads ids j → j ≠ i := fun j hj he => hnew (he ▸ hj)
  have h' := h.congr (fun j hj => hn j (hne j hj)) fun j hj => hh j (hne j hj)
  refine ⟨fun {c k} hc => ?_, fun {c j} hc hj => ?_⟩
  · simp only [pushed]
    rw [List.getElem?_set] at hc
    split
    · next hcb =>
      rw [if_pos hcb.symm] at hc
      split at hc
      · cases hc
        exact Chain.cons_iff.2 ⟨rfl, hi, head, hni, h'.chain hb⟩
      · cases hc
    · next hcb => exact h'.chain (by rwa [if_neg (Ne.symm hcb)] at hc)
  · rw [List.length_set] at hc ⊢
    simp only [pushed] at hj
    split at hj
    · next hcb =>
      rcases List.mem_cons.1 hj with rfl | hj
      · exact ⟨v, hhi, hv.trans hcb.symm⟩
      · exact h'.bucket hc (hcb ▸ hj)
    · exact h'.bucket hc hj

/-- The nodes after `i` left bucket `b`. -/
def erased (ids : Nat → List Nat) (b i : Nat) : Nat → List Nat :=
  fun c => if c = b then (ids b).erase i else ids c

section
variable (h : HashIndex next hash heads ids)
include h

theorem mem_erased {b i j : Nat} (hb : b < heads.length)
    (hi : i ∈ ids b) : Mem heads (erased ids b i) j ↔ j ≠ i ∧ Mem heads ids j := by
  have hnd := (h.chain (List.getElem?_eq_getElem hb)).nodup
  have hother : ∀ c < heads.length, i ∈ ids c → c = b := by
    intro c hc hic
    obtain ⟨v, hv, rfl⟩ := h.bucket hc hic
    obtain ⟨w, hw, rfl⟩ := h.bucket hb hi
    rw [Option.some.inj (hv.symm.trans hw)]
  simp only [Mem, erased]
  constructor
  · rintro ⟨c, hc, hj⟩
    split at hj
    · next hcb =>
      rw [hnd.mem_erase_iff] at hj
      exact ⟨hj.1, b, hb, hj.2⟩
    · next hcb => exact ⟨fun he => hcb (hother c hc (he ▸ hj)), c, hc, hj⟩
  · rintro ⟨hne, c, hc, hj⟩
    refine ⟨c, hc, ?_⟩
    split
    · next hcb =>
      rw [hnd.mem_erase_iff]
      exact ⟨hne, hcb ▸ hj⟩
    · exact hj

/-- Taking the first node of a bucket out: the head takes over its link. -/
theorem unlink_head {b i j : Nat} (hb : heads[b]? = some i)
    (hi : i ≠ 0) (hj : next i = some j) : HashIndex next hash (heads.set b j) (erased ids b i) := by
  obtain ⟨hlt, -⟩ := List.getElem?_eq_some_iff.1 hb
  have hc := h.chain hb
  cases hl : ids b with
  | nil => exact absurd (Chain.nil_iff.1 (hl ▸ hc)) hi
  | cons a l =>
    rw [hl] at hc
    obtain ⟨rfl, -, k, hk, hrest⟩ := Chain.cons_iff.1 hc
    cases hj.symm.trans hk
    have herase : (ids b).erase i = l := by rw [hl, List.erase_cons_head]
    refine ⟨fun {c m} hcm => ?_, fun {c m} hcl hm => ?_⟩
    · rw [List.getElem?_set] at hcm
      simp only [erased, herase]
      split
      · next hcb =>
        rw [if_pos hcb.symm, if_pos hlt] at hcm
        exact Option.some.inj hcm ▸ hrest
      · next hcb => exact h.chain (by rwa [if_neg (Ne.symm hcb)] at hcm)
    · rw [List.length_set] at hcl ⊢
      refine h.bucket hcl ?_
      simp only [erased, herase] at hm
      split at hm
      · next hcb => rw [hcb, hl]; exact .tail _ hm
      · exact hm

/-- Taking an inner node out: the node before it takes over its link. -/
theorem unlink_after (next' : Nat → Option Nat) {b a i : Nat}
    {l1 l2 : List Nat} (hb : b < heads.length) (hl : ids b = l1 ++ a :: i :: l2)
    (ha : next' a = next i)
    (heq : ∀ j, j ≠ a → next' j = next j) : HashIndex next' hash heads (erased ids b i) := by
  have hc := h.chain (List.getElem?_eq_getElem hb)
  rw [hl] at hc
  have hnd := hc.nodup
  have herase : (ids b).erase i = l1 ++ a :: l2 := by
    simp only [List.nodup_append, List.nodup_cons, List.mem_cons] at hnd
    rw [hl, List.erase_append_right _ fun hm => hnd.2.2 i hm i (by simp) rfl,
      List.erase_cons_tail (by simpa using fun he : a = i => hnd.2.1.1 (.inl he)),
      List.erase_cons_head]
  have haonly : ∀ c < heads.length, a ∈ ids c → c = b := by
    intro c hcl hac
    obtain ⟨v, hv, rfl⟩ := h.bucket hcl hac
    obtain ⟨w, hw, rfl⟩ := h.bucket hb (i := a) (by simp [hl])
    rw [Option.some.inj (hv.symm.trans hw)]
  refine ⟨fun {c m} hcm => ?_, fun {c m} hcl hm => ?_⟩
  · simp only [erased, herase]
    split
    · next hcb =>
      subst hcb
      obtain ⟨_, hm⟩ := List.getElem?_eq_some_iff.1 hcm
      rw [hm] at hc
      refine hc.splice ha fun d hd => heq d fun hda => ?_
      simp only [List.nodup_append, List.nodup_cons, List.mem_cons] at hnd
      rcases List.mem_append.1 hd with hd | hd
      · exact hnd.2.2 d hd a (by simp) hda
      · exact hnd.2.1.1 (.inr (hda ▸ hd))
    · next hcb =>
      refine (h.chain hcm).congr fun d hd => heq d fun hda => ?_
      exact hcb (haonly c (List.getElem?_eq_some_iff.1 hcm).1 (hda ▸ hd))
  · refine h.bucket hcl ?_
    simp only [erased] at hm
    split at hm
    · next hcb => rw [hcb]; exact List.mem_of_mem_erase hm
    · exact hm

/-- Looking for a node of a bucket: it is the first, or it has a node before it. -/
theorem findPrev (test : Nat → Bool) {b i head fuel : Nat}
    (hb : heads[b]? = some head) (hi : i ∈ ids b) (ht : test i = true)
    (hone : ∀ j ∈ ids b, test j = true → j = i) (hf : (ids b).length < fuel) :
    ∃ prev, chainFindPrev next test fuel 0 head = some (prev, i) ∧
      (prev = 0 ∧ head = i ∨ prev ≠ 0 ∧ ∃ l1 l2, ids b = l1 ++ prev :: i :: l2) := by
  have hc := h.chain hb
  obtain ⟨l1, l2, hl, hnot⟩ := List.eq_append_cons_of_mem hi
  rw [hl] at hc hf hone
  have hfound := chainFindPrev_found hc
    (fun c hcl => Bool.eq_false_iff.2 fun hct => hnot (hone c (by simp [hcl]) hct ▸ hcl)) ht hf 0
  refine ⟨_, hfound, ?_⟩
  rcases List.eq_nil_or_concat l1 with rfl | ⟨l, a, rfl⟩
  · exact .inl ⟨rfl, (Chain.cons_iff.1 hc).1⟩
  · refine .inr ⟨?_, l, l2, by simp [hl]⟩
    simpa using hc.ne_zero a (by simp)

/-- Taking a node out of its bucket, given the node before it. -/
theorem unlink (next' : Nat → Option Nat) {b i j head prev : Nat}
    (hb : heads[b]? = some head) (hi : i ∈ ids b) (hj : next i = some j)
    (hprev : prev = 0 ∧ head = i ∨ prev ≠ 0 ∧ ∃ l1 l2, ids b = l1 ++ prev :: i :: l2)
    (hlink : prev ≠ 0 → next' prev = some j) (heq : ∀ k, k ≠ prev → next' k = next k) :
    HashIndex next' hash (if prev = 0 then heads.set b j else heads) (erased ids b i) := by
  obtain ⟨hlt, -⟩ := List.getElem?_eq_some_iff.1 hb
  rcases hprev with ⟨rfl, rfl⟩ | ⟨hne, l1, l2, hl⟩
  · rw [if_pos rfl]
    have hne : head ≠ 0 := h.ne_zero ⟨b, hlt, hi⟩
    have h' := h.unlink_head hb hne hj
    refine h'.congr (fun k hk => heq k (h'.ne_zero hk)) fun _ _ => rfl
  · rw [if_neg hne]
    exact h.unlink_after next' hlt hl ((hlink hne).trans hj.symm) heq

end

end

end HashIndex

end ArenaJs
