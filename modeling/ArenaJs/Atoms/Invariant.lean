import ArenaJs.Atoms.Table

/-!
# The invariant of an atom table

A table is an array of slots that hold structs, and a hash index over some of them. `TableOk` is
what both tables of a runtime, the snapshot's and a request's overlay, have in common. It is stated
over the atom fields of the structs alone (`AtomData`), so strings that are not atoms, reference
counts and freed memory do not enter it. The three ways a table changes each have a lemma: a struct
is numbered (`TableOk.occupy`), it is also linked (`TableOk.link`), and the rest keeps its atoms
(`TableOk.transport`).
-/

namespace ArenaJs.Atoms

open Function (update update_of_ne update_apply)

/-- The atom fields of a struct. -/
structure AtomData where
  type : AtomType
  isWide : Bool
  chars : List Nat
  hash : Nat
  hashNext : Nat
  deriving DecidableEq

/-- What an atom stands for. -/
def AtomData.key (d : AtomData) : AtomType × List Nat := (d.type, d.chars)

/-- The atom fields of a string that is an atom. -/
def JSString.data? (s : JSString) : Option AtomData :=
  s.atomType.map fun t => ⟨t, s.isWide, s.chars, s.hash, s.hashNext⟩

/-- A condition on the texts that are interned: the type, the width and the code units. -/
abbrev TextPred := AtomType → Bool → List Nat → Prop

section
variable {π : Type}

/-- The atom in a slot. -/
def atomIn (data : π → Option AtomData) (slot : Nat → Option π) (i : Nat) : Option AtomData :=
  (slot i).bind data

/-- The chain link of a slot. -/
def nextIn (data : π → Option AtomData) (slot : Nat → Option π) (i : Nat) : Option Nat :=
  (atomIn data slot i).map (·.hashNext)

/-- The hash of a slot. -/
def hashIn (data : π → Option AtomData) (slot : Nat → Option π) (i : Nat) : Option Nat :=
  (atomIn data slot i).map (·.hash)

/-- A table: every occupied slot holds an atom of its own; the index holds atoms of the hashed types
under their hash, no two with the same text. `Q` is what the callers see to: which texts are
interned, and in what width. -/
structure TableOk (Q : TextPred) (data : π → Option AtomData) (slot : Nat → Option π)
    (heads : List Nat)
    (ids : Nat → List Nat) : Prop where
  live : ∀ {i p}, slot i = some p → ∃ d, data p = some d
  inj : ∀ {i j p}, slot i = some p → slot j = some p → i = j
  size : heads = [] ∨ ∃ k, heads.length = 2 ^ k
  index : HashIndex (nextIn data slot) (hashIn data slot) heads ids
  entry : ∀ {i}, HashIndex.Mem heads ids i → ∃ d, atomIn data slot i = some d ∧
    d.type.hashed = true ∧ d.hash = atomHashOf d.type d.chars
  distinct : ∀ {i j d e}, HashIndex.Mem heads ids i → HashIndex.Mem heads ids j →
    atomIn data slot i = some d → atomIn data slot j = some e → d.key = e.key → i = j
  good : ∀ {i d}, HashIndex.Mem heads ids i → atomIn data slot i = some d →
    Q d.type d.isWide d.chars

/-- Every atom struct but those in `skip` is in a slot, and is found from its own fields. -/
def Complete (data : π → Option AtomData) (slot : Nat → Option π) (heads : List Nat)
    (ids : Nat → List Nat) (skip : π → Prop) : Prop :=
  ∀ p d, data p = some d → ¬ skip p → ∃ i, slot i = some p ∧
    (d.type.hashed = true → HashIndex.Mem heads ids i) ∧
    (d.type.hashed = false → d.type = .symbol ∧ d.hashNext = i)

variable {Q : TextPred} {data data' : π → Option AtomData} {slot slot' : Nat → Option π}
  {heads heads' : List Nat} {ids ids' : Nat → List Nat} {skip skip' : π → Prop}

theorem Complete.mono (hc : Complete data slot heads ids skip) (h : ∀ p, skip p → skip' p) :
    Complete data slot heads ids skip' :=
  fun p d hd hp => hc p d hd fun hs => hp (h p hs)

theorem atomIn_eq_some {i : Nat} {d : AtomData} :
    atomIn data slot i = some d ↔ ∃ p, slot i = some p ∧ data p = some d := Option.bind_eq_some_iff

/-- A table without chains. -/
theorem TableOk.unchained (hlive : ∀ {i p}, slot i = some p → ∃ d, data p = some d)
    (hinj : ∀ {i j p}, slot i = some p → slot j = some p → i = j) {size : Nat}
    (hs : heads = List.replicate size 0) (hsize : heads = [] ∨ ∃ k, heads.length = 2 ^ k) :
    TableOk Q data slot heads fun _ => [] := by
  have hno : ∀ {i}, ¬ HashIndex.Mem heads (fun _ => []) i := by
    rintro i ⟨b, -, hi⟩
    cases hi
  refine ⟨hlive, hinj, hsize, ⟨fun {b v} hb => ?_, fun _ hi => by cases hi⟩,
    fun hi => absurd hi hno, fun hi => absurd hi hno, fun hi => absurd hi hno⟩
  rw [hs, List.getElem?_replicate] at hb
  split at hb
  · exact Option.some.inj hb ▸ Chain.nil
  · cases hb

/-- A table without atoms. -/
theorem TableOk.empty (size : Nat) (hs : heads = List.replicate size 0)
    (hsize : heads = [] ∨ ∃ k, heads.length = 2 ^ k) (hslot : ∀ i, slot i = none) :
    TableOk Q data slot heads fun _ => [] :=
  .unchained (fun h => by simp [hslot] at h) (fun h => by simp [hslot] at h) hs hsize

theorem Complete.withHeads (hc : Complete data slot [] ids skip) (heads : List Nat)
    (ids' : Nat → List Nat) : Complete data slot heads ids' skip := by
  intro p d hd hp
  obtain ⟨i, hi, hmem, hrest⟩ := hc p d hd hp
  refine ⟨i, hi, fun ht => ?_, hrest⟩
  obtain ⟨b, hb, -⟩ := hmem ht
  cases hb

section
variable (h : TableOk Q data slot heads ids)
include h

/-- The bucket of a hash. -/
theorem TableOk.and_eq_mod (hne : heads ≠ []) (v : Nat) :
    v &&& (heads.length - 1) = v % heads.length := by
  obtain ⟨k, hk⟩ := h.size.resolve_left hne
  rw [hk, Nat.and_two_pow_sub_one_eq_mod]

/-- A new index over atoms the table already had. -/
theorem TableOk.transport
    (hlive : ∀ {i p}, slot' i = some p → ∃ d, data' p = some d)
    (hinj : ∀ {i j p}, slot' i = some p → slot' j = some p → i = j)
    (hsize : heads' = [] ∨ ∃ k, heads'.length = 2 ^ k)
    (hidx : HashIndex (nextIn data' slot') (hashIn data' slot') heads' ids')
    (hmem : ∀ {i}, HashIndex.Mem heads' ids' i → HashIndex.Mem heads ids i ∧
      ∀ d, atomIn data slot i = some d →
        ∃ n, atomIn data' slot' i = some { d with hashNext := n }) :
    TableOk Q data' slot' heads' ids' := by
  -- the old atom behind an atom of the new index
  have hback : ∀ {i d'}, HashIndex.Mem heads' ids' i → atomIn data' slot' i = some d' →
      ∃ d n, HashIndex.Mem heads ids i ∧ atomIn data slot i = some d ∧
        d' = { d with hashNext := n } := by
    intro i d' hi hd'
    obtain ⟨hi', hatom⟩ := hmem hi
    obtain ⟨d, hd, -⟩ := h.entry hi'
    obtain ⟨n, hn⟩ := hatom d hd
    exact ⟨d, n, hi', hd, Option.some.inj (hd'.symm.trans hn)⟩
  refine ⟨hlive, hinj, hsize, hidx, fun {i} hi => ?_, fun {i j d' e'} hi hj hd' he' hkey => ?_,
    fun {i d'} hi hd' => ?_⟩
  · obtain ⟨hi', hatom⟩ := hmem hi
    obtain ⟨d, hd, ht, hh⟩ := h.entry hi'
    obtain ⟨n, hn⟩ := hatom d hd
    exact ⟨_, hn, ht, hh⟩
  · obtain ⟨d, n, hdi, hd, rfl⟩ := hback hi hd'
    obtain ⟨e, m, hej, he, rfl⟩ := hback hj he'
    exact h.distinct hdi hej hd he hkey
  · obtain ⟨d, n, hdi, hd, rfl⟩ := hback hi hd'
    exact (h.good hdi hd : Q d.type d.isWide d.chars)

/-- An atom of the index is in a slot that is not free. -/
theorem TableOk.not_mem {i : Nat} (hi : slot i = none) :
    ¬ HashIndex.Mem heads ids i := fun hm => by
  obtain ⟨d, hd, -⟩ := h.entry hm
  simp [atomIn, hi] at hd

theorem inj_update {p q : π} {i j k : Nat}
    (hp : ∀ j, slot j ≠ some p)
    (hj : update slot i (some p) j = some q)
    (hk : update slot i (some p) k = some q) : j = k := by
  simp only [update_apply] at hj hk
  split at hj <;> split at hk
  · simp_all
  · exact absurd (Option.some.inj hj ▸ hk) (hp k)
  · exact absurd (Option.some.inj hk ▸ hj) (hp j)
  · exact h.inj hj hk

end

section
variable [DecidableEq π] {p : π} {i : Nat} {d : AtomData}

theorem atomIn_update_self :
    atomIn (update data p (some d)) (update slot i (some p)) i = some d := by
  simp [atomIn]

/-- Giving the slot `i` to a struct that is in no slot leaves the other atoms alone. -/
theorem atomIn_update_of_ne (hp : ∀ j, slot j ≠ some p) {j : Nat} (hj : j ≠ i) (v : Option AtomData)
    (o : Option π) :
    atomIn (update data p v) (update slot i o) j = atomIn data slot j := by
  rw [atomIn, update_of_ne hj]
  exact Option.bind_congr fun q hs => update_of_ne (fun h : q = p => hp j (h ▸ hs)) ..

section
variable (h : TableOk Q data slot heads ids)
include h

theorem live_update {j : Nat} {q : π}
    (hq : update slot i (some p) j = some q) :
    ∃ e, update data p (some d) q = some e := by
  by_cases hqp : q = p
  · exact ⟨d, by simp [hqp]⟩
  · rw [update_of_ne hqp]
    by_cases hj : j = i
    · simp [hj] at hq
      exact absurd hq.symm hqp
    · rw [update_of_ne hj] at hq
      exact h.live hq

/-- Numbering a struct. -/
theorem TableOk.occupy (hi : slot i = none)
    (hp : ∀ j, slot j ≠ some p) : TableOk Q (update data p (some d))
      (update slot i (some p)) heads ids := by
  have hother : ∀ j, HashIndex.Mem heads ids j → atomIn (update data p (some d))
      (update slot i (some p)) j = atomIn data slot j := fun j hj =>
    atomIn_update_of_ne hp (fun he : j = i => h.not_mem hi (he ▸ hj)) _ _
  refine h.transport (live_update h) (inj_update h hp) h.size ?_ fun {j} hj =>
    ⟨hj, fun e he => ⟨e.hashNext, (hother j hj).trans he⟩⟩
  exact h.index.congr (fun j hj => by simp only [nextIn, hother j hj])
    fun j hj => by simp only [hashIn, hother j hj]

/-- Numbering a struct and putting it in front of its chain. -/
theorem TableOk.link (hi0 : i ≠ 0) (hi : slot i = none)
    (hp : ∀ j, slot j ≠ some p) (ht : d.type.hashed = true)
    (hh : d.hash = atomHashOf d.type d.chars) (hb : heads[d.hash % heads.length]? = some d.hashNext)
    (hfresh : ∀ j e, HashIndex.Mem heads ids j → atomIn data slot j = some e → e.key ≠ d.key)
    (hgood : Q d.type d.isWide d.chars) :
    TableOk Q (update data p (some d)) (update slot i (some p))
      (heads.set (d.hash % heads.length) i) (HashIndex.pushed ids (d.hash % heads.length) i) := by
  obtain ⟨hlt, -⟩ := List.getElem?_eq_some_iff.1 hb
  have hself : atomIn (update data p (some d)) (update slot i (some p)) i = some d :=
    atomIn_update_self
  have hother : ∀ j, j ≠ i → atomIn (update data p (some d))
      (update slot i (some p)) j = atomIn data slot j := fun j hj =>
    atomIn_update_of_ne hp hj _ _
  -- an atom of the new index is the new one or an old one
  have hcase : ∀ {j e}, HashIndex.Mem (heads.set (d.hash % heads.length) i)
      (HashIndex.pushed ids (d.hash % heads.length) i) j →
      atomIn (update data p (some d)) (update slot i (some p)) j = some e →
      (j = i ∧ e = d) ∨ (j ≠ i ∧ HashIndex.Mem heads ids j ∧ atomIn data slot j = some e) := by
    intro j e hj he
    by_cases hji : j = i
    · subst hji
      exact .inl ⟨rfl, Option.some.inj (he.symm.trans hself)⟩
    · exact .inr ⟨hji, ((HashIndex.mem_pushed hlt).1 hj).resolve_left hji, hother j hji ▸ he⟩
  refine ⟨live_update h, inj_update h hp, ?_, ?_, fun {j} hj => ?_,
    fun {j k e f} hj hk he hf hkey => ?_, fun {j e} hj he => ?_⟩
  · rcases h.size with rfl | hk
    · exact .inl rfl
    · exact .inr (by rwa [List.length_set])
  · refine h.index.push _ _ hi0 (h.not_mem hi) hb ?_ ?_ rfl (fun j hj => ?_) fun j hj => ?_
    · simp [nextIn, hself]
    · simp [hashIn, hself]
    · simp only [nextIn, hother j hj]
    · simp only [hashIn, hother j hj]
  · by_cases hji : j = i
    · exact ⟨d, hji ▸ hself, ht, hh⟩
    · obtain ⟨e, he, hrest⟩ := h.entry (((HashIndex.mem_pushed hlt).1 hj).resolve_left hji)
      exact ⟨e, (hother j hji).trans he, hrest⟩
  · rcases hcase hj he with ⟨rfl, rfl⟩ | ⟨hji, hmj, hej⟩ <;>
      rcases hcase hk hf with ⟨rfl, rfl⟩ | ⟨hki, hmk, hek⟩
    · rfl
    · exact absurd hkey.symm (hfresh k f hmk hek)
    · exact absurd hkey (hfresh j e hmj hej)
    · exact h.distinct hmj hmk hej hek hkey
  · rcases hcase hj he with ⟨rfl, rfl⟩ | ⟨hji, hmj, hej⟩
    · exact hgood
    · exact h.good hmj hej

omit [DecidableEq π] in
/-- Writing structs that are in no slot. -/
theorem TableOk.write (hdata : ∀ {j q}, slot j = some q → data' q = data q) :
    TableOk Q data' slot heads ids := by
  have hatom : ∀ j, atomIn data' slot j = atomIn data slot j := fun j =>
    Option.bind_congr fun q hs => hdata hs
  refine h.transport (fun hi => by rw [hdata hi]; exact h.live hi) h.inj h.size ?_ fun {j} hj =>
    ⟨hj, fun e he => ⟨e.hashNext, (hatom j).trans he⟩⟩
  exact h.index.congr (fun j _ => by simp only [nextIn, hatom])
    fun j _ => by simp only [hashIn, hatom]

end

omit [DecidableEq π] in
theorem Complete.write (hc : Complete data slot heads ids skip)
    (hdata : ∀ q, ¬ skip' q → data' q = data q) :
    Complete data' slot heads ids fun q => skip q ∨ skip' q := by
  intro q e he hq
  rw [hdata q fun h => hq (.inr h)] at he
  exact hc q e he fun h => hq (.inl h)

/-- A numbered atom that is found from its fields is complete. -/
theorem Complete.enter (hc : Complete data slot heads ids skip) (hi : slot i = none)
    (hmem : ∀ {j}, HashIndex.Mem heads ids j → HashIndex.Mem heads' ids' j)
    (hself : d.type.hashed = true → HashIndex.Mem heads' ids' i)
    (hsym : d.type.hashed = false → d.type = .symbol ∧ d.hashNext = i) :
    Complete (update data p (some d)) (update slot i (some p)) heads' ids'
      fun q => skip q ∧ q ≠ p := by
  intro q e he hq
  by_cases hqp : q = p
  · subst hqp
    obtain rfl : d = e := by simpa using he
    exact ⟨i, by simp, hself, hsym⟩
  · rw [update_of_ne hqp] at he
    obtain ⟨j, hj, h1, h2⟩ := hc q e he fun h => hq ⟨h, hqp⟩
    refine ⟨j, ?_, fun h => hmem (h1 h), h2⟩
    rwa [update_of_ne fun hji => by simp [hji, hi] at hj]

/-- A numbered symbol is complete. -/
theorem Complete.occupy (hc : Complete data slot heads ids skip) (hi : slot i = none)
    (ht : d.type = .symbol) (hn : d.hashNext = i) :
    Complete (update data p (some d)) (update slot i (some p)) heads ids
      fun q => skip q ∧ q ≠ p :=
  hc.enter hi id (fun h => by simp [ht, AtomType.hashed] at h) fun _ => ⟨ht, hn⟩

/-- A linked atom is complete. -/
theorem Complete.link (hc : Complete data slot heads ids skip) (hi : slot i = none)
    (hb : d.hash % heads.length < heads.length) (ht : d.type.hashed = true) :
    Complete (update data p (some d)) (update slot i (some p))
      (heads.set (d.hash % heads.length) i) (HashIndex.pushed ids (d.hash % heads.length) i)
      fun q => skip q ∧ q ≠ p :=
  hc.enter hi (fun h => (HashIndex.mem_pushed hb).2 (.inr h))
    (fun _ => (HashIndex.mem_pushed hb).2 (.inl rfl)) fun h => by simp [ht] at h

/-- Only chain links differ. -/
def Relinked (data data' : π → Option AtomData) : Prop :=
  ∀ q, ∃ n, data' q = (data q).map fun d =>
    { d with hashNext := if d.type.hashed then n else d.hashNext }

omit [DecidableEq π] in
theorem Relinked.refl (data : π → Option AtomData) : Relinked data data := by
  intro q
  cases h : data q with
  | none => exact ⟨0, rfl⟩
  | some d => exact ⟨d.hashNext, by simp⟩

omit [DecidableEq π] in
theorem Relinked.trans {data'' : π → Option AtomData} (h : Relinked data data')
    (h' : Relinked data' data'') : Relinked data data'' := by
  intro q
  obtain ⟨n, hn⟩ := h q
  obtain ⟨m, hm⟩ := h' q
  refine ⟨m, ?_⟩
  rw [hm, hn]
  cases data q with
  | none => rfl
  | some d => by_cases hd : d.type.hashed = true <;> simp [hd]

/-- Writing the link of a hashed atom. -/
theorem Relinked.update (hd : data p = some d) (ht : d.type.hashed = true) (n : Nat) :
    Relinked data (update data p (some { d with hashNext := n })) := by
  intro q
  by_cases hq : q = p
  · subst hq
    exact ⟨n, by simp [hd, ht]⟩
  · rw [update_of_ne hq]
    exact Relinked.refl data q

omit [DecidableEq π] in
theorem Relinked.to_some (h : Relinked data data') {q : π} {e : AtomData} (he : data q = some e) :
    ∃ n, data' q = some { e with hashNext := n } ∧ (e.type.hashed = false → n = e.hashNext) := by
  obtain ⟨n, hn⟩ := h q
  rw [he] at hn
  exact ⟨_, hn, fun h => by simp [h]⟩

omit [DecidableEq π] in
theorem Relinked.of_some (h : Relinked data data') {q : π} {e' : AtomData}
    (he : data' q = some e') :
    ∃ e, data q = some e ∧ e'.key = e.key ∧
      (e.type.hashed = false → e'.hashNext = e.hashNext) := by
  obtain ⟨n, hn⟩ := h q
  cases hq : data q with
  | none => simp [hn, hq] at he
  | some e =>
    obtain ⟨n, hn, hrest⟩ := h.to_some hq
    cases hn.symm.trans he
    exact ⟨e, rfl, rfl, hrest⟩

/-- Removing the struct of the slot `i`, once it is on no chain. -/
theorem TableOk.remove (h : TableOk Q data slot heads ids) (hi : slot i = some p)
    (hrel : Relinked data data')
    (hsize : heads' = [] ∨ ∃ k, heads'.length = 2 ^ k)
    (hidx : HashIndex (nextIn data' slot) (hashIn data' slot) heads' ids')
    (hmem : ∀ {j}, HashIndex.Mem heads' ids' j → j ≠ i ∧ HashIndex.Mem heads ids j) :
    TableOk Q (update data' p none) (update slot i none) heads' ids' := by
  have hne : ∀ {j q}, update slot i none j = some q → j ≠ i ∧ q ≠ p ∧ slot j = some q := by
    intro j q hj
    by_cases hji : j = i
    · simp [hji] at hj
    · rw [update_of_ne hji] at hj
      exact ⟨hji, fun hqp => hji (h.inj hj (hqp ▸ hi)), hj⟩
  have hatom : ∀ j, j ≠ i → atomIn (update data' p none) (update slot i none) j =
      atomIn data' slot j := by
    intro j hj
    rw [atomIn, update_of_ne hj]
    exact Option.bind_congr fun q hs => update_of_ne (fun h' : q = p => hj (h.inj hs (h' ▸ hi))) ..
  refine h.transport (fun {j q} hj => ?_) (fun {j k q} hj hk => ?_) hsize ?_ fun {j} hj => ?_
  · obtain ⟨-, hqp, hs⟩ := hne hj
    obtain ⟨e, he⟩ := h.live hs
    obtain ⟨n, hn, -⟩ := hrel.to_some he
    exact ⟨_, by rw [update_of_ne hqp, hn]⟩
  · exact h.inj (hne hj).2.2 (hne hk).2.2
  · exact hidx.congr (fun j hj => by simp only [nextIn, hatom j (hmem hj).1])
      fun j hj => by simp [hashIn, hatom j (hmem hj).1]
  · refine ⟨(hmem hj).2, fun e he => ?_⟩
    obtain ⟨q, hq, hqe⟩ := atomIn_eq_some.1 he
    obtain ⟨n, hn, -⟩ := hrel.to_some hqe
    exact ⟨n, by rw [hatom j (hmem hj).1]; exact atomIn_eq_some.2 ⟨q, hq, hn⟩⟩

omit [DecidableEq π] in
theorem Complete.relinked (hc : Complete data slot heads ids skip) (hrel : Relinked data data')
    (hmem : ∀ {j}, HashIndex.Mem heads ids j → HashIndex.Mem heads' ids' j) :
    Complete data' slot heads' ids' skip := by
  intro q e' he' hq
  obtain ⟨e, he, hkey, hlink⟩ := hrel.of_some he'
  obtain ⟨htype, -⟩ := Prod.mk.injEq _ _ _ _ ▸ hkey
  obtain ⟨j, hj, h1, h2⟩ := hc q e he hq
  refine ⟨j, hj, fun ht => hmem (h1 (htype ▸ ht)), fun ht => ?_⟩
  have ht' : e.type.hashed = false := htype ▸ ht
  exact ⟨htype.trans (h2 ht').1, (hlink ht').trans (h2 ht').2⟩

theorem Complete.remove (hc : Complete data slot heads ids skip) (hi : slot i = some p)
    (hrel : Relinked data data')
    (hmem : ∀ {j}, j ≠ i → HashIndex.Mem heads ids j → HashIndex.Mem heads' ids' j) :
    Complete (update data' p none) (update slot i none) heads' ids' skip := by
  intro q e he hq
  have hqp : q ≠ p := fun hqp => by simp [hqp] at he
  rw [update_of_ne hqp] at he
  obtain ⟨j, hj, h1, h2⟩ := hc.relinked hrel id q e he hq
  have hji : j ≠ i := fun hji => hqp (Option.some.inj (hj.symm.trans (hji ▸ hi)))
  exact ⟨j, by rw [update_of_ne hji, hj], fun ht => hmem hji (h1 ht), h2⟩

end

end

end ArenaJs.Atoms
