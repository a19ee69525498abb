import ArenaJs.Collections.Records

/-!
# Insertion-ordered maps with live iterators

What a `Map` or `Set` is for: a list of entries in the order of their insertion, each with a serial
number. A lookup takes the entry whose key is the same. A cursor is a position among the serial
numbers: it yields the first entry at or after its position and moves past it, so that it meets
entries in insertion order and none twice (`Ordered.visits_sorted`), meets those inserted while it
is under way, and does not meet those deleted before it arrives. A cursor that has found no entry
stays at its end.
-/

namespace ArenaJs.Collections

variable {α : Type} (ops : KeyOps α)

/-- An entry with its serial number. -/
structure Entry (α : Type) where
  id : Nat
  key : α
  value : α

/-- A position, and what the cursor yields; no position means that it has ended. -/
structure Place where
  kind : Option IteratorKind
  pos : Option Nat
deriving DecidableEq, Repr

/-- The collection and the cursors over it. -/
structure Ordered (α : Type) where
  isSet : Bool
  entries : List (Entry α)
  nextId : Nat
  places : List Place

namespace Ordered

variable {e : Entry α} {isLoop : Bool}

/-- An empty collection. -/
def new (isSet : Bool) : Ordered α := ⟨isSet, [], 0, []⟩

variable (m : Ordered α)

/-- The entry of a key. -/
def lookup (key : α) : Option (Entry α) :=
  m.entries.find? fun e => ops.same e.key (ops.normalize key)

/-- A new entry at the end. -/
def append (key value : α) : Ordered α :=
  { m with entries := m.entries ++ [⟨m.nextId, ops.normalize key, value⟩], nextId := m.nextId + 1 }

/-- The entry with a serial number gets another value. -/
def assign (id : Nat) (value : α) : Ordered α :=
  { m with entries := m.entries.map fun e => if e.id = id then { e with value := value } else e }

/-- The entry with a serial number is dropped. -/
def remove (id : Nat) : Ordered α :=
  { m with entries := m.entries.filter fun e => e.id ≠ id }

/-- The next entry for a cursor at `pos`. -/
def advance (pos : Nat) : Option (Entry α) :=
  m.entries.find? fun e => decide (pos ≤ e.id)

/-- What a cursor yields at an entry. -/
def yields (kind : Option IteratorKind) (e : Entry α) : Result α :=
  let value := if m.isSet then e.key else e.value
  match kind with
  | none => .callback value e.key
  | some .key => .value e.key
  | some .value => .value value
  | some .keyAndValue => .pair e.key value

/-- A cursor moves on. -/
def moveFrom (kind : Option IteratorKind) (pos : Nat) : Result α × Place :=
  match m.advance pos with
  | some e => (m.yields kind e, ⟨kind, some (e.id + 1)⟩)
  | none => (if kind.isNone then .undefined else .done, ⟨kind, none⟩)

/-- The iterator with a number ends. -/
def endPlace (places : List Place) (i : Nat) : List Place :=
  match places[i]? with
  | none => places
  | some c => if c.kind.isNone then places else places.set i { c with pos := none }

/-- Iterators end. -/
def release (dying : List Nat) : Ordered α := { m with places := dying.foldl endPlace m.places }

/-- A step that concerns a cursor. -/
def move (i : Nat) (isLoop : Bool) (f : Place → Result α × Ordered α) :
    Result α × Ordered α :=
  match m.places[i]? with
  | none => (.invalid, m)
  | some c => if c.kind.isNone = isLoop then f c else (.invalid, m)

/-- The cursor has moved. -/
def moved (i : Nat) (r : Result α × Place) : Result α × Ordered α :=
  (r.1, { m with places := m.places.set i r.2 })

/-- One step. -/
def step : MapOp α → Result α × Ordered α
  | .set key value dying =>
    let value := if m.isSet then ops.undefined else value
    (.undefined, match m.lookup ops key with
      | some e => (m.release dying).assign e.id value
      | none => m.append ops key value)
  | .get key => (match m.lookup ops key with
      | some e => .value e.value
      | none => .undefined, m)
  | .has key => (.bool (m.lookup ops key).isSome, m)
  | .delete key dying =>
    match m.lookup ops key with
    | some e => (.bool true, (m.release dying).remove e.id)
    | none => (.bool false, m)
  | .clear dying =>
    (.undefined, { m.release (dying.take m.entries.length).flatten with entries := [] })
  | .size => (.uint32 m.entries.length, m)
  | .getOrInsert key value =>
    match m.lookup ops key with
    | some e => (.value e.value, m)
    | none => (.value value, m.append ops key value)
  | .insertComputed key value dying =>
    (.value value, (match m.lookup ops key with
      | some e => (m.release dying).remove e.id
      | none => m).append ops key value)
  | .iterator kind =>
    (.cursor m.places.length, { m with places := m.places ++ [⟨some kind, some 0⟩] })
  | .next i => m.move i false fun c =>
    match c.pos with
    | some pos => m.moved i (m.moveFrom c.kind pos)
    | none => (.done, m)
  | .drop i => (.undefined, m.release [i])
  | .forEach =>
    let (r, c) := m.moveFrom none 0
    (r, { m with places := m.places ++ [c] })
  | .forEachResume i threw args ret => m.move i true fun c =>
    match c.pos with
    | some pos =>
      if threw then (m.release args).moved i (.done, { c with pos := none })
      else (m.release (args ++ ret)).moved i (m.moveFrom c.kind pos)
    | none => (.invalid, m)

/-- A run, with what its steps return. -/
def run (m : Ordered α) : List (MapOp α) → List (Result α) × Ordered α
  | [] => ([], m)
  | op :: l => ((m.step ops op).1 :: ((m.step ops op).2.run l).1, ((m.step ops op).2.run l).2)

/-! ## What a cursor meets -/

/-- The entry a cursor that moves on comes to. -/
def meets (i : Nat) (isLoop : Bool) : Option (Entry α) :=
  m.places[i]?.bind fun c => if c.kind.isNone = isLoop then c.pos.bind m.advance else none

/-- The entry a step brings cursor `i` to. -/
def met (i : Nat) : MapOp α → Option (Entry α)
  | .next j => if j = i then m.meets i false else none
  | .forEach => if i = m.places.length then m.advance 0 else none
  | .forEachResume j threw _ _ => if j = i ∧ threw = false then m.meets i true else none
  | _ => none

/-- The serial numbers of the entries cursor `i` meets in a run. -/
def visits (m : Ordered α) (i : Nat) : List (MapOp α) → List Nat
  | [] => []
  | op :: l => ((m.met i op).map Entry.id).toList ++ (m.step ops op).2.visits i l

/-- Cursor `i` is at or past `p`; a cursor that is not there yet is at the start. -/
structure AtLeast (m : Ordered α) (i p : Nat) : Prop where
  made : m.places.length ≤ i → p = 0
  pos : ∀ c, m.places[i]? = some c → ∀ q, c.pos = some q → p ≤ q

variable {ops} {m : Ordered α} {i p : Nat}

/-- A cursor moves past what it yields, to entries it has not met. -/
theorem le_of_advance (h : m.advance p = some e) : p ≤ e.id := by
  simpa using List.find?_some h

theorem moveFrom_pos {kind : Option IteratorKind} {q : Nat}
    (h : (m.moveFrom kind p).2.pos = some q) : ∃ e, m.advance p = some e ∧ q = e.id + 1 := by
  unfold moveFrom at h
  cases he : m.advance p with
  | none =>
    rw [he] at h
    cases h
  | some e =>
    rw [he] at h
    exact ⟨e, rfl, (Option.some.inj h).symm⟩

/-- Cursors that a step leaves alone. -/
theorem AtLeast.congr {m' : Ordered α} (h : m.AtLeast i p) (hp : m'.places = m.places) :
    m'.AtLeast i p :=
  ⟨by rw [hp]; exact h.made, by rw [hp]; exact h.pos⟩

/-- A new cursor. -/
theorem AtLeast.concat {c : Place} (h : m.AtLeast i p) :
    AtLeast { m with places := m.places ++ [c] } i p := by
  refine ⟨fun hle => h.made (by simp at hle; omega), fun d hd q hq => ?_⟩
  by_cases hi : i < m.places.length
  · have hd' : m.places[i]? = some d := by
      rwa [List.getElem?_append_left hi] at hd
    exact h.pos d hd' q hq
  · rw [h.made (Nat.le_of_not_lt hi)]
    exact Nat.zero_le q

theorem length_endPlace (places : List Place) (i : Nat) :
    (endPlace places i).length = places.length := by
  unfold endPlace
  split
  · rfl
  · split
    · rfl
    · exact List.length_set ..

theorem length_release (m : Ordered α) (dying : List Nat) :
    (m.release dying).places.length = m.places.length := by
  induction dying generalizing m with
  | nil => rfl
  | cons j dying ih => exact (ih (m.release [j])).trans (length_endPlace m.places j)

/-- A step of a cursor. -/
theorem AtLeast.moved {j : Nat} {r : Result α × Place} (h : m.AtLeast i p)
    (hr : j = i → ∀ q, r.2.pos = some q → p ≤ q) : AtLeast (m.moved j r).2 i p := by
  refine ⟨fun hle => h.made (by simpa [Ordered.moved] using hle), fun d hd q hq => ?_⟩
  by_cases hji : j = i
  · subst hji
    by_cases hlt : j < m.places.length
    · have hd' : r.2 = d := by simpa [Ordered.moved, hlt] using hd
      exact hr rfl q (hd' ▸ hq)
    · rw [h.made (Nat.le_of_not_lt hlt)]
      exact Nat.zero_le q
  · have hd' : m.places[i]? = some d := by
      simpa [Ordered.moved, List.getElem?_set, hji] using hd
    exact h.pos d hd' q hq

/-- Iterators that end do not go back. -/
theorem AtLeast.release (h : m.AtLeast i p) (dying : List Nat) : (m.release dying).AtLeast i p := by
  induction dying generalizing m with
  | nil => exact h
  | cons j dying ih =>
    refine ih (m := m.release [j]) ?_
    show AtLeast { m with places := endPlace m.places j } i p
    unfold endPlace
    split
    · exact h
    · rename_i c _
      split
      · exact h
      · exact h.moved (r := (.done, { c with pos := none })) fun _ q hq => nomatch hq

theorem AtLeast.move {j : Nat} {f : Place → Result α × Ordered α} (h : m.AtLeast i p)
    (hf : ∀ c, m.places[j]? = some c → (f c).2.AtLeast i p) :
    AtLeast (m.move j isLoop f).2 i p := by
  unfold Ordered.move
  cases hj : m.places[j]? with
  | none => exact h
  | some c =>
    by_cases hk : c.kind.isNone = isLoop
    · simp only [if_pos hk]
      exact hf c hj
    · simp only [if_neg hk]
      exact h

/-- A cursor that has just moved. -/
theorem atLeast_moved {r : Result α × Place} (hlt : i < m.places.length)
    (hr : ∀ q, r.2.pos = some q → p ≤ q) : AtLeast (m.moved i r).2 i p := by
  refine ⟨fun hle => absurd (by simpa [Ordered.moved] using hle) (Nat.not_le_of_lt hlt),
    fun d hd q hq => ?_⟩
  have hd' : r.2 = d := by simpa [Ordered.moved, hlt] using hd
  exact hr q (hd' ▸ hq)

theorem meets_eq_some (h : m.meets i isLoop = some e) :
    ∃ c q, m.places[i]? = some c ∧ c.kind.isNone = isLoop ∧ c.pos = some q ∧
      m.advance q = some e := by
  obtain ⟨c, hc, h⟩ := Option.bind_eq_some_iff.1 h
  split at h
  · rename_i hk
    obtain ⟨q, hq, hadv⟩ := Option.bind_eq_some_iff.1 h
    exact ⟨c, q, hc, hk, hq, hadv⟩
  · cases h

/-- No step takes a cursor back. -/
theorem AtLeast.step (h : m.AtLeast i p) (op : MapOp α) : (m.step ops op).2.AtLeast i p := by
  -- a cursor that moves from where it is
  have hgo : ∀ {m' : Ordered α} {j pos : Nat} {c : Place}, m'.AtLeast i p → m.places[j]? = some c →
      c.pos = some pos → (m'.moved j (m.moveFrom c.kind pos)).2.AtLeast i p := by
    intro m' j pos c h' hc hp
    refine h'.moved fun hji q hq => ?_
    subst hji
    obtain ⟨e, he, rfl⟩ := moveFrom_pos hq
    exact Nat.le_succ_of_le (Nat.le_trans (h.pos c hc pos hp) (le_of_advance he))
  cases op with
  | set key value dying =>
    simp only [Ordered.step]
    cases m.lookup ops key with
    | none => exact h.congr rfl
    | some e => exact (h.release dying).congr rfl
  | get key => exact h
  | has key => exact h
  | delete key dying =>
    simp only [Ordered.step]
    cases m.lookup ops key with
    | none => exact h
    | some e => exact (h.release dying).congr rfl
  | clear dying => exact (h.release _).congr rfl
  | size => exact h
  | getOrInsert key value =>
    simp only [Ordered.step]
    cases m.lookup ops key with
    | none => exact h.congr rfl
    | some e => exact h
  | insertComputed key value dying =>
    simp only [Ordered.step]
    cases m.lookup ops key with
    | none => exact h.congr rfl
    | some e => exact (h.release dying).congr rfl
  | iterator kind => exact h.concat
  | next j =>
    refine h.move fun c hc => ?_
    cases hp : c.pos with
    | none => exact h
    | some pos => exact hgo h hc hp
  | drop j => exact h.release [j]
  | forEach => exact h.concat
  | forEachResume j threw args ret =>
    refine h.move fun c hc => ?_
    cases hp : c.pos with
    | none => exact h
    | some pos =>
      cases threw with
      | true => exact (h.release args).moved fun _ q hq => nomatch hq
      | false => exact hgo (h.release (args ++ ret)) hc hp

/-- A cursor meets an entry at or past its position and moves past it. -/
theorem AtLeast.met {op : MapOp α} (h : m.AtLeast i p) (he : m.met i op = some e) :
    p ≤ e.id ∧ (m.step ops op).2.AtLeast i (e.id + 1) := by
  have hpast : ∀ {m' : Ordered α} {isLoop : Bool} {c : Place} {q : Nat}, c.kind.isNone = isLoop →
      i < m'.places.length → m.advance q = some e →
      (m'.moved i (m.moveFrom c.kind q)).2.AtLeast i (e.id + 1) := by
    intro m' isLoop c q hk hlt hadv
    refine atLeast_moved hlt fun q' hq' => ?_
    simp only [Ordered.moveFrom, hadv] at hq'
    exact Nat.le_of_eq (Option.some.inj hq')
  cases op with
  | next j =>
    simp only [Ordered.met] at he
    split at he
    · rename_i hj
      subst hj
      obtain ⟨c, q, hc, hk, hq, hadv⟩ := meets_eq_some he
      obtain ⟨hlt, -⟩ := List.getElem?_eq_some_iff.1 hc
      refine ⟨Nat.le_trans (h.pos c hc q hq) (le_of_advance hadv), ?_⟩
      simp only [Ordered.step, Ordered.move, hc, if_pos hk, hq]
      exact hpast hk hlt hadv
    · cases he
  | forEachResume j threw args ret =>
    simp only [Ordered.met] at he
    split at he
    · rename_i hj
      obtain ⟨rfl, rfl⟩ := hj
      obtain ⟨c, q, hc, hk, hq, hadv⟩ := meets_eq_some he
      obtain ⟨hlt, -⟩ := List.getElem?_eq_some_iff.1 hc
      refine ⟨Nat.le_trans (h.pos c hc q hq) (le_of_advance hadv), ?_⟩
      simp only [Ordered.step, Ordered.move, hc, if_pos hk, hq, Bool.false_eq_true, if_false]
      exact hpast hk (by rwa [length_release]) hadv
    · cases he
  | forEach =>
    simp only [Ordered.met] at he
    split at he
    · rename_i hi
      subst hi
      have hp : p = 0 := h.made (Nat.le_refl _)
      refine ⟨by omega, fun hle => ?_, fun c hc q hq => ?_⟩
      · simp only [Ordered.step, List.length_append, List.length_singleton] at hle
        exact absurd hle (Nat.not_succ_le_self _)
      · simp only [Ordered.step, Ordered.moveFrom, he, List.getElem?_concat_length] at hc
        cases hc
        exact Nat.le_of_eq (Option.some.inj hq)
    · cases he
  | _ => cases he

theorem AtLeast.visits (l : List (MapOp α)) (h : m.AtLeast i p) :
    (m.visits ops i l).Pairwise (· < ·) ∧ ∀ id ∈ m.visits ops i l, p ≤ id := by
  induction l generalizing m p with
  | nil => exact ⟨.nil, nofun⟩
  | cons op l ih =>
    rw [Ordered.visits]
    cases he : m.met i op with
    | none => exact ih (h.step op)
    | some e =>
      obtain ⟨hle, hpast⟩ := h.met he
      obtain ⟨hsorted, hge⟩ := ih hpast
      refine ⟨List.pairwise_cons.2 ⟨hge, hsorted⟩, fun id hid => ?_⟩
      rcases List.mem_cons.1 hid with rfl | hid
      · exact hle
      · exact Nat.le_trans (Nat.le_succ_of_le hle) (hge id hid)

/-- In every run a cursor meets entries in the order of their insertion, and none twice. -/
theorem visits_sorted (m : Ordered α) (i : Nat) (l : List (MapOp α)) :
    (m.visits ops i l).Pairwise (· < ·) :=
  (AtLeast.visits l (p := 0) ⟨fun _ => rfl, fun _ _ _ _ => Nat.zero_le _⟩).1

end Ordered

end ArenaJs.Collections
