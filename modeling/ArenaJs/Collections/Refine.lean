import ArenaJs.Collections.Invariant

/-!
# A collection is an insertion-ordered map

`MapRun.abs` reads the abstract collection off the records: the live records in the order of the
list are its entries, and a cursor at a record stands just past it, whether the record is live or
has been deleted meanwhile. Every step of the code is the step of the abstract collection
(`step_refines`), and so every run is (`run_refines`), as long as its keys are ones on which
comparison and hashing agree, the counters do not wrap, and no release takes away the record that
the loop of `clear` or of `forEach` goes on with.
-/

namespace ArenaJs.Collections

variable {α : Type} {ops : KeyOps α} {good : α → Prop}

/-! ## Reading the abstract collection -/

/-- The entry of a record. -/
def JSMapState.entry (s : JSMapState α) (mr : Nat) :
    Entry α := ⟨mr, (s.mem mr).key, (s.mem mr).value⟩

/-- Where a cursor goes on. -/
def Cursor.pos (c : Cursor) : Nat :=
  match c.curRecord with
  | none => 0
  | some mr => mr + 1

/-- The position of a cursor. -/
def Cursor.place (c : Cursor) : Place := ⟨c.kind, if c.active then some c.pos else none⟩

/-- The abstract collection. -/
def MapRun.abs (S : MapRun α) : Ordered α where
  isSet := S.map.isSet
  entries := S.map.live.map S.map.entry
  nextId := S.map.fresh
  places := S.cursors.map Cursor.place

section
variable {s s' : JSMapState α} {cs : List Cursor} {mr : Nat} {key value : α}
variable {i : Nat} {it : Cursor}

theorem lookup_abs (hk : ops.Lawful good) (h : Tabled ops good s)
    (hkey : good (ops.normalize key)) :
    (MapRun.abs ⟨s, cs⟩).lookup ops key =
      (mapFindRecord ops s (ops.normalize key)).map s.entry := by
  rw [mapFindRecord_eq hk h hkey, Ordered.lookup]
  exact List.find?_map

/-- The abstract side of `map_add_record`. -/
theorem Adds.abs (ha : Adds s (ops.normalize key) value s') (h : Listed s cs) :
    MapRun.abs ⟨s', cs⟩ = (MapRun.abs ⟨s, cs⟩).append ops key value := by
  have hold : s.live.map s'.entry = s.live.map s.entry := by
    refine List.map_congr_left fun x hx => ?_
    have hne : x ≠ s.fresh := fun e =>
      h.fresh_notMem (e ▸ (JSMapState.mem_live.1 hx).1)
    rw [JSMapState.entry, ha.mem, Function.update_of_ne hne, JSMapState.entry]
  have hnew : s'.entry s.fresh = ⟨s.fresh, ops.normalize key, value⟩ := by
    rw [JSMapState.entry, ha.mem, Function.update_self]
  simp [MapRun.abs, Ordered.append, ha.live, ha.isSet, ha.fresh, hold, hnew]

/-- The abstract side of `map_delete_record`. -/
theorem Deletes.abs (hd : Deletes s mr s') :
    MapRun.abs ⟨s', cs⟩ = (MapRun.abs ⟨s, cs⟩).remove mr := by
  have hold : (s.live.filter (· ≠ mr)).map s'.entry = (s.live.filter (· ≠ mr)).map s.entry := by
    refine List.map_congr_left fun x hx => ?_
    rw [JSMapState.entry, hd.mem x (by simpa using (List.mem_filter.1 hx).2), JSMapState.entry]
  simp only [MapRun.abs, Ordered.remove, hd.isSet, hd.fresh, hd.live, hold, List.filter_map]
  rfl

/-- The abstract side of a write to a value. -/
theorem abs_setValue (s : JSMapState α) (cs : List Cursor) (mr : Nat) (value : α) :
    MapRun.abs ⟨s.setRec mr { s.mem mr with value := value }, cs⟩ =
      (MapRun.abs ⟨s, cs⟩).assign mr value := by
  have hlive : (s.setRec mr { s.mem mr with value := value }).live = s.live := live_setRec rfl
  simp only [MapRun.abs, Ordered.assign, hlive, List.map_map]
  refine congrArg (Ordered.mk s.isSet · s.fresh _) (List.map_congr_left fun x _ => ?_)
  by_cases hx : x = mr
  · subst hx
    simp [JSMapState.entry, JSMapState.setRec]
  · simp [JSMapState.entry, JSMapState.setRec, hx]

/-- Locks are not part of the abstract collection. -/
theorem Alike.abs (ha : Alike s s') : MapRun.abs ⟨s', cs⟩ = MapRun.abs ⟨s, cs⟩ := by
  have hentry : s'.entry = s.entry := funext fun x => by
    rw [JSMapState.entry, JSMapState.entry, ha.key, ha.value]
  rw [MapRun.abs, MapRun.abs, ha.live, ha.isSet, ha.fresh, hentry]

/-! ## Cursors -/

theorem dropWhile_ne_of_sorted {l : List Nat} (hl : l.Pairwise (· < ·)) (hmr : mr ∈ l) :
    l.dropWhile (· ≠ mr) = mr :: l.filter (mr + 1 ≤ ·) := by
  induction l with
  | nil => cases hmr
  | cons a l ih =>
    rw [List.pairwise_cons] at hl
    by_cases ha : a = mr
    · subst ha
      have hall : l.filter (a + 1 ≤ ·) = l := List.filter_eq_self.2 fun x hx =>
        decide_eq_true (hl.1 x hx)
      rw [List.dropWhile_cons_of_neg (by simp), List.filter_cons_of_neg (by simp), hall]
    · have hin : mr ∈ l := (List.mem_cons.1 hmr).resolve_left (Ne.symm ha)
      have hlt := hl.1 mr hin
      rw [List.dropWhile_cons_of_pos (by simpa using ha), ih hl.2 hin,
        List.filter_cons_of_neg (by simpa using Nat.lt_succ_of_lt hlt)]

/-- From a record that is in the list, empty or not, the way on is to the records made later. -/
theorem linkNext_eq (h : Listed s cs) (hmr : mr ∈ s.records) :
    linkNext s mr = some (s.records.filter (mr + 1 ≤ ·)) := by
  rw [linkNext, dropWhile_ne_of_sorted h.sorted hmr]

theorem skipEmpty_eq (he : ∀ x, (s'.mem x).empty = (s.mem x).empty) (pos : Nat) :
    skipEmpty s' (s.records.filter (pos ≤ ·)) = s.live.find? (pos ≤ ·) := by
  rw [skipEmpty, JSMapState.live, List.find?_filter, List.find?_filter]
  congr 1
  funext x
  rw [he]
  simp [and_comm]

theorem advance_abs (pos : Nat) :
    (MapRun.abs ⟨s, cs⟩).advance pos = (s.live.find? (pos ≤ ·)).map s.entry :=
  List.find?_map

theorem locks_set {c : Cursor} (hi : cs[i]? = some c) (c' : Cursor) (x : Nat) :
    locks (cs.set i c') x + (if c.curRecord = some x then 1 else 0) =
      locks cs x + if c'.curRecord = some x then 1 else 0 := by
  obtain ⟨hlt, hget⟩ := List.getElem?_eq_some_iff.1 hi
  have hset := List.countP_set (p := fun c => c.curRecord == some x) (a := c') hlt
  rw [hget] at hset
  simp only [beq_iff_eq] at hset
  have hpos : (if c.curRecord = some x then 1 else 0) ≤ locks cs x := by
    split
    · rename_i hcur
      exact mem_of_curRecord (List.mem_of_getElem? hi) hcur
    · exact Nat.zero_le _
  unfold locks at hpos ⊢
  omega

theorem idle_set {c' : Cursor} (h : Idle cs)
    (hc' : c'.active = false → c'.curRecord = none) : Idle (cs.set i c') := by
  intro c hc hact
  rcases List.mem_or_eq_of_mem_set hc with hc | rfl
  · exact h c hc hact
  · exact hc' hact

section
variable (h : MapInv ops good s cs) (hi : cs[i]? = some it)
include h hi

/-- A cursor leaves the record it is at. -/
theorem MapInv.leave :
    ∃ s', leaveRecord s it = some (s.records.filter (it.pos ≤ ·), s') ∧
      MapInv ops good s' (cs.set i { it with curRecord := none }) ∧ Alike s s' := by
  obtain ⟨kind, active, curRecord⟩ := it
  cases curRecord with
  | none =>
    refine ⟨s, ?_, ?_, .refl s⟩
    · simp [leaveRecord, Cursor.pos]
    · obtain ⟨hlt, hget⟩ := List.getElem?_eq_some_iff.1 hi
      rw [show (⟨kind, active, none⟩ : Cursor) = cs[i] from hget.symm, List.set_getElem_self]
      exact h
  | some mr =>
    have hgain : Gains (cs.set i ⟨kind, active, none⟩) cs mr := by
      intro x
      have hset := locks_set hi ⟨kind, active, none⟩ x
      simp only [Option.some.injEq, reduceCtorEq, if_false, Nat.add_zero] at hset
      rw [← hset]
      simp only [eq_comm]
    obtain ⟨s', hdec, h', hal⟩ := h.unlock hgain (idle_set h.listed.idle fun _ => rfl)
      (by rw [List.length_set]; exact h.listed.bound)
    refine ⟨s', ?_, h', hal⟩
    have hmr := h.listed.locked _ (List.mem_of_getElem? hi) mr rfl
    simp only [leaveRecord, linkNext_eq h.listed hmr, hdec]
    rfl

/-- A cursor ends. -/
theorem MapInv.ends
    (hcur : it.curRecord = none) :
    MapInv ops good s (cs.set i { it with active := false, curRecord := none }) := by
  refine h.cursors (fun x => ?_) (idle_set h.listed.idle fun _ => rfl)
    (by rw [List.length_set]; exact h.listed.bound)
  have hset := locks_set hi { it with active := false, curRecord := none } x
  simpa [hcur] using hset

/-- A cursor comes to a live record. -/
theorem MapInv.arrive
    (hcur : it.curRecord = none) (hact : it.active = true) (hmr : mr ∈ s.live) :
    MapInv ops good (mapLockRecord s mr) (cs.set i { it with curRecord := some mr }) := by
  refine h.lock (JSMapState.mem_live.1 hmr).1 (fun x => ?_)
    (idle_set h.listed.idle fun hoff => absurd (hact.symm.trans hoff) (by decide))
    (by rw [List.length_set]; exact h.listed.bound)
  have hset := locks_set hi { it with curRecord := some mr } x
  simpa [hcur, eq_comm] using hset

end

/-- A cursor goes on: it comes to the entry the abstract one comes to, or ends where that ends. -/
theorem MapInv.comesTo (h : MapInv ops good s cs) (hi : cs[i]? = some it)
    (hcur : it.curRecord = none) (hact : it.active = true) {el : List Nat} {pos : Nat}
    (hel : skipEmpty s el = s.live.find? (pos ≤ ·)) :
    skipEmpty s el = none ∧ (MapRun.abs ⟨s, cs⟩).advance pos = none ∧
        MapInv ops good s (cs.set i { it with active := false, curRecord := none }) ∨
      ∃ mr, skipEmpty s el = some mr ∧ (MapRun.abs ⟨s, cs⟩).advance pos = some (s.entry mr) ∧
        MapInv ops good (mapLockRecord s mr) (cs.set i { it with curRecord := some mr }) := by
  rw [hel, advance_abs]
  cases hfind : s.live.find? (pos ≤ ·) with
  | none => exact .inl ⟨rfl, rfl, h.ends hi hcur⟩
  | some mr =>
    exact .inr ⟨mr, rfl, rfl, h.arrive hi hcur hact (List.mem_of_find?_eq_some hfind)⟩

theorem Alike.advance (ha : Alike s s') (cs cs' : List Cursor) (pos : Nat) :
    (MapRun.abs ⟨s', cs'⟩).advance pos = (MapRun.abs ⟨s, cs⟩).advance pos := by
  rw [ha.abs]
  rfl

/-! ## Releases -/

namespace Ordered

variable (m : Ordered α)

/-- A record that is kept: an entry, or a deleted one that a cursor is at. -/
def Kept (id : Nat) : Prop := (∃ e ∈ m.entries, e.id = id) ∨ ∃ c ∈ m.places, c.pos = some (id + 1)

instance (id : Nat) : Decidable (m.Kept id) := inferInstanceAs (Decidable (_ ∨ _))

/-- The first kept record from `pos` on. -/
def First (pos id : Nat) : Prop := pos ≤ id ∧ m.Kept id ∧ ∀ j < id, pos ≤ j → ¬ m.Kept j

/-- The first kept record from `pos` on outlives the iterators that end. -/
def Spares (pos : Nat) (dying : List Nat) : Prop :=
  ∀ id < m.nextId, m.First pos id → (m.release dying).Kept id

instance (pos : Nat) (dying : List Nat) : Decidable (m.Spares pos dying) :=
  inferInstanceAs (Decidable (∀ id < m.nextId, _ ∧ _ ∧ _ → _))

/-- `clear` of the entries of a list, which starts with an entry: the record after each outlives
what goes with it. -/
def ClearOk (m : Ordered α) : List (Entry α) → List (List Nat) → Prop
  | [], _ => True
  | e :: es, dying => m.Spares (e.id + 1) (dying.headD []) ∧
      ((m.release (dying.headD [])).remove e.id).ClearOk es dying.tail

variable {m} {dying : List Nat} {id pos : Nat}

theorem mem_endPlace {places : List Place} {i : Nat} {c : Place} (hc : c ∈ endPlace places i)
    (hpos : c.pos = some pos) : c ∈ places := by
  unfold endPlace at hc
  split at hc
  · exact hc
  · split at hc
    · exact hc
    · rcases List.mem_or_eq_of_mem_set hc with hc | rfl
      · exact hc
      · cases hpos

theorem Kept.of_release (h : (m.release dying).Kept id) : m.Kept id := by
  induction dying generalizing m with
  | nil => exact h
  | cons j dying ih =>
    have h1 : (m.release [j]).Kept id := ih h
    exact h1.imp_right fun ⟨c, hc, hpos⟩ => ⟨c, mem_endPlace hc hpos, hpos⟩

theorem release_append (m : Ordered α) (a b : List Nat) :
    (m.release a).release b = m.release (a ++ b) := by
  simp only [release, List.foldl_append]

/-- A loop's position can be set before the iterators end or after. -/
theorem endPlace_set {places : List Place} {i j : Nat} {c c' : Place} (hi : places[i]? = some c)
    (hc : c.kind = none) (hc' : c'.kind = none) :
    endPlace (places.set i c') j = (endPlace places j).set i c' ∧
      (endPlace places j)[i]? = some c := by
  obtain ⟨hlt, -⟩ := List.getElem?_eq_some_iff.1 hi
  unfold endPlace
  by_cases hj : j = i
  · subst hj
    rw [List.getElem?_set_self hlt, hi]
    simp [hi, hc, hc']
  · rw [List.getElem?_set_ne (Ne.symm hj)]
    cases places[j]? with
    | none => exact ⟨rfl, hi⟩
    | some d =>
      by_cases hd : d.kind.isNone
      · simp [hd, hi]
      · simp only [hd, Bool.false_eq_true, if_false]
        exact ⟨List.set_comm _ _ (Ne.symm hj), by rw [List.getElem?_set_ne hj, hi]⟩

theorem release_set {i : Nat} {c c' : Place} (hi : m.places[i]? = some c) (hc : c.kind = none)
    (hc' : c'.kind = none) (dying : List Nat) :
    release { m with places := m.places.set i c' } dying =
      { m with places := (m.release dying).places.set i c' } := by
  simp only [release, Ordered.mk.injEq, true_and]
  generalize m.places = places at hi ⊢
  induction dying generalizing places with
  | nil => rfl
  | cons j dying ih =>
    obtain ⟨hset, hi'⟩ := endPlace_set (j := j) hi hc hc'
    rw [List.foldl_cons, hset, ih _ hi', List.foldl_cons]

end Ordered

/-- The records are the kept ones. -/
theorem Listed.kept (h : Listed s cs) {id : Nat} :
    (MapRun.abs ⟨s, cs⟩).Kept id ↔ id ∈ s.records := by
  constructor
  · rintro (⟨e, he, rfl⟩ | ⟨c, hc, hpos⟩)
    · obtain ⟨x, hx, rfl⟩ := List.mem_map.1 he
      exact (JSMapState.mem_live.1 hx).1
    · obtain ⟨it, hit, rfl⟩ := List.mem_map.1 hc
      obtain ⟨-, hpos⟩ := Option.ite_none_right_eq_some.1 hpos
      refine h.locked it hit id ?_
      unfold Cursor.pos at hpos
      split at hpos
      · cases hpos
      · rename_i hcur
        rw [hcur]
        exact congrArg some (Nat.succ.inj (Option.some.inj hpos))
  · intro hid
    cases he : (s.mem id).empty with
    | false =>
      exact .inl ⟨s.entry id, List.mem_map_of_mem (JSMapState.mem_live.2 ⟨hid, he⟩), rfl⟩
    | true =>
      obtain ⟨it, hit, hcur⟩ := List.countP_pos_iff.1 (h.held id hid he)
      have hcur : it.curRecord = some id := by simpa using hcur
      have hact : it.active = true := by
        by_contra hoff
        rw [h.idle it hit (by simpa using hoff)] at hcur
        cases hcur
      refine .inr ⟨it.place, List.mem_map_of_mem hit, ?_⟩
      simp [Cursor.place, Cursor.pos, hact, hcur]

/-- A release: the iterators end, and nothing else changes. -/
structure Released (ops : KeyOps α) (good : α → Prop) (S : MapRun α) (dying : List Nat)
    (S' : MapRun α) : Prop where
  inv : MapInv ops good S'.map S'.cursors
  alike : Alike S.map S'.map
  loops : ∀ {i : Nat} {it : Cursor}, S.cursors[i]? = some it → it.kind = none →
    S'.cursors[i]? = some it
  abs : S'.abs = S.abs.release dying

/-- The finalizer of an iterator. -/
theorem MapInv.finalize (h : MapInv ops good s cs) (hi : cs[i]? = some it) :
    ∃ s', mapIteratorFinalizer s it = some (s', { it with active := false, curRecord := none }) ∧
      MapInv ops good s' (cs.set i { it with active := false, curRecord := none }) ∧
        Alike s s' := by
  obtain ⟨s', hleave, h', hal⟩ := h.leave hi
  obtain ⟨hlt, -⟩ := List.getElem?_eq_some_iff.1 hi
  have hend := h'.ends (List.getElem?_set_self hlt) rfl
  rw [List.set_set] at hend
  refine ⟨s', ?_, hend, hal⟩
  obtain ⟨kind, active, curRecord⟩ := it
  cases curRecord with
  | none =>
    obtain ⟨-, rfl⟩ : s.records = _ ∧ s = s' := by simpa [leaveRecord] using hleave
    rfl
  | some mr =>
    obtain ⟨el, -, hleave⟩ := Option.bind_eq_some_iff.1 hleave
    obtain ⟨t, hdec, hleave⟩ := Option.bind_eq_some_iff.1 hleave
    cases hleave
    simp [mapIteratorFinalizer, hdec]

theorem MapInv.drop {S : MapRun α} (h : MapInv ops good S.map S.cursors) (j : Nat) :
    ∃ S', S.drop j = some S' ∧ Released ops good S [j] S' := by
  have hplace : S.abs.places[j]? = S.cursors[j]?.map Cursor.place := List.getElem?_map
  have hsame : (S.cursors[j]? = none ∨ ∃ it, S.cursors[j]? = some it ∧ it.kind.isNone) →
      Released ops good S [j] S := by
    intro hj
    refine ⟨h, .refl _, fun hi _ => hi, ?_⟩
    simp only [Ordered.release, List.foldl_cons, List.foldl_nil, Ordered.endPlace, hplace]
    rcases hj with hj | ⟨it, hj, hkind⟩
    · rw [hj]
      rfl
    · have hkind : it.place.kind.isNone := hkind
      simp [hj, hkind]
  unfold MapRun.drop
  cases hj : S.cursors[j]? with
  | none => exact ⟨S, rfl, hsame (.inl hj)⟩
  | some it =>
    by_cases hkind : it.kind.isNone
    · exact ⟨S, if_pos hkind, hsame (.inr ⟨it, hj, hkind⟩)⟩
    · obtain ⟨s', hfin, h', hal⟩ := h.finalize hj
      refine ⟨⟨s', S.cursors.set j { it with active := false, curRecord := none }⟩, ?_, h', hal,
        fun {i it'} hi hloop => ?_, ?_⟩
      · simp only [if_neg hkind, hfin, Option.map_some]
      · have hne : j ≠ i := by
          rintro rfl
          cases hj.symm.trans hi
          exact hkind (by rw [hloop]; rfl)
        exact (List.getElem?_set_ne hne).trans hi
      · have hkind' : ¬ it.place.kind.isNone := hkind
        rw [hal.abs]
        simp only [MapRun.abs, Ordered.release, List.foldl_cons, List.foldl_nil, Ordered.endPlace,
          List.getElem?_map, hj, Option.map_some, hkind', Bool.false_eq_true, if_false,
            List.map_set]
        rfl

theorem Released.trans {S S' T : MapRun α} {a b : List Nat} (h1 : Released ops good S a S')
    (h2 : Released ops good S' b T) : Released ops good S (a ++ b) T :=
  ⟨h2.inv, h1.alike.trans h2.alike, fun hi hk => h2.loops (h1.loops hi hk) hk, by
    rw [h2.abs, h1.abs, Ordered.release_append]⟩

theorem MapInv.release {S : MapRun α} (h : MapInv ops good S.map S.cursors) (dying : List Nat) :
    ∃ S', S.release dying = some S' ∧ Released ops good S dying S' := by
  induction dying generalizing S with
  | nil => exact ⟨S, rfl, h, .refl _, fun hi _ => hi, rfl⟩
  | cons j dying ih =>
    obtain ⟨S1, hdrop, h1⟩ := h.drop j
    obtain ⟨S2, hrel, h2⟩ := ih h1.inv
    refine ⟨S2, ?_, h1.trans h2⟩
    rw [MapRun.release, List.foldlM_cons, hdrop]
    exact hrel

/-- Releases do not look at the table. -/
theorem release_unhash (S : MapRun α) (mr : Nat) (dying : List Nat) :
    MapRun.release ⟨unhash S.map mr, S.cursors⟩ dying =
      (S.release dying).map fun S => ⟨unhash S.map mr, S.cursors⟩ := by
  have hdec : ∀ (s : JSMapState α) x, mapDecrefRecord (unhash s mr) x =
      (mapDecrefRecord s x).map (unhash · mr) := by
    intro s x
    by_cases hz : decr (s.mem x).refCount = 0
    · by_cases he : (s.mem x).empty <;> simp [mapDecrefRecord, unhash, hz, he]
    · simp [mapDecrefRecord, unhash, hz, JSMapState.setRec]
  have hdrop : ∀ (S : MapRun α) j, MapRun.drop ⟨unhash S.map mr, S.cursors⟩ j =
      (S.drop j).map fun S => ⟨unhash S.map mr, S.cursors⟩ := by
    intro S j
    unfold MapRun.drop
    cases S.cursors[j]? with
    | none => rfl
    | some it =>
      by_cases hkind : it.kind.isNone
      · simp [hkind]
      · simp only [hkind, Bool.false_eq_true, if_false]
        cases hcur : it.curRecord with
        | none => simp [mapIteratorFinalizer, hcur]
        | some x =>
          simp only [mapIteratorFinalizer, hcur, hdec]
          cases mapDecrefRecord S.map x <;> rfl
  induction dying generalizing S with
  | nil => rfl
  | cons j dying ih =>
    simp only [MapRun.release, List.foldlM_cons, hdrop]
    cases S.drop j with
    | none => rfl
    | some S1 => exact ih S1

/-- `map_delete_record` of a live record, with what goes with its key and value. -/
theorem MapInv.deleteRecord {S : MapRun α} (h : MapInv ops good S.map S.cursors)
    (hmr : mr ∈ S.map.live) (dying : List Nat) :
    ∃ S' t, mapDeleteRecord ops S mr dying = some ⟨t, S'.cursors⟩ ∧
      Released ops good S dying S' ∧ MapInv ops good t S'.cursors ∧ Deletes S'.map mr t := by
  obtain ⟨S', hrel, hr⟩ := h.release dying
  have hmr' : mr ∈ S'.map.live := by rwa [hr.alike.live]
  obtain ⟨h', hd⟩ := hr.inv.delete hmr'
  refine ⟨S', _, ?_, hr, h', hd⟩
  rw [mapDeleteRecord, (JSMapState.mem_live.1 hmr).2, release_unhash, hrel]
  rfl

/-- A record that outlives a release stays the first one. -/
theorem Released.first {S S' : MapRun α} {dying : List Nat} {pos id : Nat}
    (h : MapInv ops good S.map S.cursors) (hr : Released ops good S dying S')
    (hsp : S.abs.Spares pos dying) (hid : S.abs.First pos id) : S'.abs.First pos id := by
  refine ⟨hid.1, hr.abs ▸ hsp id (h.listed.lt id (h.listed.kept.1 hid.2.1)) hid,
    fun j hj hpos hk => ?_⟩
  exact hid.2.2 j hj hpos (Ordered.Kept.of_release (hr.abs ▸ hk))

/-! ## Steps -/

/-- What a step needs: keys on which comparison and hashing agree, room in the counters, and that
the record a loop goes on with outlives what the loop releases. -/
def Admits (ops : KeyOps α) (good : α → Prop) (m : Ordered α) : MapOp α → Prop
  | .set key _ _ | .getOrInsert key _ | .insertComputed key _ _ =>
    good (ops.normalize key) ∧ m.entries.length + 1 < 2 ^ 31
  | .get key | .has key | .delete key _ => good (ops.normalize key)
  | .iterator _ | .forEach => m.places.length + 1 < 2 ^ 31
  | .clear dying => m.ClearOk m.entries dying
  | .forEachResume i threw args ret => ∀ c ∈ m.places[i]?, c.kind = none → threw = false →
      ∀ pos ∈ c.pos, (m.release args).Spares pos ret
  | .size | .next _ | .drop _ => True

/-- The step of the code and that of the abstract collection. -/
def Refines (ops : KeyOps α) (good : α → Prop) (x : Option (Result α × MapRun α))
    (y : Result α × Ordered α) : Prop :=
  ∃ out S', x = some (out, S') ∧ MapInv ops good S'.map S'.cursors ∧ y = (out, S'.abs)

/-- A step on the collection alone. -/
theorem refines_map {out : Result α} {m : Ordered α} (h' : MapInv ops good s' cs)
    (habs : m = MapRun.abs ⟨s', cs⟩) :
    Refines ops good (some (out, ⟨s', cs⟩)) (out, m) :=
  ⟨out, ⟨s', cs⟩, rfl, h', by rw [habs]⟩

theorem MapInv.count_abs (h : MapInv ops good s cs) :
    (MapRun.abs ⟨s, cs⟩).entries.length = s.recordCount := by
  rw [h.count, MapRun.abs, List.length_map]

section
variable (hk : ops.Lawful good) (h : MapInv ops good s cs) {dying : List Nat}
include hk h

/-- `map_add_record` of a key that is not there. -/
theorem MapInv.add_refines
    (hkey : good (ops.normalize key)) (hroom : (MapRun.abs ⟨s, cs⟩).entries.length + 1 < 2 ^ 31)
    (hnew : ∀ mr ∈ s.live, ¬ ops.same (s.mem mr).key (ops.normalize key)) :
    MapInv ops good (mapAddRecord ops s (ops.normalize key) value) cs ∧
      (MapRun.abs ⟨s, cs⟩).append ops key value =
        MapRun.abs ⟨mapAddRecord ops s (ops.normalize key) value, cs⟩ := by
  rw [h.count_abs] at hroom
  obtain ⟨h', hadds⟩ := h.add hk hkey hnew hroom
  exact ⟨h', (hadds.abs h.listed).symm⟩

/-- `js_map_set`. -/
theorem mapSet_refines
    (hop : Admits ops good (MapRun.abs ⟨s, cs⟩) (.set key value dying)) :
    Refines ops good (mapStep ops ⟨s, cs⟩ (.set key value dying))
      ((MapRun.abs ⟨s, cs⟩).step ops (.set key value dying)) := by
  simp only [mapStep, mapSet, Ordered.step, lookup_abs hk h.tabled hop.1]
  cases hf : mapFindRecord ops s (ops.normalize key) with
  | some mr =>
    obtain ⟨S', hrel, hr⟩ := MapInv.release (S := ⟨s, cs⟩) h dying
    simp only [hrel, Option.map_some, ← hr.abs]
    exact refines_map (hr.inv.setValue mr _) (abs_setValue S'.map S'.cursors mr _).symm
  | none =>
    obtain ⟨h', habs⟩ := h.add_refines hk hop.1 hop.2 (mapFindRecord_none hk h.tabled hop.1 hf)
    exact refines_map h' habs

/-- `js_map_getOrInsert` with a value. -/
theorem mapGetOrInsert_refines
    (hop : Admits ops good (MapRun.abs ⟨s, cs⟩) (.getOrInsert key value)) :
    Refines ops good (mapStep ops ⟨s, cs⟩ (.getOrInsert key value))
      ((MapRun.abs ⟨s, cs⟩).step ops (.getOrInsert key value)) := by
  simp only [mapStep, mapGetOrInsert, Ordered.step, lookup_abs hk h.tabled hop.1]
  cases hf : mapFindRecord ops s (ops.normalize key) with
  | some mr => exact refines_map h rfl
  | none =>
    obtain ⟨h', habs⟩ := h.add_refines hk hop.1 hop.2 (mapFindRecord_none hk h.tabled hop.1 hf)
    exact refines_map h' habs

/-- `js_map_getOrInsert` after its callback: the entry the callback made is gone before the new one
is added. -/
theorem mapInsertComputed_refines
    (hop : Admits ops good (MapRun.abs ⟨s, cs⟩) (.insertComputed key value dying)) :
    Refines ops good (mapStep ops ⟨s, cs⟩ (.insertComputed key value dying))
      ((MapRun.abs ⟨s, cs⟩).step ops (.insertComputed key value dying)) := by
  simp only [mapStep, mapInsertComputed, Ordered.step, lookup_abs hk h.tabled hop.1]
  cases hf : mapFindRecord ops s (ops.normalize key) with
  | some mr =>
    obtain ⟨hmr, hsame⟩ := mapFindRecord_some hk h.tabled hop.1 hf
    obtain ⟨S', t, hdel, hr, h1, hd⟩ := MapInv.deleteRecord (S := ⟨s, cs⟩) h hmr dying
    have hlive : t.live = s.live.filter (· ≠ mr) := by rw [hd.live, hr.alike.live]
    have hroom : (MapRun.abs ⟨t, S'.cursors⟩).entries.length + 1 < 2 ^ 31 := by
      have hle := List.length_filter_le (· ≠ mr) s.live
      have hlen : (MapRun.abs ⟨s, cs⟩).entries.length + 1 < 2 ^ 31 := hop.2
      simp only [MapRun.abs, List.length_map, hlive] at hlen ⊢
      omega
    -- no other record has the key
    have hnew : ∀ x ∈ t.live, ¬ ops.same (t.mem x).key (ops.normalize key) := by
      intro x hx hxs
      obtain ⟨hx, hne⟩ := hd.mem_live.1 hx
      rw [hr.alike.live] at hx
      rw [hd.mem x hne, hr.alike.key] at hxs
      have hgx := h.tabled.good x hx
      have hgm := h.tabled.good mr hmr
      exact hne (h.tabled.distinct x hx mr hmr
        (hk.trans hgx hop.1 hgm hxs (hk.symm hgm hop.1 hsame)))
    obtain ⟨h', habs⟩ := h1.add_refines hk hop.1 hroom hnew
    simp only [hdel, Option.map_some, ← hr.abs]
    refine refines_map h' ?_
    rw [← habs, hd.abs]
    rfl
  | none =>
    obtain ⟨h', habs⟩ := h.add_refines hk hop.1 hop.2 (mapFindRecord_none hk h.tabled hop.1 hf)
    exact refines_map h' habs

/-- `js_map_delete`. -/
theorem mapDelete_refines
    (hop : Admits ops good (MapRun.abs ⟨s, cs⟩) (.delete key dying)) :
    Refines ops good (mapStep ops ⟨s, cs⟩ (.delete key dying))
      ((MapRun.abs ⟨s, cs⟩).step ops (.delete key dying)) := by
  simp only [mapStep, mapDelete, Ordered.step, lookup_abs hk h.tabled hop]
  cases hf : mapFindRecord ops s (ops.normalize key) with
  | some mr =>
    obtain ⟨hmr, -⟩ := mapFindRecord_some hk h.tabled hop hf
    obtain ⟨S', t, hdel, hr, h', hd⟩ := MapInv.deleteRecord (S := ⟨s, cs⟩) h hmr dying
    simp only [hdel, Option.map_some, ← hr.abs]
    exact refines_map h' hd.abs.symm
  | none => exact refines_map h rfl

end

/-! ### The loop of `clear` -/

/-- Where a loop over the records is: at the first one from `pos` on, or at the end. -/
def Ordered.At (m : Ordered α) (pos : Nat) : Option Nat → Prop
  | none => ∀ j, pos ≤ j → ¬ m.Kept j
  | some id => m.First pos id

theorem filter_le_of_sorted {l : List Nat} (hl : l.Pairwise (· < ·)) (hmr : mr ∈ l) :
    l.filter (mr ≤ ·) = mr :: l.filter (mr + 1 ≤ ·) := by
  induction l with
  | nil => cases hmr
  | cons a l ih =>
    rw [List.pairwise_cons] at hl
    rcases List.mem_cons.1 hmr with rfl | hin
    · have hall : l.filter (mr + 1 ≤ ·) = l.filter (mr ≤ ·) := List.filter_congr fun x hx => by
        have := hl.1 x hx
        simp only [decide_eq_decide]
        omega
      rw [List.filter_cons_of_pos (by simp), List.filter_cons_of_neg (by simp), hall]
    · have hlt := hl.1 mr hin
      rw [List.filter_cons_of_neg (by simp; omega), List.filter_cons_of_neg (by simp; omega),
        ih hl.2 hin]

theorem Listed.at (h : Listed s cs) (pos : Nat) :
    (MapRun.abs ⟨s, cs⟩).At pos (s.records.filter (pos ≤ ·)).head? := by
  cases hl : s.records.filter (pos ≤ ·) with
  | nil =>
    intro j hj hk
    have hmem : j ∈ s.records.filter (pos ≤ ·) :=
      List.mem_filter.2 ⟨h.kept.1 hk, decide_eq_true hj⟩
    rw [hl] at hmem
    cases hmem
  | cons id l =>
    have hsorted := h.sorted.filter (decide <| pos ≤ ·)
    rw [hl, List.pairwise_cons] at hsorted
    have hid : id ∈ s.records.filter (pos ≤ ·) := by rw [hl]; exact List.mem_cons_self
    obtain ⟨hid, hpos⟩ := List.mem_filter.1 hid
    refine ⟨by simpa using hpos, h.kept.2 hid, fun j hj hpj hk => ?_⟩
    have hmem : j ∈ s.records.filter (pos ≤ ·) :=
      List.mem_filter.2 ⟨h.kept.1 hk, decide_eq_true hpj⟩
    rw [hl] at hmem
    rcases List.mem_cons.1 hmem with rfl | hmem
    · exact Nat.lt_irrefl j hj
    · exact Nat.lt_asymm hj (hsorted.1 j hmem)

/-- A loop at the first record from `pos` on has the entries from there on before it. -/
theorem Ordered.First.entries {m : Ordered α} {pos id : Nat} (hid : m.First pos id) :
    m.entries.filter (pos ≤ ·.id) = m.entries.filter (id ≤ ·.id) :=
  List.filter_congr fun e he => by
    rw [decide_eq_decide]
    refine ⟨fun hpos => ?_, fun hle => Nat.le_trans hid.1 hle⟩
    by_contra hlt
    exact hid.2.2 e.id (by omega) hpos (.inl ⟨e, he, rfl⟩)

theorem Ordered.First.entries_lt {m : Ordered α} {pos id : Nat} (hid : m.First pos id) :
    (m.entries.filter (·.id ≠ id)).filter (·.id < id + 1) = m.entries.filter (·.id < pos) := by
  rw [List.filter_filter]
  refine List.filter_congr fun e he => ?_
  by_cases heq : e.id = id
  · simp [heq, hid.1]
  · have hlt : e.id < id + 1 ↔ e.id < pos := by
      refine ⟨fun hlt => ?_, fun hlt => Nat.lt_succ_of_lt (Nat.lt_of_lt_of_le hlt hid.1)⟩
      by_contra hpos
      exact hid.2.2 e.id (by omega) (by omega) (.inl ⟨e, he, rfl⟩)
    simp [heq, hlt]

theorem Ordered.kept_remove {m : Ordered α} {id j : Nat} (hj : j ≠ id) :
    (m.remove id).Kept j ↔ m.Kept j := by
  refine or_congr_left ⟨?_, ?_⟩
  · rintro ⟨e, he, rfl⟩
    exact ⟨e, (List.mem_filter.1 he).1, rfl⟩
  · rintro ⟨e, he, rfl⟩
    exact ⟨e, List.mem_filter.2 ⟨he, by simpa using hj⟩, rfl⟩

/-- The loop goes on with the record it saved. -/
theorem Released.at {S S' : MapRun α} {dying : List Nat} {id : Nat} {o : Option Nat}
    (h : MapInv ops good S.map S.cursors) (hr : Released ops good S dying S')
    (hsp : S.abs.Spares (id + 1) dying) (ho : S.abs.At (id + 1) o) :
    (S'.abs.remove id).At (id + 1) o := by
  have hkept : ∀ j, id + 1 ≤ j → (S'.abs.remove id).Kept j → S.abs.Kept j := fun j hj hk =>
    .of_release (hr.abs ▸ (Ordered.kept_remove (by omega)).1 hk)
  cases o with
  | none => exact fun j hj hk => ho j hj (hkept j hj hk)
  | some z =>
    have hz := hr.first h hsp ho
    exact ⟨hz.1, (Ordered.kept_remove (by have := hz.1; omega)).2 hz.2.1,
      fun j hj hpos hk => ho.2.2 j hj hpos (hkept j hpos hk)⟩

/-- At the end of the list no entry is left to delete. -/
theorem Ordered.At.abs_eq {m : Ordered α} {pos : Nat} (h : m.At pos none)
    (dying : List (List Nat)) :
    m = { m.release (dying.take (m.entries.filter (pos ≤ ·.id)).length).flatten with
      entries := m.entries.filter (·.id < pos) } := by
  have hlt : ∀ e ∈ m.entries, e.id < pos := fun e he => by
    by_contra hpos
    exact h e.id (by omega) (.inl ⟨e, he, rfl⟩)
  have hnil : m.entries.filter (pos ≤ ·.id) = [] := List.filter_eq_nil_iff.2 fun e he => by
    simpa using hlt e he
  have hall : m.entries.filter (·.id < pos) = m.entries :=
    List.filter_eq_self.2 fun e he => decide_eq_true (hlt e he)
  rw [hnil, hall]
  rfl

theorem take_succ_flatten (dying : List (List Nat)) (n : Nat) :
    (dying.take (n + 1)).flatten = dying.headD [] ++ (dying.tail.take n).flatten := by
  cases dying <;> simp

/-- An emptied record has no entry. -/
theorem ne_of_empty {S : MapRun α} {id : Nat} (he : (S.map.mem id).empty = true) :
    ∀ e ∈ S.abs.entries, e.id ≠ id := by
  rintro _ hin rfl
  obtain ⟨x, hx, rfl⟩ := List.mem_map.1 hin
  exact absurd ((JSMapState.mem_live.1 hx).2.symm.trans he) (by decide)

/-- The entries from a live record on. -/
theorem MapInv.entries_from {S : MapRun α} {id : Nat} (h : MapInv ops good S.map S.cursors)
    (hlive : id ∈ S.map.live) : S.abs.entries.filter (id ≤ ·.id) =
      S.map.entry id :: S.abs.entries.filter (id + 1 ≤ ·.id) := by
  have hsorted : S.map.live.Pairwise (· < ·) := h.listed.sorted.filter _
  have hmap : ∀ n, S.abs.entries.filter (n ≤ ·.id) =
      (S.map.live.filter (n ≤ ·)).map S.map.entry := fun _ => List.filter_map
  rw [hmap, hmap, filter_le_of_sorted hsorted hlive, List.map_cons]

theorem clearFrom_refines {fuel : Nat} {S : MapRun α} {dying : List (List Nat)} {pos : Nat}
    {o : Option Nat} (h : MapInv ops good S.map S.cursors) (hfuel : S.map.fresh ≤ pos + fuel)
    (ho : S.abs.At pos o) (hok : S.abs.ClearOk (S.abs.entries.filter (pos ≤ ·.id)) dying) :
    ∃ S', clearFrom ops fuel S o dying = some S' ∧ MapInv ops good S'.map S'.cursors ∧
      S'.abs = { S.abs.release
          (dying.take (S.abs.entries.filter (pos ≤ ·.id)).length).flatten with
        entries := S.abs.entries.filter (·.id < pos) } := by
  -- on the fuel, which is enough for the records that were ever made
  induction fuel generalizing S dying pos o with
  | zero =>
    cases o with
    | none => exact ⟨S, by rw [clearFrom], h, ho.abs_eq dying⟩
    | some id =>
      have := h.listed.lt id (h.listed.kept.1 ho.2.1)
      have := ho.1
      omega
  | succ fuel ih =>
    cases o with
    | none => exact ⟨S, by rw [clearFrom], h, ho.abs_eq dying⟩
    | some id =>
      have hmem := h.listed.kept.1 ho.2.1
      have hlt := h.listed.lt id hmem
      have hpos := ho.1
      have hat := h.listed.at (id + 1)
      rw [ho.entries] at hok ⊢
      rw [clearFrom, linkNext_eq h.listed hmem]
      cases he : (S.map.mem id).empty with
      | true =>
        have hne := ne_of_empty he
        have hskip : S.abs.entries.filter (id ≤ ·.id) = S.abs.entries.filter (id + 1 ≤ ·.id) :=
          List.filter_congr fun e hin => by
            have := hne e hin
            rw [decide_eq_decide]
            omega
        rw [hskip] at hok ⊢
        obtain ⟨S', hrun, h', habs⟩ := ih h (by omega) hat hok
        refine ⟨S', by simpa [he] using hrun, h', ?_⟩
        have hall : S.abs.entries.filter (·.id ≠ id) = S.abs.entries :=
          List.filter_eq_self.2 fun e hin => decide_eq_true (hne e hin)
        rw [habs, ← ho.entries_lt, hall]
      | false =>
        have hlive : id ∈ S.map.live := JSMapState.mem_live.2 ⟨hmem, he⟩
        rw [h.entries_from hlive] at hok ⊢
        obtain ⟨hsp, hok⟩ := hok
        replace hsp : S.abs.Spares (id + 1) (dying.headD []) := hsp
        obtain ⟨S1, t, hdel, hr, h1, hd⟩ := h.deleteRecord hlive (dying.headD [])
        have habs1 : MapRun.abs ⟨t, S1.cursors⟩ = (S.abs.release (dying.headD [])).remove id := by
          rw [← hr.abs]
          exact hd.abs
        have hrest : (MapRun.abs ⟨t, S1.cursors⟩).entries.filter (id + 1 ≤ ·.id) =
            S.abs.entries.filter (id + 1 ≤ ·.id) := by
          rw [habs1]
          simp only [Ordered.remove, Ordered.release, List.filter_filter]
          refine List.filter_congr fun e _ => ?_
          by_cases heq : e.id = id <;> simp [heq]
        have hfuel1 : t.fresh ≤ id + 1 + fuel := by
          rw [hd.fresh, hr.alike.fresh]
          omega
        obtain ⟨S2, hrun, h2, habs2⟩ := ih (S := ⟨t, S1.cursors⟩) h1 hfuel1
          (by rw [habs1, ← hr.abs]; exact hr.at h hsp hat) (by rw [hrest, habs1]; exact hok)
        refine ⟨S2, ?_, h2, ?_⟩
        · simp only [Option.bind_eq_bind, Option.bind_some, Bool.false_eq_true, if_false, hdel]
          exact hrun
        have hlast := ho.entries_lt
        rw [habs2, hrest, List.length_cons, take_succ_flatten, habs1, ← Ordered.release_append]
        simp only [Ordered.release, Ordered.remove, hlast]

/-- `js_map_clear`. -/
theorem mapClear_refines {dying : List (List Nat)} (h : MapInv ops good s cs)
    (hop : Admits ops good (MapRun.abs ⟨s, cs⟩) (.clear dying)) :
    Refines ops good (mapStep ops ⟨s, cs⟩ (.clear dying))
      ((MapRun.abs ⟨s, cs⟩).step ops (.clear dying)) := by
  have hall : (MapRun.abs ⟨s, cs⟩).entries.filter (0 ≤ ·.id) = (MapRun.abs ⟨s, cs⟩).entries :=
    List.filter_eq_self.2 fun _ _ => rfl
  have hat := h.listed.at 0
  rw [show s.records.filter (0 ≤ ·) = s.records from List.filter_eq_self.2 fun _ _ => rfl] at hat
  obtain ⟨S', hrun, h', habs⟩ := clearFrom_refines (S := ⟨s, cs⟩) h (Nat.le_add_left s.fresh 0) hat
    (by rw [hall]; exact hop)
  refine ⟨.undefined, S', by simp only [mapStep, mapClear, hrun, Option.map_some], h', ?_⟩
  rw [habs, hall]
  simp [Ordered.step]

/-! ### Cursors -/

/-- A step on a cursor. -/
theorem move_refines {isLoop : Bool} (h : MapInv ops good s cs)
    {f : Cursor → Option (Result α × MapRun α)} {g : Place → Result α × Ordered α}
    (hfg : ∀ it, cs[i]? = some it → it.kind.isNone = isLoop →
    Refines ops good (f it) (g it.place)) :
    Refines ops good (MapRun.move ⟨s, cs⟩ i isLoop f) ((MapRun.abs ⟨s, cs⟩).move i isLoop g) := by
  have hplace : (MapRun.abs ⟨s, cs⟩).places[i]? = cs[i]?.map Cursor.place := List.getElem?_map
  rw [MapRun.move, Ordered.move, hplace]
  cases hi : cs[i]? with
  | none => exact ⟨.invalid, _, rfl, h, rfl⟩
  | some it =>
    simp only [Option.map_some]
    by_cases hkind : it.kind.isNone = isLoop
    · have hkind' : it.place.kind.isNone = isLoop := hkind
      rw [if_pos hkind, if_pos hkind']
      exact hfg it hi hkind
    · have hkind' : ¬ it.place.kind.isNone = isLoop := hkind
      rw [if_neg hkind, if_neg hkind']
      exact ⟨.invalid, _, rfl, h, rfl⟩

theorem abs_set (s : JSMapState α) (cs : List Cursor) (i : Nat) (it : Cursor) :
    MapRun.abs ⟨s, cs.set i it⟩ = { MapRun.abs ⟨s, cs⟩ with
      places := (MapRun.abs ⟨s, cs⟩).places.set i it.place } := by
  simp [MapRun.abs]

/-- The cursor has moved, and the entries are the same. -/
theorem refines_moved {S : MapRun α} {out : Result α} {m : Ordered α}
    (h' : MapInv ops good s' (S.cursors.set i it)) (hal : Alike S.map s')
    (hm : { m with places := m.places.set i it.place } =
      { S.abs with places := S.abs.places.set i it.place }) :
    Refines ops good (some (S.moved i (out, s', it))) (m.moved i (out, it.place)) := by
  refine ⟨out, ⟨s', S.cursors.set i it⟩, rfl, h', ?_⟩
  rw [hal.abs, abs_set, Ordered.moved, hm]

theorem Alike.lock (h : Alike s s') (mr : Nat) : Alike s (mapLockRecord s' mr) :=
  h.trans (alike_setRec s' mr _)

theorem place_of_active (hact : it.active = true) :
    it.place = ⟨it.kind, some it.pos⟩ := by
  rw [Cursor.place, if_pos hact]

theorem place_of_ended (hact : it.active = false) : it.place = ⟨it.kind, none⟩ := by
  rw [Cursor.place, hact]
  rfl

/-- A cursor that leaves its record has the records from there on before it. -/
theorem skipEmpty_alike (hal : Alike s s') (pos : Nat) :
    skipEmpty s' (s.records.filter (pos ≤ ·)) = s'.live.find? (pos ≤ ·) := by
  rw [skipEmpty_eq hal.empty, hal.live]

/-- `js_map_iterator_next`. -/
theorem mapIteratorNext_refines (h : MapInv ops good s cs) :
    Refines ops good (mapStep ops ⟨s, cs⟩ (.next i))
      ((MapRun.abs ⟨s, cs⟩).step ops (.next i)) := by
  refine move_refines h fun it hi hkind => ?_
  obtain ⟨kind, hkind⟩ := Option.isSome_iff_exists.1 (Option.isNone_eq_false_iff.1 hkind)
  obtain ⟨hlt, hget⟩ := List.getElem?_eq_some_iff.1 hi
  cases hact : it.active with
  | false =>
    have hset : cs.set i it = cs := by rw [← hget, List.set_getElem_self]
    rw [place_of_ended hact]
    refine ⟨.done, ⟨s, cs⟩, ?_, h, rfl⟩
    simp [mapIteratorNext, hact, MapRun.moved, hset]
  | true =>
    obtain ⟨s', hleave, h', hal⟩ := h.leave hi
    have hgo := h'.comesTo (List.getElem?_set_self hlt) rfl hact (skipEmpty_alike hal it.pos)
    rw [hal.advance cs, List.set_set] at hgo
    rw [place_of_active hact]
    obtain ⟨_, _, cur⟩ := it
    subst hkind hact
    simp only [mapIteratorNext, Bool.not_true, Bool.false_eq_true, if_false, hleave,
      Option.bind_eq_bind, Option.bind_some, Option.getD_some, Ordered.moveFrom]
    rcases hgo with ⟨hnone, hadv, h'⟩ | ⟨mr, hsome, hadv, h'⟩
    · rw [hnone, hadv]
      exact refines_moved (S := ⟨s, cs⟩) h' hal rfl
    · rw [hsome, hadv]
      have hyield : (MapRun.abs ⟨s, cs⟩).yields (some kind) (s'.entry mr) = yields s' kind mr := by
        simp only [Ordered.yields, yields, MapRun.abs, JSMapState.entry, hal.isSet]
        cases kind <;> rfl
      simp only [hyield]
      rw [List.set_set] at h'
      exact refines_moved (S := ⟨s, cs⟩) h' (hal.lock mr) rfl

/-- The loop of `js_map_forEach` goes on. -/
theorem forEachFrom_refines {el : List Nat} {m : Ordered α} {pos : Nat}
    (hact : it.active = true) (hkind : it.kind = none) (hset : m.isSet = s.isSet)
    (hgo : skipEmpty s el = none ∧ m.advance pos = none ∧
        MapInv ops good s (cs.set i { it with active := false, curRecord := none }) ∨
      ∃ mr, skipEmpty s el = some mr ∧ m.advance pos = some (s.entry mr) ∧
        MapInv ops good (mapLockRecord s mr) (cs.set i { it with curRecord := some mr })) :
    ∃ out t it', forEachFrom s it el = (out, t, it') ∧ MapInv ops good t (cs.set i it') ∧
      Alike s t ∧ m.moveFrom none pos = (out, it'.place) := by
  obtain ⟨_, _, cur⟩ := it
  subst hkind hact
  rw [forEachFrom, Ordered.moveFrom]
  rcases hgo with ⟨hnone, hadv, h'⟩ | ⟨mr, hsome, hadv, h'⟩
  · rw [hnone, hadv]
    exact ⟨.undefined, s, _, rfl, h', .refl s, rfl⟩
  · rw [hsome, hadv]
    refine ⟨_, _, _, rfl, h', Alike.lock (.refl s) mr, ?_⟩
    simp only [Ordered.yields, hset]
    rfl

/-- A loop that has released a value goes on where it was, if the record is still there. -/
theorem reenter_eq {cs' : List Cursor} {pos : Nat} (h : Listed s cs) (h' : Listed s' cs')
    (hsub : ∀ x ∈ s'.records, x ∈ s.records)
    (hfirst : ∀ id, (MapRun.abs ⟨s, cs⟩).First pos id → id ∈ s'.records) :
    reenter s' (s.records.filter (pos ≤ ·)) = some (s'.records.filter (pos ≤ ·)) := by
  have hat := h.at pos
  cases hl : s.records.filter (pos ≤ ·) with
  | nil =>
    refine congrArg some (List.filter_eq_nil_iff.2 fun x hx hpos => ?_).symm
    have hmem : x ∈ s.records.filter (pos ≤ ·) := List.mem_filter.2 ⟨hsub x hx, hpos⟩
    rw [hl] at hmem
    cases hmem
  | cons id l =>
    rw [hl] at hat
    have hid := hfirst id hat
    have hcut : s'.records.filter (pos ≤ ·) = s'.records.filter (id ≤ ·) :=
      List.filter_congr fun x hx => by
        rw [decide_eq_decide]
        refine ⟨fun hpos => ?_, fun hle => Nat.le_trans hat.1 hle⟩
        by_contra hlt
        exact hat.2.2 x (by omega) hpos (h.kept.2 (hsub x hx))
    rw [reenter, if_pos hid, hcut, dropWhile_ne_of_sorted h'.sorted hid,
      filter_le_of_sorted h'.sorted hid]

/-- A cursor that is not at a record does not keep it. -/
theorem Ordered.Kept.set {m : Ordered α} {id : Nat} {c c' : Place} (h : m.Kept id)
    (hi : m.places[i]? = some c) (hc : c.pos ≠ some (id + 1)) :
    Ordered.Kept { m with places := m.places.set i c' } id := by
  refine h.imp_right ?_
  rintro ⟨d, hd, hpos⟩
  obtain ⟨j, hj⟩ := List.getElem?_of_mem hd
  refine ⟨d, List.mem_of_getElem? (i := j) ?_, hpos⟩
  rw [List.getElem?_set_ne, hj]
  rintro rfl
  cases hi.symm.trans hj
  exact hc hpos

/-- The loop goes on at a record that outlives what the callback returned. -/
theorem MapInv.reenter {S S' : MapRun α} {ret : List Nat} (h : MapInv ops good S.map S.cursors)
    (hi : S.cursors[i]? = some it) (hact : it.active = true) (hkind : it.kind = none)
    (hal : Alike S.map s')
    (hr : Released ops good ⟨s', S.cursors.set i { it with curRecord := none }⟩ ret S')
    (hsp : S.abs.Spares it.pos ret) :
    reenter S'.map (S.map.records.filter (it.pos ≤ ·)) =
      some (S'.map.records.filter (it.pos ≤ ·)) := by
  refine reenter_eq h.listed hr.inv.listed (fun x hx => hal.records x (hr.alike.records x hx))
    fun id hid => hr.inv.listed.kept.1 ?_
  have hplace : S.abs.places[i]? = some it.place := by simp [MapRun.abs, hi]
  obtain ⟨S1, -, hr1⟩ := h.release ret
  have hplace1 : (S.abs.release ret).places[i]? = some it.place := by
    rw [← hr1.abs]
    simp [MapRun.abs, hr1.loops hi hkind]
  rw [hr.abs, hal.abs, abs_set, Ordered.release_set hplace hkind hkind]
  refine (hsp id (h.listed.lt id (h.listed.kept.1 hid.2.1)) hid).set hplace1 ?_
  rw [place_of_active hact]
  intro heq
  have hle := hid.1
  rw [Option.some.inj heq] at hle
  omega

/-- `js_map_forEach` after a call of its callback. -/
theorem forEachResume_refines {threw : Bool} {args ret : List Nat} (h : MapInv ops good s cs)
    (hop : Admits ops good (MapRun.abs ⟨s, cs⟩) (.forEachResume i threw args ret)) :
    Refines ops good (mapStep ops ⟨s, cs⟩ (.forEachResume i threw args ret))
      ((MapRun.abs ⟨s, cs⟩).step ops (.forEachResume i threw args ret)) := by
  refine move_refines h fun it hi hkind => ?_
  have hkind : it.kind = none := Option.isNone_iff_eq_none.1 hkind
  have hplace : (MapRun.abs ⟨s, cs⟩).places[i]? = some it.place := by
    simp [MapRun.abs, hi]
  cases hact : it.active with
  | false =>
    rw [place_of_ended hact]
    exact ⟨.invalid, ⟨s, cs⟩, by simp [forEachResume, hact], h, rfl⟩
  | true =>
    obtain ⟨S1, hrel1, hr1⟩ := MapInv.release (S := ⟨s, cs⟩) h args
    have hi1 := hr1.loops hi hkind
    have hplace1 : S1.abs.places[i]? = some it.place := by simp [MapRun.abs, hi1]
    obtain ⟨hlt1, -⟩ := List.getElem?_eq_some_iff.1 hi1
    obtain ⟨s2, hleave, h2, hal2⟩ := hr1.inv.leave hi1
    simp only [forEachResume, hact, Bool.not_true, Bool.false_eq_true, if_false, hrel1, hleave,
      Option.bind_eq_bind, Option.bind_some]
    cases threw with
    | true =>
      have hend := h2.ends (List.getElem?_set_self hlt1) rfl
      rw [hact] at hend
      rw [place_of_active hact]
      refine ⟨.done, _, rfl, hend, ?_⟩
      rw [List.set_set, hal2.abs, abs_set]
      simp only [hr1.abs, Ordered.moved, if_true]
      rfl
    | false =>
      obtain ⟨S3, hrel3, hr3⟩ := MapInv.release (S := ⟨s2, S1.cursors.set i _⟩) h2 ret
      have hi3 := hr3.loops (List.getElem?_set_self hlt1) hkind
      have habs3 : S3.abs = { MapRun.abs ⟨s, cs⟩ with
          places := ((MapRun.abs ⟨s, cs⟩).release (args ++ ret)).places.set i ⟨none, some 0⟩ } := by
        rw [hr3.abs, hal2.abs, abs_set, Ordered.release_set hplace1 hkind hkind, hr1.abs,
          ← Ordered.release_append, Cursor.place, hact, hkind]
        rfl
      have hsp : S1.abs.Spares it.pos ret := by
        rw [hr1.abs]
        exact hop it.place hplace hkind rfl it.pos (by rw [place_of_active hact]; rfl)
      have hal3 : Alike s S3.map := hr1.alike.trans (hal2.trans hr3.alike)
      have hgo := hr3.inv.comesTo hi3 rfl hact (skipEmpty_alike (.refl _) it.pos)
      rw [hal3.advance cs] at hgo
      obtain ⟨out, t, it', hfor, h', hal', habs⟩ :=
        forEachFrom_refines hact hkind hal3.isSet.symm hgo
      rw [hact] at hrel3
      rw [hrel3, Option.bind_some, hr1.inv.reenter hi1 hact hkind hal2 hr3 hsp,
        Option.bind_some, hfor,
        place_of_active hact, hkind]
      simp only [Bool.false_eq_true, if_false, habs]
      refine refines_moved (S := S3) h' hal' ?_
      rw [habs3]
      simp [Ordered.release]

/-- The start of `js_map_forEach`. -/
theorem forEach_refines (h : MapInv ops good s cs)
    (hop : Admits ops good (MapRun.abs ⟨s, cs⟩) .forEach) :
    Refines ops good (mapStep ops ⟨s, cs⟩ .forEach) ((MapRun.abs ⟨s, cs⟩).step ops .forEach) := by
  have hbound : cs.length + 1 < 2 ^ 31 := by simpa [Admits, MapRun.abs] using hop
  have h1 : MapInv ops good s (cs ++ [⟨none, true, none⟩]) := by
    refine h.cursors (fun x => ?_) ?_ (by simpa using hbound)
    · simp [locks]
    · intro c hc
      rcases List.mem_append.1 hc with hc | hc
      · exact h.listed.idle c hc
      · rw [List.mem_singleton.1 hc]
        exact fun _ => rfl
  have hi : (cs ++ [⟨none, true, none⟩])[cs.length]? = some (⟨none, true, none⟩ : Cursor) :=
    List.getElem?_concat_length
  have hall : s.records.filter (0 ≤ ·) = s.records := List.filter_eq_self.2 fun _ _ => rfl
  have hgo := h1.comesTo hi rfl rfl (skipEmpty_alike (.refl s) 0)
  rw [hall, (Alike.refl s).advance cs] at hgo
  obtain ⟨out, t, it', hfor, h', hal', habs⟩ := forEachFrom_refines rfl rfl rfl hgo
  rw [List.set_append_right _ _ (Nat.le_refl _), Nat.sub_self] at h'
  refine ⟨out, ⟨t, cs ++ [it']⟩, by simp only [mapStep, hfor], h', ?_⟩
  simp only [Ordered.step, habs]
  rw [hal'.abs]
  simp [MapRun.abs]

/-- A new iterator. -/
theorem iterator_refines {kind : IteratorKind} (h : MapInv ops good s cs)
    (hop : Admits ops good (MapRun.abs ⟨s, cs⟩) (.iterator kind)) :
    Refines ops good (mapStep ops ⟨s, cs⟩ (.iterator kind))
      ((MapRun.abs ⟨s, cs⟩).step ops (.iterator kind)) := by
  have hbound : cs.length + 1 < 2 ^ 31 := by simpa [Admits, MapRun.abs] using hop
  refine ⟨.cursor cs.length, _, rfl, h.cursors (fun x => ?_) ?_ (by simpa using hbound), ?_⟩
  · simp [locks]
  · intro c hc
    rcases List.mem_append.1 hc with hc | hc
    · exact h.listed.idle c hc
    · rw [List.mem_singleton.1 hc]
      exact fun _ => rfl
  · simp [Ordered.step, MapRun.abs, Cursor.place, Cursor.pos]

/-- Every step of the code is the step of the abstract collection. -/
theorem step_refines (hk : ops.Lawful good) {S : MapRun α} (h : MapInv ops good S.map S.cursors)
    (op : MapOp α) (hop : Admits ops good S.abs op) :
    Refines ops good (mapStep ops S op) (S.abs.step ops op) := by
  obtain ⟨s, cs⟩ := S
  cases op with
  | set key value dying => exact mapSet_refines hk h hop
  | get key =>
    refine ⟨_, _, rfl, h, ?_⟩
    have hop : good (ops.normalize key) := hop
    simp only [Ordered.step, lookup_abs hk h.tabled hop, mapGet]
    cases mapFindRecord ops s (ops.normalize key) <;> rfl
  | has key =>
    refine ⟨_, _, rfl, h, ?_⟩
    have hop : good (ops.normalize key) := hop
    simp [Ordered.step, lookup_abs hk h.tabled hop, mapHas]
  | delete key dying => exact mapDelete_refines hk h hop
  | clear dying => exact mapClear_refines h hop
  | size =>
    refine ⟨_, _, rfl, h, ?_⟩
    simp [Ordered.step, MapInv.count_abs h]
  | getOrInsert key value => exact mapGetOrInsert_refines hk h hop
  | insertComputed key value dying => exact mapInsertComputed_refines hk h hop
  | iterator kind => exact iterator_refines h hop
  | next i => exact mapIteratorNext_refines h
  | drop i =>
    obtain ⟨S', hdrop, hr⟩ := MapInv.drop (S := ⟨s, cs⟩) h i
    exact ⟨.undefined, S', by simp only [mapStep, hdrop, Option.map_some], hr.inv, by
      rw [hr.abs]; rfl⟩
  | forEach => exact forEach_refines h hop
  | forEachResume i threw args ret => exact forEachResume_refines h hop

/-! ## Runs -/

/-- Every step of a run has what it needs. -/
def AdmitsAll (ops : KeyOps α) (good : α → Prop) (m : Ordered α) : List (MapOp α) → Prop
  | [] => True
  | op :: l => Admits ops good m op ∧ AdmitsAll ops good (m.step ops op).2 l

/-- Every run of the code is the run of the abstract collection. -/
theorem run_refines (hk : ops.Lawful good) {l : List (MapOp α)} {S : MapRun α}
    (h : MapInv ops good S.map S.cursors) (hl : AdmitsAll ops good S.abs l) :
    ∃ S', mapRun ops S l = some ((S.abs.run ops l).1, S') ∧
      MapInv ops good S'.map S'.cursors ∧ (S.abs.run ops l).2 = S'.abs := by
  induction l generalizing S with
  | nil => exact ⟨S, rfl, h, rfl⟩
  | cons op l ih =>
    obtain ⟨out, S1, hstep, h1, habs⟩ := step_refines hk h op hl.1
    have hl1 : AdmitsAll ops good S1.abs l := by
      have := hl.2
      rwa [habs] at this
    obtain ⟨S2, hrun, h2, habs2⟩ := ih h1 hl1
    refine ⟨S2, ?_, h2, ?_⟩
    · simp only [mapRun, hstep, hrun, Ordered.run, habs, Option.bind_eq_bind, Option.bind_some]
      rfl
    · rw [Ordered.run, habs]
      exact habs2

/-- The entries are in the order of their insertion, and no two have the same key. -/
theorem MapInv.entries (h : MapInv ops good s cs) :
    (MapRun.abs ⟨s, cs⟩).entries.Pairwise fun a b => a.id < b.id ∧ ¬ ops.same a.key b.key := by
  have hsorted : s.live.Pairwise (· < ·) := h.listed.sorted.filter _
  refine List.pairwise_map.2 (hsorted.imp_of_mem fun {a b} ha hb hlt => ⟨hlt, fun hsame => ?_⟩)
  exact Nat.ne_of_lt hlt (h.tabled.distinct a ha b hb hsame)

end

end ArenaJs.Collections
