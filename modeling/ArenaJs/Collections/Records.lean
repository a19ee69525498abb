import ArenaJs.Engine.Object

/-!
# Map and Set

A `Map` or `Set` keeps its records in a list in insertion order and links each of them into a bucket
of a hash table. An iterator and a running `forEach` hold a lock on the record they are at: a record
that is deleted while locked stays in the list, empty, until the last lock is released.

Keys and values are of one type, with `KeyOps` for what the code does with keys. Records are named
by the order in which they are made, and a list of them stands for the chain of their links. `none`
stands for a failed assertion or a step from a record that is not in the list.

Where the code releases a value, iterators can go with it, and their finalizers release the locks
they hold; a step says which. Between calls an iterator goes by a step of its own.

This is the code of a collection of the request with its allocations granted; the weak collections
and those of the snapshot, which cannot be changed, are left out.
-/

namespace ArenaJs.Collections

/-- The keys of a collection. -/
structure KeyOps (α : Type) where
  undefined : α
  /-- `map_normalize_key`. -/
  normalize : α → α
  /-- `js_same_value_zero`. -/
  same : α → α → Bool
  /-- `map_hash_key`. -/
  hash : α → Nat

/-- `JSMapRecord`. -/
structure JSMapRecord (α : Type) where
  refCount : Nat
  empty : Bool
  key : α
  value : α

/-- `JSMapState`, and which of the two classes the object is of. -/
structure JSMapState (α : Type) where
  isSet : Bool
  mem : Nat → JSMapRecord α
  fresh : Nat
  records : List Nat
  recordCount : Nat
  hashTable : Nat → List Nat
  hashSize : Nat
  recordCountThreshold : Nat

/-- `JSMapIteratorData`, or the variables of a running `js_map_forEach`. -/
structure Cursor where
  /-- What an iterator yields; `none` for `forEach`. -/
  kind : Option IteratorKind
  /-- The iterator still has its collection; the loop has not ended. -/
  active : Bool
  curRecord : Option Nat
deriving DecidableEq, Repr

/-- What a call returns, or hands to the callback of `forEach`. -/
inductive Result (α : Type) where
  | undefined
  | bool (b : Bool)
  | uint32 (n : Nat)
  | value (v : α)
  | pair (key value : α)
  | callback (value key : α)
  | done
  | cursor (i : Nat)
  | invalid
deriving DecidableEq, Repr

section
variable {α : Type} (ops : KeyOps α)
variable (s : JSMapState α) (key value : α) (mr : Nat) (it : Cursor)

/-- `js_map_constructor` without an iterable. -/
def mapConstructor (isSet : Bool) : JSMapState α where
  isSet := isSet
  mem := fun _ => ⟨0, true, ops.undefined, ops.undefined⟩
  fresh := 0
  records := []
  recordCount := 0
  hashTable := fun _ => []
  hashSize := 1
  recordCountThreshold := 4

/-! ## Records -/

/-- A write to a record. -/
def JSMapState.setRec (r : JSMapRecord α) : JSMapState α :=
  { s with mem := Function.update s.mem mr r }

/-- The bucket of a key in a table of the given size. -/
def bucket (size : Nat) (key : α) : Nat := ops.hash key &&& (size - 1)

/-- `map_find_record`. -/
def mapFindRecord (key : α) : Option Nat :=
  (s.hashTable (bucket ops s.hashSize key)).find? fun mr => ops.same (s.mem mr).key key

/-- `list_add_tail` in a table of buckets. -/
def addTail (t : Nat → List Nat) (h mr : Nat) : Nat → List Nat := Function.update t h (t h ++ [mr])

/-- `map_hash_resize`. -/
def mapHashResize : JSMapState α :=
  let newHashSize := if s.hashSize = 1 then 4 else s.hashSize * 2 % 2 ^ 32
  { s with
    hashTable := s.records.foldl (fun t mr =>
      if (s.mem mr).empty then t else addTail t (bucket ops newHashSize (s.mem mr).key) mr)
      fun _ => []
    hashSize := newHashSize
    recordCountThreshold := newHashSize * 2 % 2 ^ 32 }

/-- `map_add_record`, with the value its callers store next. -/
def mapAddRecord : JSMapState α :=
  let mr := s.fresh
  let s := { s with
    mem := Function.update s.mem mr ⟨1, false, key, value⟩
    fresh := mr + 1
    hashTable := addTail s.hashTable (bucket ops s.hashSize key) mr
    records := s.records ++ [mr]
    recordCount := (s.recordCount + 1) % 2 ^ 32 }
  if s.recordCount ≥ s.recordCountThreshold then mapHashResize ops s else s

/-- `--mr->ref_count`. -/
def decr (n : Nat) : Nat := if n = 0 then 2 ^ 32 - 1 else n - 1

/-- `list_del(&mr->hash_link)`. -/
def unhash : JSMapState α := { s with hashTable := fun h => (s.hashTable h).erase mr }

/-- The end of `map_delete_record`: the record is freed or left as a zombie. -/
def dropRecord : JSMapState α :=
  let r := s.mem mr
  let s := { s with recordCount := decr s.recordCount }
  if decr r.refCount = 0 then { s with records := s.records.erase mr }
  else s.setRec mr ⟨decr r.refCount, true, ops.undefined, ops.undefined⟩

/-- `map_decref_record`. -/
def mapDecrefRecord : Option (JSMapState α) :=
  let r := s.mem mr
  if decr r.refCount = 0 then
    if r.empty then some { s with records := s.records.erase mr } else none
  else some (s.setRec mr { r with refCount := decr r.refCount })

/-- The records from `mr->link.next` on. -/
def linkNext : Option (List Nat) :=
  match s.records.dropWhile (· ≠ mr) with
  | [] => none
  | _ :: l => some l

/-- `js_map_iterator_finalizer`. -/
def mapIteratorFinalizer : Option (JSMapState α × Cursor) :=
  match it.curRecord with
  | none => some (s, { it with active := false })
  | some mr => do
    let s ← mapDecrefRecord s mr
    return (s, { it with active := false, curRecord := none })

/-- A collection and the cursors over it. -/
structure MapRun (α : Type) where
  map : JSMapState α
  cursors : List Cursor

/-- The last reference to an iterator goes. -/
def MapRun.drop (S : MapRun α) (i : Nat) : Option (MapRun α) :=
  match S.cursors[i]? with
  | none => some S
  | some it =>
    if it.kind.isNone then some S
    else (mapIteratorFinalizer S.map it).map fun (s, it) => ⟨s, S.cursors.set i it⟩

/-- `JS_FreeValue` of a value, with the iterators that go with it. -/
def MapRun.release (S : MapRun α) (dying : List Nat) :
    Option (MapRun α) := dying.foldlM MapRun.drop S

/-- `map_delete_record`; `dying` are the iterators that go with the key and the value. -/
def mapDeleteRecord (S : MapRun α) (mr : Nat) (dying : List Nat) : Option (MapRun α) :=
  if (S.map.mem mr).empty then some S
  else do
    let S ← { S with map := unhash S.map mr }.release dying
    return { S with map := dropRecord ops S.map mr }

/-! ## Methods -/

/-- `js_map_set`; the value of a set element is undefined. -/
def mapSet (S : MapRun α) (key value : α) (dying : List Nat) : Option (MapRun α) :=
  let key := ops.normalize key
  let value := if S.map.isSet then ops.undefined else value
  match mapFindRecord ops S.map key with
  | some mr => do
    let S ← S.release dying
    return { S with map := S.map.setRec mr { S.map.mem mr with value := value } }
  | none => some { S with map := mapAddRecord ops S.map key value }

/-- `js_map_get`. -/
def mapGet (key : α) : Result α :=
  match mapFindRecord ops s (ops.normalize key) with
  | some mr => .value (s.mem mr).value
  | none => .undefined

/-- `js_map_has`. -/
def mapHas (key : α) : Result α :=
  .bool (mapFindRecord ops s (ops.normalize key)).isSome

/-- `js_map_getOrInsert` with a value. -/
def mapGetOrInsert : Result α × JSMapState α :=
  let key := ops.normalize key
  match mapFindRecord ops s key with
  | some mr => (.value (s.mem mr).value, s)
  | none => (.value value, mapAddRecord ops s key value)

/-- `js_map_getOrInsert` after the callback that computes the value has returned: an entry made
meanwhile is replaced. -/
def mapInsertComputed (S : MapRun α) (key value : α) (dying : List Nat) :
    Option (Result α × MapRun α) := do
  let key := ops.normalize key
  let S ← match mapFindRecord ops S.map key with
    | some mr => mapDeleteRecord ops S mr dying
    | none => some S
  return (.value value, { S with map := mapAddRecord ops S.map key value })

/-- `js_map_delete`. -/
def mapDelete (S : MapRun α) (key : α) (dying : List Nat) : Option (Result α × MapRun α) :=
  match mapFindRecord ops S.map (ops.normalize key) with
  | some mr => (mapDeleteRecord ops S mr dying).map fun S => (.bool true, S)
  | none => some (.bool false, S)

/-- The loop of `js_map_clear` from `el` on, which saves the next record before it deletes one.
`dying` has a list for each entry; a fuel of the number of records ever made is enough. -/
def clearFrom : Nat → MapRun α → Option Nat → List (List Nat) → Option (MapRun α)
  | _, S, none, _ => some S
  | 0, _, some _, _ => none
  | fuel + 1, S, some mr, dying => do
    let el ← linkNext S.map mr
    if (S.map.mem mr).empty then clearFrom fuel S el.head? dying
    else
      let S ← mapDeleteRecord ops S mr (dying.headD [])
      clearFrom fuel S el.head? dying.tail

/-- `js_map_clear`. -/
def mapClear (S : MapRun α) (dying : List (List Nat)) : Option (MapRun α) :=
  clearFrom ops S.map.fresh S S.map.records.head? dying

/-! ## Iteration -/

/-- The first record from `el` on that is not empty. -/
def skipEmpty (el : List Nat) : Option Nat :=
  el.find? fun mr => !(s.mem mr).empty

/-- `mr->ref_count++`. -/
def mapLockRecord : JSMapState α :=
  s.setRec mr { s.mem mr with refCount := ((s.mem mr).refCount + 1) % 2 ^ 32 }

/-- What an iterator of a kind yields at a record. -/
def yields (kind : IteratorKind) (mr : Nat) : Result α :=
  let r := s.mem mr
  let value := if s.isSet then r.key else r.value
  match kind with
  | .key => .value r.key
  | .value => .value value
  | .keyAndValue => .pair r.key value

/-- The record a cursor is at is left behind, its lock released; the records from there on. -/
def leaveRecord : Option (List Nat × JSMapState α) :=
  match it.curRecord with
  | none => some (s.records, s)
  | some mr => do
    let el ← linkNext s mr
    let s ← mapDecrefRecord s mr
    return (el, s)

/-- `js_map_iterator_next`. -/
def mapIteratorNext (kind : IteratorKind) :
    Option (Result α × JSMapState α × Cursor) :=
  if !it.active then some (.done, s, it)
  else do
    let (el, s) ← leaveRecord s it
    match skipEmpty s el with
    | none => return (.done, s, { it with active := false, curRecord := none })
    | some mr => return (yields s kind mr, mapLockRecord s mr, { it with curRecord := some mr })

/-- The loop of `js_map_forEach` from `el` on, up to the next call of the callback. -/
def forEachFrom (el : List Nat) :
    Result α × JSMapState α × Cursor :=
  match skipEmpty s el with
  | none => (.undefined, s, { it with active := false, curRecord := none })
  | some mr =>
    let r := s.mem mr
    (.callback (if s.isSet then r.key else r.value) r.key, mapLockRecord s mr,
      { it with curRecord := some mr })

/-- The records from where a loop is on, after a release. -/
def reenter (el : List Nat) : Option (List Nat) :=
  match el with
  | [] => some []
  | mr :: _ => if mr ∈ s.records then some (s.records.dropWhile (· ≠ mr)) else none

/-! ## Runs -/

/-- What a script does with a collection. A call of `getOrInsertComputed` that finds no entry runs
its callback and goes on with `insertComputed`; a `forEach` runs its callback and goes on with
`forEachResume`. The lists are the iterators that go with the values a call releases: of `forEach`
first those with the arguments of the callback, then those with what it returned. -/
inductive MapOp (α : Type) where
  | set (key value : α) (dying : List Nat)
  | get (key : α)
  | has (key : α)
  | delete (key : α) (dying : List Nat)
  | clear (dying : List (List Nat))
  | size
  | getOrInsert (key value : α)
  | insertComputed (key value : α) (dying : List Nat)
  | iterator (kind : IteratorKind)
  | next (i : Nat)
  | drop (i : Nat)
  | forEach
  | forEachResume (i : Nat) (threw : Bool) (args ret : List Nat)
deriving DecidableEq, Repr

/-- A call that concerns a cursor. -/
def MapRun.move (S : MapRun α) (i : Nat) (isLoop : Bool)
    (f : Cursor → Option (Result α × MapRun α)) : Option (Result α × MapRun α) :=
  match S.cursors[i]? with
  | none => some (.invalid, S)
  | some it => if it.kind.isNone = isLoop then f it else some (.invalid, S)

/-- The cursor has moved. -/
def MapRun.moved (S : MapRun α) (i : Nat) (r : Result α × JSMapState α × Cursor) :
    Result α × MapRun α :=
  (r.1, ⟨r.2.1, S.cursors.set i r.2.2⟩)

/-- `js_map_forEach` after the callback has returned or thrown. -/
def forEachResume (S : MapRun α) (i : Nat) (it : Cursor) (threw : Bool) (args ret : List Nat) :
    Option (Result α × MapRun α) :=
  if !it.active then some (.invalid, S)
  else do
    let S ← S.release args
    let (el, s) ← leaveRecord S.map it
    let S := { S with map := s, cursors := S.cursors.set i { it with curRecord := none } }
    if threw then return S.moved i (.done, s, { it with active := false, curRecord := none })
    else
      let S ← S.release ret
      let el ← reenter S.map el
      return S.moved i (forEachFrom S.map it el)

/-- One step. -/
def mapStep (S : MapRun α) : MapOp α → Option (Result α × MapRun α)
  | .set key value dying => (mapSet ops S key value dying).map fun S => (.undefined, S)
  | .get key => some (mapGet ops S.map key, S)
  | .has key => some (mapHas ops S.map key, S)
  | .delete key dying => mapDelete ops S key dying
  | .clear dying => (mapClear ops S dying).map fun S => (.undefined, S)
  | .size => some (.uint32 S.map.recordCount, S)
  | .getOrInsert key value =>
    let (r, s) := mapGetOrInsert ops S.map key value
    some (r, { S with map := s })
  | .insertComputed key value dying => mapInsertComputed ops S key value dying
  | .iterator kind =>
    some (.cursor S.cursors.length, { S with cursors := S.cursors ++ [⟨some kind, true, none⟩] })
  | .next i => S.move i false fun it =>
    (mapIteratorNext S.map it (it.kind.getD .key)).map (S.moved i)
  | .drop i => (S.drop i).map fun S => (.undefined, S)
  | .forEach =>
    let (r, s, it) := forEachFrom S.map ⟨none, true, none⟩ S.map.records
    some (r, ⟨s, S.cursors ++ [it]⟩)
  | .forEachResume i threw args ret => S.move i true fun it => forEachResume S i it threw args ret

/-- A run, with what its steps return. -/
def mapRun (S : MapRun α) : List (MapOp α) → Option (List (Result α) × MapRun α)
  | [] => some ([], S)
  | op :: l => do
    let (r, S) ← mapStep ops S op
    let (rs, S) ← mapRun S l
    return (r :: rs, S)

end

end ArenaJs.Collections
