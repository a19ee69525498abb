import ArenaJs.Lib.Chain

/-!
# The property table of a shape

A shape lists its properties in the order they were added, and threads a hash index through the
list: `hash_table` holds the first property of each bucket, `hash_next` the next one, both as
positions counted from 1. A deleted property keeps its place with the atom `JS_ATOM_NULL`, until the
table is compacted. `hash_next` is a bit field of 26 bits.
-/

namespace ArenaJs.Shapes

/-- `prop_flags`: the bit field has 6 bits. -/
abbrev Flags := Fin 64

/-- `JSShapeProperty`. -/
structure ShapeProp where
  hashNext : Nat
  flags : Flags
  atom : Nat
  deriving DecidableEq, Repr

/-- `hash_table[]` and `prop[]` of a `JSShape`; `prop` has `prop_count` entries. -/
structure PropTable where
  hashTable : List Nat
  prop : List ShapeProp
  deriving DecidableEq, Repr

/-- The positions that fit in `hash_next`. -/
def hashNextSize : Nat := 2 ^ 26

/-- The bucket of an atom, in a hash table of a size. -/
def bucket (size atom : Nat) : Nat := atom &&& (size - 1)

namespace PropTable

variable (t : PropTable) (atom : Nat)

/-- The property at a position. -/
def entry (h : Nat) : Option ShapeProp := if h = 0 then none else t.prop[h - 1]?

/-- `hash_next`, by position. -/
def next (h : Nat) : Option Nat := (t.entry h).map (·.hashNext)

/-- `prop_hash_end(sh)[-h - 1]` of an atom's bucket. -/
def head : Nat := t.hashTable.getD (bucket t.hashTable.length atom) 0

/-- The property has the atom. -/
def hasAtom (atom h : Nat) : Bool := (t.entry h).any (·.atom = atom)

/-- The walk of `find_own_property`: the position of the atom, 0 if it has none. -/
def find : Option Nat :=
  chainFind t.next (t.hasAtom atom) (t.prop.length + 1) (t.head atom)

/-- The walk of `delete_property`, which also returns the position before. -/
def findPrev : Option (Nat × Nat) :=
  chainFindPrev t.next (t.hasAtom atom) (t.prop.length + 1) 0 (t.head atom)

/-- The end of `add_shape_property`: a new property in front of its chain. -/
def add (flags : Flags) : PropTable where
  hashTable := t.hashTable.set (bucket t.hashTable.length atom) (t.prop.length + 1)
  prop := t.prop ++ [⟨t.head atom % hashNextSize, flags, atom⟩]

/-- One round of the loop that fills a new hash table: deleted properties are not linked. -/
def relinkStep (pr : ShapeProp) : PropTable :=
  if pr.atom = 0 then { t with prop := t.prop ++ [pr] } else t.add pr.atom pr.flags

/-- The properties `l` with a new hash table of a size. -/
def relink (size : Nat) (l : List ShapeProp) : PropTable :=
  l.foldl relinkStep ⟨List.replicate size 0, []⟩

/-- Take the property at position `h` off its chain, after the position `lpr`, and free its
entry. -/
def remove (atom lpr h : Nat) : PropTable :=
  match t.entry h with
  | none => t
  | some pr =>
    let prop := if lpr = 0 then t.prop
      else t.prop.modify (lpr - 1) fun l => { l with hashNext := pr.hashNext }
    { hashTable := if lpr = 0 then t.hashTable.set (bucket t.hashTable.length atom) pr.hashNext
        else t.hashTable
      prop := prop.modify (h - 1) fun pr => { pr with flags := 0, atom := 0 } }

/-- The atoms and flags, in order; the atom of a deleted property is 0. -/
def keys : List (Nat × Flags) := t.prop.map fun pr => (pr.atom, pr.flags)

theorem bucket_lt {size : Nat} (hs : 0 < size) (atom : Nat) : bucket size atom < size :=
  Nat.lt_of_le_of_lt Nat.and_le_right (Nat.sub_lt hs Nat.one_pos)

end PropTable

end ArenaJs.Shapes
