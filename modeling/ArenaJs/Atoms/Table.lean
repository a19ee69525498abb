import ArenaJs.Lib.Chain

/-!
# Atoms

Atoms are interned strings and symbols. An atom is a `JSString` with its atom fields set; its number
is its place in `atom_array`, or, for atoms of a request, in the request's overlay above it. String
and global symbol atoms are also on a chain of `atom_hash` or of the request's `atom_hash_overlay`.
Numbers with the top bit set are small integers and have no struct.

The functions are those of `quickjs.c`: `__JS_NewAtom` with its callees, `__JS_FindAtom`,
`JS_NewAtomStr`, `JS_ValueToAtomInternal`, and `JS_FreeAtomStruct` for the time before the freeze.
`none` is a call that does not return: a failed assertion, or a walk around a loop.
-/

namespace ArenaJs.Atoms

/-- `JS_ATOM_TYPE_x`. A struct never has `priv`. -/
inductive AtomType where
  | string
  | globalSymbol
  | symbol
  | priv
  deriving DecidableEq, Repr

/-- The type's number. -/
def AtomType.code : AtomType → Nat
  | .string => 1
  | .globalSymbol => 2
  | .symbol => 3
  | .priv => 4

/-- `atom_type < JS_ATOM_TYPE_SYMBOL`: atoms of the type are on the hash chains. -/
def AtomType.hashed : AtomType → Bool
  | .string | .globalSymbol => true
  | .symbol | .priv => false

/-- Where a `JSString` is. -/
inductive StrPtr where
  | base (n : Nat)
  | req (n : Nat)
  deriving DecidableEq, Repr

/-- The pointer is into the base arena's memory. -/
def StrPtr.isBase : StrPtr → Bool
  | .base _ => true
  | .req _ => false

/-- A flat string. `chars` are its code units, in whatever way they are stored; `parent` is the
string a slice points into. -/
structure JSString where
  isWide : Bool
  chars : List Nat
  hash : Nat
  atomType : Option AtomType
  hashNext : Nat
  refCount : Int
  parent : Option StrPtr
  deriving DecidableEq, Repr

/-- An entry of `atom_array` or of the overlay. -/
inductive Slot where
  | null
  | free (next : Nat)
  | atom (p : StrPtr)
  deriving DecidableEq, Repr

/-- The struct of an occupied slot. -/
def Slot.ptr? : Slot → Option StrPtr
  | .atom p => some p
  | _ => none

/-- The link of a free slot. -/
def Slot.next? : Slot → Option Nat
  | .free n => some n
  | _ => none

/-- Base memory: the strings, and the runtime's atom table. -/
structure Snapshot where
  strs : List (Option JSString)
  atomArray : List Slot
  atomHash : List Nat
  atomFreeIndex : Nat
  atomCount : Nat
  atomCountResize : Nat
  deriving DecidableEq, Repr

/-- A request: its strings, and the atom part of its `JSRequestState`. NULL arrays are empty. -/
structure Request where
  strs : List (Option JSString)
  overlay : List Slot
  overlayBase : Nat
  overlayFreeIndex : Nat
  overlayCount : Nat
  hashOverlay : List Nat
  deriving DecidableEq, Repr

/-- A runtime with the selected request. -/
structure Runtime where
  isArena : Bool
  base : Snapshot
  req : Request
  deriving DecidableEq, Repr

/-- Which allocations of a call succeed: a string or struct, the slot array, the hash array. -/
structure Allocs where
  block : Bool
  slots : Bool
  hash : Bool
  deriving DecidableEq, Repr

/-- `JS_ATOM_TAG_INT`. -/
def tagInt : Nat := 2 ^ 31

/-- `JS_ATOM_MAX_INT`. -/
def maxInt : Nat := 2 ^ 31 - 1

/-- `JS_ATOM_MAX`. -/
def atomMax : Nat := 2 ^ 30 - 1

/-- `JS_ATOM_END`. -/
def atomEnd : Nat := 242

/-- `JS_ATOM_HASH_MASK`. -/
def hashMask : Nat := 2 ^ 28 - 1

/-- `ATOM_OVERLAY_INITIAL`. -/
def overlayInitial : Nat := 64

/-- `ATOM_HASH_OVERLAY_INITIAL`. -/
def hashOverlayInitial : Nat := 64

/-- `__JS_AtomIsConst`: also true of a tagged integer, which is negative as an `int32_t`. -/
def atomIsConst (v : Nat) : Bool := decide (v < atomEnd ∨ tagInt ≤ v)

/-- `__JS_AtomIsTaggedInt`. -/
def atomIsTaggedInt (v : Nat) : Bool := decide (tagInt ≤ v)

/-- `__JS_AtomFromUInt32`, of a number up to `JS_ATOM_MAX_INT`. -/
def atomFromUInt32 (n : Nat) : Nat := n + tagInt

/-! ## Texts -/

/-- `is_num`. -/
def isNum (c : Nat) : Bool := decide (48 ≤ c ∧ c ≤ 57)

/-- One more digit in `is_num_string`. -/
def numDigit (n c : Nat) : Option Nat :=
  if isNum c then if 2 ^ 32 ≤ n * 10 + (c - 48) then none else some (n * 10 + (c - 48)) else none

/-- `is_num_string`. -/
def isNumString (chars : List Nat) : Option Nat :=
  match chars with
  | [] => none
  | c :: cs =>
    if 10 < chars.length then none
    else if isNum c then
      if c = 48 then if cs ≠ [] then none else some 0
      else cs.foldlM numDigit (c - 48)
    else none

/-- `hash_string8` and `hash_string16`. -/
def hashString (chars : List Nat) (h : Nat) : Nat :=
  (chars.foldl (fun h c => (h * 263 + c) % 2 ^ 32) h) ^^^ (chars.length * 0x61c88647 % 2 ^ 32)

/-- The hash of an atom. -/
def atomHashOf (t : AtomType) (chars : List Nat) : Nat := hashString chars t.code &&& hashMask

/-- The free slots from `start` to the end of an array of `size`, each linked to the next. -/
def freeSlots (start size : Nat) : List Slot :=
  (List.range' start (size - start)).map fun i => .free (if i = size - 1 then 0 else i + 1)

/-! ## Strings -/

namespace Runtime

variable (rt : Runtime) (p : StrPtr) (s : JSString) (a : Allocs) (i : Nat)

/-- `*p`. -/
def str : StrPtr → Option JSString
  | .base n => rt.base.strs[n]?.join
  | .req n => rt.req.strs[n]?.join

/-- Write the struct at `p`; `none` frees it. -/
def setStr (s : Option JSString) : Runtime :=
  match p with
  | .base n => { rt with base := { rt.base with strs := rt.base.strs.set n s } }
  | .req n => { rt with req := { rt.req with strs := rt.req.strs.set n s } }

/-- Write fields of the struct at `p`. -/
def modStr (f : JSString → JSString) : Runtime :=
  rt.setStr p ((rt.str p).map f)

/-- `js_malloc_rt` of a string struct: in the base before the freeze, in the request after it. -/
def allocStr : StrPtr × Runtime :=
  if rt.isArena then
    (.req rt.req.strs.length, { rt with req := { rt.req with strs := rt.req.strs ++ [some s] } })
  else
    (.base rt.base.strs.length,
      { rt with base := { rt.base with strs := rt.base.strs ++ [some s] } })

/-- `js_arena_ptr_is_base`: the base is registered at the freeze. -/
def ptrIsBase : Bool := rt.isArena && p.isBase

/-- `js_atom_struct`. -/
def atomStruct : Option StrPtr :=
  if i < rt.req.overlayBase then rt.base.atomArray[i]?.bind Slot.ptr?
  else rt.req.overlay[i - rt.req.overlayBase]?.bind Slot.ptr?

/-- The struct of the atom `i`. -/
def atom : Option JSString := (rt.atomStruct i).bind rt.str

/-- `p->hash_next`, by atom. -/
def nextOf : Option Nat := (rt.atom i).map (·.hashNext)

/-- `p->hash`, by atom. -/
def hashOf : Option Nat := (rt.atom i).map (·.hash)

/-- A walk along a chain that has not ended after this many steps has met a slot twice. -/
def walkFuel : Nat := rt.base.atomArray.length + rt.req.overlay.length + 1

/-- `arena_rc_inc`. -/
def rcInc : Runtime :=
  if rt.ptrIsBase p then rt else rt.modStr p fun s => { s with refCount := s.refCount + 1 }

/-- `arena_rc_dec`: the count after, and the state. -/
def rcDec : Int × Runtime :=
  if rt.ptrIsBase p then (1, rt)
  else (((rt.str p).map (·.refCount)).getD 0 - 1,
    rt.modStr p fun s => { s with refCount := s.refCount - 1 })

/-! ## Freeing -/

/-- The inner loop of `JS_FreeAtomStruct`: `i` is a node of the chain before the struct `p`. -/
def unlinkAfter (rt : Runtime) (p : StrPtr) : Nat → Nat → Option (Nat × Runtime)
  | 0, _ => none
  | fuel + 1, i =>
    if i = 0 then none
    else (rt.atomStruct i).bind fun p0 => (rt.str p0).bind fun s0 =>
      if rt.atomStruct s0.hashNext = some p then
        (rt.str p).map fun s =>
          (s0.hashNext, rt.setStr p0 (some { s0 with hashNext := s.hashNext }))
      else unlinkAfter rt p fuel s0.hashNext

/-- The first part of `JS_FreeAtomStruct`: take the struct off its chain and find its number. -/
def unlinkAtom : Option (Nat × Runtime) :=
  if s.atomType = some .symbol then some (s.hashNext, rt)
  else
    let h0 := s.hash &&& (rt.base.atomHash.length - 1)
    rt.base.atomHash[h0]?.bind fun i =>
      if rt.atomStruct i = some p then
        some (i,
          { rt with base := { rt.base with atomHash := rt.base.atomHash.set h0 s.hashNext } })
      else unlinkAfter rt p rt.walkFuel i

/-- `JS_FreeAtomStruct`. -/
def freeAtomStruct : Option Runtime :=
  if rt.isArena then some rt
  else (rt.str p).bind fun s => (rt.unlinkAtom p s).map fun (i, rt) =>
    let rt := rt.setStr p none
    { rt with base := { rt.base with
        atomArray := rt.base.atomArray.set i (.free rt.base.atomFreeIndex)
        atomFreeIndex := i
        atomCount := rt.base.atomCount - 1 } }

/-- `js_free_string` of the parent of a slice, which is not a slice. -/
def freeParent : Option Runtime :=
  let (count, rt) := rt.rcDec p
  if count ≤ 0 then
    (rt.str p).bind fun s =>
      if s.atomType.isSome then rt.freeAtomStruct p else some (rt.setStr p none)
  else some rt

/-- The `JS_STRING_KIND_SLICE` case of `js_free_string0`. -/
def releaseParent : Option Runtime :=
  match s.parent with
  | some q => rt.freeParent q
  | none => some rt

/-- `js_free_string`. -/
def freeString : Option Runtime :=
  let (count, rt) := rt.rcDec p
  if count ≤ 0 then
    (rt.str p).bind fun s =>
      if s.atomType.isSome then rt.freeAtomStruct p
      else (rt.releaseParent s).map fun rt => rt.setStr p none
  else some rt

/-! ## Interning -/

/-- `js_get_atom_index`. -/
def getAtomIndex : Option Nat :=
  if s.atomType = some .symbol then some s.hashNext
  else
    let heads := if rt.req.hashOverlay ≠ [] ∧ ¬ rt.ptrIsBase p then rt.req.hashOverlay
      else rt.base.atomHash
    heads[s.hash &&& (heads.length - 1)]?.bind fun i =>
      chainSeek rt.nextOf (fun i => rt.atomStruct i == some p) rt.walkFuel i

/-- The comparison of `__JS_NewAtom`. -/
def sameAtom (t : AtomType) (h : Nat) (chars : List Nat) (i : Nat) : Bool :=
  (rt.atom i).any fun p => p.hash = h && p.atomType = some t && p.chars = chars

/-- Walk the chain of `heads` that the hash selects, to the first atom that passes. -/
def findIn (heads : List Nat) (h : Nat) (test : Nat → Bool) : Option Nat :=
  heads[h &&& (heads.length - 1)]?.bind (chainFind rt.nextOf test rt.walkFuel)

/-- The search both lookups make: first the overlay, where there is one, then the base. -/
def findHashed (h : Nat) (test : Nat → Bool) : Option Nat :=
  if rt.req.hashOverlay ≠ [] then
    (rt.findIn rt.req.hashOverlay h test).bind fun i =>
      if i ≠ 0 then some i else rt.findIn rt.base.atomHash h test
  else rt.findIn rt.base.atomHash h test

/-- The growth of `atom_array` in `__JS_NewAtom`, when no entry is free. The source's product is an
`int`: at 1034394552 entries, an array of 8 GB, it overflows, and the model refuses instead. -/
def growAtomArray : Except Runtime Runtime :=
  if !rt.isArena && rt.base.atomFreeIndex == 0 then
    let newSize := max 711 (rt.base.atomArray.length * 3 / 2)
    if atomMax < newSize then .error rt
    else if !a.slots then .error rt
    else if rt.base.atomArray.length = 0 then
      if !a.block then .error rt
      else
        -- the struct of `JS_ATOM_NULL`
        let (p, rt) := rt.allocStr ⟨false, [], 0, some .symbol, 0, 1, none⟩
        .ok { rt with base := { rt.base with
          atomArray := .atom p :: freeSlots 1 newSize, atomFreeIndex := 1
          atomCount := rt.base.atomCount + 1 } }
    else .ok { rt with base := { rt.base with
      atomArray := rt.base.atomArray ++ freeSlots rt.base.atomArray.length newSize
      atomFreeIndex := rt.base.atomArray.length } }
  else .ok rt

/-- The struct of a new atom: the string itself if it is not an atom yet, otherwise a copy. -/
def atomBlock (str : Option StrPtr) (t : AtomType) (a : Allocs) :
    Option (Except Runtime (StrPtr × Runtime)) :=
  match str with
  | none =>
    if a.block then some (.ok (rt.allocStr ⟨true, [], 0, none, 0, 1, none⟩)) else some (.error rt)
  | some p => (rt.str p).bind fun s =>
    if s.atomType = none then
      some (.ok (p, rt.modStr p fun s => { s with atomType := some t }))
    else if !a.block then some (.error rt)
    else
      let (q, rt) := rt.allocStr ⟨s.isWide, s.chars, 0, none, 0, 1, none⟩
      (rt.freeString p).map fun rt => .ok (q, rt)

/-- `js_atom_overlay_ensure_slot`. -/
def overlayEnsureSlot : Except Runtime Runtime :=
  if rt.req.overlayFreeIndex ≠ 0 then .ok rt
  else
    let oldSize := rt.req.overlay.length
    let newSize := if oldSize = 0 then overlayInitial else oldSize * 2 % 2 ^ 32
    if newSize = 0 then
      -- the size has wrapped: `js_realloc_rt` frees the array
      .error { rt with req := { rt.req with overlay := [] } }
    else if !a.slots then .error rt
    else
      let start := if oldSize = 0 then 1 else oldSize
      let old := if oldSize = 0 then [.null] else rt.req.overlay
      .ok { rt with req := { rt.req with
        overlay := old ++ freeSlots start newSize, overlayFreeIndex := start } }

/-- Take a slot for the struct `p`: of the overlay after the freeze, of `atom_array` before it. -/
def takeSlot : Option (Except Runtime (Nat × Runtime)) :=
  if rt.isArena then
    match rt.overlayEnsureSlot a with
    | .error rt => some (.error rt)
    | .ok rt =>
      let rel := rt.req.overlayFreeIndex
      (rt.req.overlay[rel]?.bind Slot.next?).map fun next =>
        .ok ((rt.req.overlayBase + rel) % 2 ^ 32, { rt with req := { rt.req with
          overlay := rt.req.overlay.set rel (.atom p), overlayFreeIndex := next
          overlayCount := rt.req.overlayCount + 1 } })
  else
    let i := rt.base.atomFreeIndex
    (rt.base.atomArray[i]?.bind Slot.next?).map fun next =>
      .ok (i, { rt with base := { rt.base with
        atomArray := rt.base.atomArray.set i (.atom p), atomFreeIndex := next } })

/-- `js_atom_hash_overlay_ensure`. -/
def hashOverlayEnsure : Except Runtime Runtime :=
  if rt.req.hashOverlay ≠ [] then .ok rt
  else if !a.hash then .error rt
  else .ok { rt with req := { rt.req with hashOverlay := List.replicate hashOverlayInitial 0 } }

/-- Move the chain from `h` on to the new heads, node by node. -/
def moveChain (rt : Runtime) (new : List Nat) : Nat → Nat → Option (List Nat × Runtime)
  | 0, _ => none
  | fuel + 1, h =>
    if h = 0 then some (new, rt)
    else (rt.atomStruct h).bind fun p => (rt.str p).bind fun s =>
      let j := s.hash &&& (new.length - 1)
      new[j]?.bind fun head =>
        moveChain (rt.setStr p (some { s with hashNext := head })) (new.set j h) fuel s.hashNext

/-- The outer loop of `JS_ResizeAtomHash`. -/
def moveChains (rt : Runtime) (new : List Nat) : List Nat → Option (List Nat × Runtime)
  | [] => some (new, rt)
  | h :: heads => (moveChain rt new rt.walkFuel h).bind fun (new, rt) => moveChains rt new heads

/-- `JS_ResizeAtomHash`; its callers ignore a failure. -/
def resizeAtomHash (newSize : Nat) (a : Allocs) : Option Runtime :=
  if !a.hash then some rt
  else (moveChains rt (List.replicate newSize 0) rt.base.atomHash).map fun (new, rt) =>
    { rt with base := { rt.base with atomHash := new, atomCountResize := newSize * 2 } }

/-- Put the atom `i` with struct `p` in front of its chain. -/
def linkAtom (i h : Nat) (a : Allocs) :
    Option (Except Runtime Runtime) :=
  if rt.isArena then
    match rt.hashOverlayEnsure a with
    | .error rt => some (.error rt)
    | .ok rt =>
      let h1 := h &&& (rt.req.hashOverlay.length - 1)
      rt.req.hashOverlay[h1]?.map fun head =>
        let rt := rt.modStr p fun s => { s with hashNext := head }
        .ok { rt with req := { rt.req with hashOverlay := rt.req.hashOverlay.set h1 i } }
  else
    let h1 := h &&& (rt.base.atomHash.length - 1)
    rt.base.atomHash[h1]?.bind fun head =>
      let rt := rt.modStr p fun s => { s with hashNext := head }
      let rt := { rt with base := { rt.base with atomHash := rt.base.atomHash.set h1 i } }
      if rt.base.atomCountResize ≤ rt.base.atomCount then
        (rt.resizeAtomHash (rt.base.atomHash.length * 2) a).map .ok
      else some (.ok rt)

/-- The `fail` exit of `__JS_NewAtom`. -/
def newAtomFail (str : Option StrPtr) : Option (Nat × Runtime) :=
  match str with
  | some p => (rt.freeString p).map fun rt => (0, rt)
  | none => some (0, rt)

/-- The end of `__JS_NewAtom`: number the struct `p` and link it. -/
def installAtom (str : Option StrPtr) (p : StrPtr) (t : AtomType) (h : Nat)
    (a : Allocs) : Option (Nat × Runtime) :=
  (rt.takeSlot p a).bind fun
    | .error rt => rt.newAtomFail str
    | .ok (i, rt) =>
      let rt := rt.modStr p fun s => { s with hash := h, hashNext := i, atomType := some t }
      let rt := if rt.isArena then rt
        else { rt with base := { rt.base with atomCount := rt.base.atomCount + 1 } }
      if t = .symbol then some (i, rt)
      else (rt.linkAtom p i h a).bind fun
        | .error rt => rt.newAtomFail str
        | .ok rt => some (i, rt)

/-- The part of `__JS_NewAtom` that makes a new atom. -/
def createAtom (str : Option StrPtr) (t : AtomType) (h : Nat) (a : Allocs) :
    Option (Nat × Runtime) :=
  match rt.growAtomArray a with
  | .error rt => rt.newAtomFail str
  | .ok rt => (rt.atomBlock str t a).bind fun
    | .error rt => rt.newAtomFail str
    | .ok (p, rt) => rt.installAtom str p t h a

/-- `__JS_NewAtom` of the string `s` at `p`, for the types that are on the hash chains. -/
def newHashed (t : AtomType) (a : Allocs) :
    Option (Nat × Runtime) :=
  if s.atomType = some t then
    -- the string is the atom
    (rt.getAtomIndex p s).map fun i => (i, if atomIsConst i then (rt.rcDec p).2 else rt)
  else
    let h := atomHashOf t s.chars
    (rt.findHashed h (rt.sameAtom t h s.chars)).bind fun i =>
      if i ≠ 0 then (rt.atomStruct i).bind fun q =>
        ((if atomIsConst i then rt else rt.rcInc q).freeString p).map fun rt => (i, rt)
      else rt.createAtom (some p) t h a

/-- `__JS_NewAtom`. -/
def newAtom (str : Option StrPtr) (t : AtomType) (a : Allocs) :
    Option (Nat × Runtime) :=
  match t with
  | .symbol => rt.createAtom str .symbol 0 a
  | .priv => rt.createAtom str .symbol 1 a
  | t => str.bind fun p => (rt.str p).bind fun s => rt.newHashed p s t a

/-- `__JS_FindAtom`, which only ever looks for string atoms. -/
def findAtom (chars : List Nat) : Option (Nat × Runtime) :=
  let h := atomHashOf .string chars
  let test := fun i => rt.sameAtom .string h chars i && (rt.atom i).any (!·.isWide)
  (rt.findHashed h test).bind fun i =>
    if i ≠ 0 ∧ ¬ atomIsConst i then (rt.atomStruct i).map fun q => (i, rt.rcInc q)
    else some (i, rt)

/-- `JS_NewAtomStr`. -/
def newAtomStr : Option (Nat × Runtime) :=
  (rt.str p).bind fun s =>
    match isNumString s.chars with
    | some n =>
      if n ≤ maxInt then (rt.freeString p).map fun rt => (atomFromUInt32 n, rt)
      else rt.newAtom (some p) .string a
    | none => rt.newAtom (some p) .string a

end Runtime

/-- What `JS_ToPropertyKeyInternal` returns: an owned string or symbol. -/
inductive Key where
  | string (p : StrPtr)
  | symbol (p : StrPtr)
  | exception
  deriving DecidableEq, Repr

/-- The argument of `JS_ValueToAtomInternal`. `other` is a value that is neither a small integer nor
a string or symbol, with the key it is converted to. -/
inductive Value where
  | int (n : Nat)
  | symbol (p : StrPtr)
  | string (p : StrPtr)
  | other (key : Key)
  deriving DecidableEq, Repr

namespace Runtime

/-- `JS_DupAtom`. -/
def dupAtom (rt : Runtime) (i : Nat) : Option (Nat × Runtime) :=
  if atomIsConst i then some (i, rt) else (rt.atomStruct i).map fun p => (i, rt.rcInc p)

/-- `JS_FreeAtom`. -/
def freeAtom (rt : Runtime) (i : Nat) : Option Runtime :=
  if atomIsConst i then some rt
  else (rt.atomStruct i).bind fun p =>
    let (count, rt) := rt.rcDec p
    if 0 < count then some rt else rt.freeAtomStruct p

/-- `JS_ValueToAtomInternal`. -/
def valueToAtomInternal (rt : Runtime) (v : Value) (a : Allocs) : Option (Nat × Runtime) :=
  match v with
  | .int n => some (atomFromUInt32 n, rt)
  | .symbol p => (rt.str p).bind fun s => (rt.getAtomIndex p s).bind fun i => rt.dupAtom i
  | .string p => (rt.rcInc p).newAtomStr p a
  | .other (.string p) => rt.newAtomStr p a
  | .other (.symbol p) => (rt.str p).bind fun s => (rt.getAtomIndex p s).map fun i => (i, rt)
  | .other .exception => some (0, rt)

end Runtime

end ArenaJs.Atoms
