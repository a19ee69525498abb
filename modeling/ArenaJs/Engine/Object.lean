import ArenaJs.Engine.Value

/-!
# Objects, shapes and properties

The records of the property layer. A `JSShape` lists property names with their flags, a `JSObject`
points to its shape and owns one `JSProperty` per entry of it, and a class keeps its internal state
in `ObjData`. The in-shape hash chains are left out: `find_own_property` finds the entry of an atom
whichever bucket it is in, and no two live entries of a shape have one atom.
-/

namespace ArenaJs

/-! ## Atoms and flags -/

/-- `JSAtom`: a small array index is tagged into the atom, any other name is interned. -/
inductive Atom where
  | int (n : Nat)
  | str (s : String)
  | symbol (id : Nat)
  | privateName (id : Nat)
deriving DecidableEq, Repr

/-- `__JS_AtomIsTaggedInt`. -/
def Atom.isTaggedInt : Atom → Bool
  | .int _ => true
  | _ => false

/-- `JS_ATOM_length`. -/
def Atom.length : Atom := .str "length"

/-- `JS_NewAtomUInt32`, `JS_NewAtomInt64`: an index below `2^31` is tagged. -/
def Atom.ofNat (n : Nat) : Atom :=
  if n < 2 ^ 31 then .int n else .str (toString n)

/-- `JS_NewAtomStr`. -/
def Atom.ofString (s : String) : Atom :=
  match s.toNat? with
  | some n => if toString n = s then .ofNat n else .str s
  | none => .str s

/-- `JS_AtomIsArrayIndex`. -/
def Atom.arrayIndex : Atom → Option Nat
  | .int n => some n
  | .str s => (s.toNat?).filter fun n => toString n = s ∧ n < 2 ^ 32 - 1
  | _ => none

/-- `JS_PROP_TMASK`: what the property slot holds. -/
inductive PropKind where
  | normal
  | getset
  | varref
  | autoinit
deriving DecidableEq, Repr

/-- The flags of a `JSShapeProperty`. -/
structure PropFlags where
  configurable : Bool
  writable : Bool
  enumerable : Bool
  length : Bool := false
  kind : PropKind := .normal
deriving DecidableEq, Repr

/-- `JS_PROP_C_W_E`. -/
def PropFlags.cwe : PropFlags :=
  { configurable := true, writable := true, enumerable := true }

/-- The flags of a deleted entry. -/
def PropFlags.zero : PropFlags :=
  { configurable := false, writable := false, enumerable := false }

/-- The flags given to a call: `JS_PROP_*` with the `JS_PROP_HAS_*` bits. -/
structure Flags where
  configurable : Bool := false
  writable : Bool := false
  enumerable : Bool := false
  hasConfigurable : Bool := false
  hasWritable : Bool := false
  hasEnumerable : Bool := false
  hasGet : Bool := false
  hasSet : Bool := false
  hasValue : Bool := false
  throws : Bool := false
  throwStrict : Bool := false
  noAdd : Bool := false
  noExotic : Bool := false
  defineProperty : Bool := false
  reflectDefineProperty : Bool := false
deriving DecidableEq, Repr

/-- `flags & (JS_PROP_HAS_GET | JS_PROP_HAS_SET)`. -/
def Flags.hasAccessor (flags : Flags) : Bool :=
  flags.hasGet || flags.hasSet

/-! ## Shapes and objects -/

/-- `JSShapeProperty`; a deleted entry has the atom `JS_ATOM_NULL`. -/
structure ShapeProp where
  atom : Option Atom
  flags : PropFlags
deriving DecidableEq, Repr

/-- `JSShape`. `props` has `prop_count` entries. -/
structure JSShape where
  proto : Option Ptr
  props : List ShapeProp
  propSize : Nat
  deletedPropCount : Nat
  isHashed : Bool
  refCount : Nat
deriving DecidableEq, Repr

/-- The entry of an atom, with its position. -/
def JSShape.find (sh : JSShape) (prop : Atom) : Option (ShapeProp × Nat) :=
  sh.props.zipIdx.find? fun e => e.1.atom == some prop

/-- The flags of the first entry, which is the length of an array. -/
def JSShape.firstFlags (sh : JSShape) : PropFlags :=
  (sh.props.head?.map ShapeProp.flags).getD .zero

/-- `JSProperty`: a value, an accessor pair, a variable cell or an initialiser not yet run. -/
inductive JSProperty where
  | value (v : JSValue)
  | getset (getter setter : Option Ptr)
  | varRef (cell : Ptr)
  | init (id : Nat)
deriving DecidableEq, Repr

/-- The element type of a typed array class. -/
inductive TypedKind where
  | uint8c | int8 | uint8 | int16 | uint16 | int32 | uint32 | bigInt64 | bigUint64
  | float16 | float32 | float64
deriving DecidableEq, Repr

/-- Bytes per element. -/
def TypedKind.bytes : TypedKind → Nat
  | .uint8c | .int8 | .uint8 => 1
  | .int16 | .uint16 | .float16 => 2
  | .int32 | .uint32 | .float32 => 4
  | .bigInt64 | .bigUint64 | .float64 => 8

/-- `JSClassID`. -/
inductive ClassId where
  | object | array | error | number | string | boolean | symbol | bigInt
  | arguments | mappedArguments | date | moduleNs
  | cFunction | cFunctionData | bytecodeFunction | boundFunction
  | regexp | arrayBuffer | typedArray (k : TypedKind)
  | mapIterator | setIterator | arrayIterator | stringIterator | regexpStringIterator
  | iteratorHelper | iteratorConcat | proxy | promise | disposableStack | asyncDisposableStack
  | other (n : Nat)
deriving DecidableEq, Repr

/-- `is_typed_array`. -/
def ClassId.isTypedArray : ClassId → Bool
  | .typedArray _ => true
  | _ => false

/-- The union `u` of a `JSObject`. A fast array owns its element storage; the table of a mapped
arguments object is a block of its own, in snapshot memory when `inBase` is set. -/
inductive ObjData where
  | none
  | array (values : List JSValue) (size : Nat)
  | varRefs (inBase : Bool) (refs : List Ptr)
  | typedArray (buf : Ptr) (offset count : Nat) (oob : Bool)
  | objectData (v : JSValue)
  | state (p : Ptr)
deriving DecidableEq, Repr

/-- `p->u.array.count`. -/
def ObjData.count : ObjData → Nat
  | .array values _ => values.length
  | .varRefs _ refs => refs.length
  | .typedArray _ _ count _ => count
  | _ => 0

/-- `p->u.array.u.values`. -/
def ObjData.values : ObjData → List JSValue
  | .array values _ => values
  | _ => []

/-- `p->u.array.u1.size`. -/
def ObjData.size : ObjData → Nat
  | .array _ size => size
  | _ => 0

/-- `p->u.array.u.var_refs`. -/
def ObjData.refs : ObjData → List Ptr
  | .varRefs _ refs => refs
  | _ => []

/-- Is the table of a mapped arguments object snapshot memory? -/
def ObjData.inBase : ObjData → Bool
  | .varRefs inBase _ => inBase
  | _ => false

/-- `JSObject`. -/
structure JSObject where
  classId : ClassId
  extensible : Bool := true
  isExotic : Bool := false
  fastArray : Bool := false
  isPrototype : Bool := false
  shape : Ptr
  prop : List JSProperty := []
  u : ObjData := .none
deriving DecidableEq, Repr

/-- `p->prop[0].u.value`, the length of an array. -/
def JSObject.lengthValue (o : JSObject) : JSValue :=
  match o.prop with
  | .value v :: _ => v
  | _ => .undefined

/-- `JSArrayBuffer`. -/
structure JSArrayBuffer where
  data : List UInt8
  immutable : Bool
deriving DecidableEq, Repr

/-! ## Internal state structures

A class with more state than fits the union keeps it in a block of its own, which `ObjData.state`
points to. -/

/-- `JSIteratorKindEnum`. -/
inductive IteratorKind where
  | key | value | keyAndValue
deriving DecidableEq, Repr

/-- `JSMapIteratorData`. -/
structure JSMapIteratorData where
  obj : JSValue
  kind : IteratorKind
  curRecord : Option Nat
deriving DecidableEq, Repr

/-- `JSArrayIteratorData`. -/
structure JSArrayIteratorData where
  obj : JSValue
  kind : IteratorKind
  idx : Nat
deriving DecidableEq, Repr

/-- `JSIteratorHelperKindEnum`. -/
inductive HelperKind where
  | chunks | drop | filter | flatMap | map | take | windows
deriving DecidableEq, Repr

/-- `JSIteratorHelperData`. The buffered values are a block of their own. -/
structure JSIteratorHelperData where
  obj : JSValue
  next : JSValue
  func : JSValue
  inner : JSValue
  buf : Option Ptr
  count : Nat
  bufCount : Nat
  bufSize : Nat
  kind : HelperKind
  executing : Bool
  done : Bool
  allowPartial : Bool
deriving DecidableEq, Repr

/-- `JSIteratorConcatData`. -/
structure JSIteratorConcatData where
  index : Nat
  done : Bool
  running : Bool
  iter : JSValue
  next : JSValue
  values : List JSValue
deriving DecidableEq, Repr

/-- `JSRegExpStringIteratorData`. -/
structure JSRegExpStringIteratorData where
  iteratingRegexp : JSValue
  iteratedString : JSValue
  global : Bool
  unicode : Bool
  done : Bool
deriving DecidableEq, Repr

/-- `JSProxyData`. -/
structure JSProxyData where
  target : JSValue
  handler : JSValue
  isFunc : Bool
  isRevoked : Bool
deriving DecidableEq, Repr

/-- `JS_DISPOSE_HINT_*`. -/
inductive DisposeHint where
  | sync | adopt | defer
deriving DecidableEq, Repr

/-- `JSDisposableResource`. -/
structure JSDisposableResource where
  value : JSValue
  method : JSValue
  hint : DisposeHint
deriving DecidableEq, Repr

/-- `JSDisposableStack`. -/
structure JSDisposableStack where
  disposed : Bool
  resources : List JSDisposableResource
deriving DecidableEq, Repr

/-- A block `ObjData.state` points to. -/
inductive Opaque where
  | mapIterator (d : JSMapIteratorData)
  | arrayIterator (d : JSArrayIteratorData)
  | iteratorHelper (d : JSIteratorHelperData)
  | iteratorConcat (d : JSIteratorConcatData)
  | regexpStringIterator (d : JSRegExpStringIteratorData)
  | proxy (d : JSProxyData)
  | disposableStack (d : JSDisposableStack)
  | values (vs : List JSValue)
deriving DecidableEq, Repr

end ArenaJs
