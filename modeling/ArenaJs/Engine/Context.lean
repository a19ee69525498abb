import ArenaJs.Engine.Object

/-!
# The calls of the property layer and the context they run in

`Op` names the entry points of the property layer, one constructor for each source function, and
`Env` is what the runtime and context fix for a request. Four things of the engine are not
translated but left to the environment, which may do anything with them: the bytecode of functions,
the exotic methods of the classes that have them, the conversions of objects to primitives and
`JS_DefineProperty`. Each is a `Callback`, and what one invocation does is a `Prog`: a script that
makes calls of the property layer and goes on by their results.
-/

namespace ArenaJs.Heap

/-- `JSPropertyDescriptor`. -/
structure Descriptor where
  flags : PropFlags
  value : JSValue := .undefined
  getter : JSValue := .undefined
  setter : JSValue := .undefined
deriving DecidableEq, Repr

/-- What the caller of `JS_GetOwnPropertyInternal2` asks for. -/
inductive Want where
  | desc
  | flags
  | existence
deriving DecidableEq, Repr

/-- Code outside the property layer: a function, an exotic method of a class, a method of a proxy,
an initialiser, a conversion. -/
inductive Callback where
  | function (f : Ptr) (thisObj : JSValue) (args : List JSValue)
  | defineProperty (thisObj : JSValue) (prop : Atom) (val getter setter : JSValue) (flags : Flags)
  | getOwnProperty (p : Ptr) (prop : Atom)
  | defineOwnProperty (p : Ptr) (prop : Atom) (val getter setter : JSValue) (flags : Flags)
  | deleteProperty (p : Ptr) (prop : Atom)
  | hasProperty (p : Ptr) (prop : Atom)
  | getProperty (p : Ptr) (prop : Atom) (receiver : JSValue)
  | setProperty (p : Ptr) (prop : Atom) (val receiver : JSValue) (flags : Flags)
  | proxySetPrototypeOf (obj protoVal : JSValue) (throwFlag : Bool)
  | proxyGetPrototypeOf (obj : JSValue)
  | proxyIsExtensible (obj : JSValue)
  | proxyPreventExtensions (obj : JSValue)
  | autoinit (id : Nat) (p : Ptr) (prop : Atom)
  | toNumber (v : JSValue)
  | toUint32 (v : JSValue)
  | toElement (k : TypedKind) (v : JSValue)
  | toPropertyKey (v : JSValue)
deriving DecidableEq, Repr

/-- The entry points of the property layer. -/
inductive Op where
  | getPropertyInternal (obj : JSValue) (prop : Atom) (thisObj : JSValue) (throwRefError : Bool)
  | getPropertyInt64 (obj : JSValue) (idx : Nat)
  | hasProperty (obj : JSValue) (prop : Atom)
  | getOwnPropertyInternal2 (p : Ptr) (prop : Atom) (want : Want)
  | getPrototype (obj : JSValue)
  | isExtensible (obj : JSValue)
  | setPropertyInternal2 (obj : JSValue) (prop : Atom) (val thisObj : JSValue) (flags : Flags)
  | setPropertyValue (thisObj prop val : JSValue) (flags : Flags)
  | createProperty (p : Ptr) (prop : Atom) (val getter setter : JSValue) (flags : Flags)
  | setPrototypeInternal (obj protoVal : JSValue) (throwFlag : Bool)
  | preventExtensions (obj : JSValue)
  | call (c : Callback)
deriving DecidableEq, Repr

/-- The result of a call: what the C function returns or stores through its result pointers. -/
inductive Ret where
  | unit
  | bool (b : Bool)
  | value (v : JSValue)
  | desc (d : Option Descriptor)
deriving DecidableEq, Repr

def Ret.toBool : Ret → Bool
  | .bool b => b
  | _ => false

def Ret.toValue : Ret → JSValue
  | .value v => v
  | _ => .undefined

def Ret.toDesc : Ret → Option Descriptor
  | .desc d => d
  | _ => none

/-- The kinds of error the property layer throws. -/
inductive ErrorKind where
  | type
  | range
  | reference
deriving DecidableEq, Repr

/-- A pending exception. An error of the engine is its kind, its format text and the atom the text
names; an `int` result of `-1` with no exception set is `unset`. -/
inductive JSError where
  | error (kind : ErrorKind) (fmt : String) (atom : Option Atom)
  | outOfMemory
  | unset
  | value (v : JSValue)
deriving DecidableEq, Repr

/-- One invocation of code outside the property layer. -/
inductive Prog where
  | ret (r : Except JSError Ret)
  | op (o : Op) (next : Except JSError Ret → Prog)

/-- Which exotic methods a class has. -/
structure Exotic where
  getOwnProperty : Bool := false
  defineOwnProperty : Bool := false
  deleteProperty : Bool := false
  hasProperty : Bool := false
  getProperty : Bool := false
  setProperty : Bool := false

/-- The runtime and context of a request. `alloc i` says whether its `i`-th allocation succeeds and
`code i` is what its `i`-th callback does. `numericIndex` is `JS_AtomIsNumericIndex1` on names that
are not tagged indices: whether the number is an integer and whether it is negative or `-0`;
`elementValue` is the value of the raw bits of a typed array element. -/
structure Env where
  isArena : Bool
  alloc : Nat → Bool
  strict : Bool
  classProto : ClassId → Option Ptr
  exotic : ClassId → Option Exotic
  callable : ClassId → Bool
  numericIndex : String → Option (Bool × Bool)
  elementValue : TypedKind → Nat → JSValue
  code : Nat → Callback → Prog

end ArenaJs.Heap
