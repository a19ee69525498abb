import ArenaJs.Engine.Shadow

/-!
# Properties of one object

What the entry points do to a single object, which they have already resolved to the one to read or
write: finding, adding, deleting and converting properties and elements. The entry points call each
other and code outside the property layer through `Calls`.
-/

namespace ArenaJs.Heap

variable (env : Env) (p : Ptr) (k : Calls) (val : JSValue)

/-- How a function of the property layer makes further calls: `run` is the layer itself with less
fuel, and `fuel` also bounds the loops whose length is not known. -/
structure Calls where
  fuel : Nat
  run : Op → M Ret

section Calls
variable (k : Calls)

def Calls.bool (op : Op) : M Bool := return (← k.run op).toBool

def Calls.value (op : Op) : M JSValue := return (← k.run op).toValue

def Calls.desc (op : Op) : M (Option Descriptor) := return (← k.run op).toDesc

/-- `JS_CallFree`. -/
def Calls.function (f : Ptr) (thisObj : JSValue) (args : List JSValue) : M JSValue :=
  k.value (.call (.function f thisObj args))

end Calls

/-! ## Finding -/

/-- What `find_own_property` returns: the position of the property, its flags and its slot; with
the class of the object, which some callers test next. -/
structure Found where
  idx : Nat
  flags : PropFlags
  slot : JSProperty
  classId : ClassId
deriving DecidableEq, Repr

/-- `find_own_property` on the records. -/
def JSObject.findOwn (o : JSObject) (sh : JSShape) (prop : Atom) : Option Found :=
  (sh.find prop).map fun e => ⟨e.2, e.1.flags, o.prop.getD e.2 (.value .undefined), o.classId⟩

/-- `find_own_property`. -/
def findOwnProperty (prop : Atom) : M (Option Found) := do
  let o ← getObj p
  let sh ← getShape o.shape
  return JSObject.findOwn o sh prop

/-- A write to the slot at position `i`. -/
def setSlot (i : Nat) (slot : JSProperty) : M Unit :=
  modifyObj p fun o => { o with prop := o.prop.set i slot }

/-- A write to the flags at position `i` of a shape. -/
def setShapeFlags (sh : Ptr) (i : Nat) (flags : PropFlags) : M Unit :=
  modifyShape sh fun o => { o with props := o.props.modify i fun e => { e with flags := flags } }

/-! ## Adding -/

/-- Is `p`, as the object the script sees, the prototype object of a class? -/
def isClassProto (c : ClassId) : M Bool := do
  return env.classProto c == some (← objectBaseIdentity env p)

/-- The first part of `add_property`: an index added to `Array.prototype` or `Object.prototype` ends
the fast paths that rely on there being none. -/
def trackPrototypeIndex (prop : Atom) : M Unit := do
  if (← getObj p).isPrototype then
    let isArray ← isClassProto env p .array
    let isObject ← isClassProto env p .object
    when ((isArray || isObject) && prop.isTaggedInt) do stdArrayPrototypeMarkDirty env

/-- `add_property` when a hashed shape with the new property exists. -/
def adoptShape (p sh newSh : Ptr) (slot : JSProperty) : M Unit := do
  when ((← getShape newSh).propSize ≠ (← getShape sh).propSize) do jsRealloc env
  dupShape env newSh
  modifyObj p fun o => { o with shape := newSh }
  freeShape env sh
  modifyObj p fun o => { o with prop := o.prop ++ [slot] }

/-- `add_property` when the hashed shape is shared: the copy is hashed too. -/
def hashedCopy (p sh : Ptr) : M Ptr := do
  let newSh ← cloneShape env sh
  modifyShape newSh fun o => { o with isHashed := true }
  shapeHashLink env newSh
  freeShape env sh
  modifyObj p fun o => { o with shape := newSh }
  return newSh

/-- The shape of `p` made one that `add_shape_property` may change. -/
def ownShape (p sh : Ptr) : M Ptr := do
  let o ← getShape sh
  if o.isHashed then
    if o.refCount ≠ 1 || env.ptrIsBase sh then hashedCopy env p sh else return sh
  else
    if env.ptrIsBase sh then unshareShape env p sh else return sh

/-- The shape that already has the new property, if shapes like `sh` are shared. -/
def findKnownShape (sh : JSShape) (prop : Atom) (flags : PropFlags) : M (Option Ptr) :=
  if sh.isHashed then findHashedShapeProp sh prop flags else return none

/-- `add_property`, with the value the caller stores in the new slot. -/
def addProperty (prop : Atom) (flags : PropFlags) (slot : JSProperty) :
    M Unit := do
  trackPrototypeIndex env p prop
  let sh := (← getObj p).shape
  let o ← getShape sh
  match ← findKnownShape o prop flags with
  | some newSh => adoptShape env p sh newSh slot
  | none =>
    let own ← ownShape env p sh
    addShapeProperty env own prop flags
    modifyObj p fun o => { o with prop := o.prop ++ [slot] }

/-! ## Elements -/

/-- The properties that replace the elements of a fast array. -/
def ObjData.elementProps (u : ObjData) (classId : ClassId) : List (PropFlags × JSProperty) :=
  if classId = .mappedArguments then
    u.refs.map fun c => ({ PropFlags.cwe with kind := .varref }, .varRef c)
  else u.values.map fun v => (.cwe, .value v)

/-- `convert_fast_array_to_array`. -/
def convertFastArrayToArray : M Unit := do
  when (← isClassProto env p .array) do stdArrayPrototypeMarkDirty env
  let sh ← shapePrepareUpdate env p
  let o ← getObj p
  let shape ← getShape sh
  let newCount := shape.props.length + o.u.count
  when (newCount > shape.propSize) do resizeProperties env sh newCount
  for e in (ObjData.elementProps o.u o.classId).zipIdx do
    addProperty env p (.int e.2) e.1.1 e.1.2
  jsFreeBlock o.u.inBase
  modifyObj p fun o => { o with u := .array [] 0, fastArray := false }

/-- `expand_fast_array`. -/
def expandFastArray (newLen : Nat) : M Unit := do
  if newLen > 2 ^ 31 - 1 then throw (.throw .outOfMemory)
  let o ← getObj p
  jsRealloc env
  modifyObj p fun o' => { o' with
    u := .array o'.u.values (max newLen (o.u.size + o.u.size / 2)) }

/-- The elements of a fast array from now on. -/
def setValues (values : List JSValue) : M Unit :=
  modifyObj p fun o => { o with u := .array values o.u.size }

/-- `p->prop[0].u.value = v`. -/
def setLength (v : JSValue) : M Unit := setSlot p 0 (.value v)

/-- `add_fast_array_element`: the length first, then the storage. -/
def addFastArrayElement (flags : Flags) : M Bool := do
  let o ← getObj p
  let sh ← getShape o.shape
  let newLen := o.u.count + 1
  let longer := match o.lengthValue with
    | .int n => decide (n < newLen)
    | _ => false
  if longer && !sh.firstFlags.writable then
    throwTypeErrorReadOnly env flags .length
  else
    when longer do setLength p (.int newLen)
    when (newLen > o.u.size) do expandFastArray env p newLen
    setValues p ((← getObj p).u.values ++ [val])
    return true

/-! ## Deleting -/

/-- `delete_property` of a property that is in the shape. -/
def deleteFound (f : Found) : M Bool := do
  if !f.flags.configurable then return false
  let sh ← shapePrepareUpdate env p
  modifyShape sh fun o => { o with
    props := o.props.set f.idx ⟨none, .zero⟩, deletedPropCount := o.deletedPropCount + 1 }
  setSlot p f.idx (.value .undefined)
  let o ← getShape sh
  when (o.deletedPropCount ≥ 8 && o.deletedPropCount ≥ o.props.length / 2) do
    compactProperties env p sh
  return true

/-- Does the class keep its elements as values or cells, which can become properties? -/
def ClassId.convertible (c : ClassId) : Bool :=
  c = .array || c = .arguments || c = .mappedArguments

/-- `delete_property`. -/
def deleteProperty (p : Ptr) (prop : Atom) : M Bool := do
  match ← findOwnProperty p prop with
  | some f => deleteFound env p f
  | none =>
    let o ← getObj p
    if !o.isExotic then return true
    if o.fastArray then
      unless prop.arrayIndex.any (· < o.u.count) do return true
      if !ClassId.convertible o.classId then return false
      convertFastArrayToArray env p
      match ← findOwnProperty p prop with
      | some f => deleteFound env p f
      | none => return true
    else if (env.exotic o.classId).any (·.deleteProperty) then
      k.bool (.call (.deleteProperty p prop))
    else return true

/-! ## Accessors and initialisers -/

/-- The receiver as code outside sees it. -/
def receiverIdentity (thisObj : JSValue) : M JSValue := do
  match thisObj with
  | .object q => return .object (← objectBaseIdentity env q)
  | v => return v

/-- `call_setter`: the setter sees the snapshot object, not its shadow. -/
def callSetter (setter : Option Ptr) (thisObj val : JSValue)
    (flags : Flags) : M Bool := do
  match setter with
  | some f =>
    let _ ← k.function f (← receiverIdentity env thisObj) [val]
    return true
  | none => throwTypeErrorOrFalse env flags "no setter for property"

/-- `JS_AutoInitProperty`. -/
def autoInitProperty (p : Ptr) (prop : Atom) (f : Found) : M Unit := do
  let sh ← shapePrepareUpdate env p
  let id := match f.slot with
    | .init id => id
    | _ => 0
  let val ← onThrow (k.value (.call (.autoinit id p prop))) fun e => do
    setShapeFlags sh f.idx { f.flags with kind := .normal }
    setSlot p f.idx (.value .undefined)
    throw (.throw e)
  setShapeFlags sh f.idx { f.flags with kind := .normal }
  setSlot p f.idx (.value val)

/-! ## Conversions -/

/-- `JS_ToArrayLengthFree` for a value that is not the argument of the array constructor. -/
def toArrayLength : M Nat := do
  match val with
  | .int n => if n < 0 then raise .range "invalid array length" else return n.toNat
  | .bool b => return b.toNat
  | .null => return 0
  | .float64 bits =>
    match float64ToUint32 bits with
    | some n => return n
    | none => raise .range "invalid array length"
  | _ =>
    -- the conversion is made twice and the results compared
    let len ← k.value (.call (.toUint32 val))
    let num ← k.value (.call (.toNumber val))
    let len1 := match num with
      | .int n => if n < 0 then none else some n.toNat
      | .float64 bits => float64ToUint32 bits
      | _ => none
    if len1 = some len.toUint32 then return len.toUint32 else raise .range "invalid array length"

/-- `JS_ValueToAtom`. -/
def valueToAtom : M Atom := do
  match val with
  | .int n => return if n < 0 then .str (toString n) else .ofNat n.toNat
  | .symbol a => return .symbol a
  | .string s => return .ofString s
  | _ =>
    match ← k.value (.call (.toPropertyKey val)) with
    | .symbol a => return .symbol a
    | .string s => return .ofString s
    | _ => return .str ""

/-- `JS_IsFunction`. -/
def isFunction : M Bool := do
  match val with
  | .object p =>
    let o ← getObj p
    match o.classId, o.u with
    | .bytecodeFunction, _ => return true
    | .proxy, .state st =>
      match ← getStruct st with
      | .proxy d => return d.isFunc
      | _ => return false
    | c, _ => return env.callable c
  | _ => return false

/-- The function a getter or setter argument names, if it is one. -/
def functionPtr : M (Option Ptr) := do
  match val with
  | .object p => if ← isFunction env val then return some p else return none
  | _ => return none

/-- `JS_GetPrototypePrimitive`. -/
def Env.prototypePrimitive : JSValue → Option Ptr
  | .bigInt _ => env.classProto .bigInt
  | .int _ | .float64 _ => env.classProto .number
  | .bool _ => env.classProto .boolean
  | .string _ => env.classProto .string
  | .symbol _ => env.classProto .symbol
  | _ => none

end ArenaJs.Heap
