import ArenaJs.Engine.Write

/-!
# Elements, new properties and the rest of the writers

`JS_SetPropertyValue` and `JS_CreateProperty`, and the entry points that change the prototype or the
extensibility of an object.
-/

namespace ArenaJs.Heap

variable (env : Env) (k : Calls)

/-! ## `JS_SetPropertyValue` -/

/-- The store of a raw element. -/
def writeBytes (data : List UInt8) (off : Nat) : Nat → Nat → List UInt8
  | 0, _ => data
  | n + 1, raw => writeBytes (data.set off (UInt8.ofNat raw)) (off + 1) n (raw / 256)

/-- The conversion of a value to an element; when the caller is `Reflect.defineProperty` a failed
conversion is not an exception. -/
def toElement (kind : TypedKind) (val : JSValue) (flags : Flags) : M (Option Nat) :=
  onThrow (do
      match ← k.value (.call (.toElement kind val)) with
      | .int n => return some n.toNat
      | _ => return some 0)
    fun e => if flags.reflectDefineProperty then return none else throw (.throw e)

variable (p : Ptr) (prop : Atom) (val getter setter : JSValue) (flags : Flags)

/-- `JS_SetPropertyValue` on a typed array: the conversion comes first, since it can detach the
array. -/
def setTypedElement (kind : TypedKind) (idx : Nat) (val : JSValue) (flags : Flags) :
    M Bool := do
  match ← toElement k kind val flags with
  | none => return false
  | some raw =>
    match (← getObj p).u with
    | .typedArray buf offset count oob =>
      let b ← getBuf buf
      if b.immutable then return false
      if count ≤ idx then
        if oob && flags.defineProperty then
          throwTypeErrorOrFalse env flags "out-of-bound numeric index"
        else return true
      else
        setBuf buf { b with
          data := writeBytes b.data (offset + idx * kind.bytes) kind.bytes raw }
        return true
    | _ => return true

/-- The object whose elements are stored to; without memory for a shadow there is none. -/
def elementTarget : M (Option Ptr) := do
  let o ← getObj p
  if env.ptrIsBase p && (o.classId = .array || o.classId = .arguments) then
    onThrow (do return some (← objectForWrite env p)) fun _ => return none
  else return some p

/-- May an element be added to a fast array without looking at the prototype chain? -/
def plainArray (o : JSObject) : M Bool := do
  let sh ← getShape o.shape
  let std ← stdArrayPrototypeActive
  return o.fastArray && o.extensible && sh.proto == env.classProto .array && std

/-- The fast path of `JS_SetPropertyValue`; `none` sends the caller to the slow path. -/
def setElement (idx : Nat) (val : JSValue) (flags : Flags) : M (Option Bool) := do
  match ← elementTarget env p with
  | none => return none
  | some q =>
    let o ← getObj q
    match o.classId, o.u with
    | .array, .array values _ =>
      if idx < values.length then
        setValues q (values.set idx val)
        return some true
      else if idx = values.length && (← plainArray env o) then
        return some (← addFastArrayElement env q val flags)
      else return none
    | .arguments, .array values _ =>
      if idx < values.length then
        setValues q (values.set idx val)
        return some true
      else return none
    | .mappedArguments, .varRefs _ refs =>
      match refs[idx]? with
      | some c =>
        setCell (← varRefForWrite env c) val
        return some true
      | none => return none
    | .typedArray kind, _ => return some (← setTypedElement env k q kind idx val flags)
    | _, _ => return none

/-- The slow path of `JS_SetPropertyValue`. -/
def setValueSlow (thisObj prop val : JSValue) (flags : Flags) : M Bool := do
  let atom ← valueToAtom k prop
  k.bool (.setPropertyInternal2 thisObj atom val thisObj flags)

/-- `JS_SetPropertyValue`. -/
def setPropertyValue (thisObj prop val : JSValue) (flags : Flags) : M Bool := do
  match thisObj, prop with
  | .object p, .int n =>
    match ← setElement env k p (n % 2 ^ 32).toNat val flags with
    | some b => return b
    | none => setValueSlow k thisObj prop val flags
  | _, _ => setValueSlow k thisObj prop val flags

/-! ## `JS_CreateProperty` -/

/-- `get_prop_flags`. -/
def getPropFlags (dflt : PropFlags) : PropFlags where
  configurable := if flags.hasConfigurable then flags.configurable else dflt.configurable
  writable := if flags.hasWritable then flags.writable else dflt.writable
  enumerable := if flags.hasEnumerable then flags.enumerable else dflt.enumerable

/-- The length of an array that gets an element at `idx` as a property. -/
def growLength (idx : Nat) (flags : Flags) : M (Option Bool) := do
  let o ← getObj p
  let sh ← getShape o.shape
  if o.lengthValue.toUint32 < idx + 1 then
    if !sh.firstFlags.writable then
      return some (← throwTypeErrorReadOnly env flags .length)
    setLength p (jsUint32 (idx + 1))
  return none

/-- `convert_to_array` and `generic_array`. -/
def convertAndGrow (idx : Nat) (flags : Flags) : M (Option Bool) := do
  convertFastArrayToArray env p
  growLength env p idx flags

/-- `js_arguments_define_own_property`. -/
def argumentsDefineOwnProperty : M Bool := do
  let o ← getObj p
  when (o.fastArray && prop.arrayIndex.any (· < o.u.count)) do convertFastArrayToArray env p
  k.bool
    (.call (.defineProperty (.object p) prop val getter setter { flags with noExotic := true }))

/-- `JS_CreateProperty` on an array. -/
def createOnArray (o : JSObject) (prop : Atom) (val : JSValue) (flags : Flags) :
    M (Option Bool) := do
  match prop.arrayIndex with
  | none => return none
  | some idx =>
    if !o.fastArray then growLength env p idx flags
    else if prop = .int o.u.count then
      if !o.extensible then
        return some (← throwTypeErrorOrFalse env flags "object is not extensible")
      else if flags.hasAccessor || getPropFlags flags .zero ≠ .cwe then
        convertAndGrow env p idx flags
      else return some (← addFastArrayElement env p val flags)
    else convertAndGrow env p idx flags

/-- `JS_CreateProperty` by the methods of the class. -/
def createByMethod (o : JSObject) (prop : Atom) (val getter setter : JSValue)
    (flags : Flags) : M (Option Bool) := do
  if o.classId = .arguments ∨ o.classId = .mappedArguments then
    return some (← argumentsDefineOwnProperty env k p prop val getter setter flags)
  match env.exotic o.classId with
  | some em =>
    if em.defineOwnProperty then
      return some (← k.bool (.call (.defineOwnProperty p prop val getter setter flags)))
    else if ← k.bool (.isExtensible (.object p)) then return none
    else return some (← throwTypeErrorOrFalse env flags "object is not extensible")
  | none => return none

/-- The exotic part of `JS_CreateProperty`: a result, or the property is added. -/
def createExotic :
    M (Option Bool) := do
  let o ← getObj p
  if !o.isExotic then return none
  if o.classId = .array then createOnArray env p o prop val flags
  else if o.classId.isTypedArray then
    if env.isNumericIndex prop then
      return some (← throwTypeErrorOrFalse env flags "cannot create numeric index in typed array")
    else return none
  else if flags.noExotic then return none
  else createByMethod env k p o prop val getter setter flags

/-- The flags and the slot of a created property. -/
def createdSlot : M (PropFlags × JSProperty) := do
  if flags.hasAccessor then
    let g ← functionPtr env getter
    let s ← functionPtr env setter
    return ({ configurable := flags.configurable, enumerable := flags.enumerable,
              writable := false, kind := .getset },
      .getset (if flags.hasGet then g else none) (if flags.hasSet then s else none))
  else
    return ({ configurable := flags.configurable, enumerable := flags.enumerable,
              writable := flags.writable },
      .value (if flags.hasValue then val else .undefined))

/-- `JS_CreateProperty`. -/
def createProperty :
    M Bool := do
  let p ← objectForWrite env p
  match ← createExotic env k p prop val getter setter flags with
  | some b => return b
  | none =>
    if !(← getObj p).extensible then
      throwTypeErrorOrFalse env flags "object is not extensible"
    else
      let (fl, slot) ← createdSlot env val getter setter flags
      addProperty env p prop fl slot
      return true

/-! ## Prototype and extensibility -/

/-- The result of a refused `JS_SetPrototypeInternal`. -/
def refusePrototype (throwFlag : Bool) (fmt : String) : M Bool :=
  if throwFlag then raise .type fmt else return false

/-- Is `target` on the prototype chain that starts at `p1`? -/
def onChain (target : Ptr) : Nat → Ptr → M Bool
  | 0, _ => throw .timeout
  | fuel + 1, p1 => do
    if p1 = target then return true
    match (← getShape (← getObj (← objectActive env p1)).shape).proto with
    | some q => onChain target fuel q
    | none => return false

/-- The cycle check of `JS_SetPrototypeInternal`. -/
def makesCycle (target : Ptr) (proto : Option Ptr) : M Bool :=
  match proto with
  | some q => onChain env target k.fuel q
  | none => return false

/-- The new prototype marked as one; a snapshot object is left as it is. -/
def markPrototype (proto : Option Ptr) : M Unit := do
  match proto with
  | some q =>
    let o ← getObj q
    when (!o.isPrototype && !env.ptrIsBase q) do
      modifyObj q fun o => { o with isPrototype := true }
  | none => pure ()

/-- `JS_SetPrototypeInternal` on the resolved object `p`, which the script knows as `pBase`. -/
def setPrototypeOn (p pBase : Ptr) (proto : Option Ptr) (throwFlag : Bool) : M Bool := do
  let o ← getObj p
  if (← getShape o.shape).proto = proto then return true
  if env.classProto .object = some pBase then
    return ← refusePrototype throwFlag
      "'Immutable prototype object 'Object.prototype' cannot have their prototype set'"
  if !o.extensible then return ← refusePrototype throwFlag "object is not extensible"
  if ← makesCycle env k pBase proto then
    return ← refusePrototype throwFlag "circular prototype chain"
  let sh ← shapePrepareUpdate env p
  modifyShape sh fun o => { o with proto := proto }
  markPrototype env proto
  when (o.isPrototype && env.classProto .array == some p) do stdArrayPrototypeMarkDirty env
  return true

/-- The prototype a value names, if it names one. -/
def protoOf (protoVal : JSValue) : M (Option Ptr) :=
  match protoVal with
  | .object q => return some q
  | .null => return none
  | _ => throwTypeErrorNotAnObject

/-- `JS_SetPrototypeInternal`. -/
def setPrototypeInternal (obj protoVal : JSValue) (throwFlag : Bool) : M Bool := do
  match obj with
  | .object p =>
    let pBase ← objectBaseIdentity env p
    let p ← objectForWrite env p
    let proto ← protoOf protoVal
    if (← getObj p).classId = .proxy then
      k.bool (.call (.proxySetPrototypeOf obj protoVal throwFlag))
    else setPrototypeOn env k p pBase proto throwFlag
  | .null | .undefined => throwTypeErrorNotAnObject
  | _ =>
    if !throwFlag then throwTypeErrorNotAnObject
    let _ ← protoOf protoVal
    return true

/-- `JS_PreventExtensions`. -/
def preventExtensions (obj : JSValue) : M Bool := do
  match obj with
  | .object p =>
    if (← getObj p).classId = .proxy then k.bool (.call (.proxyPreventExtensions obj))
    else
      let p ← objectForWrite env p
      modifyObj p fun o => { o with extensible := false }
      return true
  | _ => return false

end ArenaJs.Heap
