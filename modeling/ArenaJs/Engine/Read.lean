import ArenaJs.Engine.Property

/-!
# Reading

The entry points that read. They look at the shadow of a snapshot object when there is one
(`js_object_active`), at every link of the prototype chain; the fast paths for array elements look
at the object they are given.
-/

namespace ArenaJs.Heap

variable (env : Env) (k : Calls)

/-- `JS_AtomIsNumericIndex`. -/
def Env.isNumericIndex (env : Env) : Atom → Bool
  | .int _ => true
  | .str s => (env.numericIndex s).isSome
  | _ => false

/-! ## Elements -/

/-- The bits of the element at byte offset `off` of a buffer. -/
def rawElement (data : List UInt8) (off bytes : Nat) : Nat :=
  ((data.drop off).take bytes).foldr (fun c acc => c.toNat + 256 * acc) 0

variable (obj : JSValue) (p : Ptr) (prop : Atom)

/-- `js_get_fast_array_element`. -/
def getFastArrayElement (idx : Nat) : M (Option JSValue) := do
  let o ← getObj p
  match o.classId, o.u with
  | .array, .array values _ => return values[idx]?
  | .arguments, .array values _ => return values[idx]?
  | .mappedArguments, .varRefs _ refs =>
    match refs[idx]? with
    | some c => return some (← getCell (← varRefActive env c))
    | none => return none
  | .typedArray kind, .typedArray buf offset count _ =>
    if idx < count then
      let b ← getBuf buf
      return some (env.elementValue kind
        (rawElement b.data (offset + idx * kind.bytes) kind.bytes))
    else return none
  | _, _ => return none

/-- `JS_GetPropertyInt64`, and `JS_GetPropertyUint32`. -/
def getPropertyInt64 (idx : Nat) : M JSValue := do
  let slow := k.value (.getPropertyInternal obj (.ofNat idx) obj false)
  match obj with
  | .object p =>
    if idx < 2 ^ 31 then
      match ← getFastArrayElement env p idx with
      | some v => return v
      | none => slow
    else slow
  | _ => slow

/-! ## Own properties -/

/-- `JS_CallFree` of a value that should be a function. -/
def callValue (f thisObj : JSValue) (args : List JSValue) : M JSValue :=
  match f with
  | .object q => k.function q thisObj args
  | _ => raise .type "not a function"

/-- The value of a variable reference. -/
def readVarRef (cell : Ptr) (prop : Atom) : M JSValue := do
  match ← getCell cell with
  | .uninitialized => throwReferenceErrorUninitialized (some prop)
  | v => return v

def Ptr.toJSValue : Option Ptr → JSValue
  | some p => .object p
  | none => .undefined

/-- The descriptor of a property found in the shape; an initialiser has none yet. -/
def foundDesc (f : Found) : M Descriptor := do
  let flags : PropFlags := { f.flags with length := false, kind := .normal }
  match f.flags.kind, f.slot with
  | .normal, .value v => return { flags := flags, value := v }
  | .getset, .getset getter setter =>
    return { flags := { flags with kind := .getset },
             getter := Ptr.toJSValue getter, setter := Ptr.toJSValue setter }
  | .varref, .varRef c => return { flags := flags, value := ← readVarRef c prop }
  | _, _ => throw .crash

/-- What the caller that does not want the value gets to know. -/
def foundFlags (f : Found) : M Descriptor := do
  let kind := if f.flags.kind = .getset then PropKind.getset else .normal
  let flags : PropFlags := { f.flags with length := false, kind := kind }
  match f.flags.kind, f.slot with
  | .varref, .varRef c => return { flags := flags, value := ← readVarRef c prop }
  | _, _ => return { flags := flags }

/-- The exotic part of `JS_GetOwnPropertyInternal2`. -/
def exoticGetOwn (want : Want) : M (Option Descriptor) := do
  let o ← getObj p
  if !o.isExotic then return none
  if o.fastArray then
    match prop with
    | .int idx =>
      if idx < o.u.count then
        if want = .desc then
          return some { flags := .cwe, value := ← k.value (.getPropertyInt64 (.object p) idx) }
        else return some { flags := .cwe }
      else return none
    | _ => return none
  else if (env.exotic o.classId).any (·.getOwnProperty) then
    k.desc (.call (.getOwnProperty p prop))
  else return none

/-- `JS_GetOwnPropertyInternal2` of the object to read. -/
def getOwn (prop : Atom) (want : Want) : Nat → Ptr → M (Option Descriptor)
  | 0, _ => throw .timeout
  | fuel + 1, p => do
    match ← findOwnProperty p prop with
    | some f =>
      if want = .desc then
        if f.flags.kind = .autoinit then
          autoInitProperty env k p prop f
          getOwn prop want fuel p
        else return some (← foundDesc prop f)
      else return some (← foundFlags prop f)
    | none => exoticGetOwn env k p prop want

/-- `JS_GetOwnPropertyInternal2`. -/
def getOwnPropertyInternal2 (want : Want) : M (Option Descriptor) := do
  getOwn env k prop want k.fuel (← objectActive env p)

/-! ## The prototype chain -/

/-- The value of a property found in the shape. -/
def readFound (thisObj : JSValue) (f : Found) : M JSValue := do
  match f.flags.kind, f.slot with
  | .normal, .value v => return v
  | .getset, .getset none _ => return .undefined
  | .getset, .getset (some getter) _ => k.function getter thisObj []
  | .varref, .varRef c => readVarRef c prop
  | _, _ => throw .crash

/-- The exotic part of `JS_GetPropertyInternal`: a result, or the chain goes on. -/
def exoticGet (thisObj : JSValue) : M (Option JSValue) := do
  let o ← getObj p
  if !o.isExotic then return none
  if o.fastArray then
    match prop with
    | .int idx =>
      if idx < o.u.count then return some (← k.value (.getPropertyInt64 (.object p) idx))
      else if o.classId.isTypedArray then return some .undefined
      else return none
    | _ =>
      if o.classId.isTypedArray && env.isNumericIndex prop then return some .undefined
      else return none
  else
    match env.exotic o.classId with
    | some em =>
      if em.getProperty then return some (← k.value (.call (.getProperty p prop thisObj)))
      else if em.getOwnProperty then
        match ← k.desc (.call (.getOwnProperty p prop)) with
        | some d =>
          if d.flags.kind = .getset then return some (← callValue k d.getter thisObj [])
          else return some d.value
        | none => return none
      else return none
    | none => return none

/-- The loop of `JS_GetPropertyInternal`. -/
def getWalk (prop : Atom) (thisObj : JSValue) (throwRefError : Bool) : Nat → Ptr → M JSValue
  | 0, _ => throw .timeout
  | fuel + 1, p => do
    match ← findOwnProperty p prop with
    | some f =>
      if f.flags.kind = .autoinit then
        autoInitProperty env k p prop f
        getWalk prop thisObj throwRefError fuel p
      else readFound k prop thisObj f
    | none =>
      match ← exoticGet env k p prop thisObj with
      | some v => return v
      | none =>
        match (← getShape (← getObj p).shape).proto with
        | some q => getWalk prop thisObj throwRefError fuel (← objectActive env q)
        | none => if throwRefError then throwReferenceErrorNotDefined prop else return .undefined

/-- The own properties of a string value. -/
def stringOwn (s : String) : Atom → Option JSValue
  | .int idx => (s.toList[idx]?).map fun c => .string c.toString
  | a => if a = .length then some (.int s.length) else none

/-- `JS_GetPropertyInternal`. -/
def getPropertyInternal (thisObj : JSValue) (throwRefError : Bool) :
    M JSValue := do
  let primitive : M JSValue := do
    match env.prototypePrimitive obj with
    | some q => getWalk env k prop thisObj throwRefError k.fuel (← objectActive env q)
    | none => return .undefined
  match obj with
  | .object p => getWalk env k prop thisObj throwRefError k.fuel (← objectActive env p)
  | .null => raiseAtom .type "cannot read property '%s' of null" (some prop)
  | .undefined => raiseAtom .type "cannot read property '%s' of undefined" (some prop)
  | .exception => throw (.throw .unset)
  | .string s =>
    match stringOwn s prop with
    | some v => return v
    | none => primitive
  | _ => primitive

/-- The loop of `JS_HasProperty`: the exotic and typed array tests look at the object on the chain,
the rest at the one to read. -/
def hasWalk (prop : Atom) : Nat → Ptr → M Bool
  | 0, _ => throw .timeout
  | fuel + 1, p => do
    let o ← getObj p
    if o.isExotic && (env.exotic o.classId).any (·.hasProperty) then
      k.bool (.call (.hasProperty p prop))
    else if (← getOwnPropertyInternal2 env k p prop .existence).isSome then return true
    else if o.classId.isTypedArray && env.isNumericIndex prop then return false
    else
      match (← getShape (← getObj (← objectActive env p)).shape).proto with
      | some q => hasWalk prop fuel q
      | none => return false

/-- `JS_HasProperty`. -/
def hasProperty : M Bool :=
  match obj with
  | .object p => hasWalk env k prop k.fuel p
  | _ => return false

/-! ## Prototype and extensibility -/

/-- `JS_GetPrototype`. -/
def getPrototype : M JSValue := do
  let ofProto : Option Ptr → JSValue
    | some q => .object q
    | none => .null
  match obj with
  | .object p =>
    if (← getObj p).classId = .proxy then k.value (.call (.proxyGetPrototypeOf obj))
    else return ofProto (← getShape (← getObj (← objectActive env p)).shape).proto
  | v => return ofProto (env.prototypePrimitive v)

/-- `JS_IsExtensible`. -/
def isExtensible : M Bool := do
  match obj with
  | .object p =>
    if (← getObj p).classId = .proxy then k.bool (.call (.proxyIsExtensible obj))
    else return (← getObj (← objectActive env p)).extensible
  | _ => return false

/-! ## Instances -/

section
variable (pollInterrupts : M Unit)

/-- The slow case of `JS_OrdinaryIsInstanceOf`: from a proxy on, prototypes are asked for. -/
def proxyInstanceOf (proto : Ptr) : Nat → JSValue → M Bool
  | 0, _ => throw .timeout
  | fuel + 1, obj1 => do
    match ← k.value (.getPrototype obj1) with
    | .object q =>
      if q = proto then return true
      pollInterrupts
      proxyInstanceOf proto fuel (.object q)
    | _ => return false

/-- The loop of `JS_OrdinaryIsInstanceOf`. -/
def instanceOfWalk (proto : Ptr) : Nat → Ptr → M Bool
  | 0, _ => throw .timeout
  | fuel + 1, p => do
    match (← getShape (← getObj (← objectActive env p)).shape).proto with
    | none =>
      if (← getObj p).classId = .proxy then
        proxyInstanceOf k pollInterrupts proto fuel (.object p)
      else return false
    | some q => if q = proto then return true else instanceOfWalk proto fuel q

/-- `JS_OrdinaryIsInstanceOf`. A bound function passes the question on to its target. -/
def ordinaryIsInstanceOf (boundTarget : Ptr → M JSValue) (isInstanceOf : JSValue → JSValue → M Bool)
    (val obj : JSValue) : M Bool := do
  match obj with
  | .object p =>
    if !(← isFunction env obj) then return false
    if (← getObj p).classId = .boundFunction then return ← isInstanceOf val (← boundTarget p)
    match val with
    | .object v =>
      match ← k.value (.getPropertyInternal obj (.str "prototype") obj false) with
      | .object proto => instanceOfWalk env k pollInterrupts proto k.fuel v
      | _ => raise .type "operand 'prototype' property is not an object"
    | _ => return false
  | _ => return false

end

end ArenaJs.Heap
