import ArenaJs.Engine.Read

/-!
# Writing

The entry points that write. Each resolves a snapshot object to its shadow first
(`js_object_for_write`) and works on the shadow from there on; what it does not do itself it leaves
to the other entry points, which resolve again.
-/

namespace ArenaJs.Heap

variable (env : Env) (k : Calls)

/-! ## Array length -/

/-- The first loop of `set_array_length`: from the end down, until an element stays. A deletion that
throws counts as done. -/
def deleteDown (p : Ptr) : Nat → Nat → M Nat
  | 0, cur => return cur
  | n + 1, cur => do
    if ← onThrow (deleteProperty env k p (.ofNat (cur - 1))) (fun _ => return true) then
      deleteDown p n (cur - 1)
    else return cur

/-- The length the non-configurable elements leave. -/
def keptLength (len : Nat) (props : List ShapeProp) : Nat :=
  props.foldl (fun cur e =>
    match e.atom.bind Atom.arrayIndex with
    | some idx => if cur ≤ idx ∧ e.flags.configurable = false then idx + 1 else cur
    | none => cur) len

/-- One round of the loop that deletes by position. -/
def deleteEntry (p : Ptr) (len : Nat) (e : ShapeProp) : M Unit := do
  match e.atom with
  | some a =>
    if a.arrayIndex.any (len ≤ ·) then
      let _ ← onThrow (deleteProperty env k p a) (fun _ => return false)
  | none => pure ()

/-- The second pass of `set_array_length` over the properties; the shape is read anew each round. -/
def deleteAbove (p : Ptr) (len : Nat) : Nat → Nat → M Unit
  | 0, _ => pure ()
  | n + 1, i => do
    match (← getShape (← getObj p).shape).props[i]? with
    | some e =>
      deleteEntry env k p len e
      deleteAbove p len n (i + 1)
    | none => pure ()

/-- The elements from `len` on deleted as properties; returns the length that is left. -/
def shortenProps (p : Ptr) (len cur : Nat) : M Nat := do
  let sh ← getShape (← getObj p).shape
  if cur ≤ len then return len
  if cur - len ≤ sh.props.length then
    deleteDown env k p (cur - len) cur
  else
    deleteAbove env k p (keptLength len sh.props) sh.props.length 0
    return keptLength len sh.props

/-- `set_array_length`. -/
def setArrayLength (p : Ptr) (val : JSValue) (flags : Flags) : M Bool := do
  let len ← toArrayLength k val
  let o ← getObj p
  let sh ← getShape o.shape
  if !sh.firstFlags.writable then return ← throwTypeErrorReadOnly env flags .length
  if o.fastArray then
    when (len < o.u.count) do setValues p (o.u.values.take len)
    setLength p (jsUint32 len)
    return true
  else
    let cur ← shortenProps env k p len o.lengthValue.toUint32
    setLength p (jsUint32 cur)
    if cur > len then throwTypeErrorOrFalse env flags "not configurable" else return true

/-! ## `JS_SetPropertyInternal2` -/

/-- `JS_PROP_HAS_VALUE` alone. -/
def Flags.valueOnly : Flags := { hasValue := true }

/-- The flags `JS_SetPropertyInternal2` creates a property with. -/
def Flags.createAll (flags : Flags) : Flags :=
  { flags with
    hasValue := true, hasEnumerable := true, hasWritable := true, hasConfigurable := true,
    configurable := true, writable := true, enumerable := true }

/-- The object, and the receiver with it when it is the same, resolved to the one to write. -/
def setTarget (obj thisObj : JSValue) : M (JSValue × JSValue) := do
  match obj with
  | .object p =>
    let q ← objectForWrite env p
    return (.object q, if thisObj = obj then .object q else thisObj)
  | _ => return (obj, thisObj)

/-- What the search for the property ends with: the call is finished, the property is read-only, or
it is to be created on the receiver. -/
inductive SetSearch where
  | done (b : Bool)
  | readOnly
  | create
deriving DecidableEq, Repr

/-- A store through a variable reference; module namespaces are write protected. -/
def setVarRef (f : Found) (val : JSValue) : M SetSearch := do
  match f.slot with
  | .varRef c =>
    if f.classId = .moduleNs then return .readOnly
    setCell c val
    return .done true
  | _ => throw .crash

/-- The setter of an accessor property. -/
def Found.setter (f : Found) : M (Option Ptr) :=
  match f.slot with
  | .getset _ setter => return setter
  | _ => throw .crash

/-- A property in the shape of the receiver (`retry`). -/
def setFound (p : Ptr) (val thisObj : JSValue) (flags : Flags) (f : Found) : M SetSearch := do
  if f.flags.kind = .normal ∧ f.flags.writable ∧ f.flags.length = false then
    setSlot p f.idx (.value val)
    return .done true
  else if f.flags.length then return .done (← setArrayLength env k p val flags)
  else
    match f.flags.kind with
    | .getset => return .done (← callSetter env k (← f.setter) thisObj val flags)
    | .varref => setVarRef f val
    | _ => return .readOnly

/-- An index no element of the typed array has: the value is still converted when the receiver is
the array itself. -/
def setTypedOob (same : Bool) (kind : TypedKind) (val : JSValue) : M SetSearch := do
  when same do
    let _ ← k.value (.call (.toElement kind val))
  return .done true

/-- The exotic methods `set_property` and `get_own_property`. -/
def setByMethod (same : Bool) (p1 : Ptr) (em : Exotic) (prop : Atom) (val thisObj : JSValue)
    (flags : Flags) : M (Option SetSearch) := do
  if em.setProperty then
    return some (.done (← k.bool (.call (.setProperty p1 prop val thisObj flags))))
  else if em.getOwnProperty then
    match ← k.desc (.call (.getOwnProperty p1 prop)) with
    | some d =>
      if d.flags.kind = .getset then
        let setter := match d.setter with
          | .object q => some q
          | _ => none
        return some (.done (← callSetter env k setter thisObj val flags))
      else if !d.flags.writable then return some .readOnly
      else if same then
        return some (.done (← k.bool
          (.call (.defineProperty thisObj prop val .undefined .undefined Flags.valueOnly))))
      else return some .create
    | none => return none
  else return none

/-- The exotic part of the loop at `p1`: how the search ends, or the chain goes on. -/
def exoticSet (recv : Option Ptr) (p1 : Ptr) (prop : Atom) (val thisObj : JSValue)
    (flags : Flags) : M (Option SetSearch) := do
  let o ← getObj p1
  if !o.isExotic then return none
  if o.fastArray then
    match prop, o.classId with
    | .int idx, c =>
      if idx < o.u.count then
        if recv = some p1 then
          return some (.done (← k.bool (.setPropertyValue thisObj (.int idx) val flags)))
        else return some .create
      else
        match c with
        | .typedArray kind => return some (← setTypedOob k (recv = some p1) kind val)
        | _ => return none
    | prop, .typedArray kind =>
      if env.isNumericIndex prop then
        return some (← setTypedOob k (recv = some p1) kind val)
      else return none
    | _, _ => return none
  else
    match env.exotic o.classId with
    | some em => setByMethod env k (recv = some p1) p1 em prop val thisObj flags
    | none => return none

/-- The next object of the chain, to read. -/
def nextProto (p : Ptr) : M (Option Ptr) := do
  match (← getShape (← getObj p).shape).proto with
  | some q => return some (← objectActive env q)
  | none => return none

/-- The loop, from `retry2` at `p1` on. -/
def setLook (recv : Option Ptr) (prop : Atom) (val thisObj : JSValue) (flags : Flags) :
    Nat → Ptr → M SetSearch
  | 0, _ => throw .timeout
  | fuel + 1, p1 => do
    match ← findOwnProperty p1 prop with
    | some f =>
      match f.flags.kind with
      | .getset => return .done (← callSetter env k (← f.setter) thisObj val flags)
      | .autoinit =>
        autoInitProperty env k p1 prop f
        setLook recv prop val thisObj flags fuel p1
      | _ => if !f.flags.writable then return .readOnly else return .create
    | none =>
      match ← exoticSet env k recv p1 prop val thisObj flags with
      | some r => return r
      | none =>
        match ← nextProto env p1 with
        | some q => setLook recv prop val thisObj flags fuel q
        | none => return .create

/-- The search when the object is the receiver, from `retry` on. -/
def setOwn (prop : Atom) (val thisObj : JSValue) (flags : Flags) : Nat → Ptr → M SetSearch
  | 0, _ => throw .timeout
  | fuel + 1, p => do
    match ← findOwnProperty p prop with
    | some f =>
      if f.flags.kind = .autoinit ∧ f.flags.length = false then
        autoInitProperty env k p prop f
        setOwn prop val thisObj flags fuel p
      else setFound env k p val thisObj flags f
    | none =>
      match ← exoticSet env k (some p) p prop val thisObj flags with
      | some r => return r
      | none =>
        match ← nextProto env p with
        | some q => setLook env k (some p) prop val thisObj flags fuel q
        | none => return .create

/-- The property added to the receiver when the object is the receiver. -/
def setCreateSame (p : Ptr) (prop : Atom) (val : JSValue) (flags : Flags) : M Bool := do
  let o ← getObj p
  if !o.extensible then return ← throwTypeErrorOrFalse env flags "object is not extensible"
  if o.isExotic then
    if o.classId = .array ∧ o.fastArray ∧ prop = .int o.u.count then
      addFastArrayElement env p val flags
    else k.bool (.createProperty p prop val .undefined .undefined (Flags.createAll flags))
  else
    addProperty env p prop .cwe (.value val)
    return true

/-- The property set on a receiver that is not the object. -/
def setCreateOther (p : Ptr) (prop : Atom) (val thisObj : JSValue) (flags : Flags) : M Bool := do
  match ← getOwnPropertyInternal2 env k p prop .flags with
  | some d =>
    if d.flags.kind = .getset then throwTypeErrorOrFalse env flags "setter is forbidden"
    else if d.flags.writable = false ∨ (← getObj p).classId = .moduleNs then
      throwTypeErrorReadOnly env flags prop
    else k.bool (.call (.defineProperty thisObj prop val .undefined .undefined Flags.valueOnly))
  | none =>
    if !(← getObj p).extensible then
      throwTypeErrorOrFalse env flags "object is not extensible"
    else k.bool (.createProperty p prop val .undefined .undefined (Flags.createAll flags))

/-- The end of `JS_SetPropertyInternal2`, after the search. -/
def setFinish (recv : Option Ptr) (obj : JSValue) (prop : Atom) (val thisObj : JSValue)
    (flags : Flags) (r : SetSearch) : M Bool := do
  match r with
  | .done b => return b
  | .readOnly => throwTypeErrorReadOnly env flags prop
  | .create =>
    if flags.noAdd then throwReferenceErrorNotDefined prop
    else
      match recv with
      | none => throwTypeErrorOrFalse env flags "not an object"
      | some p =>
        if obj = .object p then setCreateSame env k p prop val flags
        else setCreateOther env k p prop val thisObj flags

/-- Where the search starts when the receiver is a primitive. -/
def primitiveStart (obj : JSValue) : M (Option Ptr) := do
  match obj with
  | .object q => return some (← objectActive env q)
  | v =>
    match env.prototypePrimitive v with
    | some q => return some (← objectActive env q)
    | none => return none

/-- `JS_SetPropertyInternal2`. -/
def setPropertyInternal2 (obj : JSValue) (prop : Atom) (val thisObj : JSValue) (flags : Flags) :
    M Bool := do
  let (obj, thisObj) ← setTarget env obj thisObj
  match thisObj, obj with
  | .null, _ => raiseAtom .type "cannot set property '%s' of null" (some prop)
  | .undefined, _ => raiseAtom .type "cannot set property '%s' of undefined" (some prop)
  | .object p, .object p1 =>
    let r ← if p = p1 then setOwn env k prop val thisObj flags k.fuel p
      else setLook env k (some p) prop val thisObj flags k.fuel p1
    setFinish env k (some p) obj prop val thisObj flags r
  | .object _, _ => throw .crash
  | _, _ =>
    match ← primitiveStart env obj with
    | some p1 =>
      let r ← setLook env k none prop val thisObj flags k.fuel p1
      setFinish env k none obj prop val thisObj flags r
    | none => setFinish env k none obj prop val thisObj flags .create

end ArenaJs.Heap
