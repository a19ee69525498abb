import ArenaJs.Engine.Shape

/-!
# Shadows

A request writes a copy of a snapshot object, its shadow, made on the first write.
`js_object_active` is the object to read, `js_object_for_write` the object to write; the cells that
closures share have shadows of their own. A table maps snapshot objects to shadows; it is kept here
as the list of the objects that have one, with the size that decides when it has to grow.
-/

namespace ArenaJs.Heap

variable (env : Env)

/-! ## Copying an object -/

/-- `js_arena_clone_iter_state`: the classes whose cursor is copied with the object. -/
def ClassId.iterState : ClassId → Bool
  | .mapIterator | .setIterator | .arrayIterator | .stringIterator | .iteratorHelper
  | .iteratorConcat => true
  | _ => false

/-- `js_arena_clone_iter_state`. -/
def arenaCloneIterState (o : JSObject) : M JSObject := do
  match o.u with
  | .state st =>
    if ClassId.iterState o.classId then
      jsMalloc env
      let dst ← freshStruct (← getStruct st)
      return { o with u := .state dst }
    else return o
  | _ => return o

/-- Does a disposable stack hold resources? -/
def Opaque.hasResources : Opaque → Bool
  | .disposableStack d => !d.resources.isEmpty
  | _ => false

/-- `js_arena_clone_disposable_state`: the structure, then the resource list if there is one. -/
def arenaCloneDisposableState (o : JSObject) : M JSObject := do
  match o.u with
  | .state st =>
    if o.classId = .disposableStack ∨ o.classId = .asyncDisposableStack then
      jsMalloc env
      let src ← getStruct st
      when (Opaque.hasResources src) do jsMalloc env
      let dst ← freshStruct src
      return { o with u := .state dst }
    else return o
  | _ => return o

/-- The element array of a fast array; the copy has no spare capacity. -/
def cloneElements (o : JSObject) : M JSObject := do
  if o.fastArray && (o.classId = .array || o.classId = .arguments) then
    when (o.u.count > 0) do jsMalloc env
    return { o with u := .array o.u.values o.u.count }
  else return o

/-- `js_clone_jsobject_for_write`. -/
def cloneJSObjectForWrite (base : Ptr) : M JSObject := do
  jsMalloc env
  let o ← getObj base
  let sh ← getShape o.shape
  when (sh.propSize > 0) do jsMalloc env
  let o ← arenaCloneIterState env o
  let o ← arenaCloneDisposableState env o
  cloneElements env o

/-! ## The shadow table -/

/-- `js_object_active`: the object a read looks at. -/
def objectActive (p : Ptr) : M Ptr := do
  match p with
  | .base n => if env.isArena && (← get).shadowTab.contains n then return .shadow n else return p
  | _ => return p

/-- `js_object_base_identity`: the snapshot object a shadow stands for. -/
def objectBaseIdentity (p : Ptr) : M Ptr := do
  match p with
  | .shadow n => if env.isArena && (← get).shadowTab.contains n then return .base n else return p
  | _ => return p

/-- `JS_SHADOW_TAB_INITIAL`, and `JS_VARREF_TAB_INITIAL`. -/
def tabInitial : Nat := 16

/-- `js_shadow_tab_reserve`. -/
def shadowTabReserve : M Unit := do
  let s ← get
  unless s.shadowTabSize ≠ 0 && (s.shadowTab.length + 1) * 2 ≤ s.shadowTabSize do
    jsMallocRt env
    modify fun s => { s with
      shadowTabSize := if s.shadowTabSize ≠ 0 then s.shadowTabSize * 2 else tabInitial }

/-- The shadow of snapshot object `n` entered in the table. -/
def shadowTabPut (n : Nat) (o : JSObject) : M Unit := do
  modify fun s => { s with
    shadow := { s.shadow with objs := Function.update s.shadow.objs n o },
    shadowTab := n :: s.shadowTab }

/-- `js_object_for_write`: the object a write goes to. -/
def objectForWrite (p : Ptr) : M Ptr := do
  match p with
  | .base n =>
    if !env.isArena then return p
    if (← get).shadowTab.contains n then return .shadow n
    shadowTabReserve env
    let o ← cloneJSObjectForWrite env p
    shadowTabPut n o
    return .shadow n
  | _ => return p

/-! ## Cells -/

/-- `js_var_ref_active`. -/
def varRefActive (vr : Ptr) : M Ptr := do
  match vr with
  | .base n => if env.isArena && (← get).varrefTab.contains n then return .shadow n else return vr
  | _ => return vr

/-- `js_varref_tab_reserve`. -/
def varrefTabReserve : M Unit := do
  let s ← get
  unless s.varrefTabSize ≠ 0 && (s.varrefTab.length + 1) * 2 ≤ s.varrefTabSize do
    jsMallocRt env
    modify fun s => { s with
      varrefTabSize := if s.varrefTabSize ≠ 0 then s.varrefTabSize * 2 else tabInitial }

/-- `js_var_ref_for_write`: the shadow cell starts with the snapshot's value. -/
def varRefForWrite (vr : Ptr) : M Ptr := do
  match vr with
  | .base n =>
    if !env.isArena then return vr
    if (← get).varrefTab.contains n then return .shadow n
    varrefTabReserve env
    jsMalloc env
    let v ← getCell vr
    setCell (.shadow n) v
    modify fun s => { s with varrefTab := n :: s.varrefTab }
    return .shadow n
  | _ => return vr

/-! ## The array prototype flag -/

/-- `js_std_array_prototype_active`. -/
def stdArrayPrototypeActive : M Bool := do
  let s ← get
  return s.base.stdArrayPrototype && !s.stdArrayPrototypeDirty

/-- `js_std_array_prototype_mark_dirty`. -/
def stdArrayPrototypeMarkDirty : M Unit := do
  if env.isArena then modify fun s => { s with stdArrayPrototypeDirty := true }
  else modify fun s => { s with base := { s.base with stdArrayPrototype := false } }

end ArenaJs.Heap
