import ArenaJs.Engine.Heap

/-!
# Shapes

The shape table and the operations on one shape. A hashed shape is shared by the objects that went
through the same sequence of properties; it is changed in place only when a single object holds it
and it is not part of the snapshot. A shape whose storage is moved keeps its name.
-/

namespace ArenaJs.Heap

variable (env : Env) (sh : Ptr)

/-! ## The shape table -/

/-- `js_shape_overlay_ensure`. -/
def shapeOverlayEnsure : M Bool := do
  if (← get).shapeOverlay.isSome then return true
  unless ← allocate env do return false
  modify fun s => { s with shapeOverlay := some [] }
  return true

/-- `js_shape_hash_link`: a request shape goes into the overlay, and nowhere when the overlay cannot
be allocated. -/
def shapeHashLink : M Unit := do
  if env.isArena && !env.ptrIsBase sh then
    unless ← shapeOverlayEnsure env do return
    modify fun s => { s with shapeOverlay := s.shapeOverlay.map (sh :: ·) }
  else
    modify fun s => { s with base := { s.base with shapeHash := sh :: s.base.shapeHash } }

/-- `js_shape_hash_unlink`. Without an overlay the chain walked is the snapshot's, and a shape that
is not on it is looked for beyond its end. -/
def shapeHashUnlink : M Unit := do
  if env.ptrIsBase sh then return
  let s ← get
  match env.isArena, s.shapeOverlay with
  | true, some l => set { s with shapeOverlay := some (l.erase sh) }
  | _, _ =>
    if s.base.shapeHash.contains sh then
      set { s with base := { s.base with shapeHash := s.base.shapeHash.erase sh } }
    else throw .crash

/-- The test of `find_hashed_shape_prop`: `sh1` is `sh` with one more property. -/
def JSShape.extends (sh1 sh : JSShape) (prop : Atom) (flags : PropFlags) : Bool :=
  sh1.proto == sh.proto && sh1.props == sh.props ++ [⟨some prop, flags⟩]

/-- `find_hashed_shape_prop`: the overlay is searched first. -/
def findHashedShapeProp (sh : JSShape) (prop : Atom) (flags : PropFlags) : M (Option Ptr) := do
  let s ← get
  return (s.shapeOverlay.getD [] ++ s.base.shapeHash).find? fun q =>
    JSShape.extends (s.shape q) sh prop flags

/-! ## Reference counts and storage -/

/-- `js_clone_shape`: the copy is not hashed. -/
def cloneShape (sh1 : Ptr) : M Ptr := do
  jsMalloc env
  let o ← getShape sh1
  freshShape { o with refCount := 1, isHashed := false }

/-- `js_dup_shape`; a snapshot shape has no count. -/
def dupShape : M Unit := do
  unless env.ptrIsBase sh do modifyShape sh fun o => { o with refCount := o.refCount + 1 }

/-- `js_free_shape` with `js_free_shape0`. -/
def freeShape : M Unit := do
  if env.ptrIsBase sh then return
  modifyShape sh fun o => { o with refCount := o.refCount - 1 }
  let o ← getShape sh
  when (o.refCount = 0 && o.isHashed) do shapeHashUnlink env sh

/-- `resize_properties`: the property array of the object, then the shape. -/
def resizeProperties (count : Nat) : M Unit := do
  let o ← getShape sh
  jsRealloc env
  jsRealloc env
  modifyShape sh fun o' => { o' with propSize := max count (o.propSize * 3 / 2) }

/-- `add_shape_property`. -/
def addShapeProperty (prop : Atom) (flags : PropFlags) : M Unit := do
  let o ← getShape sh
  when o.isHashed do shapeHashUnlink env sh
  when (o.props.length ≥ o.propSize) do
    onThrow (resizeProperties env sh (o.props.length + 1)) fun e => do
      when o.isHashed do shapeHashLink env sh
      throw (.throw e)
  when o.isHashed do shapeHashLink env sh
  modifyShape sh fun o => { o with props := o.props ++ [⟨some prop, flags⟩] }

/-- The shape of `p` replaced by a copy that only `p` holds. -/
def unshareShape (p sh : Ptr) : M Ptr := do
  let sh' ← cloneShape env sh
  freeShape env sh
  modifyObj p fun o => { o with shape := sh' }
  return sh'

/-- `js_shape_prepare_update`; returns the shape that may now be changed. -/
def shapePrepareUpdate (p : Ptr) : M Ptr := do
  let sh := (← getObj p).shape
  let o ← getShape sh
  if !o.isHashed && env.ptrIsBase sh then
    return ← unshareShape env p sh
  if o.isHashed then
    if o.refCount != 1 || env.ptrIsBase sh then
      return ← unshareShape env p sh
    else
      shapeHashUnlink env sh
      modifyShape sh fun o => { o with isHashed := false }
  return sh

/-- `JS_PROP_INITIAL_SIZE`. -/
def propInitialSize : Nat := 2

/-- The slots of the entries that are not deleted. -/
def liveSlots (props : List ShapeProp) (slots : List JSProperty) : List JSProperty :=
  ((props.zip slots).filter fun e => e.1.atom.isSome).map Prod.snd

/-- `compact_properties`, whose result the caller ignores: without memory nothing happens. -/
def compactProperties (p sh : Ptr) : M Unit := do
  unless ← allocate env do return
  let o ← getShape sh
  let newSize := max propInitialSize (o.props.length - o.deletedPropCount)
  modifyObj p fun ob => { ob with prop := liveSlots o.props ob.prop }
  modifyShape sh fun o => { o with
    props := o.props.filter (·.atom.isSome), propSize := newSize, deletedPropCount := 0 }
  -- shrinking the property array: the old one stays when this fails
  let _ ← allocate env

end ArenaJs.Heap
