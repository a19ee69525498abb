import ArenaJs.Shapes.Table

/-!
# Shapes, their hash table, and the objects that use them

Objects with the same prototype and the same properties in the same order share a shape. Shared
shapes are found through `shape_hash`, a table of chains threaded through the shapes. After the
freeze the shapes of a request are on the chains of the request's `shape_overlay` instead, which is
made when the first of them is linked; if there is no memory for it, the shape is not linked at all.

The functions are those of `quickjs.c`, from `js_shape_hash_link` to `add_property`,
`delete_property` and `js_shape_prepare_update`. `none` is a call that does not return: it follows a
null or dangling pointer, fails an assertion, or walks around a loop. Reference counts of prototypes
and atoms are left out.
-/

namespace ArenaJs.Shapes

/-- `JSShape`; its address is its place in `Runtime.shapes`. -/
structure JSShape extends PropTable where
  refCount : Int
  isHashed : Bool
  hash : UInt32
  propSize : Nat
  deletedPropCount : Nat
  shapeHashNext : Nat
  proto : Nat
  deriving DecidableEq, Repr

/-- `JSObject`. `prop` has as many entries as were allocated, and `values` are the elements of a
fast array; `mapped` is the class `JS_CLASS_MAPPED_ARGUMENTS`, whose elements are variable cells. -/
structure JSObject (V : Type) where
  shape : Nat
  prop : List (Option V)
  values : Option (List V)
  mapped : Bool
  deriving DecidableEq, Repr

/-- A runtime with the selected request. Address 0 is NULL, and a freed shape or object is `none`.
From the freeze on, what is below `baseShapes` and `baseObjects` is the snapshot. `ctxShapes` are
the shapes that contexts hold, and an empty `overlay` is one that was not made. -/
structure Runtime (V : Type) where
  isArena : Bool
  shapes : List (Option JSShape)
  baseShapes : Nat
  objects : List (Option (JSObject V))
  baseObjects : Nat
  ctxShapes : List Nat
  shapeHash : List Nat
  shapeHashBits : Nat
  shapeHashCount : Nat
  overlay : List Nat
  overlayCount : Nat
  deriving DecidableEq, Repr

/-- Which allocations of a call succeed, and whether `js_realloc` moves a shape. -/
structure Allocs where
  /-- a new shape -/
  block : Bool
  /-- the request's overlay -/
  overlay : Bool
  /-- a larger `shape_hash` -/
  hash : Bool
  /-- an object with its property array -/
  object : Bool
  /-- a property array, resized -/
  values : Bool
  /-- a shape, resized -/
  table : Bool
  moves : Bool
  /-- the shape of `compact_properties`, and the smaller property array -/
  compact : Bool
  shrink : Bool
  deriving DecidableEq, Repr

/-- `JS_SHAPE_OVERLAY_INITIAL`. -/
def shapeOverlayInitial : Nat := 32

/-- `JS_PROP_INITIAL_SIZE`. -/
def propInitialSize : Nat := 2

/-- `JS_PROP_INITIAL_HASH_SIZE`. -/
def propInitialHashSize : Nat := 4

/-- `JS_PROP_C_W_E`. -/
def propCWE : Flags := ⟨7, by decide⟩

/-- `JS_PROP_VARREF`. -/
def propVarRef : Flags := ⟨32, by decide⟩

/-- `__JS_AtomFromUInt32`. -/
def atomFromUInt32 (i : Nat) : Nat := 2 ^ 31 + i

/-- `shape_hash`. -/
def shapeHash (h : UInt32) (val : Nat) : UInt32 := (h + UInt32.ofNat val) * 0x61c88647

/-- `get_shape_hash`. -/
def getShapeHash (h : UInt32) (bits : Nat) : Nat := h.toNat >>> (32 - bits)

/-- `shape_initial_hash`. -/
def shapeInitialHash (proto : Nat) : UInt32 := shapeHash (shapeHash 1 proto) (proto >>> 32)

/-- `js_shape_overlay_bucket`. -/
def overlayBucket (h : UInt32) (size : Nat) : Nat := h.toNat &&& (size - 1)

/-- The new size of `resize_properties`, with the multiplication in `int`. -/
def growSize (count size : Nat) : Nat :=
  max count ((Int.bmod (size * 3) (2 ^ 32)).tdiv 2).toNat

/-- `while (new_hash_size < new_size) new_hash_size = 2 * new_hash_size`. -/
def growHash : Nat → Nat → Nat → Nat
  | 0, size, _ => size
  | fuel + 1, size, n => if size < n then growHash fuel (2 * size) n else size

/-- `while ((new_hash_size / 2) >= new_size) new_hash_size = new_hash_size / 2`. -/
def shrinkHash : Nat → Nat → Nat → Nat
  | 0, size, _ => size
  | fuel + 1, size, n => if n ≤ size / 2 then shrinkHash fuel (size / 2) n else size

/-- An array resized to `n` entries. -/
def resized {V : Type} (l : List (Option V)) (n : Nat) : List (Option V) :=
  l.take n ++ List.replicate (n - l.length) none

/-- The property array after `compact_properties` moved the live entries to the front. -/
def compacted {V : Type} (prop : List ShapeProp) (slots : List (Option V)) : List (Option V) :=
  let l := ((prop.zip slots).filter fun x => x.1.atom ≠ 0).map Prod.snd
  l ++ slots.drop l.length

namespace Runtime

variable {V : Type}
variable (rt : Runtime V) (n : Nat) (p atom : Nat)

/-! ## Memory -/

/-- `*sh`. -/
def shape : Option JSShape := rt.shapes[n]?.join

/-- `*p`. -/
def object (p : Nat) : Option (JSObject V) := rt.objects[p]?.join

/-- Write the shape at `n`; `none` frees it. -/
def setShape (o : Option JSShape) : Runtime V :=
  { rt with shapes := rt.shapes.set n o }

/-- Write fields of the shape at `n`. -/
def modShape (f : JSShape → JSShape) : Runtime V :=
  rt.setShape n ((rt.shape n).map f)

/-- Write fields of the object at `p`. -/
def modObject (p : Nat) (f : JSObject V → JSObject V) : Runtime V :=
  { rt with objects := rt.objects.set p ((rt.object p).map f) }

/-- `js_malloc` of a shape. -/
def allocShape (sh : JSShape) : Nat × Runtime V :=
  (rt.shapes.length, { rt with shapes := rt.shapes ++ [some sh] })

/-- `js_arena_ptr_is_base`: the snapshot is registered at the freeze. -/
def ptrIsBase : Bool := rt.isArena && decide (n < rt.baseShapes)

/-- `sh->shape_hash_next`, by address. -/
def nextOf : Option Nat := (rt.shape n).map (·.shapeHashNext)

/-- A walk along a chain that has not ended after this many steps has met a shape twice. -/
def walkFuel : Nat := rt.shapes.length + 1

/-- `p->shape = n`. -/
def setObjShape (p n : Nat) : Runtime V := rt.modObject p fun o => { o with shape := n }

/-- `p->prop` resized. -/
def resizeProp (p n : Nat) : Runtime V :=
  rt.modObject p fun o => { o with prop := resized o.prop n }

/-- `p->prop[i] = v`. -/
def setSlot (p i : Nat) (v : Option V) : Runtime V :=
  rt.modObject p fun o => { o with prop := o.prop.set i v }

/-! ## The shape hash -/

/-- Move the chain from `h` on to the new heads, shape by shape. -/
def moveChain (rt : Runtime V) (bits : Nat) (new : List Nat) :
    Nat → Nat → Option (List Nat × Runtime V)
  | 0, _ => none
  | fuel + 1, h =>
    if h = 0 then some (new, rt)
    else (rt.shape h).bind fun sh =>
      let j := getShapeHash sh.hash bits
      moveChain (rt.setShape h (some { sh with shapeHashNext := new.getD j 0 })) bits (new.set j h)
        fuel sh.shapeHashNext

/-- The outer loop of `resize_shape_hash`. -/
def moveChains (rt : Runtime V) (bits : Nat) (new : List Nat) :
    List Nat → Option (List Nat × Runtime V)
  | [] => some (new, rt)
  | h :: heads => (moveChain rt bits new rt.walkFuel h).bind fun (new, rt) =>
    moveChains rt bits new heads

/-- `resize_shape_hash`; its caller ignores a failure. -/
def resizeShapeHash (bits : Nat) (granted : Bool) : Option (Runtime V) :=
  if !granted then some rt
  else (moveChains rt bits (List.replicate (2 ^ bits) 0) rt.shapeHash).map fun (new, rt) =>
    { rt with shapeHash := new, shapeHashBits := bits }

/-- `js_shape_overlay_ensure`; `none` if there is no memory. -/
def shapeOverlayEnsure (granted : Bool) : Option (Runtime V) :=
  if rt.overlay ≠ [] then some rt
  else if granted then some { rt with overlay := List.replicate shapeOverlayInitial 0 }
  else none

/-- `js_shape_hash_link`. -/
def shapeHashLink (granted : Bool) : Option (Runtime V) :=
  (rt.shape n).map fun sh =>
    if rt.isArena && !rt.ptrIsBase n then
      match rt.shapeOverlayEnsure granted with
      | none => rt
      | some rt =>
        let h := overlayBucket sh.hash rt.overlay.length
        { rt.setShape n (some { sh with shapeHashNext := rt.overlay.getD h 0 }) with
          overlay := rt.overlay.set h n, overlayCount := rt.overlayCount + 1 }
    else
      let h := getShapeHash sh.hash rt.shapeHashBits
      { rt.setShape n (some { sh with shapeHashNext := rt.shapeHash.getD h 0 }) with
        shapeHash := rt.shapeHash.set h n
        shapeHashCount := if rt.isArena then rt.shapeHashCount else rt.shapeHashCount + 1 }

/-- `js_shape_hash_unlink`. Without an overlay it walks the chains of `shape_hash`, and it does not
look whether they end. -/
def shapeHashUnlink : Option (Runtime V) :=
  (rt.shape n).bind fun sh =>
    if rt.ptrIsBase n then some rt
    else if rt.isArena && rt.overlay ≠ [] then
      let h := overlayBucket sh.hash rt.overlay.length
      (chainFindPrev rt.nextOf (· == n) rt.walkFuel 0 (rt.overlay.getD h 0)).map fun (prev, i) =>
        if i = 0 then rt
        else if prev = 0 then
          { rt with overlay := rt.overlay.set h sh.shapeHashNext, overlayCount :=
            rt.overlayCount - 1 }
        else
          { rt.modShape prev fun s => { s with shapeHashNext := sh.shapeHashNext } with
            overlayCount := rt.overlayCount - 1 }
    else
      let h := getShapeHash sh.hash rt.shapeHashBits
      (chainFindPrev rt.nextOf (· == n) rt.walkFuel 0 (rt.shapeHash.getD h 0)).bind fun (prev, i) =>
        if i = 0 then none
        else
          let rt := if rt.isArena then rt else { rt with shapeHashCount := rt.shapeHashCount - 1 }
          if prev = 0 then some { rt with shapeHash := rt.shapeHash.set h sh.shapeHashNext }
          else some (rt.modShape prev fun s => { s with shapeHashNext := sh.shapeHashNext })

/-- Walk the chain from a head to the first shape that passes; 0 if there is none. -/
def findIn (test : JSShape → Bool) (h : Nat) : Option Nat :=
  chainFind rt.nextOf (fun n => (rt.shape n).any test) rt.walkFuel h

/-- The search of both lookups: first the overlay, where there is one, then the snapshot's table. -/
def findHashedShape (h : UInt32) (test : JSShape → Bool) : Option Nat :=
  let found := if rt.overlay ≠ [] then
      rt.findIn test (rt.overlay.getD (overlayBucket h rt.overlay.length) 0)
    else some 0
  found.bind fun n =>
    if n ≠ 0 then some n
    else rt.findIn test (rt.shapeHash.getD (getShapeHash h rt.shapeHashBits) 0)

/-- `find_hashed_shape_proto`. -/
def findHashedShapeProto (proto : Nat) : Option Nat :=
  let h := shapeInitialHash proto
  rt.findHashedShape h fun sh1 => sh1.hash = h && sh1.proto = proto && sh1.prop.length = 0

/-- `find_hashed_shape_prop`. -/
def findHashedShapeProp (sh : JSShape) (atom : Nat) (flags : Flags) : Option Nat :=
  let h := Shapes.shapeHash (Shapes.shapeHash sh.hash atom) flags
  rt.findHashedShape h fun sh1 => sh1.hash = h && sh1.proto = sh.proto &&
    sh1.keys = sh.keys ++ [(atom, flags)]

/-! ## Making and freeing shapes -/

/-- `js_new_shape_nohash`; `none` if there is no memory. -/
def newShapeNohash (proto hashSize propSize : Nat) (granted : Bool) :
    Option (Nat × Runtime V) :=
  if granted then
    some (rt.allocShape ⟨⟨List.replicate hashSize 0, []⟩, 1, false, 0, propSize, 0, 0, proto⟩)
  else none

/-- `js_new_shape2`; 0 if there is no memory. -/
def newShape2 (proto hashSize propSize : Nat) (a : Allocs) :
    Option (Nat × Runtime V) :=
  (if !rt.isArena && decide (rt.shapeHash.length < 2 * (rt.shapeHashCount + 1)) then
    rt.resizeShapeHash (rt.shapeHashBits + 1) a.hash else some rt).bind fun rt =>
  match rt.newShapeNohash proto hashSize propSize a.block with
  | none => some (0, rt)
  | some (n, rt) =>
    let rt := rt.modShape n fun sh => { sh with hash := shapeInitialHash proto, isHashed := true }
    (rt.shapeHashLink n a.overlay).map fun rt => (n, rt)

/-- `js_clone_shape`; 0 if there is no memory. -/
def cloneShape (granted : Bool) : Option (Nat × Runtime V) :=
  (rt.shape n).map fun sh =>
    if granted then rt.allocShape { sh with refCount := 1, isHashed := false } else (0, rt)

/-- `js_dup_shape`. -/
def dupShape : Runtime V :=
  if rt.ptrIsBase n then rt else rt.modShape n fun sh => { sh with refCount := sh.refCount + 1 }

/-- `js_free_shape0`. -/
def freeShape0 : Option (Runtime V) :=
  (rt.shape n).bind fun sh =>
    (if sh.isHashed then rt.shapeHashUnlink n else some rt).map fun rt => rt.setShape n none

/-- `js_free_shape`. -/
def freeShape : Option (Runtime V) :=
  (rt.shape n).bind fun sh =>
    if rt.ptrIsBase n then some rt
    else
      let rt := rt.modShape n fun sh => { sh with refCount := sh.refCount - 1 }
      if sh.refCount - 1 ≤ 0 then rt.freeShape0 n else some rt

/-! ## Properties -/

/-- The new storage of a shape: at a new address, or where it was. -/
def moveShape (sh : JSShape) (moved : Bool) : Nat × Runtime V :=
  if moved then (rt.shapes.length, { rt with shapes := rt.shapes.set n none ++ [some sh] })
  else (n, rt.setShape n (some sh))

/-- The second half of `resize_properties`; 0 if there is no memory. -/
def resizeShape (n newSize : Nat) (a : Allocs) : Option (Nat × Runtime V) :=
  (rt.shape n).map fun sh =>
    let newHashSize := growHash 32 sh.hashTable.length newSize
    if !a.table then (0, rt)
    else if newHashSize ≠ sh.hashTable.length then
      rt.moveShape n { sh with toPropTable := .relink newHashSize sh.prop, propSize :=
        newSize } true
    else rt.moveShape n { sh with propSize := newSize } a.moves

/-- `resize_properties` of the shape `n` of the object `p`, where there is one; 0 if there is no
memory, otherwise the shape's address. -/
def resizeProperties (p : Option Nat) (count : Nat) (a : Allocs) :
    Option (Nat × Runtime V) :=
  (rt.shape n).bind fun sh =>
    let newSize := growSize count sh.propSize
    match p with
    | none => rt.resizeShape n newSize a
    | some p =>
      -- the property array comes first
      if !a.values then some (0, rt)
      else ((rt.resizeProp p newSize).resizeShape n newSize a).map fun (m, rt) =>
        (m, if m = 0 then rt else rt.setObjShape p m)

/-- The end of `add_shape_property`. -/
def finishAdd (hash : UInt32) (atom : Nat) (flags : Flags) (a : Allocs) :
    Option (Nat × Runtime V) :=
  (rt.shape n).bind fun sh =>
    (if sh.isHashed then (rt.modShape n fun sh => { sh with hash := hash }).shapeHashLink n
      a.overlay
      else some rt).map fun rt =>
    (n, rt.modShape n fun sh => { sh with toPropTable := sh.add atom flags })

/-- `add_shape_property`; 0 if there is no memory, otherwise the shape's address. -/
def addShapeProperty (p : Option Nat) (atom : Nat) (flags : Flags)
    (a : Allocs) : Option (Nat × Runtime V) :=
  (rt.shape n).bind fun sh =>
    let hash := Shapes.shapeHash (Shapes.shapeHash sh.hash atom) flags
    (if sh.isHashed then rt.shapeHashUnlink n else some rt).bind fun rt =>
    if sh.propSize ≤ sh.prop.length then
      (rt.resizeProperties n p (sh.prop.length + 1) a).bind fun (m, rt) =>
        if m = 0 then
          (if sh.isHashed then rt.shapeHashLink n a.overlay else some rt).map fun rt => (0, rt)
        else rt.finishAdd m hash atom flags a
    else rt.finishAdd n hash atom flags a

/-- The shape of `p`, which is `n`, replaced by a copy, hashed or not; `false` if there is no
memory. -/
def unshare (p n : Nat) (hashed : Bool) (a : Allocs) : Option (Bool × Runtime V) :=
  (rt.cloneShape n a.block).bind fun (m, rt) =>
    if m = 0 then some (false, rt)
    else
      (if hashed then
        (rt.modShape m fun sh => { sh with isHashed := true }).shapeHashLink m a.overlay
        else some rt).bind fun rt =>
      (rt.freeShape n).map fun rt => (true, rt.setObjShape p m)

/-- The end of `add_property`: the shape is the object's own. The caller then writes the value. -/
def addOwn (flags : Flags) (v : V) (a : Allocs) :
    Option (Bool × Runtime V) :=
  (rt.object p).bind fun o => (rt.shape o.shape).bind fun sh =>
    -- `assert(JS_REF_COUNT(p->shape) == 1)`
    if sh.refCount ≠ 1 then none
    else (rt.addShapeProperty o.shape (some p) atom flags a).map fun (m, rt) =>
      if m = 0 then (false, rt) else (true, rt.setSlot p sh.prop.length (some v))

/-- `add_property`, with the value that its caller writes; `false` if there is no memory. -/
def addProperty (flags : Flags) (v : V) (a : Allocs) :
    Option (Bool × Runtime V) :=
  (rt.object p).bind fun o => (rt.shape o.shape).bind fun sh =>
    if sh.isHashed then
      (rt.findHashedShapeProp sh atom flags).bind fun m =>
        if m ≠ 0 then
          (rt.shape m).bind fun sh1 =>
            if sh1.propSize ≠ sh.propSize ∧ a.values = false then some (false, rt)
            else
              let rt := if sh1.propSize ≠ sh.propSize then rt.resizeProp p sh1.propSize else rt
              (((rt.dupShape m).setObjShape p m).freeShape o.shape).map fun rt =>
                (true, rt.setSlot p (sh1.prop.length - 1) (some v))
        else if sh.refCount ≠ 1 ∨ rt.ptrIsBase o.shape = true then
          (rt.unshare p o.shape true a).bind fun (ok, rt) =>
            if ok then rt.addOwn p atom flags v a else some (false, rt)
        else rt.addOwn p atom flags v a
    else if rt.ptrIsBase o.shape then
      (rt.unshare p o.shape false a).bind fun (ok, rt) =>
        if ok then rt.addOwn p atom flags v a else some (false, rt)
    else rt.addOwn p atom flags v a

/-- `js_shape_prepare_update`; `false` if there is no memory. -/
def shapePrepareUpdate (p : Nat) (a : Allocs) : Option (Bool × Runtime V) :=
  (rt.object p).bind fun o => (rt.shape o.shape).bind fun sh =>
    if !sh.isHashed && rt.ptrIsBase o.shape then rt.unshare p o.shape false a
    else if sh.isHashed then
      if sh.refCount ≠ 1 ∨ rt.ptrIsBase o.shape = true then rt.unshare p o.shape false a
      else (rt.shapeHashUnlink o.shape).map fun rt =>
        (true, rt.modShape o.shape fun sh => { sh with isHashed := false })
    else some (true, rt)

/-- `compact_properties`; its caller ignores a failure. -/
def compactProperties (p : Nat) (a : Allocs) : Option (Runtime V) :=
  (rt.object p).bind fun o => (rt.shape o.shape).bind fun sh =>
    let newSize := max propInitialSize (sh.prop.length - sh.deletedPropCount)
    let newHashSize := shrinkHash 32 sh.hashTable.length newSize
    let live := sh.prop.filter (·.atom ≠ 0)
    -- `assert(!sh->is_hashed)`, `assert(new_size <= sh->prop_size)`
    if sh.isHashed ∨ sh.propSize < newSize then none
    else if !a.compact then some rt
    -- `assert(j == (sh->prop_count - sh->deleted_prop_count))`
    else if live.length ≠ sh.prop.length - sh.deletedPropCount then none
    else
      let sh' := { sh with
        toPropTable := .relink newHashSize live, propSize := newSize, deletedPropCount := 0 }
      let (m, rt) := rt.moveShape o.shape sh' true
      let rt := rt.modObject p fun o => { o with shape := m, prop := compacted sh.prop o.prop }
      some (if a.shrink then rt.resizeProp p newSize else rt)

/-- The properties of the elements of a fast array, added one by one; `add_property` cannot fail. -/
def addElements (rt : Runtime V) (p : Nat) (flags : Flags) (a : Allocs) :
    Nat → List V → Option (Runtime V)
  | _, [] => some rt
  | i, v :: vs => (rt.addProperty p (atomFromUInt32 i) flags v a).bind fun (ok, rt) =>
    if ok then addElements rt p flags a (i + 1) vs else none

/-- `convert_fast_array_to_array`; `false` if there is no memory. -/
def convertFastArrayToArray (p : Nat) (a : Allocs) : Option (Bool × Runtime V) :=
  (rt.object p).bind fun o =>
    let vs := o.values.getD []
    let flags := if o.mapped then propCWE + propVarRef else propCWE
    (rt.shapePrepareUpdate p a).bind fun (ok, rt) =>
      if !ok then some (false, rt)
      else (rt.object p).bind fun o => (rt.shape o.shape).bind fun sh =>
        (if sh.propSize < sh.prop.length + vs.length then
          rt.resizeProperties o.shape (some p) (sh.prop.length + vs.length) a
          else some (o.shape, rt)).bind fun (m, rt) =>
        if m = 0 then some (false, rt)
        else (rt.addElements p flags a 0 vs).map fun rt =>
          (true, rt.modObject p fun o => { o with values := none })

/-- `delete_property` of an object's own property at the position `h`, after `lpr`; `none` if there
is no memory. -/
def deleteFound (p atom lpr h : Nat) (a : Allocs) :
    Option (Option Bool × Runtime V) :=
  (rt.shapePrepareUpdate p a).bind fun (ok, rt) =>
    if !ok then some (none, rt)
    else (rt.object p).bind fun o => (rt.shape o.shape).bind fun sh =>
      let deleted := sh.deletedPropCount + 1
      let rt := (rt.setShape o.shape (some { sh with
        toPropTable := sh.remove atom lpr h, deletedPropCount := deleted })).setSlot p (h - 1) none
      (if 8 ≤ deleted ∧ sh.prop.length / 2 ≤ deleted then rt.compactProperties p a
        else some rt).map fun rt => (some true, rt)

/-- The walk of `delete_property`; the result is `none` if the atom is not there. -/
def deleteOwn (a : Allocs) :
    Option (Option (Option Bool) × Runtime V) :=
  (rt.object p).bind fun o => (rt.shape o.shape).bind fun sh =>
    (sh.findPrev atom).bind fun (lpr, h) =>
    if h = 0 then some (none, rt)
    else (sh.entry h).bind fun pr =>
      if pr.flags.val % 2 = 0 then some (some (some false), rt)
      else (rt.deleteFound p atom lpr h a).map fun (r, rt) => (some r, rt)

/-- `delete_property`: `none` is an exception. -/
def deleteProperty (a : Allocs) : Option (Option Bool × Runtime V) :=
  (rt.deleteOwn p atom a).bind fun
    | (some r, rt) => some (r, rt)
    | (none, rt) => (rt.object p).bind fun o =>
      if 2 ^ 31 ≤ atom ∧ atom - 2 ^ 31 < (o.values.getD []).length then
        (rt.convertFastArrayToArray p a).bind fun (ok, rt) =>
          if !ok then some (none, rt)
          else (rt.deleteOwn p atom a).map fun (r, rt) => (r.getD (some true), rt)
      else some (some true, rt)

/-- `js_update_property_flags` of the property of `atom`. -/
def updatePropertyFlags (flags : Flags) (a : Allocs) :
    Option (Option Bool × Runtime V) :=
  (rt.object p).bind fun o => (rt.shape o.shape).bind fun sh => (sh.find atom).bind fun h =>
    if h = 0 then some (some false, rt)
    else (sh.entry h).bind fun pr =>
      if pr.flags = flags then some (some true, rt)
      else (rt.shapePrepareUpdate p a).bind fun (ok, rt) =>
        if !ok then some (none, rt)
        else (rt.object p).map fun o => (some true, rt.modShape o.shape fun sh =>
          { sh with prop := sh.prop.modify (h - 1) fun pr => { pr with flags := flags } })

/-- The change of a prototype in `JS_SetPrototypeInternal`. -/
def setPrototype (p proto : Nat) (a : Allocs) : Option (Option Bool × Runtime V) :=
  (rt.shapePrepareUpdate p a).bind fun (ok, rt) =>
    if !ok then some (none, rt)
    else (rt.object p).map fun o =>
      (some true, rt.modShape o.shape fun sh => { sh with proto := proto })

/-! ## Objects -/

/-- `JS_NewObjectFromShape`, which takes over the reference to the shape; 0 if there is no
memory. -/
def newObjectFromShape (props : List V) (values : Option (List V))
    (mapped : Bool) (a : Allocs) : Option (Nat × Runtime V) :=
  (rt.shape n).bind fun sh =>
    if !a.object then (rt.freeShape n).map fun rt => (0, rt)
    else
      let prop := resized (props.map some) sh.propSize
      some (rt.objects.length,
        { rt with objects := rt.objects ++ [some ⟨n, prop, values, mapped⟩] })

/-- `JS_NewObjectProtoClass`. -/
def newObjectProtoClass (proto : Nat) (a : Allocs) : Option (Nat × Runtime V) :=
  (rt.findHashedShapeProto proto).bind fun n =>
    if n ≠ 0 then (rt.dupShape n).newObjectFromShape n [] none false a
    else (rt.newShape2 proto propInitialHashSize propInitialSize a).bind fun (n, rt) =>
      if n = 0 then some (0, rt) else rt.newObjectFromShape n [] none false a

/-- `JS_NewObjectProtoClassAlloc`. -/
def newObjectProtoClassAlloc (proto nAllocProps : Nat) (a : Allocs) :
    Option (Nat × Runtime V) :=
  let small := decide (nAllocProps ≤ propInitialSize)
  let hashSize := if small then propInitialHashSize else 2 ^ (Nat.log2 (nAllocProps - 1) + 1)
  match rt.newShapeNohash proto hashSize (if small then propInitialSize else nAllocProps)
    a.block with
  | none => some (0, rt)
  | some (n, rt) => rt.newObjectFromShape n [] none false a

/-- The loop of `js_new_shape_with2`; 0 if there is no memory. -/
def addShapeProperties (rt : Runtime V) (n : Nat) :
    List (Nat × Flags × Allocs) → Option (Nat × Runtime V)
  | [] => some (n, rt)
  | (atom, flags, a) :: props => (rt.addShapeProperty n none atom flags a).bind fun (m, rt) =>
    if m = 0 then (rt.freeShape n).map fun rt => (0, rt) else addShapeProperties rt m props

/-- `js_new_shape_with`: a shape of a context. -/
def newShapeWith (proto : Nat) (props : List (Nat × Flags × Allocs)) (a : Allocs) :
    Option (Nat × Runtime V) :=
  (rt.newShape2 proto propInitialHashSize props.length a).bind fun (n, rt) =>
    if n = 0 then some (0, rt)
    else (rt.addShapeProperties n props).map fun (m, rt) =>
      (m, if m = 0 then rt else { rt with ctxShapes := rt.ctxShapes ++ [m] })

/-- An object of a shape that a context holds: an array, an arguments object, a match of a regular
expression. -/
def newObjectOfContext (k : Nat) (props : List V) (values : Option (List V))
    (mapped : Bool) (a : Allocs) : Option (Nat × Runtime V) :=
  rt.ctxShapes[k]?.bind fun n => (rt.dupShape n).newObjectFromShape n props values mapped a

/-- `js_clone_jsobject_for_write`: the shadow of an object of the snapshot; 0 if there is no
memory. -/
def cloneForWrite (p : Nat) (a : Allocs) : Option (Nat × Runtime V) :=
  (rt.object p).bind fun o => (rt.shape o.shape).map fun sh =>
    if !a.object then (0, rt)
    else (rt.objects.length, { rt with
      objects := rt.objects ++ [some { o with prop := o.prop.take sh.propSize }] })

/-- The part of `free_object` that concerns properties. -/
def freeObject (p : Nat) : Option (Runtime V) :=
  (rt.object p).bind fun o => (rt.freeShape o.shape).map fun rt =>
    { rt with objects := rt.objects.set p none }

/-- `JS_FreezeRuntime`. -/
def freeze : Runtime V :=
  { rt with
    isArena := true, baseShapes := rt.shapes.length, baseObjects := rt.objects.length }

/-- `JS_ResetRequestArena`, or the selection of a new request. -/
def newRequest : Runtime V :=
  { rt with
    shapes := rt.shapes.take rt.baseShapes, objects := rt.objects.take rt.baseObjects
    ctxShapes := rt.ctxShapes.filter (· < rt.baseShapes), overlay := [], overlayCount := 0 }

/-- A new runtime: `init_shape_hash`. -/
def initial : Runtime V :=
  ⟨false, [none], 0, [none], 0, [], List.replicate 64 0, 6, 0, [], 0⟩

end Runtime

end ArenaJs.Shapes
