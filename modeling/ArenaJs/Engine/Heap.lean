import ArenaJs.Engine.Context

/-!
# The heap of a request

The memory of the snapshot (`State.base`) and of the request that runs over it, as the functions of
the property layer see them. Every write goes through a pointer and lands in the arena the pointer
names, so that a write through a snapshot pointer changes `State.base`.

A call is a program of `M`: it ends with a value or with a `Stop`. An allocation asks the
environment whether it succeeds; `js_malloc` throws when it does not and `js_malloc_rt` leaves the
exception to its caller.
-/

namespace ArenaJs.Heap

open Function (update)

variable (env : Env) (s : State)

/-! ## State -/

/-- The objects of one arena by kind. -/
structure Arena where
  objs : Nat → JSObject
  shapes : Nat → JSShape
  cells : Nat → JSValue
  bufs : Nat → JSArrayBuffer
  structs : Nat → Opaque

def Arena.mapObj (f : JSObject → JSObject) (a : Arena) (n : Nat) : Arena :=
  { a with objs := update a.objs n (f (a.objs n)) }

def Arena.mapShape (f : JSShape → JSShape) (a : Arena) (n : Nat) : Arena :=
  { a with shapes := update a.shapes n (f (a.shapes n)) }

def Arena.putCell (v : JSValue) (a : Arena) (n : Nat) : Arena :=
  { a with cells := update a.cells n v }

def Arena.putBuf (b : JSArrayBuffer) (a : Arena) (n : Nat) : Arena :=
  { a with bufs := update a.bufs n b }

/-- The snapshot: its arena, the shape hash table, the flag of the context kept with it and the
number of its blocks given back to the allocator. -/
structure Base extends Arena where
  shapeHash : List Ptr
  stdArrayPrototype : Bool
  freed : Nat

/-- The state of the property layer. `shadowTab` and `varrefTab` hold the numbers of the snapshot
objects and cells that have a shadow, `shapeOverlay` the hashed shapes of the request, newest first;
`allocs` and `calls` count the allocations and callbacks made. -/
structure State where
  base : Base
  req : Arena
  shadow : Arena
  nextObj : Nat
  nextShape : Nat
  nextCell : Nat
  nextStruct : Nat
  shadowTab : List Nat
  shadowTabSize : Nat
  varrefTab : List Nat
  varrefTabSize : Nat
  shapeOverlay : Option (List Ptr)
  stdArrayPrototypeDirty : Bool
  allocs : Nat
  calls : Nat

/-- How a call can end without a result: with an exception, by following a null pointer, by running
longer than the fuel allows, or at a call its run condition excludes. -/
inductive Stop where
  | throw (e : JSError)
  | crash
  | timeout
  | excluded
deriving DecidableEq, Repr

/-- Programs of the property layer. -/
abbrev M := EStateM Stop State

/-- The object at a pointer. -/
def State.obj : Ptr → JSObject
  | .base n => s.base.objs n
  | .req n => s.req.objs n
  | .shadow n => s.shadow.objs n

/-- The shape at a pointer. -/
def State.shape : Ptr → JSShape
  | .base n => s.base.shapes n
  | .req n => s.req.shapes n
  | .shadow n => s.shadow.shapes n

/-- The value of a cell. -/
def State.cell : Ptr → JSValue
  | .base n => s.base.cells n
  | .req n => s.req.cells n
  | .shadow n => s.shadow.cells n

/-- The array buffer at a pointer. -/
def State.buf : Ptr → JSArrayBuffer
  | .base n => s.base.bufs n
  | .req n => s.req.bufs n
  | .shadow n => s.shadow.bufs n

/-- The state block at a pointer. -/
def State.struct : Ptr → Opaque
  | .base n => s.base.structs n
  | .req n => s.req.structs n
  | .shadow n => s.shadow.structs n

/-- A change to the arena a pointer is in, at the pointer's number. -/
def State.update (f : Arena → Nat → Arena) : Ptr → State
  | .base n => { s with base := { s.base with toArena := f s.base.toArena n } }
  | .req n => { s with req := f s.req n }
  | .shadow n => { s with shadow := f s.shadow n }

/-! ## Memory access -/

section Access
variable (p : Ptr)

def getObj : M JSObject := return (← get).obj p

def getShape : M JSShape := return (← get).shape p

def getCell : M JSValue := return (← get).cell p

def getBuf : M JSArrayBuffer := return (← get).buf p

def getStruct : M Opaque := return (← get).struct p

def modifyObj (f : JSObject → JSObject) : M Unit := modify (·.update (Arena.mapObj f) p)

def modifyShape (f : JSShape → JSShape) : M Unit := modify (·.update (Arena.mapShape f) p)

def setCell (v : JSValue) : M Unit := modify (·.update (Arena.putCell v) p)

def setBuf (b : JSArrayBuffer) : M Unit := modify (·.update (Arena.putBuf b) p)

end Access

/-- `if (c) x;` as one step. -/
def when (c : Bool) (x : M Unit) : M Unit := if c then x else pure ()

/-- Run `x`, and `h` on the exception it throws. -/
def onThrow {α : Type} (x : M α) (h : JSError → M α) : M α :=
  tryCatch x fun
    | .throw e => h e
    | e => throw e

/-! ## Errors -/

/-- `JS_ThrowTypeError` and its relatives. -/
def raise {α : Type} (kind : ErrorKind) (fmt : String) : M α :=
  throw (.throw (.error kind fmt none))

/-- `JS_ThrowTypeErrorAtom` and its relatives: the text names an atom. -/
def raiseAtom {α : Type} (kind : ErrorKind) (fmt : String) (atom : Option Atom) : M α :=
  throw (.throw (.error kind fmt atom))

/-- Does a call with these flags throw where it would return `false`? -/
def Env.throws (flags : Flags) : Bool :=
  flags.throws || (flags.throwStrict && env.strict)

/-- `JS_ThrowTypeErrorOrFalse`. -/
def throwTypeErrorOrFalse (flags : Flags) (fmt : String) : M Bool :=
  if env.throws flags then raise .type fmt else return false

/-- `JS_ThrowTypeErrorReadOnly`. -/
def throwTypeErrorReadOnly (flags : Flags) (prop : Atom) : M Bool :=
  if env.throws flags then raiseAtom .type "'%s' is read-only" (some prop) else return false

/-- `JS_ThrowTypeErrorNotAnObject`. -/
def throwTypeErrorNotAnObject {α : Type} : M α :=
  raise .type "not an object"

/-- `JS_ThrowReferenceErrorNotDefined`. -/
def throwReferenceErrorNotDefined {α : Type} (prop : Atom) : M α :=
  raiseAtom .reference "%s is not defined" (some prop)

/-- `JS_ThrowReferenceErrorUninitialized`. -/
def throwReferenceErrorUninitialized {α : Type} (prop : Option Atom) : M α :=
  raiseAtom .reference "%s is not initialized" prop

/-! ## Allocation -/

/-- Count an allocation and ask whether it succeeds. -/
def allocate : M Bool := do
  let s ← get
  set { s with allocs := s.allocs + 1 }
  return env.alloc s.allocs

/-- `js_malloc`: out of memory is an exception. -/
def jsMalloc : M Unit := do
  unless ← allocate env do throw (.throw .outOfMemory)

/-- `js_realloc`, which fails as `js_malloc` does. -/
def jsRealloc : M Unit := jsMalloc env

/-- `js_malloc_rt`: no exception is set. -/
def jsMallocRt : M Unit := do
  unless ← allocate env do throw (.throw .unset)

/-- A fresh name for a new shape. -/
def freshShape (sh : JSShape) : M Ptr := do
  let s ← get
  set { s with
    req := { s.req with shapes := update s.req.shapes s.nextShape sh },
    nextShape := s.nextShape + 1 }
  return .req s.nextShape

/-- A fresh name for a new state block. -/
def freshStruct (o : Opaque) : M Ptr := do
  let s ← get
  set { s with
    req := { s.req with structs := update s.req.structs s.nextStruct o },
    nextStruct := s.nextStruct + 1 }
  return .req s.nextStruct

/-- `js_arena_ptr_is_base`: in a runtime without an arena nothing is. -/
def Env.ptrIsBase (p : Ptr) : Bool :=
  env.isArena && p.isBase

/-- `js_free` of a block; the block of a snapshot object goes back to the snapshot's allocator. -/
def jsFreeBlock (inBase : Bool) : M Unit :=
  when inBase do
    modify fun s => { s with base := { s.base with freed := s.base.freed + 1 } }

end ArenaJs.Heap
