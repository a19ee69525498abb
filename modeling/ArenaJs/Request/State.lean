import ArenaJs.Alloc.Dual
import ArenaJs.Engine.Value

/-!
# Per-request state

`JSRequestState` is what of `JSRuntime` differs from request to request. A runtime has one embedded
in itself, in base memory (the template), and one in the head slot of each request arena; the
dual arena's state cell says which one `RT_REQ(rt)` is. Dereferencing a NULL cell is `none`.
-/

namespace ArenaJs

/-- `JSGCPhaseEnum`. -/
inductive GCPhase where
  | none
  | decref
  | removeCycles
deriving DecidableEq, Repr, Inhabited

/-- `JSRequestState`. Pointers are addresses, lists the nodes linked into them. -/
structure JSRequestState where
  currentException : JSValue
  inOutOfMemory : Bool
  inBuildStackTrace : Bool
  currentStackFrame : Option Nat
  parentPromise : Option Nat
  dateNowPinnedReq : Int
  timeOriginReq : UInt64
  gcZeroRefCountList : List Nat
  gcPhase : GCPhase
  gcObjList : List Nat
  tmpObjList : List Nat
  gcMode : Bool
  gcThreshold : Nat
  shapeOverlay : Option Nat
  shapeOverlaySize : Nat
  shapeOverlayCount : Nat
  atomOverlay : Option Nat
  atomOverlayBase : Nat
  atomOverlaySize : Nat
  atomOverlayCount : Nat
  atomOverlayFreeIndex : Int
  atomHashOverlay : Option Nat
  atomHashOverlaySize : Nat
  shadowTab : Option Nat
  shadowTabSize : Nat
  shadowTabCount : Nat
  varrefTab : Option Nat
  varrefTabSize : Nat
  varrefTabCount : Nat
  stdArrayPrototypeDirty : Bool
  jobList : List Nat
  errorBackTraceReq : JSValue
  errorPrepareStackReq : JSValue
  errorStackTraceLimitReq : JSValue
  errorPrepareStackSet : Bool
  errorStackTraceLimitSet : Bool
  randomStateReq : UInt64
  interruptCounterReq : Int
deriving DecidableEq, Inhabited

/-- `JS_INTERRUPT_COUNTER_INIT`. -/
def interruptCounterInit : Int := 10000

/-- What of a `JSRuntime` the request machinery reads. `slots` holds the typed contents of each
request arena's head slot, `template` is `rt->req_state` and `templateAddr` its address. -/
structure Runtime (σ : Type) where
  isArena : Bool
  da : DualArena σ
  template : JSRequestState
  templateAddr : Nat
  atomSize : Nat
  mallocGcThreshold : Nat
  slots : ReqId → JSRequestState

variable {σ : Type}

namespace Runtime

/-- The state an address points to. -/
def stateAt (rt : Runtime σ) (p : Nat) : Option JSRequestState :=
  if p = rt.templateAddr then some rt.template
  else (rt.da.requests.find? fun ra => ra.slot = p).map fun ra => rt.slots ra.id

/-- `*RT_REQ(rt)`. -/
def reqState (rt : Runtime σ) : Option JSRequestState := rt.da.stateCell.bind rt.stateAt

end Runtime

variable (rt : Runtime σ) (H : Host σ)

/-- The state `JS_RelocateReqState` installs. -/
def freshReqState (mode : ReqMode) : JSRequestState :=
  { rt.template with
    atomOverlayBase := rt.atomSize, atomOverlayFreeIndex := 0, jobList := [],
    gcZeroRefCountList := [], gcPhase := .none, gcObjList := [], tmpObjList := [],
    shadowTab := none, shadowTabSize := 0, shadowTabCount := 0,
    varrefTab := none, varrefTabSize := 0, varrefTabCount := 0,
    gcThreshold := rt.mallocGcThreshold, gcMode := decide (mode = .gc),
    errorBackTraceReq := .undefined, errorPrepareStackReq := .undefined,
    errorStackTraceLimitReq := .undefined, errorPrepareStackSet := false,
    errorStackTraceLimitSet := false, dateNowPinnedReq := -1, timeOriginReq := 0,
    randomStateReq := 0, interruptCounterReq := interruptCounterInit }

/-- `JS_RelocateReqState`; `none` is -1. -/
def relocateReqState : Option (Runtime σ) :=
  match rt.da.selected with
  | none => none
  | some ra =>
    some { rt with slots := Function.update rt.slots ra.id (freshReqState rt ra.mode),
                   da := { rt.da with stateCell := some ra.slot } }

/-- `js_select_request`. -/
def jsSelectRequest (id : Option ReqId) : Runtime σ :=
  let da := selectRequest rt.da id
  { rt with da := if id = none then { da with stateCell := some rt.templateAddr } else da }

/-- `js_at_job_boundary`. -/
def atJobBoundary : Option Bool :=
  rt.reqState.map fun s => s.currentStackFrame.isNone

/-- `js_dual_arena_reset_request`. -/
def resetRequest (da : DualArena σ) : DualArena σ :=
  match da.cur with
  | none => da
  | some id => jsRequestArenaReset H da id

/-- `JS_NewRequest`; `id` names the arena. -/
def jsNewRequest (rt : Runtime σ) (requestCap : Nat) (mode : ReqMode) (id : ReqId)
    (ds : List Decision) : Option ReqId × Runtime σ :=
  if rt.isArena = false then (none, rt)
  else
    let prev := rt.da.cur
    match jsRequestArenaNew H rt.da id requestCap ds with
    | (none, da) => (none, { rt with da })
    | (some id, da) =>
      let da := resetRequest H (setRequestMode (selectRequest da (some id)) mode)
      match relocateReqState { rt with da } with
      | none =>
        let rt := jsSelectRequest { rt with da } prev
        (none, { rt with da := jsRequestArenaFree rt.da id })
      | some rt => (some id, jsSelectRequest rt prev)

/-- `JS_ResetRequestArena`. -/
def jsResetRequestArena (rt : Runtime σ) : Runtime σ :=
  if rt.da.cur = none then rt
  else
    let rt := { rt with da := resetRequest H rt.da }
    (relocateReqState rt).getD rt

/-- `JS_FreezeRuntime`, from the freeze of the dual arena on. -/
def jsFreezeRuntime (rt : Runtime σ) : Runtime σ :=
  let da := freeze H rt.da
  let rt := { rt with da := { da with stateCell := some rt.templateAddr }, isArena := true }
  (relocateReqState rt).getD rt

end ArenaJs
