import ArenaJs.Request.Lifecycle

/-!
# The reactor with no request entered

The entry points of the reactor that run code or write per-request state, over any number of
reactors, and the calls that make, enter, leave and free their requests. A run is modelled up to its
first allocation; what the engine does once an allocation has succeeded is a parameter (`Engine`).

With no request entered no allocation succeeds, so a run ends in the out-of-memory path and what it
writes through the state pointer is known: the pins and the cleared back trace stay in the template
(`runs_idle`). `nothing_entered_iff` says for each entry point when
nothing is written.
-/

namespace ArenaJs

open Function (update update_self update_eq_self)

variable {σ : Type}

/-! ## Writes through the state pointer -/

/-- `*RT_REQ(rt) = s`. -/
def Runtime.setReqState (rt : Runtime σ) (s : JSRequestState) : Runtime σ :=
  match rt.da.stateCell with
  | none => rt
  | some p =>
    if p = rt.templateAddr then { rt with template := s }
    else match rt.da.requests.find? fun ra => ra.slot = p with
      | none => rt
      | some ra => { rt with slots := update rt.slots ra.id s }

/-- A write to fields of `*RT_REQ(rt)`; `none` is a NULL dereference. -/
def Runtime.modifyReq (rt : Runtime σ) (f : JSRequestState → JSRequestState) : Option (Runtime σ) :=
  rt.reqState.map fun s => rt.setReqState (f s)

/-- `JS_SetRandomSeed` of a frozen runtime. -/
def jsSetRandomSeed (rt : Runtime σ) (seed : UInt64) : Option (Runtime σ) :=
  rt.modifyReq fun s => { s with randomStateReq := if seed ≠ 0 then seed else 1 }

/-- `JS_SetDateNow` of a frozen runtime. -/
def jsSetDateNow (rt : Runtime σ) (ms : Int) : Option (Runtime σ) :=
  rt.modifyReq fun s => { s with dateNowPinnedReq := ms }

/-- `JS_Throw`. -/
def jsThrow (rt : Runtime σ) (obj : JSValue) : Option (Runtime σ) :=
  rt.modifyReq fun s => { s with currentException := obj }

/-- `JS_GetException`. -/
def jsGetException (rt : Runtime σ) : Option (JSValue × Runtime σ) := do
  let s ← rt.reqState
  let rt ← rt.modifyReq fun s => { s with currentException := .uninitialized }
  return (s.currentException, rt)

/-! ## Evaluation -/

/-- Where the engine goes on, with the block it allocated. -/
inductive Resume where
  | newAtom (filename src : String) (str : Nat)
  | moduleDef (src : String) (m : Nat)
  | functionDef (src : String) (fd : Nat)
  | errorShape (sh : Nat)
  | errorObject (p : Nat)

/-- The rest of the engine. -/
structure Engine (σ : Type) where
  functionDefSize : Nat
  moduleDefSize : Nat
  shapeSize : Nat
  objectSize : Nat
  stringSize : String → Nat
  /-- `__JS_FindAtom` finds the name -/
  findAtom : Runtime σ → String → Bool
  /-- `find_hashed_shape_proto` finds the shape of an internal error -/
  findShape : Runtime σ → Bool
  /-- `js_trigger_gc` in GC mode -/
  triggerGC : Runtime σ → Option (Runtime σ)
  /-- from a successful allocation to the end of the function that made it -/
  resume : Resume → Runtime σ → Option (JSValue × Runtime σ)
  /-- `JS_EvalFunction` and `await_value` on a compiled module -/
  evalModule : JSValue → Runtime σ → Option (JSValue × Runtime σ)
  /-- `JS_ToCString` and printing of a completion value -/
  print : JSValue → Runtime σ → Option (Runtime σ)
  /-- `diagnose_exception` on a value other than `null` -/
  diagnose : JSValue → Runtime σ → Option (Runtime σ)
  /-- `drain_pending_jobs` -/
  drainPendingJobs : Runtime σ → Option (Int × Runtime σ)
  /-- `is_trace_stop` or an armed stop -/
  traceStop : Runtime σ → JSValue → Bool

/-- `js_malloc_rt` of a frozen runtime. -/
def jsMallocRt (H : Host σ) (rt : Runtime σ) (size : Nat) (ds : List Decision) :
    Option Nat × Runtime σ :=
  let (p, da) := jdaMalloc H rt.da size ds
  (p, { rt with da })

/-- `js_mallocz_rt` of a frozen runtime. -/
def jsMalloczRt (H : Host σ) (rt : Runtime σ) (size : Nat) (ds : List Decision) :
    Option Nat × Runtime σ :=
  let (p, da) := jdaCalloc H rt.da 1 size ds
  (p, { rt with da })

/-- `JS_MakeError2` for the internal error of `JS_ThrowOutOfMemory`. -/
def jsMakeError (E : Engine σ) (H : Host σ) (rt : Runtime σ) (ds : List Decision) :
    Option (JSValue × Runtime σ) :=
  if E.findShape rt then do
    let s ← rt.reqState
    let rt ← (if s.gcMode then E.triggerGC rt else some rt)
    match jsMallocRt H rt E.objectSize ds with
    -- `js_malloc` calls `JS_ThrowOutOfMemory` again, which does nothing while the flag is set
    | (none, rt) => some (.exception, rt)
    | (some p, rt) => E.resume (.errorObject p) rt
  else
    match jsMallocRt H rt E.shapeSize ds with
    | (none, rt) => some (.exception, rt)
    | (some sh, rt) => E.resume (.errorShape sh) rt

/-- `JS_ThrowOutOfMemory`. -/
def jsThrowOutOfMemory (E : Engine σ) (H : Host σ) (rt : Runtime σ) (ds : List Decision) :
    Option (JSValue × Runtime σ) := do
  let s ← rt.reqState
  if s.inOutOfMemory then return (.exception, rt)
  let rt ← rt.modifyReq fun s => { s with inOutOfMemory := true }
  let (obj, rt) ← jsMakeError E H rt ds
  let rt ← jsThrow rt (if obj = .exception then .null else obj)
  let rt ← rt.modifyReq fun s => { s with inOutOfMemory := false }
  return (.exception, rt)

/-- `JS_EVAL_TYPE_GLOBAL` and `JS_EVAL_TYPE_MODULE | JS_EVAL_FLAG_COMPILE_ONLY`. -/
inductive EvalType where
  | global
  | module

/-- `__JS_EvalInternal`. -/
def jsEvalInternal (E : Engine σ) (H : Host σ) (rt : Runtime σ) (src filename : String)
    (ty : EvalType) (ds : List Decision) : Option (JSValue × Runtime σ) :=
  match ty with
  | .global =>
    match jsMalloczRt H rt E.functionDefSize ds with
    | (none, rt) => jsThrowOutOfMemory E H rt ds
    | (some fd, rt) => E.resume (.functionDef src fd) rt
  | .module =>
    if E.findAtom rt filename then
      match jsMalloczRt H rt E.moduleDefSize ds with
      | (none, rt) => jsThrowOutOfMemory E H rt ds
      | (some m, rt) => E.resume (.moduleDef src m) rt
    else
      match jsMallocRt H rt (E.stringSize filename) ds with
      | (none, rt) => jsThrowOutOfMemory E H rt ds
      | (some str, rt) => E.resume (.newAtom filename src str) rt

/-- `JS_Eval`, through `JS_EvalInternal`. -/
def jsEval (E : Engine σ) (H : Host σ) (rt : Runtime σ) (src filename : String) (ty : EvalType)
    (ds : List Decision) : Option (JSValue × Runtime σ) := do
  let s ← rt.reqState
  let rt ← (if s.currentStackFrame = none then
      -- `js_error_back_trace_take`
      rt.modifyReq fun s => { s with errorBackTraceReq := .undefined }
    else some rt)
  jsEvalInternal E H rt src filename ty ds

/-! ## The reactor -/

/-- What of an `ArenaReactor` the entry points read and write besides its runtime. -/
structure Reactor where
  hasRandomSeed : Bool
  randomSeed : UInt64
  hasDateNow : Bool
  dateNowMs : Int

/-- `ARENA_RC_OK`. -/
def arenaRcOk : Int := 0

/-- `ARENA_RC_ERROR`. -/
def arenaRcError : Int := -1

/-- `ARENA_RC_OOM`. -/
def arenaRcOom : Int := -2

/-- `arena_reapply_pins`. -/
def arenaReapplyPins (R : Reactor) (rt : Runtime σ) : Option (Runtime σ) := do
  let rt ← (if R.hasRandomSeed then jsSetRandomSeed rt R.randomSeed else some rt)
  if R.hasDateNow then jsSetDateNow rt R.dateNowMs else some rt

/-- `js_dual_arena_oom_hit`. -/
def oomHit (da : DualArena σ) : Bool :=
  match da.selected with
  | some ra => ra.oom.hit
  | none => false

/-- `arena_oom_override`. -/
def arenaOomOverride (rt : Runtime σ) (rc : Int) : Int := if oomHit rt.da then arenaRcOom else rc

/-- `diagnose_exception`; `null` is printed without an allocation. -/
def diagnoseException (E : Engine σ) (rt : Runtime σ) (exc : JSValue) : Option (Runtime σ) :=
  match exc with
  | .null => some rt
  | exc => E.diagnose exc rt

/-- What an entry point does with an exception. -/
def arenaReport (E : Engine σ) (rt : Runtime σ) (exc : JSValue) : Option (Int × Runtime σ) :=
  if oomHit rt.da then some (arenaOomOverride rt arenaRcError, rt)
  else (diagnoseException E rt exc).map fun rt => (arenaRcError, rt)

/-- The evaluation common to `arena_run_r` and `arena_request_eval_r`. -/
def arenaEval (E : Engine σ) (H : Host σ) (rt : Runtime σ) (src : String) (ds : List Decision) :
    Option (Int × Runtime σ) := do
  let (v, rt) ← jsEval E H rt src "<arena>" .global ds
  if v = .exception then
    let (exc, rt) ← jsGetException rt
    arenaReport E rt exc
  else
    let rt ← E.print v rt
    return (arenaOomOverride rt arenaRcOk, rt)

/-- `arena_run_r`. -/
def arenaRunR (E : Engine σ) (H : Host σ) (R : Reactor) (rt : Runtime σ) (src : Option String)
    (ds : List Decision) : Option (Int × Runtime σ) :=
  match src with
  | none => some (arenaRcError, rt)
  | some src => do
    let rt ← arenaReapplyPins R (jsResetRequestArena H rt)
    arenaEval E H rt src ds

/-- `arena_run_module_r`. -/
def arenaRunModuleR (E : Engine σ) (H : Host σ) (R : Reactor) (rt : Runtime σ)
    (entryName entrySrc : Option String) (ds : List Decision) : Option (Int × Runtime σ) :=
  match entryName, entrySrc with
  | some name, some src => do
    let rt ← arenaReapplyPins R (jsResetRequestArena H rt)
    let (compiled, rt) ← jsEval E H rt src name .module ds
    if compiled = .exception then
      let (exc, rt) ← jsGetException rt
      arenaReport E rt exc
    else
      let (v, rt) ← E.evalModule compiled rt
      if v = .exception then
        let (exc, rt) ← jsGetException rt
        if E.traceStop rt exc then return (arenaRcOk, rt)
        arenaReport E rt exc
      else
        let (rc, rt) ← E.drainPendingJobs rt
        return (arenaOomOverride rt rc, rt)
  | _, _ => some (arenaRcError, rt)

/-- `arena_request_eval_r`. -/
def arenaRequestEvalR (E : Engine σ) (H : Host σ) (rt : Runtime σ) (src : Option String)
    (ds : List Decision) : Option (Int × Runtime σ) :=
  match src with
  | none => some (arenaRcError, rt)
  | some src => if rt.da.cur = none then some (arenaRcError, rt) else arenaEval E H rt src ds

/-- `arena_request_pump_r`. -/
def arenaRequestPumpR (E : Engine σ) (rt : Runtime σ) : Option (Int × Runtime σ) :=
  if rt.da.cur = none then some (arenaRcError, rt)
  else (E.drainPendingJobs rt).map fun (rc, rt) => (arenaOomOverride rt rc, rt)

/-! ## Processes -/

/-- The reactors of a process, each with its runtime. -/
structure Process (σ : Type) where
  rts : Machine σ
  reactors : RtId → Reactor

/-- An entry point that runs code or writes per-request state. -/
inductive Call where
  | run (src : Option String)
  | runModule (entryName entrySrc : Option String)
  | requestEval (src : Option String)
  | requestPump
  | setRandomSeed (seed : UInt64)
  | setDateNow (ms : Int)

/-- `P` with another runtime under reactor `r`. -/
def Process.setRt (P : Process σ) (r : RtId) (rt : Runtime σ) : Process σ :=
  { P with rts := update P.rts r rt }

/-- `P` with another reactor `r`. -/
def Process.setReactor (P : Process σ) (r : RtId) (R : Reactor) : Process σ :=
  { P with reactors := update P.reactors r R }

/-- A call on reactor `r`; `none` is a NULL dereference. -/
def call (E : Engine σ) (H : Host σ) (P : Process σ) (r : RtId) (ds : List Decision) :
    Call → Option (Int × Process σ)
  | .run src =>
    (arenaRunR E H (P.reactors r) (P.rts r) src ds).map fun (rc, rt) => (rc, P.setRt r rt)
  | .runModule name src =>
    (arenaRunModuleR E H (P.reactors r) (P.rts r) name src ds).map fun (rc, rt) =>
      (rc, P.setRt r rt)
  | .requestEval src =>
    (arenaRequestEvalR E H (P.rts r) src ds).map fun (rc, rt) => (rc, P.setRt r rt)
  | .requestPump => (arenaRequestPumpR E (P.rts r)).map fun (rc, rt) => (rc, P.setRt r rt)
  | .setRandomSeed seed =>
    -- `arena_set_random_seed_r`
    let P := P.setReactor r { P.reactors r with randomSeed := seed, hasRandomSeed := true }
    (jsSetRandomSeed (P.rts r) seed).map fun rt => (arenaRcOk, P.setRt r rt)
  | .setDateNow ms =>
    -- `arena_set_date_now_r`
    let P := P.setReactor r { P.reactors r with dateNowMs := ms, hasDateNow := true }
    (jsSetDateNow (P.rts r) ms).map fun rt => (arenaRcOk, P.setRt r rt)

/-- A call that makes, enters, leaves or frees a request. -/
inductive ReqCall where
  | requestNew (requestKb mode : Int) (id : ReqId) (ds : List Decision)
  | requestEnter (req : Option Req)
  | requestLeave
  | requestFree (req : Option Req)

/-- `arena_request_new_r`. -/
def arenaRequestNewR (H : Host σ) (P : Process σ) (r : RtId) (requestKb mode : Int) (id : ReqId)
    (ds : List Decision) : Option (Option Req × Process σ) := do
  let cap := (if 0 < requestKb then requestKb.toNat else 4096) * 1024
  match jsNewRequest H (P.rts r) cap (if mode = 0 then .gc else .bump) id ds with
  | (none, rt) => return (none, P.setRt r rt)
  | (some id, rt) =>
    let P := P.setRt r rt
    let prev := jsCurrentRequest P.rts r
    let (rc, M) ← jsEnterRequest P.rts r (some ⟨r, id⟩)
    if rc = 0 then
      let rt ← arenaReapplyPins (P.reactors r) (M r)
      let M := update M r rt
      let (_, M) ← (if prev.isSome then jsEnterRequest M r prev else jsLeaveRequest M r)
      return (some ⟨r, id⟩, { P with rts := M })
    else return (some ⟨r, id⟩, { P with rts := M })

/-- The process after a request call on reactor `r`. -/
def reqCall (H : Host σ) (P : Process σ) (r : RtId) : ReqCall → Option (Process σ)
  | .requestNew kb mode id ds => (arenaRequestNewR H P r kb mode id ds).map Prod.snd
  | .requestEnter req => (jsEnterRequest P.rts r req).map fun (_, M) => { P with rts := M }
  | .requestLeave => (jsLeaveRequest P.rts r).map fun (_, M) => { P with rts := M }
  | .requestFree req => (jsFreeRequest P.rts r req).map fun (_, M) => { P with rts := M }

/-- Offered memory is in nobody's use. -/
def ReqCall.Ok (P : Process σ) (r : RtId) : ReqCall → Prop
  | .requestNew _ mode id ds =>
    (Ev.newRequest r 0 (if mode = 0 then .gc else .bump) id ds : Ev σ).Ok P.rts
  | _ => True

/-- The state a runtime is frozen with: no frame, no pending exception, and the GC mode a runtime
is created with. -/
structure TemplateFresh (s : JSRequestState) : Prop where
  exception : s.currentException = .uninitialized
  memory : s.inOutOfMemory = false
  frame : s.currentStackFrame = none
  gc : s.gcMode = false

/-- The states reached from freshly frozen reactors, pinned in any way, by request calls. -/
inductive ReactorReach (H : Host σ) : Process σ → Prop
  | init {P : Process σ} : (∀ r, ∃ rt, PreFreeze rt ∧ TemplateFresh rt.template ∧
      P.rts r = jsFreezeRuntime H rt) → ReactorReach H P
  | call {P P' : Process σ} {r : RtId} {c : ReqCall} : ReactorReach H P → c.Ok P r →
      reqCall H P r c = some P' → ReactorReach H P'

/-! ## Nothing entered -/

/-- A runtime with no request entered. -/
structure Idle (rt : Runtime σ) : Prop where
  mode : rt.da.mode = .request
  cur : rt.da.cur = none
  cell : rt.da.stateCell = some rt.templateAddr

section
variable {E : Engine σ} {H : Host σ} {R : Reactor} {rt : Runtime σ} {ds : List Decision}

section
variable (h : Idle rt)
include h

theorem Idle.selected : rt.da.selected = none := by
  simp [DualArena.selected, h.cur]

theorem Idle.template (s : JSRequestState) : Idle { rt with template := s } :=
  ⟨h.mode, h.cur, h.cell⟩

theorem Idle.reqState : rt.reqState = some rt.template := by
  simp [Runtime.reqState, h.cell, Runtime.stateAt]

/-- The state pointer aliases the template. -/
theorem Idle.modifyReq (f : JSRequestState → JSRequestState) :
    rt.modifyReq f = some { rt with template := f rt.template } := by
  simp [Runtime.modifyReq, h.reqState, Runtime.setReqState, h.cell]

/-- No allocation succeeds. -/
theorem Idle.jsMallocRt (size : Nat) : jsMallocRt H rt size ds = (none, rt) := by
  simp [ArenaJs.jsMallocRt, jdaMalloc, h.mode, h.selected]

theorem Idle.jsMalloczRt (size : Nat) : jsMalloczRt H rt size ds = (none, rt) := by
  simp only [ArenaJs.jsMalloczRt, jdaCalloc, h.mode, h.selected]
  split
  · rfl
  · split <;> rfl

theorem Idle.oomHit : oomHit rt.da = false := by
  simp [ArenaJs.oomHit, h.selected]

theorem Idle.jsMakeError (hg : rt.template.gcMode = false) :
    jsMakeError E H rt ds = some (.exception, rt) := by
  unfold ArenaJs.jsMakeError
  split
  · simp [h.reqState, hg, h.jsMallocRt]
  · simp only [h.jsMallocRt]

/-- The error object cannot be allocated, so `null` is thrown. -/
theorem Idle.jsThrowOutOfMemory (hm : rt.template.inOutOfMemory = false)
    (hg : rt.template.gcMode = false) : jsThrowOutOfMemory E H rt ds =
      some (.exception, { rt with template := { rt.template with
        currentException := .null, inOutOfMemory := false } }) := by
  have h1 := h.template { rt.template with inOutOfMemory := true }
  have h2 := h.template { rt.template with inOutOfMemory := true, currentException := .null }
  simp only [ArenaJs.jsThrowOutOfMemory, h.reqState, Option.bind_eq_bind, Option.bind_some, hm,
    Bool.false_eq_true, if_false, h.modifyReq, h1.jsMakeError hg, jsThrow, if_true, h1.modifyReq,
    h2.modifyReq]
  rfl

/-- The first allocation of an evaluation fails. -/
theorem Idle.jsEvalInternal (src filename : String) (ty : EvalType) :
    jsEvalInternal E H rt src filename ty ds = ArenaJs.jsThrowOutOfMemory E H rt ds := by
  cases ty with
  | global => simp [ArenaJs.jsEvalInternal, h.jsMalloczRt]
  | module => simp [ArenaJs.jsEvalInternal, h.jsMalloczRt, h.jsMallocRt]

theorem Idle.jsEval (ht : TemplateFresh rt.template) (src filename : String)
    (ty : EvalType) : jsEval E H rt src filename ty ds =
      some (.exception, { rt with template := { rt.template with
        errorBackTraceReq := .undefined, currentException := .null, inOutOfMemory := false }
          }) := by
  have h1 := h.template { rt.template with errorBackTraceReq := .undefined }
  simp only [ArenaJs.jsEval, h.reqState, Option.bind_eq_bind, Option.bind_some, if_pos ht.frame,
    h.modifyReq]
  exact (h1.jsEvalInternal src filename ty).trans (h1.jsThrowOutOfMemory ht.memory ht.gc)

/-- The exception is `null`, which is reported without an allocation. -/
theorem Idle.report (hn : rt.template.currentException = .null) :
    ((jsGetException rt).bind fun (exc, rt) => arenaReport E rt exc) =
      some (arenaRcError, { rt with template := { rt.template with
        currentException := .uninitialized } }) := by
  have h1 := h.template { rt.template with currentException := .uninitialized }
  simp [jsGetException, h.reqState, h.modifyReq, hn, arenaReport, h1.oomHit, diagnoseException]

end

/-- The template with the pins applied. -/
def Reactor.pin (R : Reactor) (s : JSRequestState) : JSRequestState :=
  { s with
    randomStateReq := if R.hasRandomSeed then (if R.randomSeed ≠ 0 then R.randomSeed else 1)
      else s.randomStateReq,
    dateNowPinnedReq := if R.hasDateNow then R.dateNowMs else s.dateNowPinnedReq }

theorem Idle.reapplyPins (h : Idle rt) :
    arenaReapplyPins R rt = some { rt with template := R.pin rt.template } := by
  have h1 := h.template { rt.template with
    randomStateReq := if R.randomSeed ≠ 0 then R.randomSeed else 1 }
  unfold arenaReapplyPins Reactor.pin
  cases hr : R.hasRandomSeed <;> cases hd : R.hasDateNow <;>
    simp only [Bool.false_eq_true, if_false, if_true, Option.bind_eq_bind, Option.bind_some,
      jsSetRandomSeed, jsSetDateNow, h.modifyReq]
  exact h1.modifyReq _

/-- What a run leaves of the template. -/
def Reactor.afterRun (R : Reactor) (s : JSRequestState) : JSRequestState :=
  { R.pin s with errorBackTraceReq := .undefined, currentException := .uninitialized,
                 inOutOfMemory := false }

theorem Idle.reset (h : Idle rt) : jsResetRequestArena H rt = rt := if_pos h.cur

/-- `arena_run_r` and `arena_run_module_r` with no request entered. -/
theorem runs_idle (h : Idle rt) (ht : TemplateFresh rt.template) (name src : String) :
    arenaRunR E H R rt (some src) ds =
      some (arenaRcError, { rt with template := R.afterRun rt.template }) ∧
    arenaRunModuleR E H R rt (some name) (some src) ds =
      some (arenaRcError, { rt with template := R.afterRun rt.template }) := by
  have h1 := h.template (R.pin rt.template)
  have ht1 : TemplateFresh (R.pin rt.template) := ⟨ht.exception, ht.memory, ht.frame, ht.gc⟩
  have h2 := h.template { R.pin rt.template with
    errorBackTraceReq := .undefined, currentException := .null, inOutOfMemory := false }
  simp only [arenaRunR, arenaRunModuleR, h.reset, h.reapplyPins, Option.bind_eq_bind,
    Option.bind_some, arenaEval, h1.jsEval ht1, if_true]
  exact ⟨h2.report rfl, h2.report rfl⟩

/-- The pins are in the state already. -/
def Reactor.Pinned (R : Reactor) (s : JSRequestState) : Prop :=
  (R.hasRandomSeed = true → s.randomStateReq = if R.randomSeed ≠ 0 then R.randomSeed else 1) ∧
    (R.hasDateNow = true → s.dateNowPinnedReq = R.dateNowMs)

theorem Reactor.afterRun_eq_iff {s : JSRequestState} (hs : TemplateFresh s) :
    R.afterRun s = s ↔ R.Pinned s ∧ s.errorBackTraceReq = .undefined := by
  constructor
  · intro h
    have hseed := congrArg JSRequestState.randomStateReq h
    have hdate := congrArg JSRequestState.dateNowPinnedReq h
    refine ⟨⟨fun hr => ?_, fun hd => ?_⟩, (congrArg JSRequestState.errorBackTraceReq h).symm⟩
    · simp only [afterRun, pin, hr, if_true] at hseed
      exact hseed.symm
    · simp only [afterRun, pin, hd, if_true] at hdate
      exact hdate.symm
  · rintro ⟨⟨hr, hd⟩, hb⟩
    have hseed : (R.afterRun s).randomStateReq = s.randomStateReq := by
      simp only [afterRun, pin]
      split
      · next h => exact (hr h).symm
      · rfl
    have hdate : (R.afterRun s).dateNowPinnedReq = s.dateNowPinnedReq := by
      simp only [afterRun, pin]
      split
      · next h => exact (hd h).symm
      · rfl
    obtain ⟨he, hm, -, -⟩ := hs
    cases s
    simp only [afterRun, pin] at he hm hb hseed hdate ⊢
    rw [hseed, hdate, he, hm, hb]

/-! ## Reachable processes -/

/-- What every request call keeps: the template is as it was frozen, no slot aliases it, and with no
request selected the state pointer is the template or NULL. -/
structure Rooted (rt : Runtime σ) : Prop extends RtShape rt where
  arena : rt.isArena = true
  mode : rt.da.mode = .request
  fresh : TemplateFresh rt.template
  idle : rt.da.cur = none → rt.da.stateCell = none ∨ rt.da.stateCell = some rt.templateAddr

theorem Rooted.select (h : Rooted rt) (cur : Option ReqId) : Rooted (jsSelectRequest rt cur) := by
  have hshape := h.toRtShape.congr (jsSelectRequest_heads rt cur) rfl
  cases cur with
  | none => exact ⟨hshape, h.arena, h.mode, h.fresh, fun _ => .inr rfl⟩
  | some id => exact ⟨hshape, h.arena, h.mode, h.fresh, nofun⟩

/-- A selected request's slot is not the template. -/
theorem Rooted.select_cell (h : Rooted rt) (id : ReqId) :
    (jsSelectRequest rt (some id)).da.stateCell ≠ some rt.templateAddr := by
  intro hc
  have hfind : (rt.da.find id).map RequestArena.slot = some rt.templateAddr := hc
  obtain ⟨ra, hf, hslot⟩ := Option.map_eq_some_iff.1 hfind
  exact h.template _ (DualArena.mem_heads.2 ⟨ra, (DualArena.find_mem hf).1, rfl⟩) hslot

theorem jsFreezeRuntime_template (rt : Runtime σ) :
    (jsFreezeRuntime H rt).template = rt.template := by
  simp only [jsFreezeRuntime, relocateReqState]
  split <;> rfl

theorem jsRequestArenaFree_requests (da : DualArena σ) (id : ReqId) :
    (jsRequestArenaFree da id).requests = da.requests.filter fun ra => ra.id ≠ id := by
  simp only [jsRequestArenaFree]
  split <;> rfl

theorem jsRequestArenaFree_mode (da : DualArena σ) (id : ReqId) :
    (jsRequestArenaFree da id).mode = da.mode := by
  simp only [jsRequestArenaFree]
  split <;> rfl

/-- Freeing, also the selected request of another runtime. -/
theorem Rooted.free (h : Rooted rt) (id : ReqId) :
    Rooted { rt with da := jsRequestArenaFree rt.da id } := by
  have hsub : (jsRequestArenaFree rt.da id).heads.Sublist rt.da.heads := by
    simp only [DualArena.heads, jsRequestArenaFree_requests]
    exact List.filter_sublist.map _
  refine ⟨⟨h.ids.sublist hsub, h.slots.sublist hsub, fun x hx => h.template x (hsub.subset hx)⟩,
    h.arena, (jsRequestArenaFree_mode _ _).trans h.mode, h.fresh, ?_⟩
  simp only [jsRequestArenaFree]
  split
  · exact fun _ => .inl rfl
  · exact h.idle

theorem setReqState_slot {s : JSRequestState} (hc : rt.da.stateCell ≠ some rt.templateAddr) :
    ∃ slots, rt.setReqState s = { rt with slots } := by
  unfold Runtime.setReqState
  split
  · exact ⟨rt.slots, rfl⟩
  · next p hp =>
    rw [if_neg fun he => hc (hp.trans (congrArg some he))]
    split
    · exact ⟨rt.slots, rfl⟩
    · exact ⟨_, rfl⟩

/-- A write through a state pointer other than the template. -/
theorem modifyReq_slot (rt : Runtime σ) {rt' : Runtime σ} {f : JSRequestState → JSRequestState}
    (hc : rt.da.stateCell ≠ some rt.templateAddr) (h : rt.modifyReq f = some rt') :
    ∃ slots, rt' = { rt with slots } := by
  obtain ⟨s, -, rfl⟩ := Option.map_eq_some_iff.1 h
  exact setReqState_slot hc

/-- The pins of an entered request go to its slot. -/
theorem arenaReapplyPins_slot {rt' : Runtime σ} (hc : rt.da.stateCell ≠ some rt.templateAddr)
    (h : arenaReapplyPins R rt = some rt') : ∃ slots, rt' = { rt with slots } := by
  unfold arenaReapplyPins at h
  obtain ⟨rt1, h1, h2⟩ := Option.bind_eq_some_iff.1 h
  have hs1 : ∃ slots, rt1 = { rt with slots } := by
    split at h1
    · exact modifyReq_slot rt hc h1
    · exact ⟨rt.slots, (Option.some.inj h1).symm⟩
  obtain ⟨slots, rfl⟩ := hs1
  split at h2
  · exact modifyReq_slot { rt with slots } hc h2
  · exact ⟨slots, (Option.some.inj h2).symm⟩

theorem Rooted.slots_eq (h : Rooted rt) (slots : ReqId → JSRequestState) :
    Rooted { rt with slots } :=
  ⟨⟨h.ids, h.slots, h.template⟩, h.arena, h.mode, h.fresh, h.idle⟩

/-- `JS_NewRequest` keeps the template. -/
theorem Rooted.newRequest (h : Rooted rt) {id : ReqId} (cap : Nat) (mode : ReqMode)
    (hid : ∀ ra ∈ rt.da.requests, ra.id ≠ id)
    (hds : ∀ s, some s ∈ ds → ¬ s.Has rt.templateAddr ∧ ∀ ra ∈ rt.da.requests, ¬ s.Has ra.slot) :
    Rooted (jsNewRequest H rt cap mode id ds).2 := by
  rcases jsNewRequest_cases (H := H) h.toRtShape h.arena cap mode hid hds with
    he | ⟨slot, rt', he, -, hshape, ha, hm, -, ht, hta, -⟩
  · rw [he]
    exact h
  · rw [he]
    have hshape' := hshape.congr (jsSelectRequest_heads rt' rt.da.cur) rfl
    refine ⟨hshape', ha, (jsSelectRequest_mode _ _).trans (hm.trans h.mode), ht ▸ h.fresh,
      fun hc => .inr ?_⟩
    rw [jsSelectRequest_cur] at hc
    rw [hc]
    rfl

end

section
variable {E : Engine σ} {H : Host σ} {M M' : Machine σ} {P P' : Process σ} {r : RtId}
variable {rc : Int} {rt : Runtime σ} {req : Option Req} {R : Reactor} {c : Call}

/-- `JS_EnterRequest` refuses or selects. -/
theorem jsEnterRequest_cases (h : jsEnterRequest M r req = some (rc, M')) :
    (rc = -1 ∧ M' = M) ∨
    ∃ q, req = some q ∧ q.owner = r ∧ rc = 0 ∧
      M' = update M r (jsSelectRequest (M r) (some q.id)) := by
  unfold jsEnterRequest at h
  split at h
  · cases h; exact .inl ⟨rfl, rfl⟩
  · split at h
    · cases h; exact .inl ⟨rfl, rfl⟩
    · next q =>
      split at h
      · cases h
      · cases h; exact .inl ⟨rfl, rfl⟩
      · split at h
        · cases h; exact .inl ⟨rfl, rfl⟩
        · next ho => cases h; exact .inr ⟨q, rfl, not_not.1 ho, rfl, rfl⟩

theorem jsLeaveRequest_cases (h : jsLeaveRequest M r = some (rc, M')) :
    M' = M ∨ M' = update M r (jsSelectRequest (M r) none) := by
  unfold jsLeaveRequest at h
  split at h
  · cases h; exact .inl rfl
  · split at h
    · cases h
    · cases h; exact .inl rfl
    · cases h; exact .inr rfl

theorem rooted_enter (h : ∀ r, Rooted (M r))
    (he : jsEnterRequest M r req = some (rc, M')) : ∀ r, Rooted (M' r) := by
  rcases jsEnterRequest_cases he with ⟨-, rfl⟩ | ⟨q, -, -, -, rfl⟩
  · exact h
  · exact forall_update h ((h r).select _)

theorem rooted_leave (h : ∀ r, Rooted (M r)) (he : jsLeaveRequest M r = some (rc, M')) :
    ∀ r, Rooted (M' r) := by
  rcases jsLeaveRequest_cases he with rfl | rfl
  · exact h
  · exact forall_update h ((h r).select _)

theorem rooted_free (h : ∀ r, Rooted (M r))
    (he : jsFreeRequest M r req = some (rc, M')) : ∀ r, Rooted (M' r) := by
  unfold jsFreeRequest at he
  split at he
  · cases he; exact h
  · split at he
    · cases he; exact h
    · next q =>
      split at he
      · split at he
        · cases he
        · next rc' M1 hl =>
          split at he
          · cases he; exact rooted_leave h hl
          · cases he
            have h1 := rooted_leave h hl
            exact forall_update h1 ((h1 _).free _)
      · cases he
        exact forall_update h ((h _).free _)

theorem rooted_new {kb mode : Int} {id : ReqId} {ds : List Decision}
    (h : ∀ r, Rooted (P.rts r)) (hok : (ReqCall.requestNew kb mode id ds).Ok P r)
    (he : arenaRequestNewR H P r kb mode id ds = some (req, P')) : ∀ r, Rooted (P'.rts r) := by
  unfold arenaRequestNewR at he
  have hnew := (h r).newRequest (H := H) ((if 0 < kb then kb.toNat else 4096) * 1024)
    (if mode = 0 then .gc else .bump) hok.1 hok.2
  simp only [] at he
  generalize jsNewRequest H (P.rts r) _ _ id ds = x at he hnew
  obtain ⟨id?, rt⟩ := x
  have h1 := forall_update (r := r) h hnew
  cases id? with
  | none =>
    cases he
    exact h1
  | some id' =>
    obtain ⟨⟨rc, M1⟩, hent, he⟩ := Option.bind_eq_some_iff.1 he
    split at he
    · next hrc =>
      obtain ⟨rt1, hpin, he⟩ := Option.bind_eq_some_iff.1 he
      obtain ⟨⟨rc', M2⟩, hback, he⟩ := Option.bind_eq_some_iff.1 he
      cases he
      have h2 := rooted_enter h1 hent
      -- the request was entered, so the pins go to its slot
      have hcell : (M1 r).da.stateCell ≠ some (M1 r).templateAddr := by
        rcases jsEnterRequest_cases hent with ⟨rfl, -⟩ | ⟨q, -, -, -, rfl⟩
        · cases hrc
        · rw [update_self]
          exact (h1 r).select_cell q.id
      obtain ⟨slots, rfl⟩ := arenaReapplyPins_slot hcell hpin
      have h3 := forall_update (r := r) h2 ((h2 r).slots_eq slots)
      split at hback
      · exact rooted_enter h3 hback
      · exact rooted_leave h3 hback
    · cases he
      exact rooted_enter h1 hent

/-- Every runtime of a reachable process is rooted. -/
theorem ReactorReach.rooted (h : ReactorReach H P) : ∀ r, Rooted (P.rts r) := by
  induction h with
  | init hP =>
    intro r
    obtain ⟨rt, hpre, hfresh, hr⟩ := hP r
    have hok := hpre.ok (H := H)
    rw [hr]
    refine ⟨hok.toRtShape, hok.arena, hok.mode, ?_, fun hc => .inr ?_⟩
    · rw [jsFreezeRuntime_template]
      exact hfresh
    · rw [hok.cell, Runtime.expected]
      simp [DualArena.selected, hc]
  | @call P P' r c _ hok hstep ih =>
    cases c with
    | requestNew kb mode id ds =>
      obtain ⟨⟨req, P1⟩, he, rfl⟩ := Option.map_eq_some_iff.1 hstep
      exact rooted_new ih hok he
    | requestEnter req =>
      obtain ⟨⟨rc, M⟩, he, rfl⟩ := Option.map_eq_some_iff.1 hstep
      exact rooted_enter ih he
    | requestLeave =>
      obtain ⟨⟨rc, M⟩, he, rfl⟩ := Option.map_eq_some_iff.1 hstep
      exact rooted_leave ih he
    | requestFree req =>
      obtain ⟨⟨rc, M⟩, he, rfl⟩ := Option.map_eq_some_iff.1 hstep
      exact rooted_free ih he

/-! ## The entry points -/

/-- When a call writes nothing: it has nothing to write, or what it writes is there already. With
the state pointer NULL a write is a crash. -/
def Call.Quiet (P : Process σ) (r : RtId) : Call → Prop
  | .run (some _) | .runModule (some _) (some _) => (P.rts r).da.stateCell = none ∨
      ((P.reactors r).Pinned (P.rts r).template ∧ (P.rts r).template.errorBackTraceReq = .undefined)
  | .setRandomSeed seed => (P.rts r).da.stateCell = none ∨
      (P.rts r).template.randomStateReq = if seed ≠ 0 then seed else 1
  | .setDateNow ms => (P.rts r).da.stateCell = none ∨ (P.rts r).template.dateNowPinnedReq = ms
  | _ => True

variable {ds : List Decision}

theorem reqState_null (h : rt.da.stateCell = none) : rt.reqState = none := by
  simp [Runtime.reqState, h]

theorem modifyReq_null (h : rt.da.stateCell = none)
    (f : JSRequestState → JSRequestState) : rt.modifyReq f = none := by
  simp [Runtime.modifyReq, reqState_null h]

theorem jsEval_null (h : rt.da.stateCell = none) (src filename : String)
    (ty : EvalType) : jsEval E H rt src filename ty ds = none := by
  simp [jsEval, reqState_null h]

theorem arenaReapplyPins_null {rt rt' : Runtime σ} (h : rt.da.stateCell = none)
    (hp : arenaReapplyPins R rt = some rt') : rt'.da.stateCell = none := by
  obtain ⟨slots, rfl⟩ := arenaReapplyPins_slot (by rw [h]; exact nofun) hp
  exact h

/-- A run through a NULL state pointer crashes. -/
theorem runs_null (hc : rt.da.cur = none) (h : rt.da.stateCell = none) (name src : String) :
    arenaRunR E H R rt (some src) ds = none ∧
      arenaRunModuleR E H R rt (some name) (some src) ds = none := by
  simp only [arenaRunR, arenaRunModuleR, jsResetRequestArena, hc, if_true, Option.bind_eq_bind]
  cases hp : arenaReapplyPins R rt with
  | none => exact ⟨rfl, rfl⟩
  | some rt' => simp [arenaEval, jsEval_null (arenaReapplyPins_null h hp)]

theorem randomStateReq_eq_iff (s : JSRequestState) (v : UInt64) :
    { s with randomStateReq := v } = s ↔ s.randomStateReq = v :=
  ⟨fun h => (congrArg JSRequestState.randomStateReq h).symm, by rintro rfl; rfl⟩

theorem dateNowPinnedReq_eq_iff (s : JSRequestState) (v : Int) :
    { s with dateNowPinnedReq := v } = s ↔ s.dateNowPinnedReq = v :=
  ⟨fun h => (congrArg JSRequestState.dateNowPinnedReq h).symm, by rintro rfl; rfl⟩

theorem setRt_rts (P : Process σ) (r : RtId) (rt : Runtime σ) :
    (P.setRt r rt).rts = P.rts ↔ rt = P.rts r := by
  constructor
  · intro h
    rw [← h]
    exact (update_self r rt P.rts).symm
  · rintro rfl
    exact update_eq_self r P.rts

/-- A call that refuses. -/
theorem quiet_iff_of_refused (hq : c.Quiet P r)
    (hcall : call E H P r ds c = some (rc, P.setRt r (P.rts r))) :
    (∀ rc P', call E H P r ds c = some (rc, P') → P'.rts = P.rts) ↔ c.Quiet P r := by
  refine iff_of_true (fun rc' P' hc => ?_) hq
  rw [hcall] at hc
  cases hc
  exact (setRt_rts P r _).2 rfl

/-- A call that leaves the runtime with the template `t`, and crashes if the state pointer is
NULL. -/
theorem quiet_iff_of_writes {t : JSRequestState} {Q : Process σ} {p : Prop} (rc : Int)
    (hr : Rooted (P.rts r)) (hc : (P.rts r).da.cur = none) (hQ : Q.rts = P.rts)
    (hquiet : c.Quiet P r ↔ (P.rts r).da.stateCell = none ∨ p) (hp : t = (P.rts r).template ↔ p)
    (hnull : (P.rts r).da.stateCell = none → call E H P r ds c = none)
    (hidle : Idle (P.rts r) →
      call E H P r ds c = some (rc, Q.setRt r { P.rts r with template := t })) :
    (∀ rc P', call E H P r ds c = some (rc, P') → P'.rts = P.rts) ↔ c.Quiet P r := by
  rw [hquiet, ← hp]
  rcases hr.idle hc with hcell | hcell
  · refine iff_of_true (fun rc P' hcall => ?_) (.inl hcell)
    rw [hnull hcell] at hcall
    cases hcall
  · have hcall := hidle ⟨hr.mode, hc, hcell⟩
    have hset : (Q.setRt r { P.rts r with template := t }).rts = P.rts ↔
        t = (P.rts r).template := by
      rw [← hQ, setRt_rts]
      exact ⟨fun h => congrArg Runtime.template h, fun h => by rw [h]⟩
    rw [hcell]
    constructor
    · exact fun h => .inr (hset.1 (h _ _ hcall))
    · intro h rc' P' hc
      rw [hcall] at hc
      cases hc
      exact hset.2 (h.resolve_left nofun)

/-- With no request entered, each entry point leaves the template and everything else of the
runtimes unchanged exactly when it is quiet. -/
theorem nothing_entered_iff (h : ReactorReach H P) (hc : (P.rts r).da.cur = none) (c : Call) :
    (∀ rc P', call E H P r ds c = some (rc, P') → P'.rts = P.rts) ↔ c.Quiet P r := by
  have hr := h.rooted r
  cases c with
  | run src =>
    cases src with
    | none => exact quiet_iff_of_refused trivial rfl
    | some src =>
      refine quiet_iff_of_writes (Q := P) arenaRcError hr hc rfl Iff.rfl
        (Reactor.afterRun_eq_iff hr.fresh) (fun hcell => ?_) fun hidle => ?_
      · rw [call, (runs_null hc hcell src src).1]
        rfl
      · rw [call, (runs_idle hidle hr.fresh src src).1]
        rfl
  | runModule name src =>
    cases name with
    | none => exact quiet_iff_of_refused trivial rfl
    | some name =>
      cases src with
      | none => exact quiet_iff_of_refused trivial rfl
      | some src =>
        refine quiet_iff_of_writes (Q := P) arenaRcError hr hc rfl Iff.rfl
          (Reactor.afterRun_eq_iff hr.fresh) (fun hcell => ?_) fun hidle => ?_
        · rw [call, (runs_null hc hcell name src).2]
          rfl
        · rw [call, (runs_idle hidle hr.fresh name src).2]
          rfl
  | requestEval src =>
    cases src with
    | none => exact quiet_iff_of_refused trivial rfl
    | some src =>
      exact quiet_iff_of_refused trivial (by rw [call, arenaRequestEvalR, if_pos hc]; rfl)
  | requestPump =>
    exact quiet_iff_of_refused trivial (by rw [call, arenaRequestPumpR, if_pos hc]; rfl)
  | setRandomSeed seed =>
    exact quiet_iff_of_writes arenaRcOk
      (Q := P.setReactor r { P.reactors r with randomSeed := seed, hasRandomSeed := true })
      hr hc rfl Iff.rfl (randomStateReq_eq_iff _ _)
      (fun hcell => congrArg (Option.map _) (modifyReq_null hcell _))
      fun hidle => congrArg (Option.map _) (hidle.modifyReq _)
  | setDateNow ms =>
    exact quiet_iff_of_writes arenaRcOk
      (Q := P.setReactor r { P.reactors r with dateNowMs := ms, hasDateNow := true })
      hr hc rfl Iff.rfl (dateNowPinnedReq_eq_iff _ _)
      (fun hcell => congrArg (Option.map _) (modifyReq_null hcell _))
      fun hidle => congrArg (Option.map _) (hidle.modifyReq _)

end

/-! ## A run with nothing entered -/

/-- An engine that stops wherever it would go on. -/
def stoppedEngine : Engine BumpSpace :=
  { functionDefSize := 1, moduleDefSize := 1, shapeSize := 1, objectSize := 1,
    stringSize := String.length, findAtom := fun _ _ => false, findShape := fun _ => true,
    triggerGC := fun _ => none, resume := fun _ _ => none, evalModule := fun _ _ => none,
    print := fun _ _ => none, diagnose := fun _ _ => none, drainPendingJobs := fun _ => none,
    traceStop := fun _ _ => false }

/-- A runtime as `JS_NewRuntime2` leaves it: zeroed memory, no pending exception. -/
def zeroRuntime : Runtime BumpSpace :=
  { bumpRuntime with template := { (default : JSRequestState) with
      currentException := .uninitialized, errorBackTraceReq := .int 0 } }

/-- Reactors that were just frozen, with nothing pinned. -/
def frozenProcess : Process BumpSpace :=
  ⟨fun _ => jsFreezeRuntime bumpHost zeroRuntime, fun _ => ⟨false, 0, false, 0⟩⟩

/-- The same after `arena_request_leave_r` on reactor 0. -/
def leftProcess : Process BumpSpace :=
  frozenProcess.setRt 0 (jsSelectRequest (frozenProcess.rts 0) none)

theorem leftProcess_reach : ReactorReach bumpHost leftProcess := by
  have hinit : ReactorReach bumpHost frozenProcess := by
    refine .init fun _ => ⟨zeroRuntime, ⟨⟨?_, ?_, ?_⟩, ?_⟩, ⟨rfl, rfl, rfl, rfl⟩, rfl⟩
    · decide +kernel
    · decide +kernel
    · decide +kernel
    · exact ⟨_, (Option.some_get (show zeroRuntime.da.selected.isSome = true from rfl)).symm⟩
  have hboundary : atJobBoundary (frozenProcess.rts 0) = some true := by decide +kernel
  refine .call (r := 0) (c := .requestLeave) hinit trivial ?_
  simp only [reqCall, jsLeaveRequest, (hinit.rooted 0).arena, Bool.true_eq_false,
    if_false, hboundary,
    Option.map_some]
  rfl

/-- `arena_request_pump_r` after the leave. -/
theorem nothing_entered_pump : (leftProcess.rts 0).da.cur = none ∧
    ∀ rc P', call stoppedEngine bumpHost leftProcess 0 [] .requestPump = some (rc, P') →
      P'.rts = leftProcess.rts :=
  have hcur : (leftProcess.rts 0).da.cur = none := rfl
  ⟨hcur, (nothing_entered_iff leftProcess_reach hcur .requestPump).2 trivial⟩

/-- `arena_run_r` after the leave clears the template's back trace. -/
theorem run_writes_template : ReactorReach bumpHost leftProcess ∧
    (leftProcess.rts 0).da.cur = none ∧
    ∃ rc P', call stoppedEngine bumpHost leftProcess 0 [] (.run (some "1")) = some (rc, P') ∧
      (P'.rts 0).template ≠ (leftProcess.rts 0).template := by
  have hr := leftProcess_reach.rooted 0
  refine ⟨leftProcess_reach, rfl, arenaRcError, leftProcess.setRt 0 { leftProcess.rts 0 with
    template := (leftProcess.reactors 0).afterRun (leftProcess.rts 0).template }, ?_, ?_⟩
  · rw [call, (runs_idle ⟨hr.mode, rfl, rfl⟩ hr.fresh "" "1").1]
    rfl
  · intro h
    have hb : (leftProcess.rts 0).template.errorBackTraceReq = .undefined := by
      rw [← h]
      simp [Process.setRt, Reactor.afterRun]
    exact absurd hb (by decide +kernel)

end ArenaJs
