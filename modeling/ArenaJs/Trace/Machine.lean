import ArenaJs.Trace.Emitter

/-!
# The interpreter around the trace hooks

`JS_CallInternal` with its four hooks, the C functions that call back into it, and the three entry
points of the reactor that start a run and turn its completion into a result code.

What the tracer does not depend on is left to an `Engine`: `L` is the state of a bytecode frame, `N`
that of an activation of a C function, `V` are values and `σ` is the heap, with its memory and the
queue of jobs. The engine says what the instruction at a frame does and what a C function does next.
The machine has the control flow: the dispatch loop and its two styles, the exception slot, the
`exception` label and the search for a handler, the hooks with the host they call, and the driver
loops of the reactor. A hook is followed in steps, because user code can run inside it: the
conversion of a thrown value, the values a snapshot writes, a stack trace formatter.
-/

namespace ArenaJs.Interp

open Trace (Micro Event TraceState nameSeen emitName modeOff arenaTraceReset)

/-! ## What a program does -/

/-- The result of a call: a value, or `JS_EXCEPTION` with the thrown value in the exception slot. -/
inductive Completion (V : Type) where
  | ok (v : V)
  | exception
  deriving DecidableEq, Repr

/-- What is called: a bytecode function, or a suspended one whose `throw_flag` is given, or a C
function. -/
inductive Callee (L N : Type) where
  | js (l : L) (throwFlag : Bool)
  | native (n : N)
  deriving DecidableEq, Repr

/-- What an instruction does: go on, call, `OP_throw`, fail with an error of the engine, or leave
the frame (`OP_return`, `OP_yield`, `OP_await`). -/
inductive Instr (V L N : Type) where
  | next (l : L)
  | call (c : Callee L N) (l : L)
  | throw (v : V) (l : L)
  | fail (v : V) (l : L)
  | ret (v : V)
  deriving DecidableEq

/-- The topmost catch offset on the operand stack: none, the handler of a `try`, or an iterator to
close by a C function. -/
inductive Unwind (V L N : Type) where
  | none
  | handler (k : Option V → L)
  | close (n : N) (l : L)

/-- What a C function does next. -/
inductive NStep (V L N : Type) where
  | call (c : Callee L N) (n : N)
  | ret (r : Completion V)
  deriving DecidableEq

/-- The C function returns. -/
def NStep.isRet {V L N : Type} : NStep V L N → Bool
  | .ret _ => true
  | .call _ _ => false

theorem NStep.exists_ret {V L N : Type} {s : NStep V L N} (h : s.isRet) : ∃ r, s = .ret r := by
  cases s with
  | call => cases h
  | ret r => exact ⟨r, rfl⟩

/-- `JS_PromiseState`; what is not a promise counts as settled by itself. -/
inductive PromiseState (V : Type) where
  | fulfilled (v : V)
  | rejected (v : V)
  | pending
  deriving DecidableEq

/-- The program and the parts of the engine that the tracer does not look into. -/
structure Engine (σ V L N : Type) where
  /-- `DIRECT_DISPATCH`: an instruction jumps to the next one and not to the top of the loop. -/
  direct : Bool
  /-- An interrupt or a stack overflow before the frame is set up. -/
  refuse : L → σ → Option V
  instr : L → σ → σ × Instr V L N
  /-- The frame with the result of its call pushed. -/
  resume : L → V → L
  unwind : L → Unwind V L N
  /-- `JS_IsUncatchableError`. -/
  uncatchable : V → Bool
  /-- A step of a C function, which may read and set the exception slot. -/
  native : N → σ → Option V → σ × Option V × NStep V L N
  /-- The C function with the completion of its call. -/
  back : N → Completion V → N
  func : L → Nat
  file : L → Nat
  startLine : L → Int
  line : L → Int
  /-- `JS_AtomToCString` with the `JS_FreeCString` after it. A name that is not ASCII is converted
  in memory of the request; it fails only without. -/
  atomCString : Nat → σ → σ × Option (List Nat)
  noMemory : V
  /-- `JS_ToCString`, and the bytes of its result. -/
  toCString : V → N
  bytes : Completion V → List Nat
  /-- The walk over the stack in `emit_state`. -/
  snapshot : σ → N
  /-- `build_backtrace` at the `exception` label and where the stop error is made: a call of
  `Error.prepareStackTrace`, if there is one to make. -/
  backtrace : σ → Option V → Option N
  stopTrace : σ → Option N
  /-- The error with the message `ARENA_TRACE_STOP_MSG`. -/
  stopError : V
  /-- `is_trace_stop`, and its result. -/
  isTraceStop : Option V → N
  isTrue : V → Bool
  diagnose : Option V → N
  promise : σ → V → PromiseState V
  /-- The error of `await_value` when nothing can settle the promise. -/
  stuck : V
  popJob : σ → Option (σ × N)
  /-- `js_dual_arena_oom_hit`. -/
  oomHit : σ → Bool

/-! ## Hooks and the host -/

/-- The return codes of the host callback. -/
inductive StopCode where
  | go
  | stop
  | inspect
  deriving DecidableEq, Repr

/-- `merge_stop`. -/
def mergeStop : StopCode → StopCode → StopCode
  | .inspect, _ | _, .inspect => .inspect
  | .go, .go => .go
  | _, _ => .stop

/-- What the host does in its callback: call `arena_trace_snapshot_here` or not, then return. -/
structure Reply where
  snapshot : Bool
  code : StopCode
  deriving DecidableEq, Repr

/-- A step of a hook. -/
inductive Work (V : Type) where
  | ensure (atom : Nat)
  | convert (v : V) (file line : Nat)
  | deliver (e : Event)
  deriving DecidableEq, Repr

def Work.ofMicro {V : Type} : Micro → Work V
  | .ensure a => .ensure a
  | .deliver e => .deliver e

/-- A hook under way: its steps still to do and the codes merged so far. -/
structure HookRun (V : Type) where
  hook : Trace.Hook
  todo : List (Work V)
  code : StopCode
  deriving DecidableEq, Repr

/-! ## Configurations -/

/-- `ArenaRc`, without the codes of calls that start no run. -/
inductive Rc where
  | ok
  | error
  | oom
  deriving DecidableEq, Repr

/-- Where an entry point waits: `eval` is the `JS_Eval` of `arena_run_r` and `arena_request_eval_r`,
the other phases but `print` and `diagnose` are of `arena_run_module_r`. `modules` are the calls
that linking and evaluating synchronous modules still has to make; `evalModule` is the evaluation of
a graph with a top-level `await`. -/
inductive Phase (V L N : Type) where
  | eval
  | print
  | diagnose (job : Bool)
  | modules (rest : List (Callee L N))
  | evalModule
  | awaitJob (v : V)
  | drainJob
  | classify (exc : Option V)
  | classifyJob (exc : Option V)

/-- A point of the program. `top` is the top of the dispatch loop, `thrown` the `JS_Throw` of
`OP_throw`, `exception` the label, `unwinding` the search for a handler, `leaving` the end of
`JS_CallInternal` with the hook, `returning` the return to the caller; the last three are of the
driver. -/
inductive Point (V L N : Type) where
  | enter (c : Callee L N)
  | top (l : L)
  | dispatch (l : L)
  | thrown (v : V) (l : L)
  | exception (l : L)
  | unwinding (l : L)
  | leaving (r : Completion V)
  | native (n : N)
  | returning (r : Completion V)
  | await (v : V)
  | failed
  | drain

/-- What waits for a return: a bytecode frame, one that closes an iterator or builds a backtrace, a
C function, a hook in `JS_ToCString`, in a snapshot the host took, in the snapshot of the code 2 or
in the making of the stop error, and an entry point. -/
inductive Frame (V L N : Type) where
  | js (l : L)
  | closing (l : L)
  | traced (l : L)
  | native (n : N)
  | converting (h : HookRun V) (file line : Nat) (p : Point V L N)
  | snapshot (h : HookRun V) (code : StopCode) (p : Point V L N)
  | inspecting (p : Point V L N)
  | raising (p : Point V L N)
  | entry (ph : Phase V L N)

/-- A frame of a hook. -/
def Frame.inHook {V L N : Type} : Frame V L N → Bool
  | .converting .. | .snapshot .. | .inspecting _ | .raising _ => true
  | _ => false

inductive Ctl (V L N : Type) where
  | run (p : Point V L N)
  | hook (h : HookRun V) (p : Point V L N)
  | halt (rc : Rc)

/-- What happened, newest first: instructions, steps of C functions of the program and of those that
a hook calls, events with the codes the host returned, the moment a hook that was asked to stop
returns, and the completion an entry point gets. -/
inductive Item (V L N : Type) where
  | exec (l : L)
  | native (n : N)
  | helper (n : N)
  | event (e : Event)
  | reply (code : StopCode)
  | armed
  | outcome (r : Completion V) (exc : Option V)
  deriving DecidableEq, Repr

/-- The host: what it does at an event, by all that happened. -/
abbrev Host (V L N : Type) := List (Item V L N) → Event → Reply

/-- A configuration. `active` says whether `arena_trace_snapshot_here` finds a hook. -/
structure Cfg (σ V L N : Type) where
  heap : σ
  pending : Option V
  trace : TraceState
  active : Bool
  ctl : Ctl V L N
  frames : List (Frame V L N)
  log : List (Item V L N)

section
variable {σ V L N : Type}
variable (c : Cfg σ V L N)

/-! ## Steps -/

/-- The rest of the run goes on at `p`. -/
def Cfg.goto (p : Point V L N) : Cfg σ V L N := { c with ctl := .run p }

/-- A call that returns to `f`. -/
def Cfg.push (f : Frame V L N) (p : Point V L N) : Cfg σ V L N :=
  { c with frames := f :: c.frames, ctl := .run p }

def Cfg.halt (rc : Rc) : Cfg σ V L N := { c with ctl := .halt rc }

def Cfg.record (i : Item V L N) : Cfg σ V L N := { c with log := i :: c.log }

/-- Whose C function it is: of the hook that waits for it, or of the program. -/
def Cfg.nativeItem (n : N) : Item V L N :=
  if c.frames.head?.any Frame.inHook then .helper n else .native n

/-- A hook is called, and the run goes on at `p` after it. -/
def Cfg.callHook (h : Trace.Hook) (todo : List (Work V)) (p : Point V L N) :
    Cfg σ V L N :=
  match h.start c.trace with
  | none => c.goto p
  | some tr => { c with trace := tr, active := true, ctl := .hook ⟨h, todo, .go⟩ p }

namespace Engine
variable (E : Engine σ V L N)
variable (c : Cfg σ V L N) (l : L)

/-! ### `JS_CallInternal` -/

/-- `BREAK`: where an instruction goes on. -/
def next : Point V L N := if E.direct then .dispatch l else .top l

/-- The call of `arena_trace_func_enter`. -/
def enterHook : Trace.Hook := .funcEnter (E.func l) (E.file l) (E.startLine l)

/-- The call of `arena_trace_check_line`. -/
def lineHook : Trace.Hook := .checkLine (E.file l) (E.line l)

/-- The call of `arena_trace_op_throw`; the message is converted on the way. -/
def throwHook : Trace.Hook := .opThrow (E.file l) (E.line l) []

/-- The steps of `arena_trace_op_throw`. -/
def throwWork (v : V) (l : L) : List (Work V) :=
  [.ensure (E.file l), .convert v (E.file l) (E.line l).toNat]

/-- A frame is set up, with its hook. -/
def enter (throwFlag : Bool) : Cfg σ V L N :=
  match E.refuse l c.heap with
  | some e => { c with pending := some e }.goto (.returning .exception)
  | none =>
    c.callHook (E.enterHook l) ((E.enterHook l).todo.map .ofMicro)
      (if throwFlag then .exception l else .top l)

/-- The top of the dispatch loop. -/
def loopTop : Cfg σ V L N :=
  if c.trace.mode ≠ modeOff ∧ c.pending.isSome then c.goto (.exception l)
  else c.callHook (E.lineHook l) ((E.lineHook l).todo.map .ofMicro) (.dispatch l)

/-- An instruction. -/
def dispatch : Cfg σ V L N :=
  let r := E.instr l c.heap
  let c := { c with heap := r.1, log := .exec l :: c.log }
  match r.2 with
  | .next l => c.goto (E.next l)
  | .call callee l => c.push (.js l) (.enter callee)
  | .throw v l => c.callHook (E.throwHook l) (E.throwWork v l) (.thrown v l)
  | .fail v l => { c with pending := some v }.goto (.exception l)
  | .ret v => c.goto (.leaving (.ok v))

/-- The `exception` label. -/
def exception : Cfg σ V L N :=
  match E.backtrace c.heap c.pending with
  | some n => c.push (.traced l) (.native n)
  | none => c.goto (.unwinding l)

/-- The search for a handler. -/
def unwinding : Cfg σ V L N :=
  if c.pending.any E.uncatchable then c.goto (.leaving .exception)
  else
    match E.unwind l with
    | .none => c.goto (.leaving .exception)
    | .handler k => { c with pending := none }.goto (.top (k c.pending))
    | .close n l => c.push (.closing l) (.native n)

/-- A step of a C function. -/
def nativeStep (n : N) : Cfg σ V L N :=
  let r := E.native n c.heap c.pending
  let c := { c with heap := r.1, pending := r.2.1, log := c.nativeItem n :: c.log }
  match r.2.2 with
  | .call callee n => c.push (.native n) (.enter callee)
  | .ret r => c.goto (.returning r)

/-! ### Hooks -/

/-- The callback has returned. -/
def replied (h : HookRun V) (code : StopCode) (p : Point V L N) : Cfg σ V L N :=
  { c with log := .reply code :: c.log, ctl := .hook { h with code := mergeStop h.code code } p }

/-- `_arena_host_trace`, with the snapshot the host may take. -/
def deliver (host : Host V L N) (c : Cfg σ V L N) (h : HookRun V) (e : Event) (p : Point V L N) :
    Cfg σ V L N :=
  let reply := host c.log e
  let c := c.record (.event e)
  if reply.snapshot && c.active && !c.trace.bailArmed then
    c.push (.snapshot h reply.code p) (.native (E.snapshot c.heap))
  else replied c h reply.code p

/-- The stop error is pending. -/
def arm (p : Point V L N) : Cfg σ V L N :=
  { c with pending := some E.stopError, trace := { c.trace with bailArmed := true },
           log := .armed :: c.log, ctl := .run p }

/-- `raise_stop`. -/
def raiseStop (p : Point V L N) : Cfg σ V L N :=
  if c.trace.bailArmed then c.goto p
  else
    match E.stopTrace c.heap with
    | some n => c.push (.raising p) (.native n)
    | none => E.arm c p

/-- The end of a hook: `handle_stop_code`. -/
def finishHook (h : HookRun V) (p : Point V L N) : Cfg σ V L N :=
  let c := { c with trace := h.hook.finish c.trace false, active := false }
  match h.code with
  | .go => c.goto p
  | .stop => E.raiseStop c p
  | .inspect =>
    if c.trace.bailArmed then c.goto p
    else c.push (.inspecting p) (.native (E.snapshot c.heap))

/-- `ensure_name`. -/
def ensure (host : Host V L N) (c : Cfg σ V L N) (h : HookRun V) (a : Nat) (p : Point V L N) :
    Cfg σ V L N :=
  if nameSeen c.trace a then { c with ctl := .hook h p }
  else
    let r := E.atomCString a c.heap
    match emitName c.trace a r.2 with
    | (tr, some e) => E.deliver host { c with heap := r.1, trace := tr } h e p
    | (tr, none) =>
      { c with heap := r.1, trace := tr, pending := some E.noMemory, ctl := .hook h p }

/-- A step of a hook. -/
def hookStep (host : Host V L N) (c : Cfg σ V L N) (h : HookRun V) (p : Point V L N) :
    Cfg σ V L N :=
  match h.todo with
  | [] => E.finishHook c h p
  | .ensure a :: todo => E.ensure host c { h with todo := todo } a p
  | .convert v file line :: todo =>
    c.push (.converting { h with todo := todo } file line p) (.native (E.toCString v))
  | .deliver e :: todo => E.deliver host c { h with todo := todo } e p

/-! ### Entry points -/

/-- `arena_oom_override`. -/
def override (s : σ) (rc : Rc) : Rc := if E.oomHit s then .oom else rc

/-- `await_value`. -/
def awaitStep (v : V) : Cfg σ V L N :=
  match E.promise c.heap v with
  | .fulfilled w => (c.record (.outcome (.ok w) none)).goto .drain
  | .rejected e => { c with pending := some e }.goto .failed
  | .pending =>
    match E.popJob c.heap with
    | none => { c with pending := some E.stuck }.goto .failed
    | some (s, n) => { c with heap := s }.push (.entry (.awaitJob v)) (.native n)

/-- An exception reaches `arena_run_module_r`: is it the stop? -/
def failedStep : Cfg σ V L N :=
  { c with pending := none, log := .outcome .exception c.pending :: c.log }.push
    (.entry (.classify c.pending)) (.native (E.isTraceStop c.pending))

/-- The loop of `drain_pending_jobs`. -/
def drainStep : Cfg σ V L N :=
  match E.popJob c.heap with
  | none => c.halt (E.override c.heap .ok)
  | some (s, n) => { c with heap := s }.push (.entry .drainJob) (.native n)

/-- `is_trace_stop(..) || arena_trace_stop_armed(..)`. -/
def stopSeen (r : Completion V) : Bool :=
  c.trace.bailArmed || match r with
    | .ok v => E.isTrue v
    | .exception => false

/-- An entry point gets a result. -/
def entryStep (r : Completion V) : Phase V L N → Cfg σ V L N
  | .eval =>
    match r with
    | .ok v =>
      (c.record (.outcome r none)).push (.entry .print) (.native (E.toCString v))
    | .exception =>
      let c' := { c with pending := none, log := .outcome r c.pending :: c.log }
      if E.oomHit c.heap then c'.halt .oom
      else c'.push (.entry (.diagnose false)) (.native (E.diagnose c.pending))
  | .print => c.halt (E.override c.heap .ok)
  | .diagnose job => c.halt (if job then E.override c.heap .error else .error)
  | .modules rest =>
    match r, rest with
    | .exception, _ => c.goto .failed
    | .ok _, [] => (c.record (.outcome r none)).goto .drain
    | .ok _, callee :: rest => c.push (.entry (.modules rest)) (.enter callee)
  | .evalModule =>
    match r with
    | .ok v => c.goto (.await v)
    | .exception => c.goto .failed
  | .awaitJob v =>
    match r with
    | .ok _ => c.goto (.await v)
    | .exception => c.goto .failed
  | .drainJob =>
    match r with
    | .ok _ => c.goto .drain
    | .exception =>
      { c with pending := none }.push (.entry (.classifyJob c.pending))
        (.native (E.isTraceStop c.pending))
  | .classify exc =>
    if E.stopSeen c r then c.halt .ok
    else if E.oomHit c.heap then c.halt .oom
    else c.push (.entry (.diagnose false)) (.native (E.diagnose exc))
  | .classifyJob exc =>
    if E.stopSeen c r then c.halt (E.override c.heap .ok)
    else c.push (.entry (.diagnose true)) (.native (E.diagnose exc))

/-- A call returns to the frame that made it. -/
def returnTo (r : Completion V) : Frame V L N → Cfg σ V L N
  | .js l =>
    match r with
    | .ok v => c.goto (E.next (E.resume l v))
    | .exception => c.goto (.exception l)
  | .closing l => c.goto (.unwinding l)
  | .traced l => c.goto (.unwinding l)
  | .native n => c.goto (.native (E.back n r))
  | .converting h file line p =>
    { c with ctl := .hook { h with todo := .deliver (.throw file line (E.bytes r)) :: h.todo } p }
  | .snapshot h code p => replied { c with pending := none } h code p
  | .inspecting p => E.raiseStop { c with pending := none } p
  | .raising p => E.arm c p
  | .entry ph => E.entryStep c r ph

/-! ### The machine -/

/-- A step at a point of the program. -/
def stepAt : Point V L N → Cfg σ V L N
  | .enter (.js l throwFlag) => E.enter c l throwFlag
  | .enter (.native n) => c.goto (.native n)
  | .top l => E.loopTop c l
  | .dispatch l => E.dispatch c l
  | .thrown v l => { c with pending := some v }.goto (.exception l)
  | .exception l => E.exception c l
  | .unwinding l => E.unwinding c l
  | .leaving r => c.callHook .funcExit (Trace.Hook.funcExit.todo.map .ofMicro) (.returning r)
  | .native n => E.nativeStep c n
  | .returning r =>
    match c.frames with
    | [] => c
    | f :: fs => E.returnTo { c with frames := fs } r f
  | .await v => E.awaitStep c v
  | .failed => E.failedStep c
  | .drain => E.drainStep c

/-- One step. -/
def step (host : Host V L N) (c : Cfg σ V L N) : Cfg σ V L N :=
  match c.ctl with
  | .run p => E.stepAt c p
  | .hook h p => E.hookStep host c h p
  | .halt _ => c

/-- The configuration after `n` steps. -/
def run (host : Host V L N) (c : Cfg σ V L N) : Nat → Cfg σ V L N
  | 0 => c
  | n + 1 => E.step host (run host c n)

end Engine

/-- What is run: a script by `arena_run_r` or by `arena_request_eval_r`, or a module by
`arena_run_module_r`. -/
inductive Job (L N : Type) where
  | run (l : L)
  | requestEval (l : L)
  | module (first : Callee L N) (rest : List (Callee L N))
  | asyncModule (n : N)

/-- The start of a run. Only `arena_run_module_r` resets the trace state. -/
def Job.start (s : σ) (pending : Option V) (st : TraceState) : Job L N → Cfg σ V L N
  | .run l | .requestEval l =>
    ⟨s, pending, st, false, .run (.enter (.js l false)), [.entry .eval], []⟩
  | .module first rest =>
    ⟨s, pending, arenaTraceReset st, false, .run (.enter first), [.entry (.modules rest)], []⟩
  | .asyncModule n =>
    ⟨s, pending, arenaTraceReset st, false, .run (.native n), [.entry .evalModule], []⟩

/-! ## Runs that step alike -/

/-- The host asks to stop. -/
def Item.isStop : Item V L N → Bool
  | .reply .stop | .reply .inspect => true
  | _ => false

def Item.isArmed : Item V L N → Bool
  | .armed => true
  | _ => false

/-- Nothing that a stop leaves behind. -/
def Item.Plain (i : Item V L N) : Prop := i.isStop = false ∧ i.isArmed = false

theorem Cfg.nativeItem_plain (c : Cfg σ V L N) (n : N) : (c.nativeItem n).Plain := by
  unfold Cfg.nativeItem
  split <;> exact ⟨rfl, rfl⟩

/-- The same job is next on two heaps. -/
def Engine.JobsAlike (E : Engine σ V L N) (H : σ → σ → Prop) (s u : σ) : Prop :=
  match E.popJob s, E.popJob u with
  | none, none => True
  | some (s, n), some (u, n') => H s u ∧ n = n'
  | _, _ => False

/-- The engine does the same on two heaps at a point of the program, and leaves heaps that `H`
relates. -/
def Engine.AlikeAt (E : Engine σ V L N) (H : σ → σ → Prop) (s u : σ) (pending : Option V) :
    Point V L N → Prop
  | .enter (.js l _) => E.refuse l s = E.refuse l u
  | .dispatch l => H (E.instr l s).1 (E.instr l u).1 ∧ (E.instr l s).2 = (E.instr l u).2
  | .exception _ => E.backtrace s pending = E.backtrace u pending
  | .native n => H (E.native n s pending).1 (E.native n u pending).1 ∧
      (E.native n s pending).2 = (E.native n u pending).2
  | .await v => E.promise s v = E.promise u v ∧ E.JobsAlike H s u
  | .drain => E.oomHit s = E.oomHit u ∧ E.JobsAlike H s u
  | .returning _ => E.oomHit s = E.oomHit u
  | _ => True

theorem Engine.JobsAlike.cases {E : Engine σ V L N} {H : σ → σ → Prop} {s u : σ}
    (h : E.JobsAlike H s u) : E.popJob s = none ∧ E.popJob u = none ∨
      ∃ s' u' n, E.popJob s = some (s', n) ∧ E.popJob u = some (u', n) ∧ H s' u' := by
  unfold Engine.JobsAlike at h
  split at h
  · exact .inl ⟨‹_›, ‹_›⟩
  · obtain ⟨hH, rfl⟩ := h
    exact .inr ⟨_, _, _, ‹_›, ‹_›, hH⟩
  · exact h.elim

theorem Engine.alikeAt_self (E : Engine σ V L N) (s : σ) (pending : Option V) (p : Point V L N) :
    E.AlikeAt Eq s s pending p := by
  have hjobs : E.JobsAlike Eq s s := by
    unfold Engine.JobsAlike
    cases E.popJob s with
    | none => trivial
    | some r => exact ⟨rfl, rfl⟩
  cases p with
  | enter c => cases c <;> first | exact rfl | trivial
  | dispatch | native => exact ⟨rfl, rfl⟩
  | exception | returning => exact rfl
  | await | drain => exact ⟨rfl, hjobs⟩
  | top | thrown | unwinding | leaving | failed => trivial

/-- Two configurations that agree on what a step of the program reads, but for the heaps, which `H`
relates: `R` relates them while the step computes, `S` once it has said where the run goes on. -/
structure Follows (H : σ → σ → Prop) (R S : Cfg σ V L N → Cfg σ V L N → Prop) : Prop where
  eq : ∀ {t u}, R t u → ∃ s tr act ctl log, H s u.heap ∧ tr.bailArmed = u.trace.bailArmed ∧
    t = ⟨s, u.pending, tr, act, ctl, u.frames, log⟩
  heap : ∀ {t u}, R t u → ∀ {s s'}, H s s' → R { t with heap := s } { u with heap := s' }
  pending : ∀ {t u}, R t u → ∀ v, R { t with pending := v } { u with pending := v }
  record : ∀ {t u}, R t u → ∀ i : Item V L N, i.Plain → R (t.record i) (u.record i)
  goto : ∀ {t u}, R t u → ∀ p, S (t.goto p) (u.goto p)
  halt : ∀ {t u}, R t u → ∀ rc, S (t.halt rc) (u.halt rc)
  push : ∀ {t u}, R t u → ∀ f : Frame V L N, f.inHook = false → ∀ p,
    S (t.push f p) (u.push f p)
  callHook : ∀ {t u}, R t u → ∀ hk todo p, S (t.callHook hk todo p) (u.callHook hk todo p)

section
variable {E : Engine σ V L N} {H : σ → σ → Prop} {R S : Cfg σ V L N → Cfg σ V L N → Prop}
variable {t u : Cfg σ V L N} (F : Follows H R S) (h : R t u)
include F h

theorem Follows.dispatch {l : L} (ha : E.AlikeAt H t.heap u.heap u.pending (.dispatch l)) :
    S (E.dispatch t l) (E.dispatch u l) := by
  obtain ⟨s, tr, act, ctl, log, -, -, rfl⟩ := F.eq h
  have h' : R ⟨(E.instr l s).1, u.pending, tr, act, ctl, u.frames, .exec l :: log⟩
      { u with heap := (E.instr l u.heap).1, log := .exec l :: u.log } :=
    F.record (F.heap h ha.1) (.exec l) ⟨rfl, rfl⟩
  simp only [Engine.dispatch, show (E.instr l s).2 = _ from ha.2]
  split
  · exact F.goto h' _
  · exact F.push h' _ rfl _
  · exact F.callHook h' _ _ _
  · exact F.goto (F.pending h' _) _
  · exact F.goto h' _

theorem Follows.unwinding (l : L) : S (E.unwinding t l) (E.unwinding u l) := by
  obtain ⟨s, tr, act, ctl, log, -, -, rfl⟩ := F.eq h
  simp only [Engine.unwinding]
  split
  · exact F.goto h _
  · split
    · exact F.goto h _
    · exact F.goto (F.pending h none) _
    · exact F.push h _ rfl _

theorem Follows.nativeStep {n : N} (ha : E.AlikeAt H t.heap u.heap u.pending (.native n)) :
    S (E.nativeStep t n) (E.nativeStep u n) := by
  obtain ⟨s, tr, act, ctl, log, -, -, rfl⟩ := F.eq h
  have h' : R ⟨(E.native n s u.pending).1, (E.native n u.heap u.pending).2.1, tr, act, ctl,
        u.frames, u.nativeItem n :: log⟩
      { u with heap := (E.native n u.heap u.pending).1,
               pending := (E.native n u.heap u.pending).2.1,
               log := u.nativeItem n :: u.log } :=
    F.record (F.pending (F.heap h ha.1) _) (u.nativeItem n) (u.nativeItem_plain n)
  simp only [Engine.nativeStep, show (E.native n s u.pending).2 = _ from ha.2]
  split
  · exact F.push h' _ rfl _
  · exact F.goto h' _

theorem Follows.awaitStep {v : V} (ha : E.AlikeAt H t.heap u.heap u.pending (.await v)) :
    S (E.awaitStep t v) (E.awaitStep u v) := by
  obtain ⟨s, tr, act, ctl, log, -, -, rfl⟩ := F.eq h
  obtain ⟨hprom, hjobs⟩ := ha
  simp only [Engine.awaitStep, show E.promise s v = _ from hprom]
  split
  · exact F.goto (F.record h _ ⟨rfl, rfl⟩) _
  · exact F.goto (F.pending h _) _
  · rcases hjobs.cases with ⟨hs, hu⟩ | ⟨s', u', n, hs, hu, hH⟩
    · rw [hs, hu]
      exact F.goto (F.pending h _) _
    · rw [hs, hu]
      exact F.push (F.heap h hH) _ rfl _

theorem Follows.entryStep (hoom : E.oomHit t.heap = E.oomHit u.heap) (r : Completion V)
    (ph : Phase V L N) : S (E.entryStep t r ph) (E.entryStep u r ph) := by
  obtain ⟨s, tr, act, ctl, log, -, harm, rfl⟩ := F.eq h
  replace hoom : E.oomHit s = E.oomHit u.heap := hoom
  have hout := F.record (F.pending h none) (.outcome r u.pending) ⟨rfl, rfl⟩
  have hok := F.record h (.outcome r none) ⟨rfl, rfl⟩
  have hseen (r : Completion V) : E.stopSeen ⟨s, u.pending, tr, act, ctl, u.frames, log⟩ r =
      E.stopSeen u r := by
    simp only [Engine.stopSeen, harm]
  cases ph with
  | eval =>
    cases r with
    | ok v => exact F.push hok _ rfl _
    | exception =>
      simp only [Engine.entryStep, hoom]
      split
      · exact F.halt hout _
      · exact F.push hout _ rfl _
  | print | diagnose =>
    simp only [Engine.entryStep, Engine.override, hoom]
    exact F.halt h _
  | modules rest =>
    cases r with
    | exception => exact F.goto h _
    | ok v =>
      cases rest with
      | nil => exact F.goto hok _
      | cons callee rest => exact F.push h _ rfl _
  | evalModule | awaitJob => cases r <;> exact F.goto h _
  | drainJob =>
    cases r with
    | ok v => exact F.goto h _
    | exception => exact F.push (F.pending h none) _ rfl _
  | classify exc =>
    simp only [Engine.entryStep, hseen, hoom]
    split
    · exact F.halt h _
    · split
      · exact F.halt h _
      · exact F.push h _ rfl _
  | classifyJob exc =>
    simp only [Engine.entryStep, Engine.override, hseen, hoom]
    split
    · exact F.halt h _
    · exact F.push h _ rfl _

/-- A step that neither looks at the trace mode nor returns. -/
theorem Follows.stepAt {p : Point V L N} (ha : E.AlikeAt H t.heap u.heap u.pending p)
    (htop : ∀ l, p = .top l → S (E.stepAt t p) (E.stepAt u p))
    (hret : ∀ r, p = .returning r → S (E.stepAt t p) (E.stepAt u p)) :
    S (E.stepAt t p) (E.stepAt u p) := by
  cases p with
  | top l => exact htop l rfl
  | returning r => exact hret r rfl
  | dispatch l => exact F.dispatch h ha
  | unwinding l => exact F.unwinding h l
  | native n => exact F.nativeStep h ha
  | await v => exact F.awaitStep h ha
  | leaving r => exact F.callHook h _ _ _
  | thrown v l => exact F.goto (F.pending h _) _
  | enter callee =>
    cases callee with
    | js l throwFlag =>
      obtain ⟨s, tr, act, ctl, log, -, -, rfl⟩ := F.eq h
      simp only [Engine.stepAt, Engine.enter, show E.refuse l s = _ from ha]
      split
      · exact F.goto (F.pending h _) _
      · exact F.callHook h _ _ _
    | native n => exact F.goto h _
  | exception l =>
    obtain ⟨s, tr, act, ctl, log, -, -, rfl⟩ := F.eq h
    simp only [Engine.stepAt, Engine.exception, show E.backtrace s u.pending = _ from ha]
    split
    · exact F.push h _ rfl _
    · exact F.goto h _
  | failed =>
    obtain ⟨s, tr, act, ctl, log, -, -, rfl⟩ := F.eq h
    exact F.push (F.record (F.pending h none) _ ⟨rfl, rfl⟩) _ rfl _
  | drain =>
    obtain ⟨s, tr, act, ctl, log, -, -, rfl⟩ := F.eq h
    obtain ⟨hoom, hjobs⟩ := ha
    simp only [Engine.stepAt, Engine.drainStep, Engine.override, show E.oomHit s = _ from hoom]
    rcases hjobs.cases with ⟨hs, hu⟩ | ⟨s', u', n, hs, hu, hH⟩
    · rw [hs, hu]
      exact F.halt h _
    · rw [hs, hu]
      exact F.push (F.heap h hH) _ rfl _

end

end

end ArenaJs.Interp
