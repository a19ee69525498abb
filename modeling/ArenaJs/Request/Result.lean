import ArenaJs.Alloc.Latch
import ArenaJs.Request.Reactor

/-!
# The result codes of a run

How `arena_run_r`, `arena_run_module_r`, `arena_request_eval_r` and `arena_request_pump_r` arrive at
`ARENA_RC_OK`, `ARENA_RC_ERROR` or `ARENA_RC_OOM`. What the engine does during a call is part of the
call: the allocator hooks it calls, what the host's trace callback returns at its events, and how it
ends (`Work`, `Thrown`, `Evaluation`, `ModulePlan`, `Job`). The state is the dual arena and the
trace state's `bail_armed`, with two records of what has happened: which arenas have refused an
allocation since their last reset, and whether the host has asked for a stop during the call.

`Classifies` is what the codes are meant to say. `classifies_iff` says for each call when they do.
-/

namespace ArenaJs.Results

open Function (update update_of_ne update_self)

variable {σ : Type}

/-- `ARENA_TRACE_STOP_MSG`. -/
def arenaTraceStopMsg : List Char := "_arena_trace_stop_".toList

/-- What the trace callback returns: 0, 1 or 2. -/
inductive TraceCode where
  | go
  | stop
  | stopInspect
  deriving DecidableEq

/-- A stretch of engine work: its hook calls and what the trace callback returns at its events. -/
structure Work where
  hooks : List AllocCall := []
  codes : List TraceCode := []

/-- The callback asks for a stop. -/
def Work.stops (w : Work) : Bool := w.codes.any (· ≠ .go)

/-- The state a call runs in. `refused` and `asked` are what has happened, not fields of the code:
the arenas that have refused an allocation since their last reset, and whether the trace callback
has asked for a stop during the call. -/
structure State (σ : Type) where
  da : DualArena σ
  bailArmed : Bool
  refused : ReqId → Bool
  asked : Bool

variable (H : Host σ) (s : State σ)

/-- The engine works. While the stop is armed no hook of the trace calls the host. -/
def State.work (w : Work) : State σ :=
  let asks := !s.bailArmed && w.stops
  { da := runAllocs H s.da w.hooks
    bailArmed := s.bailArmed || asks
    refused := fun id =>
      s.refused id || (decide (s.da.cur = some id) && refusesSome H s.da w.hooks)
    asked := s.asked || asks }

/-- `JS_ResetRequestArena`, on the arena. -/
def State.reset : State σ :=
  { s with
    da := resetRequest H s.da
    refused := fun id => s.refused id && decide (s.da.cur ≠ some id) }

/-- `arena_trace_reset`. -/
def State.traceReset : State σ := { s with bailArmed := false }

/-- The entered request has refused an allocation since its last reset. -/
def State.refusedNow : Bool :=
  match s.da.cur with
  | some id => s.refused id
  | none => false

/-! ## The entry points -/

/-- An exception: its `message` as a C string when reading it succeeds, the work of reading it, and
the work of `diagnose_exception` on it. -/
structure Thrown where
  message : Option (List Char) := none
  read : Work := {}
  diagnose : Work := {}

/-- `is_trace_stop`, once the message is read; `strcmp` ends at the first NUL. -/
def isTraceStop (e : Thrown) : Bool :=
  match e.message with
  | none => false
  | some m => m.takeWhile (· ≠ '\x00') = arenaTraceStopMsg

/-- How a script ends: with a value that is printed, or with an exception. -/
inductive Completion where
  | value (print : Work)
  | threw (e : Thrown)

/-- `JS_Eval` of a script. -/
structure Evaluation where
  work : Work
  result : Completion

/-- `JS_ExecutePendingJob`. -/
structure Job where
  work : Work
  thrown : Option Thrown := none

/-- What the engine does with a module: it is compiled, evaluated, and its promise is awaited. The
compiler runs no bytecode itself. An `Error.prepareStackTrace` that the snapshot left is called for
a syntax error; of what it does, `compile` has the allocations and not the trace events. -/
inductive ModulePlan where
  | compileThrows (compile : List AllocCall) (e : Thrown)
  | evalThrows (compile : List AllocCall) (eval : Work) (e : Thrown)
  | fulfils (compile : List AllocCall) (eval : Work) (jobs : List Job)

/-- A call's result: the code, whether it is the code of a stop, and whether the call ended with an
exception. -/
structure Report where
  rc : Int
  byStop : Bool := false
  threw : Bool := false

/-- `arena_oom_override`. -/
def oomOverride (rc : Int) : Int := if oomHit s.da then arenaRcOom else rc

/-- `arena_run_r` and `arena_request_eval_r` from `JS_Eval` on. -/
def evalScript (e : Evaluation) : Report × State σ :=
  let s := s.work H e.work
  match e.result with
  | .threw e =>
    if oomHit s.da then ({ rc := oomOverride s arenaRcError, threw := true }, s)
    else ({ rc := arenaRcError, threw := true }, s.work H e.diagnose)
  | .value print =>
    let s := s.work H print
    ({ rc := oomOverride s arenaRcOk }, s)

/-- `drain_pending_jobs`. -/
def drainPendingJobs (H : Host σ) (s : State σ) : List Job → Report × State σ
  | [] => ({ rc := 0 }, s)
  | j :: js =>
    let s := s.work H j.work
    match j.thrown with
    | none => drainPendingJobs H s js
    | some e =>
      let s := s.work H e.read
      if isTraceStop e || s.bailArmed then ({ rc := 0, byStop := true, threw := true }, s)
      else ({ rc := -1, threw := true }, s.work H e.diagnose)

/-- A drain with the override that both its callers apply. -/
def drainOverride (jobs : List Job) : Report × State σ :=
  let (r, s) := drainPendingJobs H s jobs
  ({ r with rc := oomOverride s r.rc }, s)

/-- `arena_run_module_r` from the compilation on. -/
def runModule : ModulePlan → Report × State σ
  | .compileThrows compile e =>
    let s := s.work H { hooks := compile }
    if oomHit s.da then ({ rc := oomOverride s arenaRcError, threw := true }, s)
    else ({ rc := arenaRcError, threw := true }, s.work H e.diagnose)
  | .evalThrows compile eval e =>
    let s := ((s.work H { hooks := compile }).work H eval).work H e.read
    if isTraceStop e || s.bailArmed then
      ({ rc := arenaRcOk, byStop := true, threw := true }, s)
    else if oomHit s.da then ({ rc := oomOverride s arenaRcError, threw := true }, s)
    else ({ rc := arenaRcError, threw := true }, s.work H e.diagnose)
  | .fulfils compile eval jobs =>
    drainOverride H ((s.work H { hooks := compile }).work H eval) jobs

/-- A call, with what the engine does in it; `none` is a NULL argument. -/
inductive Call where
  | run (src : Option Evaluation)
  | runModule (args : Option ModulePlan)
  | requestEval (src : Option Evaluation)
  | requestPump (jobs : List Job)

/-- A call of an entry point. -/
def call (c : Call) : Report × State σ :=
  let s := { s with asked := false }
  match c with
  -- `arena_run_r`
  | .run none => ({ rc := arenaRcError }, s)
  | .run (some e) => evalScript H (s.reset H) e
  -- `arena_run_module_r`
  | .runModule none => ({ rc := arenaRcError }, s)
  | .runModule (some p) => runModule H (s.reset H).traceReset p
  -- `arena_request_eval_r`
  | .requestEval none => ({ rc := arenaRcError }, s)
  | .requestEval (some e) =>
    if s.da.cur = none then ({ rc := arenaRcError }, s) else evalScript H s e
  -- `arena_request_pump_r`
  | .requestPump jobs =>
    if s.da.cur = none then ({ rc := arenaRcError }, s) else drainOverride H s jobs

/-! ## What the codes are meant to say -/

/-- The call ended in a stop that the host asked for. -/
def Stopped (r : Report × State σ) : Prop := r.1.threw = true ∧ r.2.asked = true

/-- The code is `ARENA_RC_OOM` exactly when the request has refused an allocation and the call did
not end in a stop that the host asked for, and a stop's `ARENA_RC_OK` has been asked for. -/
structure Classifies (r : Report × State σ) : Prop where
  oom : r.1.rc = arenaRcOom ↔ r.2.refusedNow = true ∧ ¬ Stopped r
  stop : r.1.byStop = true → r.1.rc = arenaRcOk → r.2.asked = true

/-! ## When they say it -/

/-- Printing an exception with nothing refused so far is refused nothing, or is itself stopped. -/
def DiagnosisOk (e : Thrown) : Prop :=
  s.refusedNow = false → (s.work H e.diagnose).refusedNow = true →
    (s.work H e.diagnose).asked = true

/-- A script that throws has not both been refused memory and been asked to stop. -/
def EvalOk (e : Evaluation) : Prop :=
  match e.result with
  | .value _ => True
  | .threw x =>
    ((s.work H e.work).refusedNow = true → (s.work H e.work).asked = false) ∧
      DiagnosisOk H (s.work H e.work) x

/-- The job that throws, if one does: when its exception counts as a stop, either the host asked for
it or an allocation was refused, and not both; otherwise not both until it is printed. -/
def JobsOk (H : Host σ) (s : State σ) : List Job → Prop
  | [] => True
  | j :: js =>
    match j.thrown with
    | none => JobsOk H (s.work H j.work) js
    | some e =>
      let t := (s.work H j.work).work H e.read
      if isTraceStop e || t.bailArmed then t.refusedNow = !t.asked
      else ¬ ((t.work H e.diagnose).refusedNow = true ∧ (t.work H e.diagnose).asked = true)

/-- An exception with the text of a stop is one that the host asked for. -/
def ModuleOk : ModulePlan → Prop
  | .compileThrows compile e => DiagnosisOk H (s.work H { hooks := compile }) e
  | .evalThrows compile eval e =>
    let t := ((s.work H { hooks := compile }).work H eval).work H e.read
    if isTraceStop e then t.asked = true else t.asked = true ∨ DiagnosisOk H t e
  | .fulfils compile eval jobs => JobsOk H ((s.work H { hooks := compile }).work H eval) jobs

/-- The calls whose code says what it is meant to say. -/
def Call.Ok (c : Call) : Prop :=
  let s := { s with asked := false }
  match c with
  | .run none | .runModule none | .requestEval none => s.refusedNow = false
  | .run (some e) => EvalOk H (s.reset H) e
  | .runModule (some p) => ModuleOk H (s.reset H).traceReset p
  | .requestEval (some e) => s.da.cur = none ∨ EvalOk H s e
  | .requestPump jobs => s.da.cur = none ∨ JobsOk H s jobs

/-! ## The record is exact -/

/-- The arenas' records say which of them have refused since their last reset. -/
structure Inv (s : State σ) : Prop where
  ready : Ready s.da
  latch : ∀ id, oomOf s.da id = s.refused id

section
variable {H : Host σ} {s : State σ}

theorem Inv.work (h : Inv s) (w : Work) : Inv (s.work H w) := by
  have hl := runAllocs_latched (H := H) h.ready w.hooks
  exact ⟨hl.ready, fun id => by rw [State.work, hl.oom, h.latch]⟩

/-- A reset clears the record of its arena. -/
theorem reset_record {da : DualArena σ} (h : Ready da) :
    Ready (resetRequest H da) ∧
      ∀ id, oomOf (resetRequest H da) id = (oomOf da id && decide (da.cur ≠ some id)) := by
  cases hc : da.cur with
  | none =>
    have he : resetRequest H da = da := by simp only [resetRequest, hc]
    rw [he]
    exact ⟨h, fun id => by simp⟩
  | some i =>
    cases hf : da.find i with
    | none =>
      have he : resetRequest H da = da := by
        simp [resetRequest, hc, jsRequestArenaReset, hf]
      rw [he]
      refine ⟨h, fun id => ?_⟩
      by_cases hi : i = id
      · subst hi
        simp [oomOf, hf]
      · simp [hi]
    | some ra =>
      obtain ⟨hr, rfl⟩ := DualArena.find_mem hf
      have he : resetRequest H da = da.put (requestArenaReset H da.mode ra da.mem).1
          (requestArenaReset H da.mode ra da.mem).2 := by
        simp [resetRequest, hc, jsRequestArenaReset, hf]
      rw [he]
      have hk : (requestArenaReset H da.mode ra da.mem).1.id = ra.id ∧
          ((requestArenaReset H da.mode ra da.mem).1.mode = .gc →
            (requestArenaReset H da.mode ra da.mem).1.msp.isSome) ∧
          (requestArenaReset H da.mode ra da.mem).1.oom.hit = false := by
        rw [h.mode]
        unfold requestArenaReset requestModeApply reqReleaseExtents oomClear reqBumpReset
        cases ra.chunks <;> cases ra.modeNext <;> simp
      obtain ⟨hid, hmsp, hhit⟩ := hk
      refine ⟨⟨h.mode, DualArena.put_ids h.ids, fun r hm hgc => ?_⟩, fun id => ?_⟩
      · obtain rfl | ⟨hm, -⟩ := (DualArena.mem_put ⟨ra, hr, hid.symm⟩).mp hm
        · exact hmsp hgc
        · exact h.msp r hm hgc
      · unfold oomOf
        rw [DualArena.find_put]
        by_cases hi : ra.id = id
        · subst hi
          simp [hf, hid, hhit]
        · cases hg : da.find id with
          | none => simp
          | some r =>
            obtain ⟨-, rfl⟩ := DualArena.find_mem hg
            have hi' : ¬ r.id = ra.id := fun h => hi h.symm
            simp [hid, hi, hi']

theorem Inv.reset (h : Inv s) : Inv (s.reset H) := by
  obtain ⟨hr, ho⟩ := reset_record (H := H) h.ready
  exact ⟨hr, fun id => by rw [State.reset, ho, h.latch]⟩

theorem Inv.of_da {t : State σ} (h : Inv s) (hda : t.da = s.da) (hr : t.refused = s.refused) :
    Inv t := ⟨hda ▸ h.ready, fun id => by rw [hda, hr]; exact h.latch id⟩

/-- What `arena_oom_override` looks at. -/
theorem Inv.oomHit (h : Inv s) : oomHit s.da = s.refusedNow := by
  unfold ArenaJs.oomHit State.refusedNow DualArena.selected
  cases hc : s.da.cur with
  | none => rfl
  | some id => exact h.latch id

theorem Inv.override (h : Inv s) (rc : Int) :
    oomOverride s rc = if s.refusedNow then arenaRcOom else rc := by
  rw [oomOverride, h.oomHit]

/-- During a call of `arena_run_module_r` the stop is armed exactly when the host has asked. -/
theorem work_armed (h : s.bailArmed = s.asked) (w : Work) :
    (s.work H w).bailArmed = (s.work H w).asked := by
  simp only [State.work, h]

theorem arenaRc_ne : arenaRcError ≠ arenaRcOom ∧ arenaRcOk ≠ arenaRcOom ∧ (-1 : Int) ≠ arenaRcOom ∧
    (0 : Int) ≠ arenaRcOom := by decide

/-! ## The four entry points -/

/-- A call that leaves exact records, and whose code says what it is meant to say exactly when `p`
holds. -/
structure Sound (r : Report × State σ) (p : Prop) : Prop where
  inv : Inv r.2
  iff : Classifies r ↔ p

theorem Sound.congr {r : Report × State σ} {p q : Prop} (h : Sound r p) (hpq : p ↔ q) :
    Sound r q := ⟨h.inv, h.iff.trans hpq⟩

/-- An exception that is not a stop: the OOM record decides, and printing may still be refused. -/
theorem report_sound (h : Inv s) (e : Thrown) :
    Sound (if oomHit s.da then ({ rc := oomOverride s arenaRcError, threw := true }, s)
      else (({ rc := arenaRcError, threw := true } : Report), s.work H e.diagnose))
      ((s.refusedNow = true → s.asked = false) ∧ DiagnosisOk H s e) := by
  refine ⟨by split; exacts [h, h.work _], ?_⟩
  rw [h.override, h.oomHit]
  unfold DiagnosisOk
  cases hr : s.refusedNow with
  | true =>
    simp only [if_true, true_implies]
    constructor
    · intro hc
      have := hc.oom.mp rfl
      simpa [Stopped, hr] using this
    · rintro ⟨ha, -⟩
      exact ⟨by simp [Stopped, hr, ha], nofun⟩
  | false =>
    simp only [Bool.false_eq_true, if_false, false_implies, true_and, true_implies]
    constructor
    · intro hc hd
      by_contra ha
      exact arenaRc_ne.1 (hc.oom.mpr ⟨hd, fun hs => ha hs.2⟩)
    · intro hd
      refine ⟨⟨fun hc => absurd hc arenaRc_ne.1, fun ⟨hr, hs⟩ => ?_⟩, nofun⟩
      exact absurd ⟨rfl, hd hr⟩ hs

theorem evalScript_sound (h : Inv s) (e : Evaluation) :
    Sound (evalScript H s e) (EvalOk H s e) := by
  unfold evalScript EvalOk
  cases e.result with
  | threw x => exact report_sound (h.work e.work) x
  | value print =>
    have hi := (h.work (H := H) e.work).work (H := H) print
    refine ⟨hi, ?_⟩
    simp only [iff_true]
    rw [hi.override]
    refine ⟨?_, nofun⟩
    cases hr : ((s.work H e.work).work H print).refusedNow <;> simp [Stopped, arenaRc_ne]

/-- The override after a stop in a job, or after a job that failed. -/
theorem override_sound (h : Inv s) {r : Report} (hr : r.rc ≠ arenaRcOom) :
    Sound (({ r with rc := oomOverride s r.rc } : Report), s)
      ((s.refusedNow = true → r.threw = true → s.asked = false) ∧
      (s.refusedNow = false → r.byStop = true → r.rc = arenaRcOk → s.asked = true)) := by
  refine ⟨h, ?_⟩
  rw [h.override]
  cases hn : s.refusedNow with
  | true =>
    simp only [if_true, true_implies, Bool.true_eq_false, false_implies, and_true]
    constructor
    · intro hc ht
      have := (hc.oom.mp rfl).2
      simpa [Stopped, ht] using this
    · intro ha
      refine ⟨⟨fun _ => ⟨hn, fun hs => ?_⟩, fun _ => rfl⟩, fun _ hk => by cases hk⟩
      exact absurd hs.2 (by simp [ha hs.1])
  | false =>
    simp only [Bool.false_eq_true, if_false, false_implies, true_and, true_implies]
    constructor
    · exact fun hc => hc.stop
    · intro hs
      refine ⟨⟨fun hc => absurd hc hr, fun hc => ?_⟩, hs⟩
      rw [hn] at hc
      cases hc.1

theorem drainOverride_sound (h : Inv s) (jobs : List Job) :
    Sound (drainOverride H s jobs) (JobsOk H s jobs) := by
  induction jobs generalizing s with
  | nil =>
    refine (override_sound h (r := { rc := 0 }) arenaRc_ne.2.2.2).congr ?_
    simp [JobsOk]
  | cons j js ih =>
    have hw := h.work (H := H) j.work
    unfold drainOverride drainPendingJobs JobsOk
    cases j.thrown with
    | none => exact ih hw
    | some e =>
      have hr := hw.work (H := H) e.read
      simp only
      by_cases hs : (isTraceStop e || ((s.work H j.work).work H e.read).bailArmed) = true
      · simp only [if_pos hs]
        refine (override_sound hr (r := { rc := 0, byStop := true, threw := true })
          arenaRc_ne.2.2.2).congr ?_
        cases ((s.work H j.work).work H e.read).refusedNow <;>
          cases ((s.work H j.work).work H e.read).asked <;> simp [arenaRcOk]
      · simp only [if_neg hs]
        refine (override_sound (hr.work e.diagnose) (r := { rc := -1, threw := true })
          arenaRc_ne.2.2.1).congr ?_
        cases (((s.work H j.work).work H e.read).work H e.diagnose).refusedNow <;> simp

theorem runModule_sound (h : Inv s) (ha : s.bailArmed = s.asked) (hn : s.asked = false)
    (p : ModulePlan) : Sound (runModule H s p) (ModuleOk H s p) := by
  cases p with
  | compileThrows compile e =>
    have hc : (s.work H { hooks := compile }).asked = false := by simp [State.work, hn, Work.stops]
    refine (report_sound (h.work _) e).congr ?_
    simp [ModuleOk, hc]
  | evalThrows compile eval e =>
    have hi := ((h.work (H := H) { hooks := compile }).work (H := H) eval).work (H := H) e.read
    have harm := work_armed (H := H) (work_armed (H := H)
      (work_armed (H := H) ha { hooks := compile }) eval) e.read
    unfold runModule ModuleOk
    simp only
    generalize hs : (((s.work H { hooks := compile }).work H eval).work H e.read) = t at hi harm ⊢
    cases hstop : isTraceStop e with
    | true =>
      simp only [Bool.true_or, if_true]
      exact ⟨hi, fun hc => hc.stop rfl rfl,
        fun ht => ⟨by simp [Stopped, ht, arenaRc_ne], fun _ _ => ht⟩⟩
    | false =>
      cases hb : t.asked with
      | true =>
        simp only [Bool.false_or, harm, hb, if_true, Bool.false_eq_true, if_false, true_or]
        exact ⟨hi, iff_true_intro ⟨by simp [Stopped, hb, arenaRc_ne], fun _ _ => hb⟩⟩
      | false =>
        simp only [Bool.false_or, harm, hb, Bool.false_eq_true, if_false, false_or]
        refine (report_sound hi e).congr ?_
        simp [hb]
  | fulfils compile eval jobs => exact drainOverride_sound ((h.work _).work eval) jobs

/-- The code of a refused call says what it is meant to say when nothing had been refused before. -/
theorem error_sound (h : Inv s) :
    Sound (({ rc := arenaRcError } : Report), s) (s.refusedNow = false) := by
  refine ⟨h, fun hc => ?_, fun hr => ?_⟩
  · by_contra hr
    exact arenaRc_ne.1 (hc.oom.mpr ⟨by simpa using hr, fun hs => nomatch hs.1⟩)
  · exact ⟨⟨fun hc => absurd hc arenaRc_ne.1, fun hc => by rw [hr] at hc; cases hc.1⟩, nofun⟩

/-- A call that refuses unless a request is entered. -/
theorem Sound.entered {r : Report × State σ} {p : Prop} (h : Inv s) (hr : Sound r p) :
    Sound (if s.da.cur = none then ({ rc := arenaRcError }, s) else r) (s.da.cur = none ∨ p) := by
  by_cases hc : s.da.cur = none
  · simp only [hc, if_true, true_or]
    exact (error_sound h).congr (iff_true_intro (by simp [State.refusedNow, hc]))
  · simpa only [hc, if_false, false_or] using hr

/-- A call in a state whose records are exact. -/
theorem Inv.call (h : Inv s) (c : Call) : Sound (call H s c) (c.Ok H s) := by
  have h0 : Inv { s with asked := false } := h.of_da rfl rfl
  cases c with
  | run src =>
    cases src with
    | none => exact error_sound h0
    | some e => exact evalScript_sound h0.reset e
  | runModule args =>
    cases args with
    | none => exact error_sound h0
    | some p =>
      have hr : Inv (({ s with asked := false } : State σ).reset H).traceReset :=
        h0.reset.of_da rfl rfl
      exact runModule_sound hr rfl rfl p
  | requestEval src =>
    cases src with
    | none => exact error_sound h0
    | some e => exact .entered h0 (evalScript_sound h0 e)
  | requestPump jobs => exact .entered h0 (drainOverride_sound h0 jobs)

end

/-! ## Runs -/

/-- What a host does with a reactor: calls, engine work of its own between them, resets, and the
requests. -/
inductive Op where
  | call (c : Call)
  | work (w : Work)
  | reset
  | select (id : Option ReqId)
  | newRequest (id : ReqId) (cap : Nat) (ds : List Decision)
  | freeRequest (id : ReqId)
  | setMode (mode : ReqMode)

/-- One operation. -/
def step : Op → State σ
  | .call c => (call H s c).2
  | .work w => s.work H w
  | .reset => s.reset H
  | .select id => { s with da := selectRequest s.da id }
  | .newRequest id cap ds =>
    { s with
      da := (jsRequestArenaNew H s.da id cap ds).2
      refused := update s.refused id false }
  | .freeRequest id =>
    { s with da := jsRequestArenaFree s.da id, refused := update s.refused id false }
  | .setMode mode => { s with da := setRequestMode s.da mode }

/-- A new request has a name of its own. -/
def Op.Ok : Op → Prop
  | .newRequest id _ _ => ∀ ra ∈ s.da.requests, ra.id ≠ id
  | _ => True

/-- The states of a reactor from its freeze on. -/
inductive Reach (H : Host σ) : State σ → Prop
  | init {da : DualArena σ} (ids : da.requests.Pairwise fun r s => r.id ≠ s.id)
      (clear : ∀ ra ∈ da.requests, ra.oom.hit = false) :
      Reach H ⟨freeze H da, false, fun _ => false, false⟩
  | step {s : State σ} {o : Op} (h : Reach H s) (ok : o.Ok s) : Reach H (step H s o)

section
variable {H : Host σ} {s : State σ}

/-- `request_mode_apply` on every arena: names and records stay, and GC mode has an mspace. -/
theorem applyModes_record (ras : List (RequestArena σ)) (m : Mem) :
    (applyModes H ras m).1.map RequestArena.id = ras.map RequestArena.id ∧
      ∀ ra' ∈ (applyModes H ras m).1, (∃ ra ∈ ras, ra'.oom = ra.oom) ∧
        (ra'.mode = .gc → ra'.msp.isSome) := by
  induction ras generalizing m with
  | nil => exact ⟨rfl, nofun⟩
  | cons ra ras ih =>
    have hk : (requestModeApply H ra m).1.id = ra.id ∧ (requestModeApply H ra m).1.oom = ra.oom ∧
        ((requestModeApply H ra m).1.mode = .gc → (requestModeApply H ra m).1.msp.isSome) := by
      unfold requestModeApply reqBumpReset
      cases ra.modeNext <;> simp
    obtain ⟨hids, hras⟩ := ih (requestModeApply H ra m).2
    refine ⟨by simp only [applyModes, List.map_cons, hk.1, hids], fun ra' hm => ?_⟩
    obtain rfl | hm := List.mem_cons.mp hm
    · exact ⟨⟨ra, List.mem_cons_self, hk.2.1⟩, hk.2.2⟩
    · obtain ⟨⟨r, hr, ho⟩, hg⟩ := hras ra' hm
      exact ⟨⟨r, List.mem_cons_of_mem _ hr, ho⟩, hg⟩

theorem Inv.init {da : DualArena σ} (ids : da.requests.Pairwise fun r s => r.id ≠ s.id)
    (clear : ∀ ra ∈ da.requests, ra.oom.hit = false) :
    Inv ⟨freeze H da, false, fun _ => false, false⟩ := by
  obtain ⟨hids, hras⟩ := applyModes_record (H := H) da.requests da.mem
  refine ⟨⟨rfl, ?_, fun ra hr hgc => (hras ra hr).2 hgc⟩, fun id => ?_⟩
  · show (applyModes H da.requests da.mem).1.Pairwise _
    rw [← List.pairwise_map (f := RequestArena.id) (R := (· ≠ ·)), hids, List.pairwise_map]
    exact ids
  · unfold oomOf
    cases hf : (freeze H da).find id with
    | none => rfl
    | some ra =>
      obtain ⟨⟨r, hr, ho⟩, -⟩ := hras ra (DualArena.find_mem hf).1
      simp [ho, clear r hr]

/-- An operation keeps the records exact. -/
theorem Inv.step (h : Inv s) {o : Op} (ok : o.Ok s) : Inv (step H s o) := by
  cases o with
  | call c => exact (h.call c).inv
  | work w => exact h.work w
  | reset => exact h.reset
  | select id => exact ⟨⟨h.ready.mode, h.ready.ids, h.ready.msp⟩, h.latch⟩
  | newRequest id cap ds =>
    have hfresh : oomOf s.da id = false := by
      have hf : s.da.find id = none := by
        simp only [DualArena.find, List.find?_eq_none, decide_eq_true_eq]
        exact ok
      simp [oomOf, hf]
    simp only [Results.step, jsRequestArenaNew]
    cases hn : requestArenaNew H s.da.mode id s.da.mem cap ds with
    | none =>
      refine ⟨h.ready, fun x => ?_⟩
      by_cases hx : x = id
      · subst hx
        simpa using hfresh
      · simpa [update_of_ne hx] using h.latch x
    | some r =>
      obtain ⟨ra, m⟩ := r
      rw [h.ready.mode] at hn
      obtain ⟨rfl, -, hoom, hmsp⟩ := requestArenaNew_record hn
      refine ⟨⟨h.ready.mode, List.pairwise_cons.mpr ⟨fun r hr => (ok r hr).symm, h.ready.ids⟩,
        fun r hr hgc => ?_⟩, fun x => ?_⟩
      · obtain rfl | hr := List.mem_cons.mp hr
        · exact hmsp
        · exact h.ready.msp r hr hgc
      · by_cases hx : x = ra.id
        · subst hx
          simp [oomOf, DualArena.find, hoom]
        · have hx' : ¬ ra.id = x := fun he => hx he.symm
          have hl := h.latch x
          simpa [oomOf, DualArena.find, hx', update_of_ne hx] using hl
  | freeRequest id =>
    have hda : Ready (jsRequestArenaFree s.da id) ∧ (jsRequestArenaFree s.da id).requests =
        s.da.requests.filter fun ra => ra.id ≠ id := by
      unfold jsRequestArenaFree
      simp only
      split <;> exact ⟨⟨h.ready.mode, h.ready.ids.sublist List.filter_sublist,
        fun r hr => h.ready.msp r (List.mem_of_mem_filter hr)⟩, rfl⟩
    refine ⟨hda.1, fun x => ?_⟩
    simp only [Results.step, oomOf, DualArena.find, hda.2, List.find?_filter]
    by_cases hx : x = id
    · subst hx
      have hn : s.da.requests.find? (fun a => decide (decide (a.id ≠ x) = true ∧
          decide (a.id = x) = true)) = none := by
        simp
      rw [hn, update_self]
    · have hn : (fun a : RequestArena σ => decide (decide (a.id ≠ id) = true ∧
          decide (a.id = x) = true)) = fun a => decide (a.id = x) := by
        funext a
        by_cases ha : a.id = x <;> simp [ha, hx]
      rw [hn, update_of_ne hx]
      exact h.latch x
  | setMode mode =>
    simp only [Results.step, setRequestMode]
    cases hs : s.da.selected with
    | none => exact h
    | some ra =>
      have hl : Latched s.da false (s.da.put { ra with modeNext := mode } s.da.mem) :=
        .put h.ready hs rfl rfl (fun hm => hm) (Bool.or_false _).symm
      exact ⟨hl.ready, fun id => by
        have ho := hl.oom id
        simp only [Bool.and_false, Bool.or_false] at ho
        exact ho.trans (h.latch id)⟩

/-- The records are exact in every state of a reactor. -/
theorem Reach.inv (h : Reach H s) : Inv s := by
  induction h with
  | init ids clear => exact .init ids clear
  | step _ ok ih => exact ih.step ok

end

end ArenaJs.Results
