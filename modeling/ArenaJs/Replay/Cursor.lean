import ArenaJs.Replay.Bindings

/-!
# Many replays in one `Module`

`CursorEngine` runs replays one after another in one long-lived `Module`: `scanIndex`, the two
passes of `materialise`, and `inspectAt` each install the replay (`_installReplay`) and run its
entry module once, with a trace callback that takes snapshots and asks for a stop at fixed events.

An execution is what the engine does between the host's replies, a function of them (`Execution`).
`Dispatch.isolated` is the outcome of a run that sees only the recording and sources of its own
replay and its own writes. A dispatch has that outcome when it starts from a `Module` whose index is
not built, or built from the same tapes, and whose overlay is empty (`dispatches_isolated`):
`_installReplay` resets neither.
-/

namespace ArenaJs.Replay

/-- `TRACE_SCAN` and `TRACE_DRILL`. -/
inductive TraceMode where
  | scan
  | drill

/-- The kinds of trace events. -/
inductive EventKind where
  | name
  | funcEnter
  | funcExit
  | line
  | throw
  deriving DecidableEq

/-- A trace event: its kind and the record at its pointer. -/
structure TraceEvent where
  kind : EventKind
  record : List Nat
  deriving DecidableEq

/-- What the trace callback does at an event: whether it takes a snapshot, and what it returns. -/
structure TraceReply where
  snapshot : Bool := false
  result : Nat := 0

/-- `arena_run_module` on an entry module, as the host sees it. -/
inductive Execution where
  | done
  | emit (e : TraceEvent) (next : TraceReply → Execution)
  | ask (q : Query) (next : Answer → Execution)

/-- A replay: the recording, the sources and the entry module under each trace mode. -/
structure ReplayObject where
  tapes : Tapes
  moduleSources : Option ModuleSources := none
  entry : TraceMode → Execution

/-- The runs that `CursorEngine` makes of a replay. -/
inductive Pass where
  | scanIndex
  | materialisePass1
  | captureVarSnapshots (step totalEvents : Nat)
  | inspectAt (lo hi : Nat)

namespace Pass

/-- The trace mode that a pass sets. -/
def mode : Pass → TraceMode
  | .scanIndex => .scan
  | _ => .drill

/-- The `host_trace` callback of a pass at its event number `i`, names not counted. -/
def hostTrace (i : Nat) : Pass → TraceReply
  | .scanIndex | .materialisePass1 => {}
  | .captureVarSnapshots step total =>
    { snapshot := i % step = 0, result := if 0 < total ∧ total - 1 ≤ i then 1 else 0 }
  | .inspectAt lo hi => { snapshot := lo ≤ i ∧ i ≤ hi, result := if hi ≤ i then 1 else 0 }

end Pass

/-- What a run shows: its events, and the answers its calls were given. -/
structure Outcome where
  events : List TraceEvent := []
  answers : List (Query × Answer) := []
  deriving DecidableEq

/-- An event in front of an outcome. -/
def Outcome.event (o : Outcome) (e : TraceEvent) : Outcome := { o with events := e :: o.events }

/-- An answered call in front of an outcome. -/
def Outcome.answered (o : Outcome) (q : Query) (a : Answer) : Outcome :=
  { o with answers := (q, a) :: o.answers }

/-- `_installReplay`. -/
def installReplay (r : ReplayObject) (M : Module) : Module :=
  { M with
    tapes := some r.tapes
    moduleSources := some (r.moduleSources.getD fun _ => none) }

/-- The reply to an event, and the number of the event after it. -/
def TraceEvent.reply (e : TraceEvent) (p : Pass) (i : Nat) : TraceReply × Nat :=
  if e.kind = .name then ({}, i) else (p.hostTrace i, i + 1)

/-- A run from event number `i` on. -/
def Execution.run (p : Pass) : Execution → Nat → Module → Outcome × Module
  | .done, _, M => ({}, M)
  | .emit e next, i, M =>
    let r := e.reply p i
    let o := (next r.1).run p r.2 M
    (o.1.event e, o.2)
  | .ask q next, i, M =>
    let a := M.ask q
    let o := (next a.1).run p i a.2
    (o.1.answered q a.1, o.2)

/-- One run of a replay. -/
structure Dispatch where
  replay : ReplayObject
  pass : Pass

/-- Install the replay and run its entry module. -/
def dispatch (M : Module) (d : Dispatch) : Outcome × Module :=
  (d.replay.entry d.pass.mode).run d.pass 0 (installReplay d.replay M)

/-- The outcomes of runs made one after another. -/
def dispatches (M : Module) : List Dispatch → List Outcome
  | [] => []
  | d :: ds => (dispatch M d).1 :: dispatches (dispatch M d).2 ds

/-! ## Isolation -/

/-- A run whose calls are answered from a view of its own. -/
def Execution.outcome (p : Pass) : Execution → Nat → View → Outcome
  | .done, _, _ => {}
  | .emit e next, i, v => ((next (e.reply p i).1).outcome p (e.reply p i).2 v).event e
  | .ask q next, i, v => ((next (v.answer q)).outcome p i (v.write q)).answered q (v.answer q)

/-- What a run of the replay may see at its start: the replay's sources and recording. -/
def ReplayObject.view (r : ReplayObject) : View where
  sources := some (r.moduleSources.getD fun _ => none)
  index := indexInputs (some r.tapes)
  overlay := .empty

/-- The outcome of a run that sees its own replay and its own writes. -/
def Dispatch.isolated (d : Dispatch) : Outcome :=
  (d.replay.entry d.pass.mode).outcome d.pass 0 d.replay.view

/-- The `Module` has no index or the one of the replay's tapes, and no entry in its overlay. -/
structure CleanFor (r : ReplayObject) (M : Module) : Prop where
  index : M.inputIndex = none ∨ M.inputIndex = some (indexInputs (some r.tapes))
  overlay : M.kvOverlay = none ∨ M.kvOverlay = some .empty

/-- Every run starts from a `Module` that is clean for its replay. -/
def StartsClean (M : Module) : List Dispatch → Prop
  | [] => True
  | d :: ds => CleanFor d.replay M ∧ StartsClean (dispatch M d).2 ds

/-- A run's outcome is a function of the view it starts from. -/
theorem Execution.run_fst (p : Pass) (x : Execution) (i : Nat) (M : Module) :
    (x.run p i M).1 = x.outcome p i M.view := by
  induction x generalizing i M with
  | done => rfl
  | emit e next ih =>
    simp [Execution.run, Execution.outcome, ih]
  | ask q next ih =>
    obtain ⟨ha, hv⟩ := M.ask_spec q
    simp [Execution.run, Execution.outcome, ih, ha, hv]

/-- After the installation a clean `Module` shows the replay and nothing else. -/
theorem CleanFor.view {r : ReplayObject} {M : Module} (h : CleanFor r M) :
    (installReplay r M).view = r.view := by
  have hi : (installReplay r M).index = indexInputs (some r.tapes) := by
    obtain hi | hi := h.index <;> simp [Module.index, installReplay, hi]
  have ho : (installReplay r M).overlay = .empty := by
    obtain ho | ho := h.overlay <;> simp [Module.overlay, installReplay, ho]
  rw [Module.view, hi, ho]
  rfl

/-- One run from a clean `Module` is isolated. -/
theorem CleanFor.dispatch {M : Module} {d : Dispatch} (h : CleanFor d.replay M) :
    (dispatch M d).1 = d.isolated := by
  rw [Replay.dispatch, Execution.run_fst, h.view]
  rfl

/-- Runs that each start from a clean `Module` have the outcomes their replays alone determine. -/
theorem dispatches_isolated (M : Module) (ds : List Dispatch) (h : StartsClean M ds) :
    dispatches M ds = ds.map Dispatch.isolated := by
  induction ds generalizing M with
  | nil => rfl
  | cons d ds ih =>
    rw [dispatches, List.map_cons, h.1.dispatch, ih _ h.2]

/-- Read the key `k`, show what it holds, and write it. -/
def readThenWrite : Execution :=
  .ask (.get [107]) fun a =>
    .emit ⟨.funcEnter, match a with | .string s => s | _ => []⟩ fun _ =>
      .ask (.set [107] [50]) fun _ => .done

/-- Read the key `k` and show what it holds. -/
def readOnly : Execution :=
  .ask (.get [107]) fun a =>
    .emit ⟨.funcEnter, match a with | .string s => s | _ => []⟩ fun _ => .done

/-- A recording of one get of the key `k`. -/
def oneGet (v : JSString) : Tapes :=
  { kv := some [{ op := 0, key := [107], outcome := 0, value := some v }] }

/-- The two passes over a replay that writes nothing are isolated. -/
theorem dispatches_isolated_readOnly :
    let r : ReplayObject := { tapes := oneGet [49], entry := fun _ => readOnly }
    dispatches {} [⟨r, .scanIndex⟩, ⟨r, .materialisePass1⟩] =
      [⟨r, .scanIndex⟩, ⟨r, .materialisePass1⟩].map Dispatch.isolated :=
  dispatches_isolated {} _
    ⟨⟨.inl rfl, .inl rfl⟩, ⟨.inr rfl, .inr rfl⟩, trivial⟩

/-- A second run of one replay reads what the first wrote, and a run of another replay is answered
from the recording of the first. -/
theorem dispatch_sees_earlier_runs :
    (let r : ReplayObject := { tapes := oneGet [49], entry := fun _ => readThenWrite }
     (dispatches {} [⟨r, .scanIndex⟩, ⟨r, .materialisePass1⟩]).map Outcome.events =
        [[⟨.funcEnter, [49]⟩], [⟨.funcEnter, [50]⟩]] ∧
     [Dispatch.mk r .scanIndex, ⟨r, .materialisePass1⟩].map (·.isolated.events) =
        [[⟨.funcEnter, [49]⟩], [⟨.funcEnter, [49]⟩]]) ∧
    (let r : ReplayObject := { tapes := oneGet [49], entry := fun _ => readOnly }
     let r' : ReplayObject := { tapes := oneGet [51], entry := fun _ => readOnly }
     (dispatches {} [⟨r, .scanIndex⟩, ⟨r', .scanIndex⟩]).map Outcome.events =
        [[⟨.funcEnter, [49]⟩], [⟨.funcEnter, [49]⟩]] ∧
     [Dispatch.mk r .scanIndex, ⟨r', .scanIndex⟩].map (·.isolated.events) =
        [[⟨.funcEnter, [49]⟩], [⟨.funcEnter, [51]⟩]]) := by
  decide +kernel

end ArenaJs.Replay
