import Mathlib.Data.List.TakeWhile
import Mathlib.Tactic.Ring

/-!
# The trace emitter

`qjs-arena-trace.c` delivers events to the host from four hooks of the interpreter. An event names
functions and files by atom, and the emitter announces the text of an atom by a NAME event the first
time it uses the atom, with a bounded table of the atoms it has announced.

A hook calls the host up to three times, and between its calls user code may run: the conversion of
a thrown value calls its `toString`, and a host that takes a snapshot from its callback calls
`toJSON` methods. So a hook is not one step here: `Hook.start` is what it does before its first
call, `Hook.todo` lists its calls, and `Hook.finish` is what it does after the last.
-/

namespace ArenaJs.Trace

variable (st : TraceState) (atom : Nat)

/-! ## State and events -/

/-- `ARENA_TRACE_NAME_CAP`. -/
def nameCap : Nat := 1024

/-- `ARENA_TRACE_SCRATCH_CAP`. -/
def scratchCap : Nat := 4096

/-- `ArenaTraceState`, without the pointers that `arena_trace_snapshot_here` reads. `nameTable` are
the first `name_count` entries of `name_table`. -/
structure TraceState where
  mode : Int
  nameTable : List Nat
  lastLineEmitted : Int
  lastFileAtom : Nat
  bailArmed : Bool
  deriving DecidableEq, Repr

/-- `ARENA_TRACE_OFF`. -/
def modeOff : Int := 0

/-- `ARENA_TRACE_DRILL`. -/
def modeDrill : Int := 2

/-- `arena_trace_state_init`. -/
def TraceState.init : TraceState := ⟨modeOff, [], -1, 0, false⟩

/-- `arena_trace_reset`. -/
def arenaTraceReset : TraceState :=
  { st with nameTable := [], lastLineEmitted := -1, lastFileAtom := 0, bailArmed := false }

/-- What the host callback is called with. Texts are bytes. -/
inductive Event where
  | name (atom : Nat) (text : List Nat)
  | funcEnter (func file line : Nat)
  | funcExit
  | line (file line : Nat)
  | throw (file line : Nat) (msg : List Nat)
  deriving DecidableEq, Repr

/-- The atoms an event refers to. -/
def Event.ids : Event → List Nat
  | .funcEnter func file _ => [func, file]
  | .line file _ | .throw file _ _ => [file]
  | .name .. | .funcExit => []

/-- A NAME event. -/
def Event.isName : Event → Bool
  | .name .. => true
  | _ => false

/-! ## The table of announced names -/

/-- `name_seen`. -/
def nameSeen : Bool := st.nameTable.contains atom

/-- `name_remember`: a full table is left as it is. -/
def nameRemember : TraceState :=
  if nameCap ≤ st.nameTable.length then st else { st with nameTable := st.nameTable ++ [atom] }

/-- The bytes of a C string that a NAME event has room for. -/
def clipName (bytes : List Nat) : List Nat :=
  let text := bytes.takeWhile (· ≠ 0)
  let slen := if 0xffff < text.length then 0xffff else text.length
  text.take (if scratchCap < slen + 6 then scratchCap - 6 else slen)

/-- `emit_name`, given what `JS_AtomToCString` returns: the table, and the event if there is one. -/
def emitName (cstr : Option (List Nat)) : TraceState × Option Event :=
  (nameRemember st atom, cstr.map fun s => .name atom (clipName s))

/-- `ensure_name`. -/
def ensureName (cstr : Option (List Nat)) :
    TraceState × Option Event :=
  if nameSeen st atom then (st, none) else emitName st atom cstr

/-- A text that is announced in full. -/
def Announceable (bytes : List Nat) : Prop := 0 ∉ bytes ∧ bytes.length ≤ scratchCap - 6

instance (bytes : List Nat) : Decidable (Announceable bytes) :=
  inferInstanceAs (Decidable (_ ∧ _))

theorem clipName_eq_self {bytes : List Nat} (h : Announceable bytes) : clipName bytes = bytes := by
  obtain ⟨h0, hlen⟩ := h
  have htake : bytes.takeWhile (· ≠ 0) = bytes := by
    refine List.takeWhile_eq_self_iff.2 fun c hc => ?_
    simp only [ne_eq, decide_eq_true_eq]
    rintro rfl
    exact h0 hc
  unfold scratchCap at hlen
  have hshort : ¬ 0xffff < bytes.length := by omega
  have hroom : ¬ 4096 < bytes.length + 6 := by omega
  rw [clipName, htake, if_neg hshort, scratchCap, if_neg hroom, List.take_length]

/-! ## Hooks -/

/-- A call of a hook, with the atoms and the line it reads off the bytecode; the line is -1 where
the bytecode has none. The message of a throw is the thrown value as a string, and empty if there is
none. -/
inductive Hook where
  | funcEnter (func file : Nat) (line : Int)
  | funcExit
  | checkLine (file : Nat) (line : Int)
  | opThrow (file : Nat) (line : Int) (msg : List Nat)
  deriving DecidableEq, Repr

/-- A step of a hook: announce an atom if it was not announced, or deliver the hook's event. -/
inductive Micro where
  | ensure (atom : Nat)
  | deliver (e : Event)
  deriving DecidableEq, Repr

/-- The steps of a hook. -/
def Hook.todo : Hook → List Micro
  | .funcEnter func file line =>
    [.ensure func, .ensure file, .deliver (.funcEnter func file line.toNat)]
  | .funcExit => [.deliver .funcExit]
  | .checkLine file line => [.ensure file, .deliver (.line file line.toNat)]
  | .opThrow file line msg => [.ensure file, .deliver (.throw file line.toNat msg)]

/-- What a hook does first; `none` if that is to return. -/
def Hook.start : Hook → Option TraceState
  | .checkLine file line =>
    if st.mode < modeDrill ∨ st.bailArmed then none
    else if line < 0 then none
    else if line = st.lastLineEmitted ∧ file = st.lastFileAtom then none
    else some { st with lastLineEmitted := line, lastFileAtom := file }
  | _ => if st.mode = modeOff ∨ st.bailArmed then none else some st

/-- What a hook does last, given whether one of its calls of the host asked to stop. -/
def Hook.finish (h : Hook) (stop : Bool) : TraceState :=
  let st := match h with
    | .funcEnter .. | .funcExit => { st with lastLineEmitted := -1, lastFileAtom := 0 }
    | _ => st
  -- `handle_stop_code`, and in it `raise_stop`
  if stop then { st with bailArmed := true } else st

@[simp] theorem Hook.finish_nameTable {st : TraceState} {h : Hook} {stop : Bool} :
    (h.finish st stop).nameTable = st.nameTable := by
  cases h <;> cases stop <;> rfl

/-- A hook goes on when tracing is on and no stop is armed; it may note the line. -/
theorem Hook.start_some {st st' : TraceState} {h : Hook} (hs : h.start st = some st') :
    st.mode ≠ modeOff ∧ st.bailArmed = false ∧
      ∃ line file, st' = { st with lastLineEmitted := line, lastFileAtom := file } := by
  cases h with
  | checkLine file line =>
    simp only [Hook.start] at hs
    split at hs
    · cases hs
    next hm =>
    rw [not_or, Bool.not_eq_true] at hm
    split at hs
    · cases hs
    split at hs <;> cases hs
    exact ⟨fun h => hm.1 (h ▸ by decide), hm.2, _, _, rfl⟩
  | funcEnter | funcExit | opThrow =>
    simp only [Hook.start] at hs
    split at hs <;> cases hs
    next hm =>
    rw [not_or, Bool.not_eq_true] at hm
    exact ⟨hm.1, hm.2, _, _, rfl⟩

/-! ## Announced before used -/

/-- Every event still to come refers to atoms of `known`, or to atoms that are looked up before
it. -/
def Announced (known : List Nat) : List Micro → Prop
  | [] => True
  | .ensure a :: todo => Announced (known ++ [a]) todo
  | .deliver e :: todo => (∀ i ∈ e.ids, i ∈ known) ∧ e.isName = false ∧ Announced known todo

/-- The steps of a hook come in this order. -/
theorem Hook.announced (h : Hook) (known : List Nat) : Announced known h.todo := by
  cases h <;> simp [Hook.todo, Announced, Event.ids, Event.isName]

theorem Announced.mono {known known' : List Nat} {todo : List Micro} (h : Announced known todo)
    (hsub : known ⊆ known') : Announced known' todo := by
  induction todo generalizing known known' with
  | nil => trivial
  | cons m todo ih =>
    cases m with
    | ensure a => exact ih h (List.append_subset.2 ⟨fun i hi => List.mem_append_left _ (hsub hi),
        List.subset_append_right known' [a]⟩)
    | deliver e => exact ⟨fun i hi => hsub (h.1 i hi), h.2.1, ih h.2.2 hsub⟩

end ArenaJs.Trace
