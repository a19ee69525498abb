import ArenaJs.Lib.Probe
import ArenaJs.Request.Lifecycle

/-!
# The hazard scan before a freeze

`JS_FreezeRuntime` refuses a snapshot that holds state no request can have for itself: promises that
are pending or hold reactions, live generators and `FinalizationRegistry` objects.
`JS_ScanSnapshotHazards` looks for them on the object list; when it finds one it walks the object
graph from the globals to report where each one is reachable.

The count the scan returns is the number of objects `js_snapshot_hazard` objects to
(`scanSnapshotHazards_eq`), except that it is `-1` when the scan cannot run. Every hazard is among
them (`HeapObject.Hazardous.snapshotHazard`), and so is a generator that has completed. The freeze
takes every result that is not positive for a clean snapshot, so it refuses every snapshot with a
hazard exactly when the scan can run (`freeze_refuses_iff`).

`none` stands for a call that does not return.
-/

namespace ArenaJs.Freeze

/-! ## The heap before the freeze -/

/-- `JSPromiseStateEnum` of a promise. -/
inductive PromiseState where
  | pending
  | fulfilled
  | rejected
deriving DecidableEq, Repr

/-- What the scan reads of `JSPromiseData`. -/
structure JSPromiseData where
  state : PromiseState
  fulfillReactions : List Nat
  rejectReactions : List Nat
deriving DecidableEq, Repr

/-- `JSGeneratorStateEnum`. -/
inductive GeneratorState where
  | suspendedStart
  | suspendedYield
  | suspendedYieldStar
  | executing
  | completed
deriving DecidableEq, Repr

/-- `JSAsyncGeneratorStateEnum`. -/
inductive AsyncGeneratorState where
  | suspendedStart
  | suspendedYield
  | suspendedYieldStar
  | executing
  | awaitingReturn
  | completed
deriving DecidableEq, Repr

/-- The classes the scan tells apart, with the part of the union it reads; of a generator's data it
reads only whether it is there. -/
inductive ObjClass where
  | promise (data : Option JSPromiseData)
  | generator (state : Option GeneratorState)
  | asyncGenerator (state : Option AsyncGeneratorState)
  | finalizationRegistry
  | array
  | arguments
  | other (classId : Nat)
deriving DecidableEq, Repr

/-- A property as the walk sees it: its atom, whether it is `JS_PROP_NORMAL`, and the object its
value is, if it is one. -/
structure HeapProp where
  atom : Option Nat
  normal : Bool
  object : Option Nat
deriving DecidableEq, Repr

/-- A `JSObject` as the walk sees it. -/
structure HeapObject where
  cls : ObjClass
  shape : Option (List HeapProp)
  fastArray : Bool
  elements : List (Option Nat)
deriving DecidableEq, Repr

/-- A `JSGCObjectHeader`. -/
inductive GCObject where
  | jsObject (p : Nat)
  | other (p : Nat)
deriving DecidableEq, Repr

/-- A `JSContext`: the objects `global_obj` and `global_var_obj` are. -/
structure JSContext where
  globalObj : Option Nat
  globalVarObj : Option Nat
deriving DecidableEq, Repr

/-- The heap before the freeze. Objects are named by their addresses; `atomToCString` is `none`
where the conversion cannot be allocated. -/
structure Heap where
  gcObjList : List GCObject
  objs : Nat → HeapObject
  contextList : List JSContext
  atomToCString : Nat → Option String

/-! ## Hazards -/

/-- `JSSnapshotHazard`, other than `HAZ_NONE`. -/
inductive SnapshotHazard where
  | pendingPromise
  | generator
  | asyncGenerator
  | finalizationRegistry
deriving DecidableEq, Repr

/-- `js_snapshot_hazard`; `none` is `HAZ_NONE`. -/
def snapshotHazard (p : HeapObject) : Option SnapshotHazard :=
  match p.cls with
  | .promise none => none
  | .promise (some s) =>
    -- settled and nothing queued: effectively immutable
    if s.state ≠ .pending ∧ s.fulfillReactions = [] ∧ s.rejectReactions = [] then none
    else some .pendingPromise
  | .generator data => if data.isSome then some .generator else none
  | .asyncGenerator data => if data.isSome then some .asyncGenerator else none
  | .finalizationRegistry => some .finalizationRegistry
  | _ => none

/-- What a snapshot must not hold: a promise that is pending or holds reactions, a generator or
async generator that can still run, a `FinalizationRegistry`. -/
def HeapObject.Hazardous (p : HeapObject) : Prop :=
  match p.cls with
  | .promise data =>
    ∃ s ∈ data, s.state = .pending ∨ s.fulfillReactions ≠ [] ∨ s.rejectReactions ≠ []
  | .generator state => ∃ s ∈ state, s ≠ .completed
  | .asyncGenerator state => ∃ s ∈ state, s ≠ .completed
  | .finalizationRegistry => True
  | _ => False

/-- `js_snapshot_hazard` misses no hazard. -/
theorem HeapObject.Hazardous.snapshotHazard {p : HeapObject} (h : p.Hazardous) :
    (snapshotHazard p).isSome := by
  unfold Hazardous at h
  unfold Freeze.snapshotHazard
  split at h
  · next data hcls =>
    obtain ⟨s, rfl, hs⟩ := h
    have hset : ¬ (s.state ≠ .pending ∧ s.fulfillReactions = [] ∧ s.rejectReactions = []) := by
      tauto
    simp only [hcls, if_neg hset, Option.isSome_some]
  · next state hcls =>
    obtain ⟨s, rfl, -⟩ := h
    simp [hcls]
  · next state hcls =>
    obtain ⟨s, rfl, -⟩ := h
    simp [hcls]
  · next hcls => simp [hcls]
  · cases h

/-- The objects of the list, in its order. -/
def Heap.objects (h : Heap) : List Nat :=
  h.gcObjList.filterMap fun
    | .jsObject p => some p
    | .other _ => none

/-! ## The walk from the globals -/

/-- `JSHazNode`: the object, the index of its parent and the property or element that led to it. -/
structure HazNode where
  obj : Nat
  parent : Option Nat
  atom : Option Nat
  index : Nat
  isIndex : Bool
deriving DecidableEq, Repr

/-- `JSHazWalk`. The pointer set has `mask + 1` slots. -/
structure HazWalk where
  nodes : List HazNode
  capacity : Nat
  seen : Probe.Slots Nat Unit
  mask : Nat

/-- `js_shadow_hash`. -/
def shadowHash (mask p : Nat) : Nat := ((p >>> 4) * 0x9E3779B97F4A7C15 % 2 ^ 64) >>> 32 &&& mask

/-- `haz_seen_add`: was the object new? A full set without the object is probed forever. -/
def hazSeenAdd (w : HazWalk) (p : Nat) : Option (Bool × HazWalk) := do
  let i ← Probe.find w.mask w.seen p (w.mask + 1) (shadowHash w.mask p)
  match w.seen i with
  | some _ => return (false, w)
  | none => return (true, { w with seen := Probe.set w.seen i (some (p, ())) })

/-- `haz_push`. -/
def hazPush (w : HazWalk) (p : Option Nat) (parent atom : Option Nat) (index : Nat)
    (isIndex : Bool) : Option HazWalk :=
  match p with
  | none => some w
  | some p => do
    let (new, w) ← hazSeenAdd w p
    if new = false then return w
    -- a graph larger than the budget is not followed further
    if w.nodes.length = w.capacity then return w
    return { w with nodes := w.nodes ++ [⟨p, parent, atom, index, isIndex⟩] }

/-- The roots: the two global objects of every context. -/
def hazRoots : List JSContext → HazWalk → Option HazWalk
  | [], w => some w
  | c :: cs, w => do
    let w ← hazPush w c.globalObj none none 0 false
    let w ← hazPush w c.globalVarObj none none 0 false
    hazRoots cs w

/-- The properties of node `i`; accessors and initialisers are not invoked. -/
def hazProps (i : Nat) : List HeapProp → HazWalk → Option HazWalk
  | [], w => some w
  | prs :: rest, w =>
    if prs.atom = none ∨ prs.normal = false then hazProps i rest w
    else do
      let w ← hazPush w prs.object (some i) prs.atom 0 false
      hazProps i rest w

/-- The elements of node `i`, from index `k` on. -/
def hazElements (i : Nat) : Nat → List (Option Nat) → HazWalk → Option HazWalk
  | _, [], w => some w
  | k, v :: rest, w => do
    let w ← hazPush w v (some i) none k true
    hazElements i (k + 1) rest w

/-- One node of the walk. -/
def hazVisit (i : Nat) (p : HeapObject) (w : HazWalk) : Option HazWalk := do
  let w ← hazProps i (p.shape.getD []) w
  if p.fastArray ∧ (p.cls = .array ∨ p.cls = .arguments) then hazElements i 0 p.elements w
  else return w

/-- The loop over the nodes, which grow as it goes, up to the capacity. -/
def hazLoop (h : Heap) : Nat → Nat → HazWalk → Option HazWalk
  | 0, _, w => some w
  | fuel + 1, i, w =>
    match w.nodes[i]? with
    | none => some w
    | some n => do
      let w ← hazVisit i (h.objs n.obj) w
      hazLoop h fuel (i + 1) w

/-- `JS_HAZ_MAX_NODES`. -/
def hazMaxNodes : Nat := 200000

/-- The size of the pointer set: doubled from 16 until it is twice the number of objects. -/
def seenSize (nobj : Nat) : Nat → Nat → Nat
  | 0, size => size
  | fuel + 1, size =>
    if size < nobj * 2 ∧ size < 2 ^ 22 then seenSize nobj fuel (size * 2) else size

/-- The walk, in scratch memory sized by the number of objects. -/
def hazWalk (h : Heap) : Option HazWalk := do
  let nobj := min h.objects.length hazMaxNodes
  let w : HazWalk := ⟨[], nobj + 2, Probe.empty, seenSize nobj 22 16 - 1⟩
  let w ← hazRoots h.contextList w
  hazLoop h w.capacity 0 w

/-! ## The report -/

/-- A name printed as `.name` when it is a plain identifier. -/
def plainIdent (s : String) : Bool :=
  match s.toList with
  | [] => false
  | c :: cs => (c.isAlpha || c = '_' || c = '$') &&
      (c :: cs).all fun c => c.isAlphanum || c = '_' || c = '$'

/-- How `haz_print_path` prints one node. -/
def printNode (h : Heap) (n : HazNode) : String :=
  if n.isIndex then "[" ++ toString n.index ++ "]"
  else
    match n.atom.bind h.atomToCString with
    | some s => if plainIdent s then "." ++ s else "[\"" ++ s ++ "\"]"
    | none => "[\"?\"]"

/-- The chain from a node to its root; `chain[64]` bounds it. -/
def pathNodes (nodes : List HazNode) : Nat → Option Nat → List HazNode
  | 0, _ => []
  | _ + 1, none => []
  | fuel + 1, some i =>
    match nodes[i]? with
    | none => []
    | some n => n :: pathNodes nodes fuel n.parent

/-- `haz_print_path`: root first, without the root itself. -/
def printPath (h : Heap) (w : HazWalk) (i : Nat) : String :=
  "globalThis" ++ String.join ((pathNodes w.nodes 64 (some i)).reverse.tail.map (printNode h))

/-- One line of the report: the hazard and where the walk found it. -/
structure HazLine where
  hazard : SnapshotHazard
  path : Option String
deriving DecidableEq, Repr

/-- Where the walk reached an object. -/
def hazAt (h : Heap) (w : HazWalk) (p : Nat) : Option String :=
  (w.nodes.findIdx? fun n => n.obj = p).map (printPath h w)

/-- The report: every hazardous object of the list, whether the walk reached it or not. -/
def hazReport (h : Heap) (w : HazWalk) : List HazLine :=
  h.objects.filterMap fun p => (snapshotHazard (h.objs p)).map fun hz => ⟨hz, hazAt h w p⟩

/-- Which of the two scratch allocations succeed. -/
structure Scratch where
  nodes : Bool
  seen : Bool
deriving DecidableEq, Repr

/-- `JS_ScanSnapshotHazards`: the result and what is printed. -/
def scanSnapshotHazards (h : Heap) (m : Scratch) : Option (Int × List HazLine) :=
  if (h.objects.any fun p => (snapshotHazard (h.objs p)).isSome) = false then some (0, [])
  else if h.contextList = [] then some (-1, [])
  else if m.nodes = false ∨ m.seen = false then some (-1, [])
  else (hazWalk h).map fun w => ((hazReport h w).length, hazReport h w)

/-! ## The freeze -/

/-- How `JS_FreezeRuntime` ends when it does. -/
inductive FreezeEnd (σ : Type) where
  | aborted (report : List HazLine)
  | frozen (rt : Runtime σ)

variable {σ : Type}

/-- `JS_FreezeRuntime`: the scan first, and an abort when it counts a hazard. -/
def freezeRuntime (H : Host σ) (rt : Runtime σ) (h : Heap) (m : Scratch) : Option (FreezeEnd σ) :=
  (scanSnapshotHazards h m).map fun (found, report) =>
    if 0 < found then .aborted report else .frozen (jsFreezeRuntime H rt)

/-- No object of the list is hazardous. -/
def Heap.Clean (h : Heap) : Prop := ∀ p ∈ h.objects, ¬ (h.objs p).Hazardous

/-- The pre-pass of the scan finds nothing to report. -/
def Heap.Passes (h : Heap) : Prop := ∀ p ∈ h.objects, snapshotHazard (h.objs p) = none

/-- The scan can run: there is a context to print with, and the scratch memory is granted. -/
def CanScan (h : Heap) (m : Scratch) : Prop :=
  h.contextList ≠ [] ∧ m.nodes = true ∧ m.seen = true

section
variable {h : Heap} {m : Scratch} {w : HazWalk}

theorem any_hazard_iff :
    (h.objects.any fun p => (snapshotHazard (h.objs p)).isSome) = false ↔ h.Passes := by
  simp [Heap.Passes]

theorem Heap.Passes.clean (hp : h.Passes) : h.Clean := by
  intro p hmem hz
  have hsome := hz.snapshotHazard
  rw [hp p hmem] at hsome
  cases hsome

/-- The report has a line for each hazardous object. -/
theorem length_hazReport :
    (hazReport h w).length = (h.objects.countP fun p => (snapshotHazard (h.objs p)).isSome) := by
  unfold hazReport
  induction h.objects with
  | nil => rfl
  | cons p ps ih =>
    cases hz : snapshotHazard (h.objs p) with
    | none => simp [hz, ih]
    | some z => simp [hz, ih]

theorem hazReport_ne_nil (hp : ¬ h.Passes) : 0 < (hazReport h w).length := by
  rw [length_hazReport, List.countP_pos_iff]
  simpa [Heap.Passes, Option.ne_none_iff_isSome] using hp

/-- What the scan returns: 0 on a heap that passes, -1 when it cannot run, and otherwise, if the
walk ends, the number of objects to report. -/
theorem scanSnapshotHazards_eq (h : Heap) (m : Scratch) :
    (h.Passes → scanSnapshotHazards h m = some (0, [])) ∧
    (¬ h.Passes → ¬ CanScan h m → scanSnapshotHazards h m = some (-1, [])) ∧
    (¬ h.Passes → CanScan h m → ∀ n r, scanSnapshotHazards h m = some (n, r) →
      n = (h.objects.countP fun p => (snapshotHazard (h.objs p)).isSome) ∧ 0 < n) := by
  refine ⟨fun hc => ?_, fun hc hs => ?_, fun hc hs n r hr => ?_⟩
  · rw [scanSnapshotHazards, if_pos (any_hazard_iff.2 hc)]
  · rw [scanSnapshotHazards, if_neg (mt any_hazard_iff.1 hc)]
    by_cases hx : h.contextList = []
    · rw [if_pos hx]
    · have hm : m.nodes = false ∨ m.seen = false := by
        by_contra hm
        simp only [not_or, Bool.not_eq_false] at hm
        exact hs ⟨hx, hm.1, hm.2⟩
      rw [if_neg hx, if_pos hm]
  · obtain ⟨hx, hn, hsn⟩ := hs
    have hm : ¬ (m.nodes = false ∨ m.seen = false) := by simp [hn, hsn]
    rw [scanSnapshotHazards, if_neg (mt any_hazard_iff.1 hc), if_neg hx, if_neg hm] at hr
    obtain ⟨w, -, he⟩ := Option.map_eq_some_iff.1 hr
    cases he
    exact ⟨by rw [length_hazReport], by exact_mod_cast hazReport_ne_nil hc⟩

/-- The freeze completes only on a clean heap exactly when the heap is clean or the scan can run. -/
theorem freeze_refuses_iff (H : Host σ) (rt : Runtime σ) (h : Heap) (m : Scratch) :
    (∀ rt', freezeRuntime H rt h m = some (.frozen rt') → h.Clean) ↔ h.Clean ∨ CanScan h m := by
  obtain ⟨-, hneg, hpos⟩ := scanSnapshotHazards_eq h m
  constructor
  · intro hf
    by_contra hn
    rw [not_or] at hn
    refine hn.1 (hf (jsFreezeRuntime H rt) ?_)
    rw [freezeRuntime, hneg (mt Heap.Passes.clean hn.1) hn.2]
    rfl
  · rintro (hc | hs) rt' hf
    · exact hc
    · by_contra hc
      obtain ⟨⟨n, r⟩, hscan, he⟩ := Option.map_eq_some_iff.1 hf
      simp only [if_pos (hpos (mt Heap.Passes.clean hc) hs n r hscan).2] at he
      cases he

end

/-- A heap whose global object holds a pending promise. -/
def pendingHeap : Heap where
  gcObjList := [.jsObject 16, .other 32, .jsObject 48]
  objs p :=
    if p = 16 then ⟨.other 1, some [⟨some 7, true, some 48⟩], false, []⟩
    else ⟨.promise (some ⟨.pending, [], []⟩), some [], false, []⟩
  contextList := [⟨some 16, none⟩]
  atomToCString _ := some "warmup"

example : scanSnapshotHazards pendingHeap ⟨true, true⟩ =
    some (1, [⟨.pendingPromise, some "globalThis.warmup"⟩]) := by decide +kernel

/-- Without memory for the nodes of the walk a snapshot with a pending promise is frozen. -/
theorem freeze_admits_pending :
    ∃ rt', freezeRuntime bumpHost bumpRuntime pendingHeap ⟨false, true⟩ = some (.frozen rt') ∧
      ¬ pendingHeap.Clean :=
  ⟨jsFreezeRuntime bumpHost bumpRuntime, rfl, fun hc => hc 48 (by decide) ⟨_, rfl, .inl rfl⟩⟩

end ArenaJs.Freeze
