import ArenaJs.Lib.Dict
import Mathlib.Data.List.Lex

/-!
# The replay host of the browser build

`qjs-arena-replay-bindings.c` answers `kv.get`, `kv.set`, `kv.delete`, `kv.prefix` and the module
loader from the `Module` object of the page: the installed recording (`tapes`, `module_sources`), an
index over it that is built once (`_inputIndex`) and the writes made so far (`_kvOverlay`).

A string crosses into the host through `JS_ToCStringLen` and the page's `TextDecoder`, and back
through `TextEncoder` and `JS_NewStringLen`; `decode` and `encode` are the two crossings on UTF-16
code units. A page of rows travels as JSON, which carries every string unchanged.

`Module.ask` is one call of a binding. Its answer is a function of the part of the `Module` that the
host functions read, and it changes that part by its own write alone (`Module.ask_spec`).
-/

namespace ArenaJs.Replay

/-! ## Text -/

/-- A JavaScript string: its UTF-16 code units. -/
abbrev JSString := List Nat

variable (key s : JSString)

/-- `is_hi_surrogate`. -/
def isHiSurrogate (c : Nat) : Bool := 0xD800 ≤ c && c < 0xDC00

/-- `is_lo_surrogate`. -/
def isLoSurrogate (c : Nat) : Bool := 0xDC00 ≤ c && c < 0xE000

/-- A surrogate of either kind. -/
def isSurrogate (c : Nat) : Bool := isHiSurrogate c || isLoSurrogate c

/-- Put `bad` in the place of each surrogate that is not half of a pair. -/
def scalarise (bad : JSString) : JSString → JSString
  | [] => []
  | [c] => if isSurrogate c then bad else [c]
  | c :: d :: s =>
    if isHiSurrogate c && isLoSurrogate d then c :: d :: scalarise bad s
    else (if isSurrogate c then bad else [c]) ++ scalarise bad (d :: s)

/-- A decoder takes one byte order mark off the front. -/
def dropBom : JSString → JSString
  | 0xFEFF :: s => s
  | s => s

/-- `JS_ToCStringLen`, then `dec.decode`. An unpaired surrogate is written as the three bytes of its
code point, none of which decodes, so it becomes three replacement characters. -/
def decode : JSString := dropBom (scalarise [0xFFFD, 0xFFFD, 0xFFFD] s)

/-- `enc.encode`, then `JS_NewStringLen`. An unpaired surrogate becomes one replacement
character. -/
def encode : JSString := scalarise [0xFFFD] s

/-- Every surrogate is half of a pair. -/
def wellFormed : JSString → Bool
  | [] => true
  | [c] => !isSurrogate c
  | c :: d :: s =>
    if isHiSurrogate c && isLoSurrogate d then wellFormed s
    else !isSurrogate c && wellFormed (d :: s)

/-- A well-formed string has nothing to replace. -/
theorem scalarise_eq_self (bad s : JSString) (h : wellFormed s = true) : scalarise bad s = s := by
  fun_induction wellFormed s with
  | case1 => rfl
  | case2 c =>
    rw [scalarise, if_neg (by simpa using h)]
  | case3 c d s hp ih =>
    rw [scalarise, if_pos hp, ih h]
  | case4 c d s hp ih =>
    obtain ⟨hc, hs⟩ := Bool.and_eq_true_iff.mp h
    rw [scalarise, if_neg hp, if_neg (by simpa using hc), ih hs]
    rfl

theorem encode_eq_self {s : JSString} (h : wellFormed s = true) : encode s = s :=
  scalarise_eq_self _ s h

/-- A string that no crossing changes: well formed, without a byte order mark at its front. -/
def Plain : Prop := wellFormed s = true ∧ s.head? ≠ some 0xFEFF

instance (s : JSString) : Decidable (Plain s) := inferInstanceAs (Decidable (_ ∧ _))

theorem Plain.decode {s : JSString} (h : Plain s) : decode s = s := by
  rw [Replay.decode, scalarise_eq_self _ s h.1]
  unfold dropBom
  split
  · exact absurd rfl h.2
  · rfl

/-- All code units are below 128. -/
def Ascii : Prop := ∀ c ∈ s, c < 128

instance (s : JSString) : Decidable (Ascii s) := inferInstanceAs (Decidable (∀ c ∈ s, c < 128))

theorem Ascii.wellFormed {s : JSString} (h : Ascii s) : wellFormed s = true := by
  have hc : ∀ c ∈ s, isSurrogate c = false := by
    intro c hc
    have := h c hc
    simp [isSurrogate, isHiSurrogate, isLoSurrogate]
    omega
  fun_induction Replay.wellFormed s with
  | case1 => rfl
  | case2 c => simp [hc c List.mem_cons_self]
  | case3 c d s hp ih => simp [isSurrogate, (Bool.and_eq_true_iff.mp hp).1] at hc
  | case4 c d s hp ih =>
    have ht := ih (fun x hx => h x (List.mem_cons_of_mem _ hx))
      fun x hx => hc x (List.mem_cons_of_mem _ hx)
    simp [hc c List.mem_cons_self, ht]

theorem Ascii.plain {s : JSString} (h : Ascii s) : Plain s := by
  refine ⟨h.wellFormed, fun hs => ?_⟩
  have := h _ (List.mem_of_mem_head? hs)
  omega

/-! ## The page's `Module` -/

/-- An entry of `tapes.kv`. `op` is 0 for a get and 3 for a scan; `key` is the key or the prefix. -/
structure KvEntry where
  op : Nat
  key : JSString
  cursor : JSString := []
  limit : Int := 0
  outcome : Nat
  value : Option JSString := none
  results : Option (List (JSString × JSString)) := none
  deriving DecidableEq

/-- An entry of `tapes.module`. -/
structure ModuleEntry where
  specifier : JSString
  sourceHashHex : JSString
  deriving DecidableEq

/-- `Module.tapes`, as far as the bindings read it. -/
structure Tapes where
  kv : Option (List KvEntry) := none
  modules : Option (List ModuleEntry) := none

/-- A module's source text: a string, or the bytes themselves. -/
inductive Source where
  | text (s : JSString)
  | bytes (b : List Nat)
  deriving DecidableEq

/-- `Module.module_sources`, as property reads see it. -/
abbrev ModuleSources := JSString → Option Source

/-- `Module._inputIndex`. -/
structure InputIndex where
  kvGet : Dict JSString KvEntry
  kvPrefix : Dict JSString KvEntry
  mods : Dict JSString ModuleEntry

/-- `Module._kvOverlay`: what the bindings wrote, `none` for a deleted key. -/
abbrev Overlay := Dict JSString (Option JSString)

/-- The fields of the Emscripten `Module` that the bindings use. -/
structure Module where
  tapes : Option Tapes := none
  moduleSources : Option ModuleSources := none
  inputIndex : Option InputIndex := none
  kvOverlay : Option Overlay := none

variable (M : Module)

/-- `if (!map.has(k)) map.set(k, v)`. -/
def setNew {ν : Type} (d : Dict JSString ν) (k : JSString) (v : ν) : Dict JSString ν :=
  if d.has k then d else d.set k v

/-- The loop over `tapes.kv` of `_arena_index_inputs`, for the entries of one `op`. -/
def indexKv (op : Nat) (l : List KvEntry) : Dict JSString KvEntry :=
  l.foldl (fun d e => if e.op = op then setNew d e.key e else d) .empty

/-- The maps that `_arena_index_inputs` builds. -/
def indexInputs (tapes : Option Tapes) : InputIndex :=
  let kv := (tapes.bind Tapes.kv).getD []
  let modules := (tapes.bind Tapes.modules).getD []
  { kvGet := indexKv 0 kv
    kvPrefix := indexKv 3 kv
    mods := modules.foldl (fun d e => setNew d e.specifier e) .empty }

/-- The index the host functions look into: the one that is there, or the one they build. -/
def Module.index : InputIndex := M.inputIndex.getD (indexInputs M.tapes)

/-- `_arena_index_inputs`. -/
def arenaIndexInputs : Module := { M with inputIndex := some M.index }

/-- `Module._kvOverlay || (Module._kvOverlay = new Map())`. -/
def Module.overlay : Overlay := M.kvOverlay.getD .empty

/-! ## The host functions -/

/-- `_arena_host_kv_get`: the outcome and the value, or a return code that is not 0. -/
def hostKvGet (M : Module) : Except Int (Nat × JSString) × Module :=
  let key := decode key
  let M := { M with kvOverlay := some M.overlay }
  match M.overlay.get key with
  | some none => (.ok (1, []), M)
  | some (some ov) => (.ok (0, encode ov), M)
  | none =>
    let M := arenaIndexInputs M
    match M.index.kvGet.get key with
    | none => (.error (-4), M)
    | some e =>
      if e.outcome = 0 then (.ok (e.outcome, encode (e.value.getD [])), M)
      else (.ok (e.outcome, []), M)

/-- `_arena_host_kv_set`. -/
def hostKvSet (key val : JSString) (M : Module) : Nat × Module :=
  (0, { M with kvOverlay := some (M.overlay.set (decode key) (some (decode val))) })

/-- `_arena_host_kv_delete`. -/
def hostKvDelete (M : Module) : Nat × Module :=
  (0, { M with kvOverlay := some (M.overlay.set (decode key) none) })

/-- `_arena_host_module_load`. -/
def hostModuleLoad (spec : JSString) (M : Module) : Except Int Source × Module :=
  let spec := decode spec
  match M.moduleSources with
  | none => (.error (-4), M)
  | some sources =>
    let M := arenaIndexInputs M
    let src := (sources spec).or
      ((M.index.mods.get spec).bind fun e => sources e.sourceHashHex)
    match src with
    | none => (.error (-5), M)
    | some src => (.ok src, M)

/-- One entry of the overlay, applied to the rows of a scan of `pre`. -/
def mergeEntry (pre : JSString) (merged : Dict JSString JSString)
    (e : JSString × Option JSString) : Dict JSString JSString :=
  if pre.isPrefixOf e.1 then
    match e.2 with
    | none => merged.delete e.1
    | some v => merged.set e.1 v
  else merged

/-- The recorded rows of a scan, then the overlay's entries under the prefix. -/
def mergeRows (recorded : List (JSString × JSString)) (overlay : Overlay) (pre : JSString) :
    Dict JSString JSString :=
  overlay.entries.foldl (mergeEntry pre) (Dict.empty.setAll recorded)

/-- `JS_ToInt32` of a whole number: what it is modulo `2 ^ 32`, from `-2 ^ 31` on. -/
def toInt32 (n : Int) : Int := n.bmod (2 ^ 32)

theorem toInt32_eq_self {n : Int} (h : -2 ^ 31 ≤ n ∧ n < 2 ^ 31) : toInt32 n = n := by
  obtain ⟨hlow, hhigh⟩ := h
  exact Int.bmod_eq_of_le (by omega) (by omega)

/-- The number of rows of a page: 100 by default, 1000 at most. -/
def pageCap (limit : Int) : Nat := if 0 < limit then min limit.toNat 1000 else 100

/-- `cursor === "" || k > cursor`, in the order of code units. -/
def afterCursor (cursor k : JSString) : Bool := cursor.isEmpty || decide (cursor < k)

/-- `_arena_host_kv_prefix`: the outcome and the rows. -/
def hostKvPrefix (pre cursor : JSString) (limit : Int) (M : Module) :
    (Nat × List (JSString × JSString)) × Module :=
  let pre := decode pre
  let cursor := decode cursor
  let M := arenaIndexInputs M
  let e := M.index.kvPrefix.get pre
  match e.filter fun e => e.outcome ≠ 0 with
  | some e => ((e.outcome, []), M)
  | none =>
    let recorded := (e.bind KvEntry.results).getD []
    let merged := mergeRows recorded M.overlay pre
    ((0, merged.page (· ≤ ·) (afterCursor cursor) (pageCap limit)),
      { M with kvOverlay := some M.overlay })

/-! ## The bindings -/

/-- A thrown error: its class and its message. -/
inductive JSError where
  | referenceError (msg : String)
  | internalError (msg : String)
  deriving DecidableEq

/-- `throw_input_error`. -/
def throwInputError (channel : String) (rc : Int) : JSError :=
  if rc = 1 then .referenceError s!"no recorded {channel} inputs installed for this run"
  else if rc = -5 then
    .internalError s!"{channel}: no source available for the requested module"
  else
    .internalError s!"{channel}: the recording has no entry for the requested key (rc={rc})"

/-- What a call of a binding gives the program, or the loader its engine. -/
inductive Answer where
  | undefined
  | null
  | string (s : JSString)
  | rows (l : List (JSString × JSString))
  | source (s : Source)
  | error (e : JSError)
  deriving DecidableEq

/-- `jsb_kv_get`. -/
def jsbKvGet (M : Module) : Answer × Module :=
  match hostKvGet key M with
  | (.error rc, M) => (.error (throwInputError "kv" rc), M)
  | (.ok (outcome, val), M) =>
    if outcome = 1 then (.null, M)
    else if outcome = 2 then (.error (.internalError "kv.get: recorded failure"), M)
    else (.string val, M)

/-- `jsb_kv_set`. -/
def jsbKvSet (key val : JSString) (M : Module) : Answer × Module :=
  match hostKvSet key val M with
  | (outcome, M) =>
    if outcome = 2 then (.error (.internalError "kv.set: recorded failure"), M)
    else (.undefined, M)

/-- `jsb_kv_delete`. -/
def jsbKvDelete (M : Module) : Answer × Module :=
  match hostKvDelete key M with
  | (outcome, M) =>
    if outcome = 2 then (.error (.internalError "kv.delete: recorded failure"), M)
    else (.undefined, M)

/-- `jsb_kv_prefix`, for a limit that is a whole number. -/
def jsbKvPrefix (pre cursor : JSString) (limit : Int) (M : Module) : Answer × Module :=
  match hostKvPrefix pre cursor (toInt32 limit) M with
  | ((outcome, rows), M) =>
    if outcome = 2 then (.error (.internalError "kv.prefix: recorded failure"), M)
    else (.rows rows, M)

/-- `jsb_module_loader`, up to the compilation of the source. -/
def jsbModuleLoader (spec : JSString) (M : Module) : Answer × Module :=
  match hostModuleLoad spec M with
  | (.error rc, M) => (.error (throwInputError "module" rc), M)
  | (.ok src, M) => (.source src, M)

/-- A call that a program makes through the bindings. -/
inductive Query where
  | get (key : JSString)
  | set (key val : JSString)
  | delete (key : JSString)
  | scan (pre cursor : JSString) (limit : Int)
  | load (spec : JSString)
  deriving DecidableEq

/-- One call. -/
def Module.ask : Query → Answer × Module
  | .get k => jsbKvGet k M
  | .set k v => jsbKvSet k v M
  | .delete k => jsbKvDelete k M
  | .scan p c l => jsbKvPrefix p c l M
  | .load s => jsbModuleLoader s M

/-! ## What an answer depends on -/

/-- The part of the `Module` that the host functions read. -/
structure View where
  sources : Option ModuleSources
  index : InputIndex
  overlay : Overlay

/-- The view of a `Module`. -/
def Module.view : View := ⟨M.moduleSources, M.index, M.overlay⟩

namespace View

variable (v : View)

/-- The answer to `kv.get`: the run's own write, or the recorded value. -/
def kvGet (key : JSString) : Answer :=
  match v.overlay.get (decode key) with
  | some none => .null
  | some (some ov) => .string (encode ov)
  | none =>
    match v.index.kvGet.get (decode key) with
    | none => .error (throwInputError "kv" (-4))
    | some e =>
      if e.outcome = 0 then .string (encode (e.value.getD []))
      else if e.outcome = 1 then .null
      else if e.outcome = 2 then .error (.internalError "kv.get: recorded failure")
      else .string []

/-- The rows that a scan of `pre` selects from: those of its recorded scan, and the run's writes. -/
def merged (pre : JSString) : Dict JSString JSString :=
  mergeRows (((v.index.kvPrefix.get pre).bind KvEntry.results).getD []) v.overlay pre

/-- The answer to `kv.prefix`. -/
def kvPrefix (pre cursor : JSString) (limit : Int) : Answer :=
  match (v.index.kvPrefix.get (decode pre)).filter fun e => e.outcome ≠ 0 with
  | some e =>
    if e.outcome = 2 then .error (.internalError "kv.prefix: recorded failure") else .rows []
  | none =>
    .rows ((v.merged (decode pre)).page (· ≤ ·) (afterCursor (decode cursor))
      (pageCap (toInt32 limit)))

/-- The answer to the module loader. -/
def moduleLoad (spec : JSString) : Answer :=
  match v.sources with
  | none => .error (throwInputError "module" (-4))
  | some sources =>
    match (sources (decode spec)).or
        ((v.index.mods.get (decode spec)).bind fun e => sources e.sourceHashHex) with
    | none => .error (throwInputError "module" (-5))
    | some src => .source src

/-- The answer to a call. -/
def answer : Query → Answer
  | .get k => v.kvGet k
  | .set _ _ | .delete _ => .undefined
  | .scan p c l => v.kvPrefix p c l
  | .load s => v.moduleLoad s

/-- The write of a call. -/
def write : Query → View
  | .set k val => { v with overlay := v.overlay.set (decode k) (some (decode val)) }
  | .delete k => { v with overlay := v.overlay.set (decode k) none }
  | _ => v

end View

section
variable (M : Module)

/-- `kv.get` answers from the view and leaves it as it is. -/
theorem jsbKvGet_spec (k : JSString) :
    (jsbKvGet k M).1 = M.view.kvGet k ∧ (jsbKvGet k M).2.view = M.view := by
  have ho : ({ M with kvOverlay := some M.overlay } : Module).overlay = M.overlay := rfl
  have hi : (arenaIndexInputs { M with kvOverlay := some M.overlay }).index = M.index := rfl
  simp only [jsbKvGet, hostKvGet, View.kvGet, Module.view, ho, hi]
  cases M.overlay.get (decode k) with
  | some ov => cases ov <;> exact ⟨rfl, rfl⟩
  | none =>
    cases M.index.kvGet.get (decode k) with
    | none => exact ⟨rfl, rfl⟩
    | some e =>
      by_cases h0 : e.outcome = 0
      · simp only [h0, if_true]
        exact ⟨rfl, rfl⟩
      · by_cases h1 : e.outcome = 1
        · simp only [h1]
          exact ⟨rfl, rfl⟩
        · by_cases h2 : e.outcome = 2
          · simp only [h2]
            exact ⟨rfl, rfl⟩
          · simp only [h0, h1, h2, if_false]
            exact ⟨trivial, rfl⟩

/-- `kv.prefix` answers from the view and leaves it as it is. -/
theorem jsbKvPrefix_spec (p c : JSString) (l : Int) :
    (jsbKvPrefix p c l M).1 = M.view.kvPrefix p c l ∧ (jsbKvPrefix p c l M).2.view = M.view := by
  have hi : (arenaIndexInputs M).index = M.index := rfl
  simp only [jsbKvPrefix, hostKvPrefix, View.kvPrefix, View.merged, Module.view, hi]
  cases hf : (M.index.kvPrefix.get (decode p)).filter fun e => decide (e.outcome ≠ 0) with
  | none => exact ⟨rfl, rfl⟩
  | some e =>
    by_cases h2 : e.outcome = 2
    · simp only [h2, if_true]
      exact ⟨trivial, rfl⟩
    · simp only [h2, if_false]
      exact ⟨trivial, rfl⟩

/-- The module loader answers from the view and leaves it as it is. -/
theorem jsbModuleLoader_spec (s : JSString) :
    (jsbModuleLoader s M).1 = M.view.moduleLoad s ∧ (jsbModuleLoader s M).2.view = M.view := by
  have hi : (arenaIndexInputs M).index = M.view.index := rfl
  have hs : M.moduleSources = M.view.sources := rfl
  simp only [jsbModuleLoader, hostModuleLoad, View.moduleLoad, hs, hi]
  cases M.view.sources with
  | none => exact ⟨rfl, rfl⟩
  | some sources =>
    simp only
    cases (sources (decode s)).or
        ((M.view.index.mods.get (decode s)).bind fun e => sources e.sourceHashHex) <;>
      exact ⟨rfl, rfl⟩

/-- A call answers from the view and changes it by its write. -/
theorem Module.ask_spec (q : Query) :
    (M.ask q).1 = M.view.answer q ∧ (M.ask q).2.view = M.view.write q := by
  cases q with
  | get k => exact jsbKvGet_spec M k
  | set k v => exact ⟨rfl, rfl⟩
  | delete k => exact ⟨rfl, rfl⟩
  | scan p c l => exact jsbKvPrefix_spec M p c l
  | load s => exact jsbModuleLoader_spec M s

end

end ArenaJs.Replay
