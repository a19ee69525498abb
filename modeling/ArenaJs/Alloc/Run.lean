import ArenaJs.Alloc.Layout

/-!
# Runs of a dual arena

Every action the engine and its host can take on a dual arena (`Act`), its effect on the arena and
on the ghost list of blocks (`exec`), and the states reached (`Reach`). `Act.Ok` collects the
assumptions of a step in two parts:

* what callers and the host's provider guarantee: pointers handed to the hooks are live blocks,
  offered memory is chunk-aligned and used by nothing else;
* what the code needs and does not check: no size computation of the call wraps (`SizeOk`), and the
  extents of a space do not touch each other (`Offers.apart`), or dlmalloc merges them into one
  segment and places blocks across the seam.
-/

namespace ArenaJs

variable {σ : Type} (H : Host σ)

/-- An action on a dual arena. `store` is a byte written by the engine. -/
inductive Act where
  | malloc (size : Nat) (ds : List Decision)
  | calloc (count size : Nat) (ds : List Decision)
  | realloc (ptr : Option Nat) (size : Nat) (ds : List Decision)
  | free (ptr : Option Nat)
  | store (addr : Nat) (byte : UInt8)
  | newRequest (id : ReqId) (cap : Nat) (ds : List Decision)
  | freeRequest (id : ReqId)
  | select (id : Option ReqId)
  | setMode (mode : ReqMode)
  | reset (id : ReqId)
  | freeze

/-- The bytes an action asks for. -/
def Act.bytes? : Act → Option Nat
  | .malloc size _ | .realloc _ size _ => some size
  | .calloc count size _ => some (count * size)
  | _ => none

/-- The block a hook has just returned, read off the state it left. -/
def blockOf (da : DualArena σ) (p size : Nat) : Block :=
  match da.mode, da.selected with
  | .request, some ra =>
    match ra.mode with
    | .bump => ⟨p, size, p + bodyLen size, .bump ra.id⟩
    | .gc => ⟨p, size, p + msUsable H ra p, .gc ra.id⟩
  | _, _ => ⟨p, size, p + bodyLen size, .base⟩

/-- The blocks after a hook returned `r` for `size` bytes and `gone` were reclaimed. -/
def afterAlloc (live : List Block) (gone : Block → Bool) (size : Nat)
    (r : Option Nat × DualArena σ) : Sys σ :=
  match r.1 with
  | none => ⟨r.2, live⟩
  | some p => ⟨r.2, blockOf H r.2 p size :: live.filter fun b => !gone b⟩

/-- A reallocation of `ptr` that returned `p` reclaims the old block if it was resized in place, or
if it was in the selected arena's mspace. -/
def reallocGone (da : DualArena σ) (ptr : Nat) (p : Option Nat) (b : Block) : Bool :=
  decide (b.ptr = ptr ∧ (p = some ptr ∨ da.cur.map Home.gc = some b.home))

/-- A block in some mspace. -/
def Home.isGc : Home → Bool
  | .gc _ => true
  | _ => false

/-- The blocks left by a call that frees `ptr`: only an mspace block is reclaimed. -/
def freed (live : List Block) (ptr : Option Nat) : List Block :=
  live.filter fun b => !(decide (some b.ptr = ptr) && b.home.isGc)

/-- The pointer an action returns and the state it leaves. -/
def exec (S : Sys σ) : Act → Option Nat × Sys σ
  | .malloc size ds =>
    let r := jdaMalloc H S.da size ds
    (r.1, afterAlloc H S.live (fun _ => false) size r)
  | .calloc count size ds =>
    let r := jdaCalloc H S.da count size ds
    (r.1, afterAlloc H S.live (fun _ => false) (count * size) r)
  | .realloc none size ds =>
    let r := jdaRealloc H S.da none size ds
    (r.1, afterAlloc H S.live (fun _ => false) size r)
  | .realloc (some ptr) size ds =>
    let r := jdaRealloc H S.da (some ptr) size ds
    (r.1, afterAlloc H S.live (reallocGone S.da ptr r.1) size r)
  | .free ptr => (none, ⟨jdaFree H S.da ptr, freed S.live ptr⟩)
  | .store addr byte =>
    (none, ⟨{ S.da with mem := fun x => if x = addr then byte else S.da.mem x }, S.live⟩)
  | .newRequest id cap ds => (none, ⟨(jsRequestArenaNew H S.da id cap ds).2, S.live⟩)
  | .freeRequest id =>
    (none, ⟨jsRequestArenaFree S.da id, S.live.filter fun b => b.home.id? ≠ some id⟩)
  | .select id => (none, ⟨selectRequest S.da id, S.live⟩)
  | .setMode mode => (none, ⟨setRequestMode S.da mode, S.live⟩)
  | .reset id =>
    (none, ⟨jsRequestArenaReset H S.da id, S.live.filter fun b => b.home.id? ≠ some id⟩)
  | .freeze => (none, ⟨freeze H S.da, S.live⟩)

/-! ## Assumptions -/

/-- No size computation of an allocation of `size` bytes wraps. dlmalloc checks its own. -/
def SizeOk (da : DualArena σ) (size : Nat) : Prop :=
  match da.mode, da.selected with
  | .base, _ => FitsWord (arenaCursor da.mem da.base) size
  | .request, some ra =>
    match ra.mode with
    | .bump => FitsPages H ra.cursor size
    | .gc => True
  | .request, none => True

instance (da : DualArena σ) (size : Nat) : Decidable (SizeOk H da size) := by
  unfold SizeOk
  repeat' split
  all_goals infer_instance

/-- The offers of a call: memory that nothing uses, and, where the selected arena runs an mspace,
that touches none of its extents. -/
structure Offers (da : DualArena σ) (ds : List Decision) : Prop where
  fresh : ∀ ra ∈ da.requests, Fresh Span.Disjoint ra.chunks ds
  base : ∀ s, some s ∈ ds → da.base.span.Disjoint s
  apart : ∀ ra, da.selected = some ra → ra.mode = .gc → Fresh Span.Apart ra.chunks ds

/-- `ptr` is NULL or a live block. -/
def LivePtr (live : List Block) (ptr : Option Nat) : Prop :=
  ∀ p, ptr = some p → ∃ b ∈ live, b.ptr = p

/-- The assumptions of a step. -/
def Act.Ok (S : Sys σ) : Act → Prop
  | .malloc size ds => SizeOk H S.da size ∧ Offers S.da ds
  | .calloc count size ds => (count * size < 2 ^ 64 → SizeOk H S.da (count * size)) ∧ Offers S.da ds
  | .realloc ptr size ds => SizeOk H S.da size ∧ Offers S.da ds ∧ LivePtr S.live ptr
  | .free ptr => LivePtr S.live ptr
  | .store addr _ => (∃ b ∈ S.live, b.bytes.Has addr) ∨
      ∃ ra ∈ S.da.requests, (⟨ra.slot, ra.slot + requestSlotSize⟩ : Span).Has addr
  | .newRequest id _ ds => (∀ ra ∈ S.da.requests, ra.id ≠ id) ∧ Offers S.da ds ∧
      Fresh Span.Disjoint [] ds
  | .freeRequest id | .reset id => ∃ ra ∈ S.da.requests, ra.id = id
  | .select id => ∀ i, id = some i → ∃ ra ∈ S.da.requests, ra.id = i
  | .setMode _ => True
  | .freeze => S.da.mode = .base

/-- The assumptions of `js_dual_arena_new2`: the base mapping and the first offers are mapped memory
that nothing else uses. -/
structure InitOk (baseSize : Nat) (map : Option Nat) (ds : List Decision) : Prop where
  base : ∀ buf, map = some buf → ChunkOk ⟨buf, pagesRound H (if baseSize = 0 then arenaDefaultSize
    else baseSize)⟩
  fresh : ∀ buf, map = some buf → Fresh Span.Disjoint [⟨buf, pagesRound H (if baseSize = 0 then
    arenaDefaultSize else baseSize)⟩] ds

/-- The states reached by runs whose every step meets its assumptions. -/
inductive Reach : Sys σ → Prop
  | init {m : Mem} {baseSize cap : Nat} {map : Option Nat} {id : ReqId} {ds : List Decision}
      {da : DualArena σ} : InitOk H baseSize map ds →
      dualArenaNew2 H m baseSize map id cap ds = some da → Reach ⟨da, []⟩
  | step {S : Sys σ} {act : Act} : Reach S → act.Ok H S → Reach (exec H S act).2

end ArenaJs
