import ArenaJs.Alloc.Request

/-!
# Dual arenas and the allocator hooks

A dual arena is a base arena, which takes every allocation until the freeze, and any number of
request arenas, one of which may be selected and takes every allocation after it. `jda_malloc`,
`jda_calloc`, `jda_realloc` and `jda_free` are the hooks the engine allocates through.

The state carries the memory and the thread-local `morecore_ra` beside the fields of `JSDualArena`.
-/

namespace ArenaJs

/-- `JSDualArena`, the memory it works on and the thread's parked arena. -/
structure DualArena (σ : Type) where
  mem : Mem
  base : JSArena
  mode : ArenaMode
  cur : Option ReqId
  requests : List (RequestArena σ)
  stateCell : Option Nat
  morecoreRa : Option ReqId

variable {σ : Type}

namespace DualArena

/-- The live request arena called `id`. -/
def find (da : DualArena σ) (id : ReqId) : Option (RequestArena σ) :=
  da.requests.find? fun ra => ra.id = id

/-- The selected request arena. -/
def selected (da : DualArena σ) : Option (RequestArena σ) := da.cur.bind da.find

/-- Store an arena's new state, and the memory after the call. -/
def put (da : DualArena σ) (ra : RequestArena σ) (m : Mem) : DualArena σ :=
  { da with requests := da.requests.map fun r => if r.id = ra.id then ra else r, mem := m }

/-- `js_arena_ptr_request_owner`. -/
def ptrRequestOwner (da : DualArena σ) (p : Nat) : Option (RequestArena σ) :=
  da.requests.find? fun ra => ra.contains p

end DualArena

/-! ## Life of a dual arena -/

variable (H : Host σ) (da : DualArena σ)

/-- `js_request_arena_new`; `id` names the new arena. -/
def jsRequestArenaNew (id : ReqId) (requestCap : Nat)
    (ds : List Decision) : Option ReqId × DualArena σ :=
  match requestArenaNew H da.mode id da.mem requestCap ds with
  | none => (none, da)
  | some (ra, m) => (some id, { da with requests := ra :: da.requests, mem := m })

/-- `js_request_arena_free`. -/
def jsRequestArenaFree (id : ReqId) : DualArena σ :=
  let da := { da with requests := da.requests.filter fun ra => ra.id ≠ id }
  if da.cur = some id then { da with cur := none, stateCell := none } else da

/-- `js_dual_arena_select_request`. -/
def selectRequest (id : Option ReqId) : DualArena σ :=
  { da with cur := id, stateCell := (id.bind da.find).map RequestArena.slot }

/-- `request_mode_apply` on every arena of a list. -/
def applyModes (H : Host σ) : List (RequestArena σ) → Mem → List (RequestArena σ) × Mem
  | [], m => ([], m)
  | ra :: ras, m =>
    let (ra, m) := requestModeApply H ra m
    let (ras, m) := applyModes H ras m
    (ra :: ras, m)

/-- `js_dual_arena_freeze`. -/
def freeze : DualArena σ :=
  let (requests, mem) := applyModes H da.requests da.mem
  { da with mode := .request, requests, mem }

/-- `js_dual_arena_set_request_mode`. -/
def setRequestMode (mode : ReqMode) : DualArena σ :=
  match da.selected with
  | none => da
  | some ra => da.put { ra with modeNext := mode } da.mem

/-- `js_request_arena_reset`. -/
def jsRequestArenaReset (id : ReqId) : DualArena σ :=
  match da.find id with
  | none => da
  | some ra => let (ra, m) := requestArenaReset H da.mode ra da.mem; da.put ra m

/-- `js_dual_arena_new2`; `map` is the base mapping, `id` the first request arena. -/
def dualArenaNew2 (m : Mem) (baseSize : Nat) (map : Option Nat) (id : ReqId)
    (requestCap : Nat) (ds : List Decision) : Option (DualArena σ) :=
  match arenaInit H m baseSize map with
  | none => none
  | some (base, m) =>
    let da : DualArena σ :=
      { mem := m, base, mode := .base, cur := none, requests := [], stateCell := none,
        morecoreRa := none }
    match jsRequestArenaNew H da id requestCap ds with
    | (none, _) => none
    | (some id, da) => some (selectRequest da (some id))

/-! ## The hooks -/

/-- `js_arena_morecore`, called with whichever arena the thread parked last. -/
def jsArenaMorecore (n : Int) (ds : List Decision) :
    Option Nat × DualArena σ :=
  match da.morecoreRa.bind da.find with
  | none => (none, da)
  | some ra => let (r, ra, _) := raMorecore H ra n ds; (r, da.put ra da.mem)

/-- `req_ptr_size`. -/
def reqPtrSize (owner : Option (RequestArena σ)) (ptr : Nat) : Nat :=
  match owner with
  | some ra => if ra.mode = .gc then msUsable H ra ptr else arenaUserSize da.mem ptr
  | none => arenaUserSize da.mem ptr

/-- The bump branch of the hooks: a refusal is latched. -/
def bumpResult (requested : Nat) :
    Option Nat × RequestArena σ × Mem → Option Nat × DualArena σ
  | (some p, ra, m) => (some p, da.put ra m)
  | (none, ra, m) => (none, da.put (noteOom da.mode ra requested) m)

/-- The mspace branch of the hooks: the new block's usable bytes, less `credit`, are charged to the
arena, and a refusal is latched. -/
def msResult (requested credit : Nat) :
    Option Nat × RequestArena σ × Mem → Option Nat × DualArena σ
  | (some p, ra, m) =>
    (some p, da.put { ra with used := Word.add ra.used (Word.sub (msUsable H ra p) credit) } m)
  | (none, ra, m) => (none, da.put (noteOom da.mode ra requested) m)

/-- `morecore_ra = ra`. -/
def park (ra : RequestArena σ) : DualArena σ :=
  { da with morecoreRa := some ra.id }

/-- `jda_calloc`. -/
def jdaCalloc (count size : Nat) (ds : List Decision) :
    Option Nat × DualArena σ :=
  if count = 0 ∨ size = 0 then (none, da)
  else if Word.sizeMax / size < count then (none, da)
  else
    let total := Word.mul count size
    match da.mode with
    | .base =>
      match arenaAlloc da.base da.mem total with
      | (some p, a, m) => (some p, { da with base := a, mem := m.memset p 0 total })
      | (none, a, m) => (none, { da with base := a, mem := m })
    | .request =>
      match da.selected with
      | none => (none, da)
      | some ra =>
        match ra.mode, ra.msp with
        | .bump, _ =>
          match reqBumpAlloc H ra da.mem total ds with
          | (some p, ra, m) => bumpResult da total (some p, ra, m.memset p 0 total)
          | r => bumpResult da total r
        | .gc, some st =>
          msResult H (park da ra) total 0 (runMs H (H.ms.calloc st count size) ra da.mem ds)
        | .gc, none => (none, da)

/-- `jda_malloc`. -/
def jdaMalloc (size : Nat) (ds : List Decision) :
    Option Nat × DualArena σ :=
  match da.mode with
  | .base =>
    let (p, a, m) := arenaAlloc da.base da.mem size
    (p, { da with base := a, mem := m })
  | .request =>
    match da.selected with
    | none => (none, da)
    | some ra =>
      match ra.mode, ra.msp with
      | .bump, _ => bumpResult da size (reqBumpAlloc H ra da.mem size ds)
      | .gc, some st => msResult H (park da ra) size 0 (runMs H (H.ms.malloc st size) ra da.mem ds)
      | .gc, none => (none, da)

/-- `jda_free`. -/
def jdaFree (ptr : Option Nat) : DualArena σ :=
  match ptr, da.mode with
  | none, _ | _, .base => da
  | some ptr, .request =>
    match da.ptrRequestOwner ptr with
    | none => da
    | some owner =>
      match owner.mode, owner.msp with
      | .bump, _ | .gc, none => da
      | .gc, some st =>
        let (st', eff) := H.ms.free st (toView owner.headBuf ptr)
        da.put { owner with used := Word.sub owner.used (msUsable H owner ptr), msp := some st' }
          (applyView owner.headBuf eff da.mem)

/-- `jda_realloc`. -/
def jdaRealloc (ptr : Option Nat) (size : Nat)
    (ds : List Decision) : Option Nat × DualArena σ :=
  match da.mode with
  | .base =>
    let (p, a, m) := arenaRealloc da.base da.mem ptr size
    (p, { da with base := a, mem := m })
  | .request =>
    match ptr with
    | none => jdaMalloc H da size ds
    | some ptr =>
      if size = 0 then (none, da)
      else match da.selected with
        | none => (none, da)
        | some ra =>
          let owner := da.ptrRequestOwner ptr
          let oldSize := reqPtrSize H da owner ptr
          match ra.mode, ra.msp with
          | .bump, _ => bumpResult da size (reqBumpRealloc H ra da.mem ptr size oldSize ds)
          | .gc, some st =>
            if owner.map RequestArena.id = some ra.id then
              msResult H (park da ra) size oldSize
                (runMs H (H.ms.realloc st (toView ra.headBuf ptr) size) ra da.mem ds)
            else
              -- a base block, or a block of another arena: copy, leave the source untouched
              match runMs H (H.ms.malloc st size) ra da.mem ds with
              | (some np, ra1, m) => msResult H (park da ra) size 0
                  (some np, ra1, m.memcpy np ptr (if size < oldSize then size else oldSize))
              | r => msResult H (park da ra) size 0 r
          | .gc, none => (none, da)

/-! ## The branches of the hooks -/

theorem ArenaMode.cases (m : ArenaMode) : m = .base ∨ m = .request := by cases m <;> simp

theorem ReqMode.cases (m : ReqMode) : m = .gc ∨ m = .bump := by cases m <;> simp

/-- A call that wrote to the block it returned: `f p` is the write to the block `p`. -/
def fillBlock (f : Nat → Mem → Mem) : Option Nat × DualArena σ → Option Nat × DualArena σ
  | (some p, da) => (some p, { da with mem := f p da.mem })
  | (none, da) => (none, da)

/-- The copy of the `old` bytes at `ptr` to the block `p` of `size` bytes. -/
def copyFrom (ptr old size p : Nat) (m : Mem) : Mem :=
  m.memcpy p ptr (if size < old then size else old)

section
variable {H : Host σ} {da : DualArena σ} {ra : RequestArena σ} {st : σ} {ds : List Decision}
  {size count ptr : Nat}

theorem jdaMalloc_base (hm : da.mode = .base) :
    jdaMalloc H da size ds = ((arenaAlloc da.base da.mem size).1,
      { da with base := (arenaAlloc da.base da.mem size).2.1,
                mem := (arenaAlloc da.base da.mem size).2.2 }) := by
  unfold jdaMalloc; split
  · rfl
  · next h => exact absurd (hm.symm.trans h) (by decide)

theorem jdaMalloc_none (hm : da.mode = .request) (hs : da.selected = none) :
    jdaMalloc H da size ds = (none, da) := by
  simp only [jdaMalloc, hm, hs]

theorem jdaMalloc_bump (hm : da.mode = .request) (hs : da.selected = some ra)
    (hb : ra.mode = .bump) :
    jdaMalloc H da size ds = bumpResult da size (reqBumpAlloc H ra da.mem size ds) := by
  simp [jdaMalloc, hm, hs, hb]

theorem jdaMalloc_gc (hm : da.mode = .request) (hs : da.selected = some ra) (hb : ra.mode = .gc)
    (hst : ra.msp = some st) : jdaMalloc H da size ds =
      msResult H (park da ra) size 0 (runMs H (H.ms.malloc st size) ra da.mem ds) := by
  simp [jdaMalloc, hm, hs, hb, hst]

/-- `jda_calloc` refuses an empty request and a product that does not fit. -/
theorem jdaCalloc_refused (h : count = 0 ∨ size = 0 ∨ 2 ^ 64 ≤ count * size) :
    jdaCalloc H da count size ds = (none, da) := by
  unfold jdaCalloc
  by_cases hz : count = 0 ∨ size = 0
  · rw [if_pos hz]
  · have hle : 2 ^ 64 ≤ count * size := by omega
    rw [if_neg hz, if_pos]
    rw [Nat.div_lt_iff_lt_mul (by omega), Word.sizeMax]
    omega

/-- The guards of `jda_calloc` passed. -/
theorem jdaCalloc_guard {α : Type} {x y : α} (hc : 0 < count) (hs : 0 < size)
    (h : count * size < 2 ^ 64) :
    (if count = 0 ∨ size = 0 then x else if Word.sizeMax / size < count then x else y) = y := by
  rw [if_neg (by omega), if_neg]
  rw [Nat.div_lt_iff_lt_mul hs, Word.sizeMax]
  omega

theorem jdaCalloc_none (hm : da.mode = .request) (hs : da.selected = none) :
    jdaCalloc H da count size ds = (none, da) := by
  simp [jdaCalloc, hm, hs]

section
variable (hc : 0 < count) (hz : 0 < size) (h : count * size < 2 ^ 64)
include hc hz h

/-- Without an mspace `jda_calloc` is `jda_malloc` and a `memset`. -/
theorem jdaCalloc_fill
    (hb : da.mode = .request → ∀ ra, da.selected = some ra → ra.mode = .bump) :
    jdaCalloc H da count size ds =
      fillBlock (fun p m => m.memset p 0 (count * size)) (jdaMalloc H da (count * size) ds) := by
  simp only [jdaCalloc, jdaCalloc_guard hc hz h, Word.mul_eq h]
  split
  · next hm =>
    rw [jdaMalloc_base hm]
    generalize arenaAlloc da.base da.mem (count * size) = r
    obtain ⟨_ | p, a, m⟩ := r <;> rfl
  · next hm =>
    cases hs : da.selected with
    | none => rw [jdaMalloc_none hm hs]; rfl
    | some ra =>
      rw [jdaMalloc_bump hm hs (hb hm ra hs)]
      simp only [hb hm ra hs]
      generalize reqBumpAlloc H ra da.mem (count * size) ds = r
      obtain ⟨_ | p, ra', m⟩ := r <;> rfl

theorem jdaCalloc_gc (hm : da.mode = .request) (hs : da.selected = some ra) (hb : ra.mode = .gc)
    (hst : ra.msp = some st) : jdaCalloc H da count size ds =
      msResult H (park da ra) (count * size) 0
        (runMs H (H.ms.calloc st count size) ra da.mem ds) := by
  simp [jdaCalloc, jdaCalloc_guard hc hz h, Word.mul_eq h, hm, hs, hb, hst]

end

theorem jdaRealloc_base (hm : da.mode = .base) (ptr : Option Nat) :
    jdaRealloc H da ptr size ds = ((arenaRealloc da.base da.mem ptr size).1,
      { da with base := (arenaRealloc da.base da.mem ptr size).2.1,
                mem := (arenaRealloc da.base da.mem ptr size).2.2 }) := by
  unfold jdaRealloc; split
  · rfl
  · next h => exact absurd (hm.symm.trans h) (by decide)

/-- The copying path of `arena_realloc` is `jda_malloc` and a copy. -/
theorem jdaRealloc_base_copy {old : Nat} (hm : da.mode = .base)
    (h : arenaRealloc da.base da.mem (some ptr) size = arenaReallocCopy da.base da.mem
    ptr size old) :
    jdaRealloc H da (some ptr) size ds =
      fillBlock (copyFrom ptr old size) (jdaMalloc H da size ds) := by
  rw [jdaRealloc_base hm, jdaMalloc_base hm, h, arenaReallocCopy]
  generalize arenaAlloc da.base da.mem size = r
  obtain ⟨_ | p, a, m⟩ := r <;> rfl

/-- The copying path of `req_bump_realloc` is `req_bump_alloc` and a copy. -/
theorem bumpResult_copy {old : Nat} :
    bumpResult da size (reqBumpReallocCopy H ra da.mem ptr size old ds) =
      fillBlock (copyFrom ptr old size)
        (bumpResult da size (reqBumpAlloc H ra da.mem size ds)) := by
  unfold reqBumpReallocCopy
  generalize reqBumpAlloc H ra da.mem size ds = r
  obtain ⟨_ | p, ra', m⟩ := r <;> rfl

theorem jdaRealloc_null (hm : da.mode = .request) :
    jdaRealloc H da none size ds = jdaMalloc H da size ds := by
  simp only [jdaRealloc, hm]

theorem jdaRealloc_refused (hm : da.mode = .request) (h : size = 0 ∨ da.selected = none) :
    jdaRealloc H da (some ptr) size ds = (none, da) := by
  simp only [jdaRealloc, hm]
  rcases h with h | h
  · rw [if_pos h]
  · simp only [h, ite_self]

section
variable (hz : 0 < size) (hm : da.mode = .request) (hs : da.selected = some ra)
include hz hm hs

theorem jdaRealloc_bump
    (hb : ra.mode = .bump) : jdaRealloc H da (some ptr) size ds =
      bumpResult da size (reqBumpRealloc H ra da.mem ptr size
        (reqPtrSize H da (da.ptrRequestOwner ptr) ptr) ds) := by
  simp [jdaRealloc, hm, hs, hb, if_neg (Nat.pos_iff_ne_zero.1 hz)]

theorem jdaRealloc_gc
    (hb : ra.mode = .gc) (hst : ra.msp = some st)
    (ho : (da.ptrRequestOwner ptr).map RequestArena.id = some ra.id) :
    jdaRealloc H da (some ptr) size ds =
      msResult H (park da ra) size (reqPtrSize H da (da.ptrRequestOwner ptr) ptr)
        (runMs H (H.ms.realloc st (toView ra.headBuf ptr) size) ra da.mem ds) := by
  simp only [jdaRealloc, hm, hs, hb, hst, if_neg (Nat.pos_iff_ne_zero.1 hz), if_pos ho]

/-- A block that is not the last one of the selected bump allocator, nor in the selected mspace, is
copied to a block of `jda_malloc`. -/
theorem jdaRealloc_copy (hbump : ra.mode = .bump → ra.lastAllocPtr ≠ some ptr)
    (hgc : ra.mode = .gc → (da.ptrRequestOwner ptr).map RequestArena.id ≠ some ra.id) :
    jdaRealloc H da (some ptr) size ds =
      fillBlock (copyFrom ptr (reqPtrSize H da (da.ptrRequestOwner ptr) ptr) size)
        (jdaMalloc H da size ds) := by
  cases hb : ra.mode with
  | bump =>
    rw [jdaRealloc_bump hz hm hs hb, jdaMalloc_bump hm hs hb, reqBumpRealloc, if_neg (hbump hb)]
    exact bumpResult_copy
  | gc =>
    simp only [jdaRealloc, jdaMalloc, hm, hs, hb, if_neg (Nat.pos_iff_ne_zero.1 hz),
      if_neg (hgc hb)]
    cases ra.msp with
    | none => rfl
    | some st =>
      simp only
      generalize runMs H (H.ms.malloc st size) ra da.mem ds = r
      obtain ⟨_ | p, ra', m⟩ := r <;> rfl

end

theorem jdaFree_gc (hm : da.mode = .request) (ho : da.ptrRequestOwner ptr = some ra)
    (hb : ra.mode = .gc) (hst : ra.msp = some st) : jdaFree H da (some ptr) =
      da.put { ra with used := Word.sub ra.used (msUsable H ra ptr),
                       msp := some (H.ms.free st (toView ra.headBuf ptr)).1 }
        (applyView ra.headBuf (H.ms.free st (toView ra.headBuf ptr)).2 da.mem) := by
  simp only [jdaFree, hm, ho]
  split
  · next h => exact absurd (hb.symm.trans h) (by decide)
  · next h => exact absurd (hst.symm.trans h) (by simp)
  · next h => rw [Option.some.inj (hst.symm.trans h)]

end

end ArenaJs
