import ArenaJs.Alloc.Arena

/-!
# Request arenas

A request arena is a list of extents acquired from a provider, charged to a budget (`req_acquire`,
`req_release_extents`), with one of two allocators over it: a bump allocator with the base arena's
header format, or an mspace over the head extent that grows through `js_arena_morecore`.

An acquisition that passes the budget check consumes one decision of the host: a refusal (the list
node, the provider or the chunk registration failed, each of which leaves the arena as it was) or a
free range of memory, granted when it is large enough. The chunk set is not part of this state: a
pointer's owner is the arena whose extents hold it.
-/

namespace ArenaJs

/-- `JS_ARENA_REQ_EXTENT_DEFAULT`. -/
def reqExtentDefault : Nat := 256 * 1024

/-- `JS_ARENA_REQUEST_SLOT_SIZE`. -/
def requestSlotSize : Nat := 512

/-- `JSArenaReqMode`. -/
inductive ReqMode where
  | gc
  | bump
deriving DecidableEq, Repr

/-- `JSArenaMode`. -/
inductive ArenaMode where
  | base
  | request
deriving DecidableEq, Repr

/-- `JSArenaOOM`, the latched first refusal of a request. -/
structure ArenaOOM where
  hit : Bool
  requested : Nat
  used : Nat
  limit : Nat
deriving DecidableEq, Repr

/-- `JSReqChunk`: one provider extent. -/
structure ReqChunk where
  buf : Nat
  size : Nat
deriving DecidableEq, Repr

/-- The addresses of an extent. -/
def ReqChunk.span (c : ReqChunk) : Span := ⟨c.buf, c.buf + c.size⟩

/-- The address of a `JSRequestArena`, as a name. -/
abbrev ReqId := Nat

/-- A decision of the host on one acquisition. -/
abbrev Decision := Option Span

/-- `JSRequestArena`. The extents run head to tail in acquisition order. -/
structure RequestArena (σ : Type) where
  id : ReqId
  chunks : List ReqChunk
  extents : Nat
  cap : Nat
  held : Nat
  floor : Nat
  cur : Option ReqChunk
  cursor : Nat
  bumpUsed : Nat
  lastAllocPtr : Option Nat
  lastAllocAligned : Nat
  brk : Option Nat
  msp : Option σ
  used : Nat
  oom : ArenaOOM
  mode : ReqMode
  modeNext : ReqMode

variable {σ : Type}

namespace RequestArena

variable (ra : RequestArena σ)

/-- The address of the head extent. -/
def headBuf : Nat := (ra.chunks.head?.map ReqChunk.buf).getD 0

/-- The size of the head extent. -/
def headSize : Nat := (ra.chunks.head?.map ReqChunk.size).getD 0

/-- `js_request_arena_contains`, on the arena's own extents. -/
def contains (p : Nat) : Bool := ra.chunks.any fun c => decide (c.span.Has p)

/-- `js_request_arena_slot`. -/
def slot : Nat := ra.headBuf + arenaPrefixLen

end RequestArena

/-- `prov.acquire(size)`: the offered range is taken when it holds `size` bytes. -/
def provAcquire (d : Decision) (size : Nat) : Option Nat :=
  match d with
  | none => none
  | some s => if s.lo + size ≤ s.hi then some s.lo else none

variable (H : Host σ) (ra : RequestArena σ) (m : Mem)

/-- The extent size of `req_acquire`, or `none` when the budget refuses. -/
def acquireSize (cap held need : Nat) : Option Nat :=
  let exact := pagesRound H need
  let size := if exact < reqExtentDefault then reqExtentDefault else exact
  if cap < Word.add held size then
    -- the policy extent does not fit; the exact need might
    if cap < Word.add held exact then none else some exact
  else some size

/-- `req_acquire`. -/
def reqAcquire (need : Nat) (ds : List Decision) :
    Option ReqChunk × RequestArena σ × List Decision :=
  match acquireSize H ra.cap ra.held need with
  | none => (none, ra, ds)
  | some size =>
    match provAcquire (ds.head?.getD none) size with
    | none => (none, ra, ds.tail)
    | some buf =>
      let c : ReqChunk := ⟨buf, size⟩
      (some c, { ra with chunks := ra.chunks ++ [c], extents := Word.add ra.extents 1,
                         held := Word.add ra.held size }, ds.tail)

/-- `req_release_extents`: every extent after the head goes back to the provider. -/
def reqReleaseExtents : RequestArena σ :=
  match ra.chunks with
  | [] => { ra with extents := 0, held := 0, brk := none }
  | head :: _ => { ra with chunks := [head], extents := 1, held := head.size, brk := none }

/-- `req_bump_reset`. -/
def reqBumpReset : RequestArena σ :=
  { ra with cur := ra.chunks.head?, cursor := ra.floor, bumpUsed := 0, lastAllocPtr := none,
            lastAllocAligned := 0 }

/-- The room `req_bump_alloc` finds for `total` bytes: the extent being bumped, or a fresh one. -/
def reqBumpRoom (total : Nat) (ds : List Decision) :
    Option ReqChunk × RequestArena σ :=
  match ra.cur with
  | none => (none, ra)
  | some cur =>
    if cur.size < Word.add ra.cursor total then
      match reqAcquire H ra total ds with
      | (none, ra, _) => (none, ra)
      | (some c, ra, _) => (some c, { ra with cur := some c, cursor := 0 })
    else (some cur, ra)

/-- `req_bump_alloc`. -/
def reqBumpAlloc (size : Nat) (ds : List Decision) :
    Option Nat × RequestArena σ × Mem :=
  if size = 0 then (none, ra, m)
  else
    let aligned := Word.alignUp arenaAlign size
    let total := Word.add arenaHeaderSize aligned
    match reqBumpRoom H ra total ds with
    | (none, ra) => (none, ra, m)
    | (some cur, ra) =>
      let header := cur.buf + ra.cursor
      let ptr := header + arenaHeaderSize
      (some ptr, { ra with cursor := Word.add ra.cursor total,
                           bumpUsed := Word.add ra.bumpUsed aligned,
                           lastAllocPtr := some ptr, lastAllocAligned := aligned },
        m.writeU64 header size)

/-- The copying path of `req_bump_realloc`. -/
def reqBumpReallocCopy (ptr size oldSize : Nat)
    (ds : List Decision) : Option Nat × RequestArena σ × Mem :=
  match reqBumpAlloc H ra m size ds with
  | (none, ra, m) => (none, ra, m)
  | (some np, ra, m) => (some np, ra, m.memcpy np ptr (if size < oldSize then size else oldSize))

/-- `req_bump_realloc`. -/
def reqBumpRealloc (ptr size oldSize : Nat)
    (ds : List Decision) : Option Nat × RequestArena σ × Mem :=
  let aligned := Word.alignUp arenaAlign size
  if ra.lastAllocPtr = some ptr then
    let oldAligned := ra.lastAllocAligned
    if aligned ≤ oldAligned then
      -- shrink in place; the freed tail returns to the bump region
      (some ptr, { ra with cursor := Word.sub ra.cursor (oldAligned - aligned),
                           bumpUsed := Word.sub ra.bumpUsed (oldAligned - aligned),
                           lastAllocAligned := aligned }, arenaSetUserSize m ptr size)
    else if Word.add ra.cursor (aligned - oldAligned) ≤ (ra.cur.map ReqChunk.size).getD 0 then
      (some ptr, { ra with cursor := Word.add ra.cursor (aligned - oldAligned),
                           bumpUsed := Word.add ra.bumpUsed (aligned - oldAligned),
                           lastAllocAligned := aligned }, arenaSetUserSize m ptr size)
    else reqBumpReallocCopy H ra m ptr size oldSize ds
  else reqBumpReallocCopy H ra m ptr size oldSize ds

/-- `request_mode_apply`: the pending mode's allocator takes the head extent past the slot. -/
def requestModeApply : RequestArena σ × Mem :=
  match ra.modeNext with
  | .gc =>
    -- the space sees the head extent at `2 ^ 64`
    let (st, eff) := H.ms.create (2 ^ 64 + ra.floor) (Word.sub ra.headSize ra.floor)
    ({ ra with mode := .gc, msp := some st, used := 0 }, applyView ra.headBuf eff m)
  | .bump => (reqBumpReset { ra with mode := .bump, msp := none }, m)

/-- `oom_clear`. -/
def oomClear : RequestArena σ := { ra with oom := ⟨false, 0, 0, 0⟩ }

/-- `js_request_arena_new`, without the link into the dual arena's list. -/
def requestArenaNew (daMode : ArenaMode) (id : ReqId) (m : Mem) (requestCap : Nat)
    (ds : List Decision) : Option (RequestArena σ × Mem) :=
  let requestCap := if requestCap = 0 then arenaDefaultSize else requestCap
  let cap := if requestCap = Word.sizeMax then Word.sizeMax else pagesRound H requestCap
  let ra : RequestArena σ :=
    { id, chunks := [], extents := 0, cap, held := 0, floor := arenaPrefixLen + requestSlotSize,
      cur := none, cursor := 0, bumpUsed := 0, lastAllocPtr := none, lastAllocAligned := 0,
      brk := none, msp := none, used := 0, oom := ⟨false, 0, 0, 0⟩, mode := .gc, modeNext := .gc }
  let head := if cap < reqExtentDefault then cap else reqExtentDefault
  if head < ra.floor + arenaHeaderSize + arenaAlign then none
  else match reqAcquire H ra head ds with
    | (none, _, _) => none
    | (some c, ra, _) =>
      let m := m.memset c.buf 0 arenaPrefixLen
      let ra := reqBumpReset ra
      match daMode with
      | .request => some (requestModeApply H ra m)
      | .base => some (ra, m)

/-- `js_request_arena_reset`. -/
def requestArenaReset (daMode : ArenaMode) (ra : RequestArena σ) (m : Mem) :
    RequestArena σ × Mem :=
  let ra := reqReleaseExtents ra
  match daMode with
  | .request => let (ra, m) := requestModeApply H ra m; (oomClear ra, m)
  | .base => (oomClear (reqBumpReset ra), m)

/-- `note_oom`. -/
def noteOom (daMode : ArenaMode) (ra : RequestArena σ) (requested : Nat) : RequestArena σ :=
  if daMode ≠ .request ∨ ra.oom.hit then ra
  else { ra with oom := ⟨true, requested, if ra.mode = .gc then ra.used else ra.bumpUsed,
                         if ra.cap = Word.sizeMax then Word.sizeMax else Word.sub ra.cap ra.floor⟩ }

/-- `js_arena_morecore` on the parked arena. -/
def raMorecore (n : Int) (ds : List Decision) :
    Option Nat × RequestArena σ × List Decision :=
  if n = 0 then (ra.brk, ra, ds)
  else if n < 0 then (none, ra, ds)
  else match reqAcquire H ra n.toNat ds with
    | (none, ra, ds) => (none, ra, ds)
    | (some c, ra, ds) => (some c.buf, { ra with brk := some (c.buf + c.size) }, ds)

/-- An mspace call made with `ra` parked for `MORECORE`. -/
def runMs (H : Host σ) : MsCall σ → RequestArena σ → Mem → List Decision →
    Option Nat × RequestArena σ × Mem
  | .done ret st eff, ra, m, _ =>
    (ret.map (ofView ra.headBuf), { ra with msp := some st }, applyView ra.headBuf eff m)
  | .morecore n k, ra, m, ds =>
    match raMorecore H ra n ds with
    | (r, ra', ds') => runMs H (k (r.map (toView ra.headBuf))) ra' m ds'

/-- `mspace_usable_size` of a block of the arena. -/
def msUsable (p : Nat) : Nat :=
  match ra.msp with
  | some st => H.ms.usable st (toView ra.headBuf p)
  | none => 0

end ArenaJs
