import ArenaJs.Lib.Word
import ArenaJs.Alloc.Mspace

/-!
# The base arena

The low-level bump arena of `qjs-arena.c` (`arena_init`, `arena_alloc`, `arena_realloc`). A block
is a 16-byte header, whose first eight bytes hold the size asked for, followed by that size rounded
to 16. The cursor lives in the first eight bytes of the buffer. Size arithmetic is `size_t`'s:
none of the three roundings checks for overflow.
-/

namespace ArenaJs

variable (m : Mem) (a : JSArena)

/-- `ARENA_ALIGN`. -/
def arenaAlign : Nat := 16

/-- `ARENA_HEADER_SIZE`. -/
def arenaHeaderSize : Nat := 16

/-- `ARENA_PREFIX_LEN`. -/
def arenaPrefixLen : Nat := 16

/-- `ARENA_DEFAULT_SIZE`. -/
def arenaDefaultSize : Nat := 16 * 1024 * 1024

/-- What the arenas take from the platform: the unit of `pages_round` (the page size, at least
`JS_ARENA_CHUNK_SIZE`) and dlmalloc. -/
structure Host (σ : Type) where
  round : Nat
  round_eq : round = 4096 ∨ round = 16384 ∨ round = 65536
  ms : Mspace σ

variable {σ : Type}

/-- `pages_round`. -/
def pagesRound (H : Host σ) (size : Nat) : Nat := Word.alignUp H.round size

/-- A bump region. The cursor is stored in the buffer itself. -/
structure JSArena where
  buf : Nat
  capacity : Nat
  floor : Nat
  lastAllocPtr : Option Nat
  lastAllocAligned : Nat
deriving DecidableEq

/-- `arena_cursor`. -/
def arenaCursor : Nat := m.readU64 a.buf

/-- `arena_set_cursor`. -/
def arenaSetCursor (v : Nat) : Mem := m.writeU64 a.buf v

/-- `arena_user_size`: the first header word, for base and request bump blocks alike. -/
def arenaUserSize (ptr : Nat) : Nat := m.readU64 (ptr - arenaHeaderSize)

/-- `arena_set_user_size`. -/
def arenaSetUserSize (ptr size : Nat) : Mem := m.writeU64 (ptr - arenaHeaderSize) size

/-- `arena_init`; `map` is the answer of `pages_map`. -/
def arenaInit (H : Host σ) (m : Mem) (capacity : Nat) (map : Option Nat) : Option (JSArena × Mem) :=
  let capacity := pagesRound H (if capacity = 0 then arenaDefaultSize else capacity)
  if capacity < arenaPrefixLen + arenaHeaderSize + arenaAlign then none
  else match map with
    | none => none
    | some buf =>
      let a : JSArena := ⟨buf, capacity, arenaPrefixLen, none, 0⟩
      some (a, arenaSetCursor m a a.floor)

/-- `arena_alloc`. -/
def arenaAlloc (m : Mem) (size : Nat) : Option Nat × JSArena × Mem :=
  if size = 0 then (none, a, m)
  else
    let aligned := Word.alignUp arenaAlign size
    let total := Word.add arenaHeaderSize aligned
    let cursor := arenaCursor m a
    if a.capacity < Word.add cursor total then (none, a, m)
    else
      let header := a.buf + cursor
      -- the second header word is padding and stays as it is
      let m := m.writeU64 header size
      let ptr := header + arenaHeaderSize
      let m := arenaSetCursor m a (Word.add cursor total)
      (some ptr, { a with lastAllocPtr := some ptr, lastAllocAligned := aligned }, m)

/-- The copying path of `arena_realloc`. -/
def arenaReallocCopy (m : Mem) (ptr size oldSize : Nat) :
    Option Nat × JSArena × Mem :=
  match arenaAlloc a m size with
  | (none, a, m) => (none, a, m)
  | (some np, a, m) => (some np, a, m.memcpy np ptr (if size < oldSize then size else oldSize))

/-- `arena_realloc`. -/
def arenaRealloc (m : Mem) (ptr : Option Nat) (size : Nat) :
    Option Nat × JSArena × Mem :=
  match ptr with
  | none => arenaAlloc a m size
  | some ptr =>
    if size = 0 then (none, a, m)
    else
      let aligned := Word.alignUp arenaAlign size
      let oldSize := arenaUserSize m ptr
      if a.lastAllocPtr = some ptr then
        let oldAligned := a.lastAllocAligned
        let cursor := arenaCursor m a
        if aligned ≤ oldAligned then
          -- shrink in place; the freed tail returns to the bump region
          let m := arenaSetCursor m a (Word.sub cursor (oldAligned - aligned))
          (some ptr, { a with lastAllocAligned := aligned }, arenaSetUserSize m ptr size)
        else if Word.add cursor (aligned - oldAligned) ≤ a.capacity then
          let m := arenaSetCursor m a (Word.add cursor (aligned - oldAligned))
          (some ptr, { a with lastAllocAligned := aligned }, arenaSetUserSize m ptr size)
        else arenaReallocCopy a m ptr size oldSize
      else arenaReallocCopy a m ptr size oldSize

end ArenaJs
