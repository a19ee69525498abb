import ArenaJs.Alloc.Arena
import ArenaJs.Lib.Bump

/-!
# What the base arena's operations do

The base arena follows the bump discipline (`JSArena.region`, `BaseOk`) as long as the size
arithmetic of a call does not wrap (`FitsWord`). `arenaAlloc_spec` and `arenaRealloc_cases` give the
outcomes of a call: a refusal that changes nothing, a push, or a resize of the last block, each
with the bytes of memory it writes.
-/

namespace ArenaJs

variable {cursor size : Nat}

/-- The bytes a request of `size` bytes occupies after its header. -/
def bodyLen (size : Nat) : Nat := (size + 15) / 16 * 16

/-- No rounding or addition of a bump allocation of `size` bytes at `cursor` wraps. -/
def FitsWord (cursor size : Nat) : Prop :=
  size + 15 < 2 ^ 64 ∧ cursor + 16 + bodyLen size < 2 ^ 64

instance (cursor size : Nat) : Decidable (FitsWord cursor size) :=
  inferInstanceAs (Decidable (_ ∧ _))

theorem dvd_bodyLen (size : Nat) : 16 ∣ bodyLen size := Nat.dvd_mul_left 16 _

theorem le_bodyLen (size : Nat) : size ≤ bodyLen size := by unfold bodyLen; omega

theorem FitsWord.alignUp (h : FitsWord cursor size) :
    Word.alignUp arenaAlign size = bodyLen size := Word.alignUp_eq h.1

theorem FitsWord.total (h : FitsWord cursor size) :
    Word.add arenaHeaderSize (bodyLen size) = 16 + bodyLen size :=
  Word.add_eq (by have := h.2; simp only [arenaHeaderSize]; omega)

theorem FitsWord.sum (h : FitsWord cursor size) :
    Word.add cursor (16 + bodyLen size) = cursor + (16 + bodyLen size) :=
  Word.add_eq (by have := h.2; omega)

theorem FitsWord.size_lt (h : FitsWord cursor size) : size < 2 ^ 64 := by
  have := h.1; omega

/-- The base arena as a bump region. -/
def JSArena.region (a : JSArena) (m : Mem) : BumpRegion :=
  ⟨a.buf + a.floor, a.buf + arenaCursor m a, a.buf + a.capacity,
    a.lastAllocPtr.map fun p => (p, a.lastAllocAligned)⟩

/-- The base arena is a well-formed bump region of mapped memory. -/
structure BaseOk (m : Mem) (a : JSArena) : Prop where
  floor_eq : a.floor = arenaPrefixLen
  buf_pos : 0 < a.buf
  buf_dvd : 16 ∣ a.buf
  fits : a.buf + a.capacity ≤ 2 ^ 64
  cursor_dvd : 16 ∣ arenaCursor m a
  last_dvd : 16 ∣ a.lastAllocAligned
  region : (a.region m).Ok 16

variable {m m' : Mem} {a : JSArena} {size : Nat}

/-- The mapped range of the base arena. -/
def JSArena.span (a : JSArena) : Span := ⟨a.buf, a.buf + a.capacity⟩

namespace BaseOk

theorem floor_le (h : BaseOk m a) : 16 ≤ arenaCursor m a := by
  have := h.region.start_le
  simp only [JSArena.region, h.floor_eq, arenaPrefixLen] at this
  omega

theorem le_capacity (h : BaseOk m a) : arenaCursor m a ≤ a.capacity := by
  have := h.region.top_le
  simp only [JSArena.region] at this
  omega

/-- The arena only looks at its first eight bytes. -/
theorem congr (h : BaseOk m a) (m' : Mem) (hm : ∀ x, a.buf ≤ x → x < a.buf + 8 → m' x = m x) :
    arenaCursor m' a = arenaCursor m a ∧ a.region m' = a.region m ∧ BaseOk m' a := by
  have hc : arenaCursor m' a = arenaCursor m a := Mem.readU64_congr hm
  have hr : a.region m' = a.region m := by simp only [JSArena.region, hc]
  exact ⟨hc, hr, h.floor_eq, h.buf_pos, h.buf_dvd, h.fits, by rw [hc]; exact h.cursor_dvd,
    h.last_dvd, by rw [hr]; exact h.region⟩

/-- Moving the cursor to `v` and the last block to `(p, al)`. -/
theorem move (h : BaseOk m a) (a' : JSArena) (m' : Mem) {v p al : Nat}
    (ha' : a' = { a with lastAllocPtr := some p, lastAllocAligned := al })
    (hm' : m'.readU64 a.buf = v) (hv : 16 ∣ v) (hal : 16 ∣ al) (hR : BumpRegion)
    (hreg : hR = ⟨a.buf + a.floor, a.buf + v, a.buf + a.capacity, some (p, al)⟩) (hok : hR.Ok 16) :
    BaseOk m' a' ∧ a'.region m' = hR := by
  subst ha' hreg
  have hc : arenaCursor m' { a with lastAllocPtr := some p, lastAllocAligned := al } = v := hm'
  have hr : JSArena.region { a with lastAllocPtr := some p, lastAllocAligned := al } m' =
      ⟨a.buf + a.floor, a.buf + v, a.buf + a.capacity, some (p, al)⟩ := by
    simp [JSArena.region, hc]
  exact ⟨⟨h.floor_eq, h.buf_pos, h.buf_dvd, h.fits, by rw [hc]; exact hv, hal,
    by rw [hr]; exact hok⟩, hr⟩

end BaseOk

/-- What a successful base call leaves: the block `p` for `size` bytes, the region `R` after it, and
memory changed only in the cursor and in the first header word of `p`. -/
structure BaseBlock (m : Mem) (a : JSArena) (size : Nat) (R : BumpRegion) (p : Nat) (a' : JSArena)
    (m' : Mem) : Prop where
  size_pos : 0 < size
  buf_eq : a'.buf = a.buf
  capacity_eq : a'.capacity = a.capacity
  above : a.buf + 32 ≤ p
  ptr_dvd : 16 ∣ p
  ok : BaseOk m' a'
  region_eq : a'.region m' = R
  header : arenaUserSize m' p = size
  frame : ∀ x, (x < a.buf ∨ a.buf + 8 ≤ x) → (x < p - 16 ∨ p - 8 ≤ x) → m' x = m x

/-- `arena_alloc` refuses and changes nothing, or pushes a block. -/
theorem arenaAlloc_spec (h : BaseOk m a) (hw : FitsWord (arenaCursor m a) size) :
    arenaAlloc a m size = (none, a, m) ∨
    ∃ a' m', arenaAlloc a m size = (some (a.buf + arenaCursor m a + 16), a', m') ∧
      BaseBlock m a size ((a.region m).push 16 (bodyLen size)) (a.buf + arenaCursor m a + 16) a'
        m' := by
  unfold arenaAlloc
  split
  · exact .inl rfl
  simp only [hw.alignUp, hw.total, hw.sum]
  split
  · exact .inl rfl
  · rename_i hsz hcap
    have hcur := h.floor_le
    obtain ⟨hok, hreg⟩ := h.move
      { a with lastAllocPtr := some (a.buf + arenaCursor m a + 16),
               lastAllocAligned := bodyLen size }
      (arenaSetCursor (m.writeU64 (a.buf + arenaCursor m a) size) a
        (arenaCursor m a + (16 + bodyLen size))) rfl
      (Mem.readU64_writeU64 _ _ (by have := hw.2; omega))
      (Nat.dvd_add h.cursor_dvd (Nat.dvd_add (Nat.dvd_refl 16) (dvd_bodyLen size)))
      (dvd_bodyLen size) ((a.region m).push 16 (bodyLen size))
      (by simp only [BumpRegion.push, JSArena.region]; congr 1; omega)
      (h.region.push (by simp only [JSArena.region]; omega))
    have hdvd : 16 ∣ a.buf + arenaCursor m a + 16 :=
      Nat.dvd_add (Nat.dvd_add h.buf_dvd h.cursor_dvd) (Nat.dvd_refl 16)
    refine .inr ⟨_, _, rfl, by omega, rfl, rfl, by omega, hdvd, hok, hreg, ?_, ?_⟩
    · -- the header word sits above the cursor word
      simp only [arenaUserSize, arenaHeaderSize, arenaSetCursor, Nat.add_sub_cancel]
      rw [Mem.readU64_writeU64_of_disjoint (by omega), Mem.readU64_writeU64 _ _ hw.size_lt]
    · intro x hx hx'
      simp only [arenaSetCursor]
      rw [Mem.writeU64_of_notMem (by omega), Mem.writeU64_of_notMem (by omega)]

/-- The in-place branches of `arena_realloc`: the last block, at `p`, gets a new size. -/
theorem arenaResize_spec (h : BaseOk m a) {p v : Nat} (hlast : a.lastAllocPtr = some p)
    (hsz : 0 < size) (hw : size + 15 < 2 ^ 64) (hv : a.buf + v = p + bodyLen size)
    (hcap : p + bodyLen size ≤ a.buf + a.capacity) :
    BaseBlock m a size ((a.region m).resize p (bodyLen size)) p
      { a with lastAllocAligned := bodyLen size }
      (arenaSetUserSize (arenaSetCursor m a v) p size) := by
  have hl : (a.region m).last = some (p, a.lastAllocAligned) := by
    simp [JSArena.region, hlast]
  obtain ⟨hp, htop⟩ := h.region.last_top _ _ hl
  simp only [JSArena.region, h.floor_eq, arenaPrefixLen] at hp htop
  have hfits := h.fits
  have hpos := h.buf_pos
  have hpdvd : 16 ∣ p := by
    have h1 : 16 ∣ p + a.lastAllocAligned :=
      htop ▸ Nat.dvd_add h.buf_dvd h.cursor_dvd
    exact (Nat.dvd_add_left h.last_dvd).1 h1
  have hvdvd : 16 ∣ v := by
    have h1 : 16 ∣ a.buf + v := hv ▸ Nat.dvd_add hpdvd (dvd_bodyLen size)
    exact (Nat.dvd_add_right h.buf_dvd).1 h1
  have hread : (arenaSetUserSize (arenaSetCursor m a v) p size).readU64 a.buf = v := by
    rw [arenaSetUserSize, Mem.readU64_writeU64_of_disjoint (by simp only [arenaHeaderSize]; omega),
      arenaSetCursor, Mem.readU64_writeU64 _ _ (by omega)]
  obtain ⟨hok, hreg⟩ := h.move { a with lastAllocAligned := bodyLen size } _
    (by rw [← hlast]) hread hvdvd (dvd_bodyLen size) ((a.region m).resize p (bodyLen size))
    (by simp only [BumpRegion.resize, JSArena.region, hv]) (h.region.resize hl hcap)
  refine ⟨hsz, rfl, rfl, by omega, hpdvd, hok, hreg, ?_, ?_⟩
  · exact Mem.readU64_writeU64 _ _ (by omega)
  · intro x hx hx'
    simp only [arenaSetUserSize, arenaHeaderSize, arenaSetCursor]
    rw [Mem.writeU64_of_notMem (by omega), Mem.writeU64_of_notMem (by omega)]

/-- `arena_realloc` of the block `p` resizes it in place, if it is the last one, or takes the
copying path. -/
theorem arenaRealloc_cases (h : BaseOk m a) {p : Nat} (hw : FitsWord (arenaCursor m a) size) :
    (∃ a' m', arenaRealloc a m (some p) size = (some p, a', m') ∧ a.lastAllocPtr = some p ∧
      BaseBlock m a size ((a.region m).resize p (bodyLen size)) p a' m') ∨
    arenaRealloc a m (some p) size = arenaReallocCopy a m p size (arenaUserSize m p) := by
  unfold arenaRealloc
  simp only [hw.alignUp]
  split
  · next hz => exact .inr (by rw [arenaReallocCopy, arenaAlloc, if_pos hz])
  rename_i hsz
  split
  · rename_i hlast
    have hl : (a.region m).last = some (p, a.lastAllocAligned) := by
      simp [JSArena.region, hlast]
    obtain ⟨-, htop⟩ := h.region.last_top _ _ hl
    simp only [JSArena.region] at htop
    have hle := h.le_capacity
    have hfits := h.fits
    have hpos := h.buf_pos
    split
    · -- the block shrinks: the cursor moves down by the difference
      have hsub : Word.sub (arenaCursor m a) (a.lastAllocAligned - bodyLen size) =
          arenaCursor m a - (a.lastAllocAligned - bodyLen size) :=
        Word.sub_eq (by omega)
          (by have := h.region.last_top _ _ hl; simp only [JSArena.region] at this; omega)
      rw [hsub]
      refine .inl ⟨_, _, rfl, hlast, ?_⟩
      have hp := (h.region.last_top _ _ hl).1
      simp only [JSArena.region] at hp
      exact arenaResize_spec h hlast (by omega) hw.1 (by omega) (by omega)
    · have hadd : Word.add (arenaCursor m a) (bodyLen size - a.lastAllocAligned) =
          arenaCursor m a + (bodyLen size - a.lastAllocAligned) :=
        Word.add_eq (by have := hw.2; omega)
      rw [hadd]
      split
      · refine .inl ⟨_, _, rfl, hlast, ?_⟩
        exact arenaResize_spec h hlast (by omega) hw.1 (by omega) (by omega)
      · exact .inr rfl
  · exact .inr rfl

end ArenaJs
