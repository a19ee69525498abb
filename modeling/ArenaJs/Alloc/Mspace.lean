import ArenaJs.Lib.Memory
import ArenaJs.Lib.Span

/-!
# dlmalloc's mspace, as the request arenas use it

dlmalloc is vendored unmodified and enters the model as a parameter. A call on a space either ends
(`MsCall.done`, with the pointer, the next state and the bytes it wrote) or comes back through
`MORECORE` (`MsCall.morecore`) and goes on with the answer.

A space is placed by its owner: it sees every address `a` as `a + 2 ^ 64 - head`, where `head` is
the start of the arena's head extent (`toView`). A space is thereby a function of the size of its
initial region, of the calls made on it and of the answers to `MORECORE`, and not of where the
head extent was mapped.

`Mspace.Contract` is what the arenas rely on: returned blocks are aligned, cover memory the space
was given, do not overlap (each with the head word before it) and keep their bytes until freed.
A block may span two segments that touch: `sys_alloc` merges a segment that starts where another
ends.
-/

namespace ArenaJs

/-! ## Placement -/

/-- The address a space placed at `head` has for `a`. -/
def toView (head a : Nat) : Nat := a + 2 ^ 64 - head

/-- The address a space placed at `head` calls `v`. -/
def ofView (head v : Nat) : Nat := v + head - 2 ^ 64

theorem ofView_toView {head a : Nat} (h : head ≤ 2 ^ 64) : ofView head (toView head a) = a := by
  unfold ofView toView; omega

theorem toView_ofView {head v : Nat} (h : 2 ^ 64 ≤ v + head) :
    toView head (ofView head v) = v := by
  unfold ofView toView; omega

/-- A memory transformation of the placed space, on the memory itself. -/
def applyView (head : Nat) (eff : Mem → Mem) (m : Mem) : Mem :=
  fun a => eff (fun v => m (ofView head v)) (toView head a)

/-! ## Calls -/

/-- A call on a space: done, or waiting for an answer of `MORECORE(n)`; `none` is `MFAIL`. -/
inductive MsCall (σ : Type) where
  | done (ret : Option Nat) (st : σ) (eff : Mem → Mem)
  | morecore (n : Int) (k : Option Nat → MsCall σ)

/-- The mspace interface of dlmalloc. With `MORECORE_CANNOT_TRIM`, `mspace_free` never calls
`MORECORE`. -/
structure Mspace (σ : Type) where
  /-- `create_mspace_with_base(base, size, 0)`. -/
  create : Nat → Nat → σ × (Mem → Mem)
  /-- `mspace_malloc`. -/
  malloc : σ → Nat → MsCall σ
  /-- `mspace_calloc`. -/
  calloc : σ → Nat → Nat → MsCall σ
  /-- `mspace_realloc`. -/
  realloc : σ → Nat → Nat → MsCall σ
  /-- `mspace_free`. -/
  free : σ → Nat → σ × (Mem → Mem)
  /-- `mspace_usable_size`. -/
  usable : σ → Nat → Nat

/-! ## The contract -/

/-- The bytes of a block of `u` usable bytes at `p`, with the head word before it. -/
def msFoot (p u : Nat) : Span := ⟨p - 8, p + u⟩

/-- A transformation that writes only inside `segs` and outside the blocks of `L`. -/
def MsFrame (segs : List Span) (L : Set (Nat × Nat)) (eff : Mem → Mem) : Prop :=
  ∀ m x, ((∀ s ∈ segs, ¬ s.Has x) ∨ ∃ b ∈ L, b.1 ≤ x ∧ x < b.1 + b.2) → eff m x = m x

/-- `Q` holds at the end of a call, whatever `MORECORE` answers: `MFAIL`, or a segment of at least
the bytes asked for, chunk-aligned and disjoint from those the space has. `MORECORE(0)` answers with
the end of the segment handed out last. dlmalloc never asks for half the address space. -/
def MsCall.Sat {σ : Type} (Q : List Span → Option Nat → σ → (Mem → Mem) → Prop) :
    MsCall σ → List Span → Option Nat → Prop
  | .done ret st eff, segs, _ => Q segs ret st eff
  | .morecore n k, segs, brk =>
    if n = 0 then (k brk).Sat Q segs brk
    else if n < 0 then (k none).Sat Q segs brk
    else n < 2 ^ 63 ∧ (k none).Sat Q segs brk ∧
      ∀ s : Span, s.lo + n.toNat ≤ s.hi → 4096 ∣ s.lo → (∀ t ∈ segs, s.Disjoint t) →
        (k (some s.lo)).Sat Q (s :: segs) (some s.hi)

/-- The blocks that remain when the one at `p` is gone. -/
def msRemove (L : Set (Nat × Nat)) (p : Nat) : Set (Nat × Nat) := {b ∈ L | b.1 ≠ p}

/-- What the arenas rely on. `Inv st segs L`: the space in state `st` owns the segments `segs` and
has handed out the blocks `L`, pairs of a pointer and its usable size. -/
structure Mspace.Contract {σ : Type} (M : Mspace σ) where
  Inv : σ → List Span → Set (Nat × Nat) → Prop
  aligned : ∀ {st segs L}, Inv st segs L → ∀ b ∈ L, 16 ∣ b.1
  usable_eq : ∀ {st segs L}, Inv st segs L → ∀ b ∈ L, M.usable st b.1 = b.2
  usable_pos : ∀ {st segs L}, Inv st segs L → ∀ b ∈ L, 0 < b.2
  covered : ∀ {st segs L}, Inv st segs L → ∀ b ∈ L, ∀ x, (msFoot b.1 b.2).Has x →
    ∃ s ∈ segs, s.Has x
  disjoint : ∀ {st segs L}, Inv st segs L → ∀ b ∈ L, ∀ c ∈ L, b ≠ c →
    (msFoot b.1 b.2).Disjoint (msFoot c.1 c.2)
  create : ∀ lo len, 16 ∣ lo → Inv (M.create lo len).1 [⟨lo, lo + len⟩] ∅ ∧
    MsFrame [⟨lo, lo + len⟩] ∅ (M.create lo len).2
  malloc : ∀ {st segs L} n brk, Inv st segs L → (M.malloc st n).Sat (fun segs' ret st' eff =>
    MsFrame segs' L eff ∧ match ret with
      | none => Inv st' segs' L
      | some p => ∃ u, n ≤ u ∧ (∀ v, (p, v) ∉ L) ∧ Inv st' segs' (insert (p, u) L)) segs brk
  calloc : ∀ {st segs L} c n brk, Inv st segs L → (M.calloc st c n).Sat (fun segs' ret st' eff =>
    MsFrame segs' L eff ∧ match ret with
      | none => Inv st' segs' L
      | some p => (∃ u, c * n ≤ u ∧ (∀ v, (p, v) ∉ L) ∧ Inv st' segs' (insert (p, u) L)) ∧
          ∀ m i, i < c * n → eff m (p + i) = 0) segs brk
  realloc : ∀ {st segs L} p u n brk, Inv st segs L → (p, u) ∈ L →
    (M.realloc st p n).Sat (fun segs' ret st' eff => match ret with
      | none => MsFrame segs' L eff ∧ Inv st' segs' L
      | some q => MsFrame segs' (msRemove L p) eff ∧
          (∃ v, n ≤ v ∧ (∀ w, (q, w) ∉ msRemove L p) ∧
            Inv st' segs' (insert (q, v) (msRemove L p))) ∧
          ∀ m i, i < u → i < n → eff m (q + i) = m (p + i)) segs brk
  free : ∀ {st segs L} p u, Inv st segs L → (p, u) ∈ L →
    Inv (M.free st p).1 segs (msRemove L p) ∧ MsFrame segs (msRemove L p) (M.free st p).2

end ArenaJs
