import ArenaJs.Alloc.Dual
import ArenaJs.Alloc.RequestSpec

/-!
# Arenas by the places of their blocks

Two arenas in one mode that differ only in where their extents are are `Twin`s. A bump allocator
never looks at addresses: what one arena has at a place, an offset in an extent, the other has at
the same place. An mspace sees addresses relative to the head extent, so the extents of the two
arenas are at the same distance from their heads, and the same address is one at the same distance.

The same calls, with providers that take the same decisions (`SameOffer`), keep the arenas twins and
return the same address (`reqBumpAlloc_twin`, `reqBumpRealloc_twin`, `raMorecore_twin`,
`runMs_twin`). Memory never enters: sizes read from it are only copied by.

A block is at the place of its header. The header is inside an extent also when the block is empty
and the extent ends with it, which the address of the block is not.
-/

namespace ArenaJs

variable {σ : Type} {H : Host σ} {head : Nat} {ra ra' ra'' : RequestArena σ}
  {ds ds' : List Decision}

/-! ## Places -/

/-- The extent that holds an address, and the offset in it. -/
def locate : List ReqChunk → Nat → Option (Nat × Nat)
  | [], _ => none
  | c :: cs, p =>
    if c.span.Has p then some (0, p - c.buf) else (locate cs p).map fun x => (x.1 + 1, x.2)

/-- No two extents overlap. -/
abbrev Spread (cs : List ReqChunk) : Prop := cs.Pairwise fun c d => c.span.Disjoint d.span

theorem locate_eq {cs : List ReqChunk} {i o : Nat} {c : ReqChunk} (h : Spread cs)
    (hc : cs[i]? = some c) (ho : o < c.size) : locate cs (c.buf + o) = some (i, o) := by
  have hhas : c.span.Has (c.buf + o) := by
    simp only [Span.Has, ReqChunk.span]
    omega
  induction cs generalizing i with
  | nil => cases hc
  | cons d cs ih =>
    obtain ⟨hd, hcs⟩ := List.pairwise_cons.1 h
    cases i with
    | zero =>
      cases hc
      rw [locate, if_pos hhas, Nat.add_sub_cancel_left]
    | succ i =>
      have hne := (hd c (List.mem_of_getElem? hc)).symm.not_has hhas
      rw [locate, if_neg hne, ih hcs hc]
      rfl

/-- The same place in two lists of extents. -/
inductive SamePlace (cs ds : List ReqChunk) : Nat → Nat → Prop
  | intro (i o : Nat) {c d : ReqChunk} (hc : cs[i]? = some c) (hd : ds[i]? = some d)
    (ho : o < c.size) (ho' : o < d.size) : SamePlace cs ds (c.buf + o) (d.buf + o)

/-- `n` bytes after the same place. -/
def SameAfter (n : Nat) (cs ds : List ReqChunk) (p q : Nat) : Prop :=
  ∃ p' q', SamePlace cs ds p' q' ∧ p = p' + n ∧ q = q' + n

section
variable {cs ds : List ReqChunk} {p q p' q' n : Nat}

theorem SamePlace.locate (h : SamePlace cs ds p q) (hcs : Spread cs) (hds : Spread ds) :
    locate cs p = locate ds q := by
  obtain ⟨i, o, hc, hd, ho, ho'⟩ := h
  rw [locate_eq hcs hc ho, locate_eq hds hd ho']

theorem SamePlace.eq_iff (h : SamePlace cs ds p q) (h' : SamePlace cs ds p' q') (hcs : Spread cs)
    (hds : Spread ds) : p = p' ↔ q = q' := by
  obtain ⟨i, o, hc, hd, ho, ho'⟩ := h
  obtain ⟨j, u, hc', hd', hu, hu'⟩ := h'
  constructor
  · intro e
    have hplace := (locate_eq hcs hc ho).symm.trans (e ▸ locate_eq hcs hc' hu)
    cases hplace
    cases hd.symm.trans hd'
    rfl
  · intro e
    have hplace := (locate_eq hds hd ho').symm.trans (e ▸ locate_eq hds hd' hu')
    cases hplace
    cases hc.symm.trans hc'
    rfl

theorem SameAfter.eq_iff (h : SameAfter n cs ds p q) (h' : SameAfter n cs ds p' q')
    (hcs : Spread cs) (hds : Spread ds) : p = p' ↔ q = q' := by
  obtain ⟨a, b, hab, rfl, rfl⟩ := h
  obtain ⟨a', b', hab', rfl, rfl⟩ := h'
  rw [Nat.add_right_cancel_iff, Nat.add_right_cancel_iff]
  exact hab.eq_iff hab' hcs hds

/-- More extents do not move a place. -/
theorem SameAfter.append (h : SameAfter n cs ds p q) (xs ys : List ReqChunk) :
    SameAfter n (cs ++ xs) (ds ++ ys) p q := by
  obtain ⟨_, _, ⟨i, o, hc, hd, ho, ho'⟩, rfl, rfl⟩ := h
  have hlt := (List.getElem?_eq_some_iff.1 hc).1
  have hlt' := (List.getElem?_eq_some_iff.1 hd).1
  exact ⟨_, _, ⟨i, o, by rw [List.getElem?_append_left hlt, hc],
    by rw [List.getElem?_append_left hlt', hd], ho, ho'⟩, rfl, rfl⟩

end

/-- Where the head extent is. -/
structure HeadAt (head : Nat) (ra : RequestArena σ) : Prop where
  ne : ra.chunks ≠ []
  headBuf : ra.headBuf = head
  le : head ≤ 2 ^ 64

/-! ## Growth -/

/-- `ra'` is `ra` with extents taken from the offers `ds`. -/
structure Grew (ds : List Decision) (ra ra' : RequestArena σ) : Prop where
  id : ra'.id = ra.id
  mode : ra'.mode = ra.mode
  chunks : ∃ cs, ra'.chunks = ra.chunks ++ cs ∧ ∀ c ∈ cs, ∃ s, some s ∈ ds ∧ c.span.Within s

namespace Grew

theorem of_chunks (hid : ra'.id = ra.id) (hm : ra'.mode = ra.mode) (hc : ra'.chunks = ra.chunks) :
    Grew ds ra ra' := ⟨hid, hm, [], by rw [hc, List.append_nil], by rintro _ ⟨⟩⟩

theorem refl (ra : RequestArena σ) : Grew ds ra ra := .of_chunks rfl rfl rfl

theorem trans (h : Grew ds ra ra') (h' : Grew ds' ra' ra'') (hs : ∀ d ∈ ds', d ∈ ds) :
    Grew ds ra ra'' := by
  obtain ⟨hid, hm, cs, hc, hcs⟩ := h
  obtain ⟨hid', hm', cs', hc', hcs'⟩ := h'
  refine ⟨hid'.trans hid, hm'.trans hm,
    cs ++ cs', by rw [hc', hc, List.append_assoc], fun c h => ?_⟩
  rcases List.mem_append.1 h with h | h
  · exact hcs c h
  · obtain ⟨s, hs', hw⟩ := hcs' c h
    exact ⟨s, hs _ hs', hw⟩

/-- A last change that takes no extent. -/
theorem set (h : Grew ds ra ra') (hid : ra''.id = ra'.id) (hm : ra''.mode = ra'.mode)
    (hc : ra''.chunks = ra'.chunks) : Grew ds ra ra'' :=
  h.trans (.of_chunks hid hm hc : Grew [] ra' ra'') (by rintro _ ⟨⟩)

theorem noteOom (h : Grew ds ra ra') (n : Nat) : Grew ds ra (noteOom .request ra' n) := by
  unfold ArenaJs.noteOom
  split
  · exact h
  · exact h.set rfl rfl rfl

/-- The head stays where it is. -/
theorem headAt (h : Grew ds ra ra') (hh : HeadAt head ra) : HeadAt head ra' := by
  obtain ⟨-, -, cs, hc, -⟩ := h
  obtain ⟨d, cs', hd⟩ := List.exists_cons_of_ne_nil hh.ne
  refine ⟨by rw [hc]; simp [hh.ne], ?_, hh.le⟩
  rw [← hh.headBuf]
  simp [RequestArena.headBuf, hc, hd]

end Grew

/-! ## The operations -/

/-- A granted range is an offered one, from its start. -/
theorem provAcquire_some {d : Decision} {size buf : Nat} (h : provAcquire d size = some buf) :
    ∃ s, d = some s ∧ buf = s.lo ∧ buf + size ≤ s.hi := by
  unfold provAcquire at h
  split at h
  · cases h
  · rename_i s
    split at h
    · rename_i hfit
      cases h
      exact ⟨s, rfl, rfl, hfit⟩
    · cases h

/-- `req_acquire` takes at most one extent, from the first offer. -/
theorem reqAcquire_grew (ra : RequestArena σ) (need : Nat) (ds : List Decision) :
    Grew ds ra (reqAcquire H ra need ds).2.1 ∧ ∀ d ∈ (reqAcquire H ra need ds).2.2, d ∈ ds := by
  unfold reqAcquire
  split
  · exact ⟨.refl ra, fun _ => id⟩
  · split
    · exact ⟨.refl ra, fun _ => List.mem_of_mem_tail⟩
    · rename_i size _ buf hbuf
      obtain ⟨s, hd, rfl, hfit⟩ := provAcquire_some hbuf
      refine ⟨⟨rfl, rfl, [_], rfl, List.forall_mem_singleton.2 ⟨s, ?_, Nat.le_refl _, hfit⟩⟩,
        fun _ => List.mem_of_mem_tail⟩
      cases ds with
      | nil => cases hd
      | cons d ds =>
        cases hd
        exact List.mem_cons_self

theorem reqBumpRoom_grew (ra : RequestArena σ) (total : Nat) (ds : List Decision) :
    Grew ds ra (reqBumpRoom H ra total ds).2 := by
  have hg := (reqAcquire_grew (H := H) ra total ds).1
  unfold reqBumpRoom
  split
  · exact .refl ra
  split
  · generalize reqAcquire H ra total ds = r at hg ⊢
    obtain ⟨_ | c, ra', es⟩ := r
    · exact hg
    · exact hg.set rfl rfl rfl
  · exact .refl ra

theorem reqBumpAlloc_grew (ra : RequestArena σ) (m : Mem) (size : Nat) (ds : List Decision) :
    Grew ds ra (reqBumpAlloc H ra m size ds).2.1 := by
  unfold reqBumpAlloc
  split
  · exact .refl ra
  have hg := reqBumpRoom_grew (H := H) ra
    (Word.add arenaHeaderSize (Word.alignUp arenaAlign size)) ds
  dsimp only
  generalize reqBumpRoom H ra _ ds = r at hg ⊢
  obtain ⟨_ | c, ra'⟩ := r
  · exact hg
  · exact hg.set rfl rfl rfl

theorem reqBumpRealloc_grew (ra : RequestArena σ) (m : Mem) (p size old : Nat)
    (ds : List Decision) : Grew ds ra (reqBumpRealloc H ra m p size old ds).2.1 := by
  have hcopy : Grew ds ra (reqBumpReallocCopy H ra m p size old ds).2.1 := by
    have hg := reqBumpAlloc_grew (H := H) ra m size ds
    unfold reqBumpReallocCopy
    generalize reqBumpAlloc H ra m size ds = r at hg ⊢
    obtain ⟨_ | q, ra', m'⟩ := r
    · exact hg
    · exact hg
  unfold reqBumpRealloc
  dsimp only
  split
  · split
    · exact .of_chunks rfl rfl rfl
    · split
      · exact .of_chunks rfl rfl rfl
      · exact hcopy
  · exact hcopy

theorem raMorecore_grew (ra : RequestArena σ) (n : Int) (ds : List Decision) :
    Grew ds ra (raMorecore H ra n ds).2.1 ∧ ∀ d ∈ (raMorecore H ra n ds).2.2, d ∈ ds := by
  have hg := reqAcquire_grew (H := H) ra n.toNat ds
  unfold raMorecore
  split
  · exact ⟨.refl ra, fun _ => id⟩
  split
  · exact ⟨.refl ra, fun _ => id⟩
  generalize reqAcquire H ra n.toNat ds = r at hg ⊢
  obtain ⟨_ | c, ra', es⟩ := r
  · exact hg
  · exact ⟨hg.1.set rfl rfl rfl, hg.2⟩

theorem runMs_grew : ∀ (call : MsCall σ) (ra : RequestArena σ) (m : Mem) (ds : List Decision),
    Grew ds ra (runMs H call ra m ds).2.1
  | .done _ _ _, _, _, _ => .of_chunks rfl rfl rfl
  | .morecore n k, ra, m, ds => by
    obtain ⟨hg, hs⟩ := raMorecore_grew (H := H) ra n ds
    exact hg.trans (runMs_grew (k _) _ m _) hs

/-! ## Twins -/

theorem toView_offset (h : head ≤ 2 ^ 64) (a x : Nat) :
    toView head (a + x) = toView head a + x := by
  unfold toView
  omega

/-- The same address in two arenas with their heads at `headA` and `headB`: the same relative to the
head where an mspace runs, else `n` bytes after the same place. -/
def Near (mode : ReqMode) (headA headB n : Nat) (cs ds : List ReqChunk) (p q : Nat) : Prop :=
  match mode with
  | .gc => toView headA p = toView headB q
  | .bump => SameAfter n cs ds p q

/-- Two extents at the same position in the lists. -/
structure SameExtent (mode : ReqMode) (headA headB : Nat) (c d : ReqChunk) : Prop where
  size : c.size = d.size
  place : mode = .gc → toView headA c.buf = toView headB d.buf

/-- Two providers take the same decision: they grant and refuse the same sizes, and, where an mspace
is to see what is granted, at the same distance from the head. -/
structure SameOffer (mode : ReqMode) (headA headB : Nat) (d d' : Decision) : Prop where
  grants : ∀ size, (provAcquire d size).isSome = (provAcquire d' size).isSome
  place : mode = .gc → d.map (fun s => toView headA s.lo) = d'.map fun s => toView headB s.lo

/-- What a call depends on that is no address, without what the other mode has left. -/
def RequestArena.scalars (mode : ReqMode) (ra : RequestArena σ) : RequestArena σ :=
  let ra := { ra with id := 0, chunks := [], cur := none, lastAllocPtr := none, brk := none,
                      modeNext := .gc }
  match mode with
  | .gc => { ra with cursor := 0, bumpUsed := 0, lastAllocAligned := 0 }
  | .bump => { ra with msp := none, used := 0 }

/-- What a bump allocator has at places: its current extent and its last block. -/
structure BumpTwin (ra rb : RequestArena σ) : Prop where
  spread : Spread ra.chunks
  spread' : Spread rb.chunks
  cur : ∃ (i : Nat) (c d : ReqChunk), ra.chunks[i]? = some c ∧ rb.chunks[i]? = some d ∧
    ra.cur = some c ∧ rb.cur = some d
  last : Option.Rel (SameAfter arenaHeaderSize ra.chunks rb.chunks) ra.lastAllocPtr rb.lastAllocPtr

/-- Two arenas that differ only in where their extents are. -/
structure Twin (mode : ReqMode) (headA headB : Nat) (ra rb : RequestArena σ) : Prop where
  mode_eq : ra.mode = mode
  scalars : ra.scalars mode = rb.scalars mode
  chunks : List.Forall₂ (SameExtent mode headA headB) ra.chunks rb.chunks
  brk : Option.Rel (Near mode headA headB 1 ra.chunks rb.chunks) ra.brk rb.brk
  bump : mode = .bump → BumpTwin ra rb

/-- The offers to two arenas: the same decisions, and memory that a bump arena does not have. -/
structure OfferTwin (mode : ReqMode) (headA headB : Nat) (ra rb : RequestArena σ)
    (ds ds' : List Decision) : Prop where
  alike : List.Forall₂ (SameOffer mode headA headB) ds ds'
  fresh : mode = .bump → ∀ s, some s ∈ ds → ∀ c ∈ ra.chunks, c.span.Disjoint s
  fresh' : mode = .bump → ∀ s, some s ∈ ds' → ∀ c ∈ rb.chunks, c.span.Disjoint s

section
variable {mode : ReqMode} {headA headB n : Nat} {rb rb' : RequestArena σ} {need size : Nat}

theorem rel_sameAfter_append {cs ds : List ReqChunk} {o o' : Option Nat}
    (h : Option.Rel (SameAfter n cs ds) o o') (xs ys : List ReqChunk) :
    Option.Rel (SameAfter n (cs ++ xs) (ds ++ ys)) o o' := by
  cases h with
  | none => exact .none
  | some h => exact .some (h.append xs ys)

theorem rel_append {cs ds : List ReqChunk} {o o' : Option Nat}
    (h : Option.Rel (Near mode headA headB n cs ds) o o') (xs ys : List ReqChunk) :
    Option.Rel (Near mode headA headB n (cs ++ xs) (ds ++ ys)) o o' := by
  cases mode with
  | gc => exact h
  | bump => exact rel_sameAfter_append h xs ys

/-- The extents at a position: one in each arena, or none. -/
theorem sameExtent_getElem {cs ds : List ReqChunk}
    (h : List.Forall₂ (SameExtent mode headA headB) cs ds) (i : Nat) :
    Option.Rel (SameExtent mode headA headB) cs[i]? ds[i]? := by
  induction h generalizing i with
  | nil => exact .none
  | cons hc _ ih =>
    cases i with
    | zero => exact .some hc
    | succ i => exact ih i

namespace Twin

theorem field {α : Type} (t : Twin mode headA headB ra rb) (f : RequestArena σ → α)
    (h : ∀ v, f (RequestArena.scalars mode v) = f v) : f ra = f rb := by
  rw [← h ra, t.scalars, h]

theorem mode_eq' (t : Twin mode headA headB ra rb) : rb.mode = mode := by
  rw [← t.mode_eq]
  exact (t.field RequestArena.mode fun _ => by cases mode <;> rfl).symm

theorem cursor (t : Twin .bump headA headB ra rb) : ra.cursor = rb.cursor :=
  t.field RequestArena.cursor fun _ => rfl

theorem used (t : Twin .bump headA headB ra rb) : ra.bumpUsed = rb.bumpUsed :=
  t.field RequestArena.bumpUsed fun _ => rfl

theorem msp (t : Twin .gc headA headB ra rb) : ra.msp = rb.msp :=
  t.field RequestArena.msp fun _ => rfl

/-- The extents of two bump arenas at the same position have the same size. -/
theorem size_eq (t : Twin mode headA headB ra rb) {i : Nat} {c d : ReqChunk}
    (hc : ra.chunks[i]? = some c) (hd : rb.chunks[i]? = some d) : c.size = d.size := by
  have h := sameExtent_getElem t.chunks i
  rw [hc, hd] at h
  cases h with
  | some h => exact h.size

theorem curSize (t : Twin .bump headA headB ra rb) :
    (ra.cur.map ReqChunk.size).getD 0 = (rb.cur.map ReqChunk.size).getD 0 := by
  obtain ⟨i, c, d, hc, hd, ha, hb⟩ := (t.bump rfl).cur
  rw [ha, hb]
  exact t.size_eq hc hd

theorem setOom (t : Twin mode headA headB ra rb) (oom : ArenaOOM) :
    Twin mode headA headB { ra with oom } { rb with oom } := by
  have hs := congrArg (fun v : RequestArena σ => { v with oom }) t.scalars
  refine ⟨t.mode_eq, ?_, t.chunks, t.brk, fun h => { t.bump h with }⟩
  cases mode <;> exact hs

theorem setCursor (t : Twin .bump headA headB ra rb) (cursor bumpUsed lastAllocAligned : Nat) :
    Twin .bump headA headB { ra with cursor, bumpUsed, lastAllocAligned }
      { rb with cursor, bumpUsed, lastAllocAligned } :=
  have hs := congrArg (fun v : RequestArena σ =>
    { v with cursor, bumpUsed, lastAllocAligned }) t.scalars
  ⟨t.mode_eq, hs, t.chunks, t.brk, fun h => { t.bump h with }⟩

/-- What an mspace call leaves. -/
theorem setSpace (t : Twin .gc headA headB ra rb) {msp msp' : Option σ} {used used' : Nat}
    (hmsp : msp = msp') (hused : used = used') :
    Twin .gc headA headB { ra with msp, used } { rb with msp := msp', used := used' } := by
  subst hmsp hused
  have hs := congrArg (fun v : RequestArena σ => { v with msp, used }) t.scalars
  exact ⟨t.mode_eq, hs, t.chunks, t.brk, by rintro ⟨⟩⟩

theorem noteOom (t : Twin mode headA headB ra rb) (n : Nat) :
    Twin mode headA headB (noteOom .request ra n) (noteOom .request rb n) := by
  have hoom : ra.oom = rb.oom := t.field RequestArena.oom fun _ => by cases mode <;> rfl
  have hused : (if ra.mode = .gc then ra.used else ra.bumpUsed) =
      if rb.mode = .gc then rb.used else rb.bumpUsed := by
    rw [t.mode_eq, t.mode_eq']
    cases mode with
    | gc => exact t.field RequestArena.used fun _ => rfl
    | bump => exact t.used
  have hbudget : (if ra.cap = Word.sizeMax then Word.sizeMax else Word.sub ra.cap ra.floor) =
      if rb.cap = Word.sizeMax then Word.sizeMax else Word.sub rb.cap rb.floor :=
    t.field (fun v => if v.cap = Word.sizeMax then Word.sizeMax else Word.sub v.cap v.floor)
      fun _ => by cases mode <;> rfl
  have hrecord : (⟨true, n, if ra.mode = .gc then ra.used else ra.bumpUsed,
      if ra.cap = Word.sizeMax then Word.sizeMax else Word.sub ra.cap ra.floor⟩ : ArenaOOM) =
      ⟨true, n, if rb.mode = .gc then rb.used else rb.bumpUsed,
        if rb.cap = Word.sizeMax then Word.sizeMax else Word.sub rb.cap rb.floor⟩ := by
    rw [hused, hbudget]
  unfold ArenaJs.noteOom
  simp only [hoom]
  split
  · exact t
  · rw [hrecord]
    exact t.setOom _

/-- Each arena gets another extent. -/
theorem grow (t : Twin mode headA headB ra rb) (h : OfferTwin mode headA headB ra rb ds ds')
    {c d : ReqChunk} (hcd : SameExtent mode headA headB c d) {s s' : Span} (hs : some s ∈ ds)
    (hs' : some s' ∈ ds') (hc : c.span.Within s) (hd : d.span.Within s') :
    Twin mode headA headB
      { ra with chunks := ra.chunks ++ [c], extents := Word.add ra.extents 1,
                held := Word.add ra.held c.size }
      { rb with chunks := rb.chunks ++ [d], extents := Word.add rb.extents 1,
                held := Word.add rb.held d.size } where
  mode_eq := t.mode_eq
  scalars := by
    have hs := congrArg (fun v : RequestArena σ => { v with
      extents := Word.add v.extents 1, held := Word.add v.held c.size }) t.scalars
    rw [← hcd.size]
    cases mode <;> exact hs
  chunks := List.rel_append t.chunks (.cons hcd .nil)
  brk := rel_append t.brk _ _
  bump hm := by
    have b := t.bump hm
    subst hm
    obtain ⟨i, x, y, hx, hy, ha, hb⟩ := b.cur
    have hlt := (List.getElem?_eq_some_iff.1 hx).1
    have hlt' := (List.getElem?_eq_some_iff.1 hy).1
    refine ⟨List.pairwise_append.2 ⟨b.spread, List.pairwise_singleton _ _, fun x hx =>
        List.forall_mem_singleton.2 ((h.fresh rfl s hs x hx).mono .refl hc)⟩,
      List.pairwise_append.2 ⟨b.spread', List.pairwise_singleton _ _, fun x hx =>
        List.forall_mem_singleton.2 ((h.fresh' rfl s' hs' x hx).mono .refl hd)⟩,
      ⟨i, x, y, ?_, ?_, ha, hb⟩, rel_sameAfter_append b.last _ _⟩
    · rw [List.getElem?_append_left hlt, hx]
    · rw [List.getElem?_append_left hlt', hy]

end Twin

/-! ## The operations on twins -/

/-- The decisions taken first. -/
theorem OfferTwin.first (h : OfferTwin mode headA headB ra rb ds ds') :
    SameOffer mode headA headB (ds.head?.getD none) (ds'.head?.getD none) := by
  cases h.alike with
  | nil => exact ⟨fun _ => rfl, fun _ => rfl⟩
  | cons hd _ => exact hd

theorem mem_of_first {s : Span} (h : ds.head?.getD none = some s) : some s ∈ ds := by
  cases ds with
  | nil => cases h
  | cons d ds =>
    cases h
    exact List.mem_cons_self

theorem forall₂_tail {α β : Type} {R : α → β → Prop} {l : List α} {l' : List β}
    (h : List.Forall₂ R l l') : List.Forall₂ R l.tail l'.tail := by
  cases h with
  | nil => exact .nil
  | cons _ h => exact h

/-- `req_acquire` refuses in both arenas, or both get an extent. -/
theorem reqAcquire_twin (need : Nat) (t : Twin mode headA headB ra rb)
    (h : OfferTwin mode headA headB ra rb ds ds') :
    ∃ es es', List.Forall₂ (SameOffer mode headA headB) es es' ∧
      (reqAcquire H ra need ds = (none, ra, es) ∧ reqAcquire H rb need ds' = (none, rb, es') ∨
        ∃ c d ra' rb', reqAcquire H ra need ds = (some c, ra', es) ∧
          reqAcquire H rb need ds' = (some d, rb', es') ∧ ra'.chunks = ra.chunks ++ [c] ∧
          rb'.chunks = rb.chunks ++ [d] ∧ acquireSize H ra.cap ra.held need = some c.size ∧
          SameExtent mode headA headB c d ∧ Twin mode headA headB ra' rb') := by
  have hpolicy : acquireSize H ra.cap ra.held need = acquireSize H rb.cap rb.held need :=
    t.field (fun v => acquireSize H v.cap v.held need) fun _ => by cases mode <;> rfl
  unfold reqAcquire
  rw [← hpolicy]
  cases hsize : acquireSize H ra.cap ra.held need with
  | none => exact ⟨ds, ds', h.alike, .inl ⟨rfl, rfl⟩⟩
  | some size =>
    refine ⟨ds.tail, ds'.tail, forall₂_tail h.alike, ?_⟩
    have hgrant := h.first.grants size
    simp only
    cases ha : provAcquire (ds.head?.getD none) size with
    | none =>
      rw [ha] at hgrant
      rw [Option.isSome_eq_false_iff.1 hgrant.symm |> Option.isNone_iff_eq_none.1]
      exact .inl ⟨rfl, rfl⟩
    | some buf =>
      rw [ha] at hgrant
      obtain ⟨buf', hb⟩ := Option.isSome_iff_exists.1 hgrant.symm
      rw [hb]
      obtain ⟨s, hs, rfl, hin⟩ := provAcquire_some ha
      obtain ⟨s', hs', rfl, hin'⟩ := provAcquire_some hb
      have hc : (ReqChunk.span ⟨s.lo, size⟩).Within s := ⟨Nat.le_refl _, hin⟩
      have hd : (ReqChunk.span ⟨s'.lo, size⟩).Within s' := ⟨Nat.le_refl _, hin'⟩
      have hcd : SameExtent mode headA headB ⟨s.lo, size⟩ ⟨s'.lo, size⟩ := by
        refine ⟨rfl, fun hm => ?_⟩
        have hplace := h.first.place hm
        rw [hs, hs'] at hplace
        exact Option.some.inj hplace
      exact .inr ⟨⟨s.lo, size⟩, ⟨s'.lo, size⟩, _, _, rfl, rfl, rfl, rfl, rfl, hcd,
        t.grow h hcd (mem_of_first hs) (mem_of_first hs') hc hd⟩

/-- The room `req_bump_alloc` finds: none in either arena, or an extent at the same place in the
list, with the cursor inside it. -/
theorem reqBumpRoom_twin (t : Twin .bump headA headB ra rb)
    (h : OfferTwin .bump headA headB ra rb ds ds') (hw : FitsPages H ra.cursor size) :
    reqBumpRoom H ra (16 + bodyLen size) ds = (none, ra) ∧
        reqBumpRoom H rb (16 + bodyLen size) ds' = (none, rb) ∨
      ∃ (i : Nat) (c d : ReqChunk) (ra' rb' : RequestArena σ),
        reqBumpRoom H ra (16 + bodyLen size) ds = (some c, ra') ∧
        reqBumpRoom H rb (16 + bodyLen size) ds' = (some d, rb') ∧ ra'.chunks[i]? = some c ∧
        rb'.chunks[i]? = some d ∧ ra'.cursor < c.size ∧ Twin .bump headA headB ra' rb' := by
  obtain ⟨i, c, d, hc, hd, ha, hb⟩ := (t.bump rfl).cur
  unfold reqBumpRoom
  simp only [ha, hb, ← t.cursor, ← t.size_eq hc hd, hw.1.sum]
  split
  · obtain ⟨es, es', -, hres⟩ := reqAcquire_twin (H := H) (16 + bodyLen size) t h
    rcases hres with ⟨h1, h2⟩ | ⟨c', d', ra', rb', h1, h2, h3, h4, hsize, -, t'⟩
    · rw [h1, h2]
      exact .inl ⟨rfl, rfl⟩
    · right
      rw [h1, h2]
      have hle := (acquireSize_spec hw.2 hsize).1
      have hlen := t.chunks.length_eq
      have hs := congrArg (fun v : RequestArena σ => { v with cursor := 0 }) t'.scalars
      have hc' : ra'.chunks[ra.chunks.length]? = some c' := by simp [h3]
      have hd' : rb'.chunks[ra.chunks.length]? = some d' := by simp [h4, hlen]
      exact ⟨ra.chunks.length, c', d', _, _, rfl, rfl, hc',
        hd', by simp only; omega, t'.mode_eq, hs,
        t'.chunks, t'.brk, fun hm =>
          { t'.bump hm with cur := ⟨ra.chunks.length, c', d', hc', hd', rfl, rfl⟩ }⟩
  · exact .inr ⟨i, c, d, ra, rb, rfl, rfl, hc, hd, by omega, t⟩

/-- Two bump calls end alike: the arenas are twins, and no block is returned or the same one. -/
structure BumpAlike (headA headB : Nat) (a b : Option Nat × RequestArena σ × Mem) : Prop where
  twin : Twin .bump headA headB a.2.1 b.2.1
  ptr : Option.Rel (SameAfter arenaHeaderSize a.2.1.chunks b.2.1.chunks) a.1 b.1

/-- `req_bump_alloc`. -/
theorem reqBumpAlloc_twin (t : Twin .bump headA headB ra rb)
    (h : OfferTwin .bump headA headB ra rb ds ds') (hw : FitsPages H ra.cursor size) (m m' : Mem) :
    BumpAlike headA headB (reqBumpAlloc H ra m size ds) (reqBumpAlloc H rb m' size ds') := by
  unfold reqBumpAlloc
  split
  · exact ⟨t, .none⟩
  simp only [hw.1.alignUp, hw.1.total]
  rcases reqBumpRoom_twin t h hw with ⟨ha, hb⟩ | ⟨i, c, d, ra', rb', ha, hb, hc, hd, hlt, t'⟩
  · rw [ha, hb]
    exact ⟨t, .none⟩
  · rw [ha, hb]
    have hblock : SameAfter arenaHeaderSize ra'.chunks rb'.chunks
        (c.buf + ra'.cursor + arenaHeaderSize) (d.buf + rb'.cursor + arenaHeaderSize) := by
      rw [← t'.cursor]
      exact ⟨_, _, ⟨i, _, hc, hd, hlt, t'.size_eq hc hd ▸ hlt⟩, rfl, rfl⟩
    dsimp only
    rw [← t'.cursor] at hblock ⊢
    rw [← t'.used]
    have t' := t'.setCursor (Word.add ra'.cursor (16 + bodyLen size))
      (Word.add ra'.bumpUsed (bodyLen size)) (bodyLen size)
    exact ⟨⟨t'.mode_eq, t'.scalars, t'.chunks, t'.brk, fun hm =>
      { t'.bump hm with last := .some hblock }⟩, .some hblock⟩

/-- `req_bump_realloc` of a block. Its old size is only what is copied. -/
theorem reqBumpRealloc_twin {p q : Nat} (t : Twin .bump headA headB ra rb)
    (h : OfferTwin .bump headA headB ra rb ds ds') (hw : FitsPages H ra.cursor size)
    (hp : SameAfter arenaHeaderSize ra.chunks rb.chunks p q) (old old' : Nat) (m m' : Mem) :
    BumpAlike headA headB (reqBumpRealloc H ra m p size old ds)
      (reqBumpRealloc H rb m' q size old' ds') := by
  have hcopy : BumpAlike headA headB (reqBumpReallocCopy H ra m p size old ds)
      (reqBumpReallocCopy H rb m' q size old' ds') := by
    have halloc := reqBumpAlloc_twin t h hw m m'
    unfold reqBumpReallocCopy
    generalize reqBumpAlloc H ra m size ds = a at halloc ⊢
    generalize reqBumpAlloc H rb m' size ds' = b at halloc ⊢
    obtain ⟨x, ra', m1⟩ := a
    obtain ⟨y, rb', m2⟩ := b
    obtain ⟨t', hptr⟩ := halloc
    cases hptr with
    | none => exact ⟨t', .none⟩
    | some hptr => exact ⟨t', .some hptr⟩
  have hlast : ra.lastAllocPtr = some p ↔ rb.lastAllocPtr = some q := by
    have b := t.bump rfl
    have hrel := b.last
    generalize ra.lastAllocPtr = x at hrel ⊢
    generalize rb.lastAllocPtr = y at hrel ⊢
    cases hrel with
    | none => exact ⟨by rintro ⟨⟩, by rintro ⟨⟩⟩
    | some hrel => simpa using hrel.eq_iff hp b.spread b.spread'
  have haligned : ra.lastAllocAligned = rb.lastAllocAligned :=
    t.field RequestArena.lastAllocAligned fun _ => rfl
  unfold reqBumpRealloc
  simp only [hlast, ← haligned, ← t.cursor, ← t.used, ← t.curSize]
  split
  · split
    · exact ⟨t.setCursor _ _ _, .some hp⟩
    · split
      · exact ⟨t.setCursor _ _ _, .some hp⟩
      · exact hcopy
  · exact hcopy

/-- `js_arena_morecore`. The break of a bump arena is one byte after a place, the last of an
extent. -/
theorem raMorecore_twin (t : Twin mode headA headB ra rb)
    (h : OfferTwin mode headA headB ra rb ds ds') (hA : headA ≤ 2 ^ 64) (hB : headB ≤ 2 ^ 64)
    {n : Int} (hn : mode = .bump → n.toNat + (H.round - 1) < 2 ^ 64) :
    Twin mode headA headB (raMorecore H ra n ds).2.1 (raMorecore H rb n ds').2.1 ∧
      Option.Rel (Near mode headA headB (if n = 0 then 1 else 0) (raMorecore H ra n ds).2.1.chunks
        (raMorecore H rb n ds').2.1.chunks) (raMorecore H ra n ds).1 (raMorecore H rb n ds').1 ∧
      List.Forall₂ (SameOffer mode headA headB) (raMorecore H ra n ds).2.2
        (raMorecore H rb n ds').2.2 := by
  unfold raMorecore
  by_cases h0 : n = 0
  · simp only [h0, if_true]
    exact ⟨t, t.brk, h.alike⟩
  simp only [h0, if_false]
  split
  · exact ⟨t, .none, h.alike⟩
  obtain ⟨es, es', hes, hres⟩ := reqAcquire_twin (H := H) n.toNat t h
  rcases hres with ⟨h1, h2⟩ | ⟨c, d, ra', rb', h1, h2, h3, h4, hsize, hcd, t'⟩
  · rw [h1, h2]
    exact ⟨t, .none, hes⟩
  · rw [h1, h2]
    have hnear : Near mode headA headB 0 ra'.chunks rb'.chunks c.buf d.buf ∧
        Near mode headA headB 1 ra'.chunks rb'.chunks (c.buf + c.size) (d.buf + d.size) := by
      cases mode with
      | gc =>
        refine ⟨hcd.place rfl, ?_⟩
        rw [Near, toView_offset hA, toView_offset hB, hcd.place rfl, hcd.size]
      | bump =>
        have hc : ra'.chunks[ra.chunks.length]? = some c := by simp [h3]
        have hd : rb'.chunks[ra.chunks.length]? = some d := by simp [h4, t.chunks.length_eq]
        have hle := (acquireSize_spec (hn rfl) hsize).1
        have hsz := hcd.size
        exact ⟨⟨_, _, ⟨_, 0, hc, hd, by omega, by omega⟩, rfl, rfl⟩,
          _, _, ⟨_, c.size - 1, hc, hd, by omega, by omega⟩, by omega, by omega⟩
    refine ⟨⟨t'.mode_eq, ?_, t'.chunks, .some hnear.2, fun hm => { t'.bump hm with }⟩,
      .some hnear.1, hes⟩
    cases mode <;> exact t'.scalars

/-- An mspace call. The space's own answer does not depend on where it is placed. -/
theorem runMs_twin : ∀ (call : MsCall σ) {ra rb : RequestArena σ} {ds ds' : List Decision},
    Twin .gc headA headB ra rb → List.Forall₂ (SameOffer .gc headA headB) ds ds' →
    HeadAt headA ra → HeadAt headB rb → ∀ m m' : Mem,
    Twin .gc headA headB (runMs H call ra m ds).2.1 (runMs H call rb m' ds').2.1 ∧
      ∃ v, (runMs H call ra m ds).1 = Option.map (ofView headA) v ∧
        (runMs H call rb m' ds').1 = v.map (ofView headB)
  | .done ret st eff, ra, rb, ds, ds', t, _, hA, hB, m, m' => by
    have hused : ra.used = rb.used := t.field RequestArena.used fun _ => rfl
    exact ⟨t.setSpace rfl hused, ret, by rw [runMs, hA.headBuf], by rw [runMs, hB.headBuf]⟩
  | .morecore n k, ra, rb, ds, ds', t, h, hA, hB, m, m' => by
    obtain ⟨t', hptr, hes⟩ := raMorecore_twin (H := H) (n := n) t ⟨h, by rintro ⟨⟩, by rintro ⟨⟩⟩
      hA.le hB.le (by rintro ⟨⟩)
    have hA' := (raMorecore_grew (H := H) ra n ds).1.headAt hA
    have hB' := (raMorecore_grew (H := H) rb n ds').1.headAt hB
    have harg : (raMorecore H ra n ds).1.map (toView headA) =
        (raMorecore H rb n ds').1.map (toView headB) := by
      generalize (raMorecore H ra n ds).1 = x at hptr
      generalize (raMorecore H rb n ds').1 = y at hptr
      cases hptr with
      | none => rfl
      | some hptr => exact congrArg some hptr
    simp only [runMs, hA.headBuf, hB.headBuf, harg]
    exact runMs_twin (k _) t' hes hA' hB' m m'

/-- `mspace_usable_size` of the same block. -/
theorem Twin.msUsable (t : Twin .gc headA headB ra rb) (hA : HeadAt headA ra) (hB : HeadAt headB rb)
    {p q : Nat} (hpq : toView headA p = toView headB q) : msUsable H ra p = msUsable H rb q := by
  rw [ArenaJs.msUsable, ArenaJs.msUsable, hA.headBuf, hB.headBuf, hpq, t.msp]

end

end ArenaJs
