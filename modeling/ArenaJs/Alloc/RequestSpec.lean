import ArenaJs.Alloc.Request
import ArenaJs.Alloc.BaseSpec

/-!
# What a request arena's operations do

Extents are chunk-aligned ranges of mapped memory that do not overlap (`RaGeo`). The decisions of
a call offer ranges that nothing uses yet (`Fresh`), and what an arena acquires during a call comes
from those offers (`Taken`). On top of that, `reqBumpAlloc_spec` and `reqBumpRealloc_cases` give the
outcomes of the bump allocator, and `runMs_spec` carries dlmalloc's contract through a call that
comes back for memory.
-/

namespace ArenaJs

variable {σ : Type} {H : Host σ} {ra : RequestArena σ} {ds : List Decision}
variable {cs : List ReqChunk} {c : ReqChunk} {R : Span → Span → Prop} {m : Mem} {s : Span}
  {size : Nat}

/-! ## Geometry -/

/-- An extent is a chunk-aligned range of mapped memory. -/
structure ChunkOk (c : ReqChunk) : Prop where
  buf_pos : 0 < c.buf
  buf_dvd : 4096 ∣ c.buf
  size_pos : 0 < c.size
  fits : c.buf + c.size ≤ 2 ^ 64

/-- The extents of an arena: the head holds the prefix and the state slot. -/
structure RaGeo (ra : RequestArena σ) : Prop where
  nonempty : ra.chunks ≠ []
  floor_eq : ra.floor = arenaPrefixLen + requestSlotSize
  head_size : ra.floor + 32 ≤ ra.headSize
  chunk_ok : ∀ c ∈ ra.chunks, ChunkOk c
  disjoint : ra.chunks.Pairwise fun c d => c.span.Disjoint d.span

/-- The allocator's territory in an extent: all of it, or what is past the slot in the head. -/
def RequestArena.room (ra : RequestArena σ) (c : ReqChunk) : Span :=
  ⟨if c.buf = ra.headBuf then c.buf + ra.floor else c.buf, c.buf + c.size⟩

theorem RequestArena.room_within (ra : RequestArena σ) (c : ReqChunk) :
    (ra.room c).Within c.span := by
  refine ⟨?_, Nat.le_refl _⟩
  simp only [room, ReqChunk.span]
  split <;> omega

instance : Std.Symm fun c d : ReqChunk => c.span.Disjoint d.span := ⟨fun _ _ => .symm⟩

namespace RaGeo

theorem head_mem (h : RaGeo ra) : ∃ c, ra.chunks.head? = some c ∧ c ∈ ra.chunks ∧
    c.buf = ra.headBuf ∧ c.size = ra.headSize := by
  obtain ⟨c, cs, hc⟩ := List.exists_cons_of_ne_nil h.nonempty
  refine ⟨c, by rw [hc]; rfl, by rw [hc]; exact .head _, ?_, ?_⟩ <;>
    simp [RequestArena.headBuf, RequestArena.headSize, hc]

theorem headBuf_lt (h : RaGeo ra) : 0 < ra.headBuf ∧ 4096 ∣ ra.headBuf ∧
    ra.headBuf + ra.headSize ≤ 2 ^ 64 := by
  obtain ⟨c, -, hc, hb, hs⟩ := h.head_mem
  have := h.chunk_ok c hc
  exact ⟨hb ▸ this.buf_pos, hb ▸ this.buf_dvd, by rw [← hb, ← hs]; exact this.fits⟩

end RaGeo

/-! ## Offers -/

/-- A free range the host may hand out. -/
structure OfferOk (s : Span) : Prop where
  lo_pos : 0 < s.lo
  lo_dvd : 4096 ∣ s.lo
  hi_le : s.hi ≤ 2 ^ 64

/-- A way for two ranges to be apart that parts of the ranges inherit. -/
structure Separates (R : Span → Span → Prop) : Prop where
  symm : ∀ {s t}, R s t → R t s
  mono : ∀ {s t s' t'}, R s t → s'.Within s → t'.Within t → R s' t'

theorem separates_disjoint : Separates Span.Disjoint := ⟨.symm, .mono⟩

theorem separates_apart : Separates Span.Apart := ⟨.symm, .mono⟩

/-- The offered ranges are separate from the extents `cs` and from each other. -/
structure Fresh (R : Span → Span → Prop) (cs : List ReqChunk) (ds : List Decision) : Prop where
  ok : ∀ s, some s ∈ ds → OfferOk s
  old : ∀ s, some s ∈ ds → ∀ c ∈ cs, R s c.span
  pairwise : ds.Pairwise fun d e => ∀ s t, d = some s → e = some t → R s t

/-- The extents `cs` come from the offers `ds`. -/
structure Taken (R : Span → Span → Prop) (cs : List ReqChunk) (ds : List Decision) : Prop where
  ok : ∀ c ∈ cs, ChunkOk c
  offer : ∀ c ∈ cs, ∃ s, some s ∈ ds ∧ c.span.Within s
  pairwise : cs.Pairwise fun c d => R c.span d.span

theorem Taken.nil : Taken R [] ds := ⟨nofun, nofun, .nil⟩

theorem Fresh.tail (h : Fresh R cs ds) :
    Fresh R cs ds.tail :=
  ⟨fun s hs => h.ok s (List.mem_of_mem_tail hs), fun s hs => h.old s (List.mem_of_mem_tail hs),
    h.pairwise.tail⟩

/-- A single offer. -/
theorem Fresh.single (ok : OfferOk s)
    (old : ∀ c ∈ cs, R s c.span) : Fresh R cs [some s] := by
  have heq : ∀ t, some t ∈ [some s] → t = s := fun t ht => Option.some.inj (List.mem_singleton.1 ht)
  exact ⟨fun t ht => heq t ht ▸ ok, fun t ht => heq t ht ▸ old, List.pairwise_singleton _ _⟩

/-- What was taken is separate from what was there. -/
theorem Taken.old {cs old : List ReqChunk} (hR : Separates R)
    (h : Taken R cs ds) (hf : Fresh R old ds) (hc : c ∈ cs) {d : ReqChunk}
    (hd : d ∈ old) : R c.span d.span := by
  obtain ⟨s, hs, hw⟩ := h.offer c hc
  exact hR.mono (hf.old s hs d hd) hw .refl

/-- Offers stay fresh after the first one was taken. -/
theorem Fresh.take
    {rest : List Decision} (hR : Separates R) (h : Fresh R cs (some s :: rest))
    (hc : c.span.Within s) : Fresh R (cs ++ [c]) rest where
  ok t ht := h.ok t (.tail _ ht)
  old t ht d hd := by
    rcases List.mem_append.1 hd with hd | hd
    · exact h.old t (.tail _ ht) d hd
    · rw [List.mem_singleton.1 hd]
      exact hR.mono (hR.symm ((List.pairwise_cons.1 h.pairwise).1 _ ht s t rfl rfl))
        .refl hc
  pairwise := (List.pairwise_cons.1 h.pairwise).2

/-- One taken extent, then more. -/
theorem Taken.cons
    {rest : List Decision} (hR : Separates R) (hf : Fresh R [] (some s :: rest)) (hok : ChunkOk c)
    (hc : c.span.Within s) (h : Taken R cs rest) : Taken R (c :: cs) (some s :: rest) where
  ok := List.forall_mem_cons.2 ⟨hok, h.ok⟩
  offer := List.forall_mem_cons.2 ⟨⟨s, .head _, hc⟩, fun d hd =>
    let ⟨t, ht, hw⟩ := h.offer d hd; ⟨t, .tail _ ht, hw⟩⟩
  pairwise := List.pairwise_cons.2 ⟨fun d hd => by
    obtain ⟨t, ht, hw⟩ := h.offer d hd
    exact hR.mono ((List.pairwise_cons.1 hf.pairwise).1 _ ht s t rfl rfl) hc hw, h.pairwise⟩

theorem Fresh.disjoint (h : Fresh Span.Apart cs ds) :
    Fresh Span.Disjoint cs ds :=
  ⟨h.ok, fun s hs c hc => (h.old s hs c hc).disjoint,
    h.pairwise.imp fun hst s t hs ht => (hst s t hs ht).disjoint⟩

theorem Taken.disjoint (h : Taken Span.Apart cs ds) :
    Taken Span.Disjoint cs ds :=
  ⟨h.ok, h.offer, h.pairwise.imp Span.Apart.disjoint⟩

/-- What comes from fewer offers comes from all of them. -/
theorem Taken.mono {ds' : List Decision}
    (h : Taken R cs ds') (hs : ∀ d ∈ ds', d ∈ ds) : Taken R cs ds :=
  ⟨h.ok, fun c hc => let ⟨s, hd, hw⟩ := h.offer c hc; ⟨s, hs _ hd, hw⟩, h.pairwise⟩

/-- Growing an arena by taken extents keeps its geometry. -/
theorem RaGeo.grow (h : RaGeo ra) (ra' : RequestArena σ)
    (hf : Fresh Span.Disjoint ra.chunks ds) (ht : Taken Span.Disjoint cs ds)
    (hc : ra'.chunks = ra.chunks ++ cs) (hfl : ra'.floor = ra.floor) :
    RaGeo ra' ∧ ra'.headBuf = ra.headBuf ∧ ra'.headSize = ra.headSize := by
  obtain ⟨d, ds', hd⟩ := List.exists_cons_of_ne_nil h.nonempty
  have hb : ra'.headBuf = ra.headBuf := by simp [RequestArena.headBuf, hc, hd]
  have hs : ra'.headSize = ra.headSize := by simp [RequestArena.headSize, hc, hd]
  refine ⟨⟨by rw [hc, hd]; simp, hfl ▸ h.floor_eq, by rw [hfl, hs]; exact h.head_size, ?_, ?_⟩,
    hb, hs⟩
  · rw [hc]
    intro c hm
    exact (List.mem_append.1 hm).elim (h.chunk_ok c) (ht.ok c)
  · rw [hc, List.pairwise_append]
    exact ⟨h.disjoint, ht.pairwise, fun c hm d hd =>
      (ht.old separates_disjoint hf hd hm).symm⟩

/-! ## Acquisition -/

/-- `pages_round` of a need that does not wrap is at least the need. -/
theorem le_pagesRound {need : Nat} (h : need + (H.round - 1) < 2 ^ 64) :
    need ≤ pagesRound H need :=
  Word.le_alignUp (by rcases H.round_eq with h | h | h <;> omega) h

/-- A size the budget grants covers the need, and does not exceed the budget unless the sum
wraps. -/
theorem acquireSize_spec {cap held need size : Nat} (h : need + (H.round - 1) < 2 ^ 64)
    (hs : acquireSize H cap held need = some size) : need ≤ size ∧ Word.add held size ≤ cap := by
  have hround := le_pagesRound h
  -- the policy size covers the exact need
  have hpolicy : need ≤ if pagesRound H need < reqExtentDefault then reqExtentDefault
      else pagesRound H need := by split <;> omega
  simp only [acquireSize] at hs
  generalize (if pagesRound H need < reqExtentDefault then reqExtentDefault
    else pagesRound H need) = policy at hs hpolicy
  split at hs
  · split at hs
    · cases hs
    · next hle =>
      cases hs
      exact ⟨hround, Nat.le_of_not_lt hle⟩
  · next hle =>
    cases hs
    exact ⟨hpolicy, Nat.le_of_not_lt hle⟩

/-- `req_acquire` refuses and changes nothing but the decisions, or appends an extent taken from the
first offer. -/
theorem reqAcquire_spec (ra : RequestArena σ) (ds : List Decision) {need : Nat} (hn : 0 < need)
    (h : need + (H.round - 1) < 2 ^ 64) :
    (∃ ds', reqAcquire H ra need ds = (none, ra, ds') ∧ (ds' = ds ∨ ds' = ds.tail)) ∨
    ∃ c s held extents, ds = some s :: ds.tail ∧ c.buf = s.lo ∧ c.span.Within s ∧
      (OfferOk s → ChunkOk c) ∧ need ≤ c.size ∧
      reqAcquire H ra need ds =
        (some c, { ra with chunks := ra.chunks ++ [c], held, extents }, ds.tail) := by
  unfold reqAcquire
  cases hs : acquireSize H ra.cap ra.held need with
  | none => exact .inl ⟨ds, rfl, .inl rfl⟩
  | some size =>
    have hle := (acquireSize_spec h hs).1
    cases ds with
    | nil => exact .inl ⟨_, rfl, .inr rfl⟩
    | cons d ds =>
      cases d with
      | none => exact .inl ⟨_, rfl, .inr rfl⟩
      | some s =>
        simp only [List.head?_cons, Option.getD_some, provAcquire]
        by_cases hfit : s.lo + size ≤ s.hi
        · rw [if_pos hfit]
          exact .inr ⟨⟨s.lo, size⟩, s, _, _, rfl, rfl, ⟨Nat.le_refl _, hfit⟩, fun ho =>
            ⟨ho.lo_pos, ho.lo_dvd, by simp only; omega,
              by have := ho.hi_le; simp only; omega⟩, hle, rfl⟩
        · rw [if_neg hfit]
          exact .inl ⟨_, rfl, .inr rfl⟩

/-- `js_request_arena_new` builds an arena of one extent, taken from an offer, and a frozen dual
arena has an allocator take it. -/
theorem requestArenaNew_cases {mode : ArenaMode} {id cap : Nat} {m m' : Mem} {ra : RequestArena σ}
    (h : requestArenaNew H mode id m cap ds = some (ra, m')) :
    ∃ (c : ReqChunk) (s : Span) (held extents bound : Nat), some s ∈ ds ∧ c.span.Within s ∧
      (OfferOk s → ChunkOk c) ∧ arenaPrefixLen + requestSlotSize + 32 ≤ c.size ∧
      let ra0 : RequestArena σ := ⟨id, [c], extents, bound, held, arenaPrefixLen + requestSlotSize,
        some c, arenaPrefixLen + requestSlotSize, 0, none, 0, none, none, 0, ⟨false, 0, 0, 0⟩, .gc,
        .gc⟩
      (ra, m') = if mode = .request then requestModeApply H ra0 (m.memset c.buf 0 arenaPrefixLen)
        else (ra0, m.memset c.buf 0 arenaPrefixLen) := by
  simp only [requestArenaNew] at h
  generalize (if (if cap = 0 then arenaDefaultSize else cap) = Word.sizeMax then Word.sizeMax
    else pagesRound H (if cap = 0 then arenaDefaultSize else cap)) = bound at h
  generalize hhead : (if bound < reqExtentDefault then bound else reqExtentDefault) = head at h
  have hle : head ≤ 256 * 1024 := by
    rw [← hhead, reqExtentDefault]
    split <;> omega
  have hround : H.round ≤ 65536 := by rcases H.round_eq with h | h | h <;> omega
  split at h
  · cases h
  next hlt =>
  simp only [arenaHeaderSize, arenaAlign] at hlt
  rcases reqAcquire_spec (H := H) _ ds (show 0 < head by omega) (by omega) with
    ⟨ds', he, -⟩ | ⟨c, s, held, extents, hds, -, hw, hcok, hsz, he⟩
  · rw [he] at h
    cases h
  rw [he] at h
  refine ⟨c, s, held, extents, bound, by rw [hds]; exact .head _, hw, hcok, by omega, ?_⟩
  cases mode <;> exact (Option.some.inj h).symm

/-! ## The bump allocator -/

/-- The bump region over the extent `c`. -/
def RequestArena.region (ra : RequestArena σ) (c : ReqChunk) : BumpRegion :=
  ⟨(ra.room c).lo, c.buf + ra.cursor, c.buf + c.size,
    ra.lastAllocPtr.map fun p => (p, ra.lastAllocAligned)⟩

/-- The arena bumps the extent `c`. -/
structure BumpOk (ra : RequestArena σ) (c : ReqChunk) : Prop where
  cur_eq : ra.cur = some c
  mem : c ∈ ra.chunks
  cursor_dvd : 16 ∣ ra.cursor
  last_dvd : 16 ∣ ra.lastAllocAligned
  region : (ra.region c).Ok 16

/-- No size computation of a bump allocation wraps, the page rounding of a fresh extent included. -/
def FitsPages (H : Host σ) (cursor size : Nat) : Prop :=
  FitsWord cursor size ∧ 16 + bodyLen size + (H.round - 1) < 2 ^ 64

instance (H : Host σ) (cursor size : Nat) : Decidable (FitsPages H cursor size) :=
  inferInstanceAs (Decidable (_ ∧ _))

/-- Where a block goes: the extent being bumped, or one taken from the offers. `cs` are the extents
acquired and `R` the region before the block is pushed. -/
inductive BumpRoom (ra : RequestArena σ) (c : ReqChunk) (ds : List Decision) :
    ReqChunk → List ReqChunk → BumpRegion → Prop
  | here : BumpRoom ra c ds c [] (ra.region c)
  | fresh {c' : ReqChunk} : Taken Span.Disjoint [c'] ds →
      BumpRoom ra c ds c' [c'] ⟨c'.buf, c'.buf, c'.buf + c'.size, none⟩

/-- The fields a bump call never touches. -/
structure SameArena (ra ra' : RequestArena σ) : Prop where
  id_eq : ra'.id = ra.id
  floor_eq : ra'.floor = ra.floor
  mode_eq : ra'.mode = ra.mode
  modeNext_eq : ra'.modeNext = ra.modeNext

/-- What a successful bump call leaves: the block `p` for `size` bytes in the extent `c'`, the
region `R` after it, and memory changed only in the first header word of `p`. -/
structure RaBlock (ra : RequestArena σ) (m : Mem) (size : Nat) (c' : ReqChunk)
    (cs : List ReqChunk) (R : BumpRegion) (p : Nat) (ra' : RequestArena σ) (m' : Mem) : Prop where
  size_pos : 0 < size
  same : SameArena ra ra'
  chunks_eq : ra'.chunks = ra.chunks ++ cs
  ok : BumpOk ra' c'
  region_eq : ra'.region c' = R
  above : c'.buf + 16 ≤ p
  ptr_dvd : 16 ∣ p
  header : arenaUserSize m' p = size
  frame : ∀ x, x < p - 16 ∨ p - 8 ≤ x → m' x = m x

/-- An extent that is not in the arena's list is not its head. -/
theorem RaGeo.room_fresh (h : RaGeo ra)
    (hf : Fresh Span.Disjoint ra.chunks ds) (ht : Taken Span.Disjoint cs ds) (hc : c ∈ cs) :
    c.buf ≠ ra.headBuf := by
  obtain ⟨d, -, hd, hb, -⟩ := h.head_mem
  have h1 := ht.old separates_disjoint hf hc hd
  have h2 := (ht.ok c hc).size_pos
  have h3 := (h.chunk_ok d hd).size_pos
  simp only [Span.Disjoint, ReqChunk.span] at h1
  omega

/-- The room for a block: none, the extent being bumped, or a fresh one. -/
theorem reqBumpRoom_spec (hb : BumpOk ra c)
    (hf : Fresh Span.Disjoint ra.chunks ds) (hw : FitsPages H ra.cursor size) :
    reqBumpRoom H ra (16 + bodyLen size) ds = (none, ra) ∨
    (reqBumpRoom H ra (16 + bodyLen size) ds = (some c, ra) ∧
      ra.cursor + (16 + bodyLen size) ≤ c.size) ∨
    ∃ c' held extents, Taken Span.Disjoint [c'] ds ∧ 16 + bodyLen size ≤ c'.size ∧
      reqBumpRoom H ra (16 + bodyLen size) ds = (some c', { ra with
        chunks := ra.chunks ++ [c'], held, extents, cur := some c', cursor := 0 }) := by
  simp only [reqBumpRoom, hb.cur_eq, hw.1.sum]
  by_cases hfit : c.size < ra.cursor + (16 + bodyLen size)
  · rw [if_pos hfit]
    rcases reqAcquire_spec ra ds (show 0 < 16 + bodyLen size by omega) hw.2 with
      ⟨ds', he, -⟩ | ⟨c', s, held, extents, hds, -, hin, hok, hle, he⟩
    · rw [he]; exact .inl rfl
    · rw [he]
      refine .inr (.inr ⟨c', held, extents, ?_, hle, rfl⟩)
      rw [hds] at hf ⊢
      exact Taken.cons separates_disjoint ⟨hf.ok, fun _ _ _ => nofun, hf.pairwise⟩
        (hok (hf.ok s (.head _))) hin .nil
  · rw [if_neg hfit]
    exact .inr (.inl ⟨rfl, by omega⟩)

/-- `req_bump_alloc` refuses and changes nothing, or pushes a block. -/
theorem reqBumpAlloc_spec (hg : RaGeo ra) (hb : BumpOk ra c)
    (hf : Fresh Span.Disjoint ra.chunks ds) (hw : FitsPages H ra.cursor size) :
    reqBumpAlloc H ra m size ds = (none, ra, m) ∨
    ∃ c' cs R ra' m', BumpRoom ra c ds c' cs R ∧ R.Ok 16 ∧ R.top + 16 + bodyLen size ≤ R.limit ∧
      reqBumpAlloc H ra m size ds = (some (R.top + 16), ra', m') ∧
      RaBlock ra m size c' cs (R.push 16 (bodyLen size)) (R.top + 16) ra' m' := by
  have hwd := hw.1
  unfold reqBumpAlloc
  split
  · exact .inl rfl
  rename_i hsz
  have hpos : 0 < size := Nat.pos_of_ne_zero hsz
  have hdvd : 16 ∣ 16 + bodyLen size := Nat.dvd_add (Nat.dvd_refl 16) (dvd_bodyLen size)
  simp only [hwd.alignUp, hwd.total]
  rcases reqBumpRoom_spec hb hf hw with he | ⟨he, hfit⟩ | ⟨c', held, extents, ht, hfit, he⟩
  · rw [he]; exact .inl rfl
  · rw [he]
    have hreg : RequestArena.region { ra with
        cursor := Word.add ra.cursor (16 + bodyLen size),
        bumpUsed := Word.add ra.bumpUsed (bodyLen size),
        lastAllocPtr := some (c.buf + ra.cursor + arenaHeaderSize),
        lastAllocAligned := bodyLen size } c = (ra.region c).push 16 (bodyLen size) := by
      simp only [RequestArena.region, BumpRegion.push, Option.map_some, arenaHeaderSize, hwd.sum]
      congr 1
      omega
    have hcdvd : 16 ∣ c.buf := Nat.dvd_trans (by decide) (hg.chunk_ok c hb.mem).buf_dvd
    have hok := hb.region.push (a := bodyLen size) (by simp only [RequestArena.region]; omega)
    refine .inr ⟨c, [], _, _, _, .here, hb.region, by simp only [RequestArena.region]; omega, rfl,
      hpos, ⟨rfl, rfl, rfl, rfl⟩, (List.append_nil _).symm,
      ⟨hb.cur_eq, hb.mem, ?_, dvd_bodyLen size, hreg ▸ hok⟩, hreg,
      by simp only [RequestArena.region]; omega,
      Nat.dvd_add (Nat.dvd_add hcdvd hb.cursor_dvd) (Nat.dvd_refl 16),
      Mem.readU64_writeU64 _ _ hwd.size_lt, ?_⟩
    · exact hwd.sum ▸ Nat.dvd_add hb.cursor_dvd hdvd
    · intro x h1
      simp only [RequestArena.region] at h1
      exact Mem.writeU64_of_notMem (by omega)
  · rw [he]
    have hadd : Word.add 0 (16 + bodyLen size) = 16 + bodyLen size := by
      rw [Word.add_eq (by have := hwd.2; omega), Nat.zero_add]
    have hne := hg.room_fresh hf ht (.head _)
    obtain ⟨-, hhb, -⟩ := hg.grow { ra with chunks := ra.chunks ++ [c'] } hf ht rfl rfl
    have hreg : ∀ ra' : RequestArena σ, ra'.chunks = ra.chunks ++ [c'] →
        ra'.cursor = Word.add 0 (16 + bodyLen size) → ra'.lastAllocPtr = some (c'.buf + 16) →
        ra'.lastAllocAligned = bodyLen size → ra'.region c' =
          BumpRegion.push 16 ⟨c'.buf, c'.buf, c'.buf + c'.size, none⟩ (bodyLen size) := by
      intro ra' h1 h2 h3 h4
      have : ra'.headBuf = ra.headBuf := by
        rw [← hhb]; simp [RequestArena.headBuf, h1]
      simp only [RequestArena.region, RequestArena.room, this, if_neg hne, BumpRegion.push, h2, h3,
        h4, hadd, Option.map_some]
      congr 1
      omega
    have hR : BumpRegion.Ok 16 ⟨c'.buf, c'.buf, c'.buf + c'.size, none⟩ :=
      ⟨Nat.le_refl _, by simp only; omega, by simp⟩
    refine .inr ⟨c', [c'], _, _, _, .fresh ht, hR, by simp only; omega, rfl, hpos,
      ⟨rfl, rfl, rfl, rfl⟩, rfl, ⟨rfl, by simp, ?_, dvd_bodyLen size, ?_⟩,
      hreg _ rfl rfl rfl rfl, Nat.le_refl _, ?_, Mem.readU64_writeU64 _ _ hwd.size_lt, ?_⟩
    · show 16 ∣ Word.add 0 (16 + bodyLen size)
      rw [hadd]; exact hdvd
    · rw [hreg _ rfl rfl rfl rfl]
      exact hR.push (by simp only; omega)
    · exact Nat.dvd_add (Nat.dvd_trans (by decide) (ht.ok c' (.head _)).buf_dvd) (Nat.dvd_refl 16)
    · intro x h1
      exact Mem.writeU64_of_notMem (by simp only at h1 ⊢; omega)

/-- The in-place branches of `req_bump_realloc`: the last block, at `p`, gets a new size. -/
theorem reqBumpResize_spec {size p : Nat} (v used : Nat) (hg : RaGeo ra)
    (hb : BumpOk ra c) (hlast : ra.lastAllocPtr = some p) (hsz : 0 < size)
    (hw : size + 15 < 2 ^ 64) (hv : c.buf + v = p + bodyLen size)
    (hcap : p + bodyLen size ≤ c.buf + c.size) :
    RaBlock ra m size c [] ((ra.region c).resize p (bodyLen size)) p
      { ra with cursor := v, bumpUsed := used, lastAllocAligned := bodyLen size }
      (arenaSetUserSize m p size) := by
  have hl : (ra.region c).last = some (p, ra.lastAllocAligned) := by
    simp [RequestArena.region, hlast]
  obtain ⟨hp, htop⟩ := hb.region.last_top _ _ hl
  have hroom := (ra.room_within c).1
  simp only [RequestArena.region, ReqChunk.span] at hp htop hroom
  have hcdvd : 16 ∣ c.buf := Nat.dvd_trans (by decide) (hg.chunk_ok c hb.mem).buf_dvd
  have hpdvd : 16 ∣ p :=
    (Nat.dvd_add_left hb.last_dvd).1 (htop ▸ Nat.dvd_add hcdvd hb.cursor_dvd)
  have hvdvd : 16 ∣ v :=
    (Nat.dvd_add_right hcdvd).1 (hv ▸ Nat.dvd_add hpdvd (dvd_bodyLen size))
  have hreg : RequestArena.region { ra with
      cursor := v, bumpUsed := used, lastAllocAligned := bodyLen size } c =
      (ra.region c).resize p (bodyLen size) := by
    simp only [RequestArena.region, BumpRegion.resize, hlast, Option.map_some, hv]
    rfl
  refine ⟨hsz, ⟨rfl, rfl, rfl, rfl⟩, (List.append_nil _).symm,
    ⟨hb.cur_eq, hb.mem, hvdvd, dvd_bodyLen size, ?_⟩, hreg, by omega, hpdvd,
    Mem.readU64_writeU64 _ _ (by omega), ?_⟩
  · rw [hreg]; exact hb.region.resize hl hcap
  · intro x h1
    simp only [arenaSetUserSize, arenaHeaderSize]
    exact Mem.writeU64_of_notMem (by omega)

/-- The last block of a bump region is shorter than the address space. -/
theorem BumpOk.last_lt {p : Nat} (hb : BumpOk ra c) (hg : RaGeo ra)
    (hlast : ra.lastAllocPtr = some p) : ra.lastAllocAligned < 2 ^ 64 := by
  have hl : (ra.region c).last = some (p, ra.lastAllocAligned) := by
    simp [RequestArena.region, hlast]
  obtain ⟨hp, htop⟩ := hb.region.last_top _ _ hl
  have hle := hb.region.top_le
  have hfits := (hg.chunk_ok c hb.mem).fits
  simp only [RequestArena.region] at hp htop hle
  omega

/-- `req_bump_realloc` of the block `p` resizes it in place, if it is the last one, or takes the
copying path. -/
theorem reqBumpRealloc_cases (p old : Nat) (ds : List Decision) (hg : RaGeo ra) (hb : BumpOk ra c)
    (hsz : 0 < size) (hw : FitsPages H ra.cursor size) :
    (∃ ra' m', reqBumpRealloc H ra m p size old ds = (some p, ra', m') ∧
      ra.lastAllocPtr = some p ∧ p + bodyLen size ≤ c.buf + c.size ∧
      RaBlock ra m size c [] ((ra.region c).resize p (bodyLen size)) p ra' m') ∨
    reqBumpRealloc H ra m p size old ds = reqBumpReallocCopy H ra m p size old ds := by
  have hsize : (ra.cur.map ReqChunk.size).getD 0 = c.size := by rw [hb.cur_eq]; rfl
  unfold reqBumpRealloc
  simp only [hw.1.alignUp, hsize]
  split
  · rename_i hlast
    have hl : (ra.region c).last = some (p, ra.lastAllocAligned) := by
      simp [RequestArena.region, hlast]
    obtain ⟨hp, htop⟩ := hb.region.last_top _ _ hl
    have hle := hb.region.top_le
    have hroom := (ra.room_within c).1
    simp only [RequestArena.region, ReqChunk.span] at hp htop hle hroom
    have hfits := (hg.chunk_ok c hb.mem).fits
    have hbpos := (hg.chunk_ok c hb.mem).buf_pos
    split
    · have hsub : Word.sub ra.cursor (ra.lastAllocAligned - bodyLen size) =
          ra.cursor - (ra.lastAllocAligned - bodyLen size) :=
        Word.sub_eq (by omega) (by omega)
      rw [hsub]
      refine .inl ⟨_, _, rfl, hlast, by omega, ?_⟩
      exact reqBumpResize_spec (ra.cursor - (ra.lastAllocAligned - bodyLen size)) _ hg hb hlast hsz
        hw.1.1 (by omega) (by omega)
    · have hadd : Word.add ra.cursor (bodyLen size - ra.lastAllocAligned) =
          ra.cursor + (bodyLen size - ra.lastAllocAligned) :=
        Word.add_eq (by have := hw.1.2; omega)
      rw [hadd]
      split
      · refine .inl ⟨_, _, rfl, hlast, by omega, ?_⟩
        exact reqBumpResize_spec (ra.cursor + (bodyLen size - ra.lastAllocAligned)) _ hg
          hb hlast hsz
          hw.1.1 (by omega) (by omega)
      · exact .inr rfl
  · exact .inr rfl

/-! ## mspace calls -/

/-- The segments of the arena's mspace, as it sees them, the one acquired last first. -/
def RequestArena.segs (ra : RequestArena σ) : List Span :=
  (ra.chunks.map fun c =>
    ⟨toView ra.headBuf (ra.room c).lo, toView ra.headBuf (ra.room c).hi⟩).reverse

/-- Acquiring an extent puts its view in front of the segments. -/
theorem RaGeo.segs_append (h : RaGeo ra) {ra' : RequestArena σ}
    (hf : Fresh Span.Disjoint ra.chunks ds) (ht : Taken Span.Disjoint [c] ds)
    (hc : ra'.chunks = ra.chunks ++ [c]) (hfl : ra'.floor = ra.floor) :
    ra'.segs = ⟨toView ra.headBuf c.buf, toView ra.headBuf (c.buf + c.size)⟩ :: ra.segs := by
  obtain ⟨-, hb, -⟩ := h.grow ra' hf ht hc hfl
  have hne := h.room_fresh hf ht (.head _)
  simp [RequestArena.segs, RequestArena.room, hc, hb, hfl, if_neg hne]

/-- A segment of the space comes from an extent. -/
theorem mem_segs {t : Span} : t ∈ ra.segs ↔ ∃ c ∈ ra.chunks,
    t = ⟨toView ra.headBuf (ra.room c).lo, toView ra.headBuf (ra.room c).hi⟩ := by
  simp only [RequestArena.segs, List.mem_reverse, List.mem_map, eq_comm]

/-- A call on the arena's mspace ends with its postcondition, whatever the host decides, and leaves
the arena as it was but for the extents acquired on the way. -/
theorem runMs_spec {Q : List Span → Option Nat → σ → (Mem → Mem) → Prop} :
    ∀ (call : MsCall σ) (ra : RequestArena σ) (ds : List Decision), RaGeo ra →
      Fresh Span.Apart ra.chunks ds →
      call.Sat Q ra.segs (ra.brk.map (toView ra.headBuf)) →
      ∃ cs held extents brk ret st eff, Taken Span.Apart cs ds ∧
        runMs H call ra m ds = (ret.map (ofView ra.headBuf),
          { ra with chunks := ra.chunks ++ cs, held, extents, brk, msp := some st },
          applyView ra.headBuf eff m) ∧
        Q (RequestArena.segs { ra with chunks := ra.chunks ++ cs }) ret st eff
  | .done ret st eff, ra, ds, _, _, hs => by
    refine ⟨[], ra.held, ra.extents, ra.brk, ret, st, eff, .nil, ?_, ?_⟩
    · simp [runMs]
    · simpa [MsCall.Sat] using hs
  | .morecore n k, ra, ds, hg, hf, hs => by
    unfold MsCall.Sat at hs
    simp only [runMs, raMorecore]
    by_cases hz : n = 0
    · simp only [if_pos hz] at hs ⊢
      exact runMs_spec _ ra ds hg hf hs
    by_cases hneg : n < 0
    · simp only [if_neg hz, if_pos hneg] at hs ⊢
      exact runMs_spec _ ra ds hg hf hs
    simp only [if_neg hz, if_neg hneg] at hs ⊢
    obtain ⟨hlt, hfail, hok⟩ := hs
    have hround : H.round - 1 < 2 ^ 63 := by rcases H.round_eq with h | h | h <;> omega
    have hneed : n.toNat + (H.round - 1) < 2 ^ 64 := by omega
    rcases reqAcquire_spec ra ds (show 0 < n.toNat by omega) hneed with
      ⟨ds', he, hds⟩ | ⟨c, s, held, extents, hds, -, hin, hcok, hle, he⟩
    · -- refused: the space goes on with `MFAIL`
      have hf' : Fresh Span.Apart ra.chunks ds' := by
        rcases hds with rfl | rfl
        exacts [hf, hf.tail]
      obtain ⟨cs, held, extents, brk, ret, st, eff, ht, hrun, hQ⟩ :=
        runMs_spec (k none) ra ds' hg hf' hfail
      refine ⟨cs, held, extents, brk, ret, st, eff, ht.mono ?_, ?_, hQ⟩
      · rcases hds with rfl | rfl
        exacts [fun d h => h, fun d h => List.mem_of_mem_tail h]
      · rw [he]; exact hrun
    · -- granted: the new extent is a segment disjoint from the others
      rw [hds] at hf
      replace hcok := hcok (hf.ok s (.head _))
      have ht1 : Taken Span.Apart [c] (some s :: ds.tail) :=
        Taken.cons separates_apart ⟨hf.ok, fun _ _ _ => nofun, hf.pairwise⟩ hcok hin .nil
      let ra1 : RequestArena σ :=
        { ra with chunks := ra.chunks ++ [c], held, extents, brk := some (c.buf + c.size) }
      obtain ⟨hg1, hb1, -⟩ := hg.grow ra1 hf.disjoint ht1.disjoint rfl rfl
      have hsegs : ra1.segs = _ := hg.segs_append hf.disjoint ht1.disjoint rfl rfl
      obtain ⟨hhpos, hhdvd, hhle⟩ := hg.headBuf_lt
      have hsat := hok ⟨toView ra.headBuf c.buf, toView ra.headBuf (c.buf + c.size)⟩
        (by simp only [toView]; omega)
        (by
          have h1 := hcok.buf_dvd
          simp only [toView]
          omega)
        (by
          intro t htm
          obtain ⟨d, hd, rfl⟩ := mem_segs.1 htm
          have h1 := (ht1.old separates_apart hf (.head _) hd).disjoint
          have h2 := ra.room_within d
          simp only [Span.Disjoint, Span.Within, ReqChunk.span, toView] at h1 h2 ⊢
          omega)
      rw [← hsegs] at hsat
      obtain ⟨cs, held', extents', brk, ret, st, eff, ht, hrun, hQ⟩ :=
        runMs_spec (k (some (toView ra.headBuf c.buf))) ra1 ds.tail hg1
          (hf.take separates_apart hin) (by rw [hb1]; exact hsat)
      have happ : ra1.chunks ++ cs = ra.chunks ++ (c :: cs) := by
        simp [ra1]
      refine ⟨c :: cs, held', extents', brk, ret, st, eff, ?_, ?_, ?_⟩
      · rw [hds]
        exact ht.cons separates_apart ⟨hf.ok, fun _ _ _ => nofun, hf.pairwise⟩ hcok hin
      · rw [he]
        rw [hb1, happ] at hrun
        exact hrun
      · rw [happ] at hQ
        exact hQ

end ArenaJs
