import ArenaJs.Lib.Linked
import ArenaJs.Alloc.ChunkSet
import ArenaJs.Alloc.RequestSpec
import ArenaJs.Alloc.BumpSpace

/-!
# The budget of a request arena

`req_acquire` and `req_release_extents` on the list as the code keeps it: libc nodes that point to
each other, with `head`, `tail`, `extents` and `held` beside them, and every extent entered in the
thread's chunk set. The model of `ArenaJs.Alloc.Request` has a list of extents in its place;
`reqAcquireNode_refines` says that the two agree.

The budget check adds two `size_t` values and may wrap. It does no harm: a provider that grants an
extent beside those the arena holds cannot grant one with which the sum passes the address space
(`budget_invariant`).
-/

namespace ArenaJs

/-- `PTRDIFF_MAX`. -/
def ptrdiffMax : Nat := 2 ^ 63 - 1

/-- `JSReqChunk`, as a node of its list. -/
structure ChunkNode where
  next : Option Nat
  buf : Nat
  size : Nat
deriving DecidableEq

/-- What `req_acquire` reads and writes of a `JSRequestArena`, with the nodes and the thread's chunk
set. -/
structure Budget where
  nodes : Nat → Option ChunkNode
  head : Option Nat
  tail : Option Nat
  extents : Nat
  cap : Nat
  held : Nat
  brk : Option Nat
  set : ChunkSet

/-- What the host answers during an acquisition: `malloc` of the node, the provider, and the
`calloc` of a chunk table. -/
structure Answers where
  node : Option Nat
  buf : Option Nat
  calloc : Bool

namespace Budget

/-- The successor of a node. -/
def next (b : Budget) (c : Nat) : Option (Option Nat) := (b.nodes c).map ChunkNode.next

/-- Write a node. -/
def putNode (b : Budget) (c : Nat) (n : Option ChunkNode) : Budget :=
  { b with nodes := fun x => if x = c then n else b.nodes x }

end Budget

variable {σ : Type} (H : Host σ)

variable (b : Budget) (id : ReqId)

/-- The end of `req_acquire`: the node `c` goes to the end of the list. -/
def linkNode (c buf size : Nat) : Budget :=
  let b := b.putNode c (some ⟨none, buf, size⟩)
  let b := match b.tail with
    | some t => match b.nodes t with
      | some n => b.putNode t (some { n with next := some c })
      | none => b
    | none => { b with head := some c }
  { b with tail := some c, extents := Word.add b.extents 1, held := Word.add b.held size }

/-- `req_acquire`; `id` is the arena. -/
def reqAcquireNode (need : Nat) (a : Answers) :
    Option (Option Nat × Budget) :=
  match acquireSize H b.cap b.held need with
  | none => some (none, b)
  | some size =>
    match a.node, a.buf with
    | none, _ => some (none, b)
    | some _, none => some (none, b)
    | some c, some buf =>
      (registerRequest b.set buf (buf + size) id a.calloc).map fun (r, set) =>
        if r < 0 then (none, { b with set }) else (some c, linkNode { b with set } c buf size)

/-- The loop of `req_release_extents`, from the node `c`. -/
def releaseFrom : Nat → Budget → Option Nat → Option Budget
  | _, b, none => some b
  | 0, _, some _ => none
  | fuel + 1, b, some c =>
    match b.nodes c with
    | none => none
    | some n => (unregisterRequestRange b.set n.buf (n.buf + n.size)).bind fun set =>
      releaseFrom fuel ({ b with set }.putNode c none) n.next

/-- `req_release_extents`. -/
def reqReleaseNodes : Option Budget :=
  match b.head.bind fun h => (b.nodes h).map fun n => (h, n) with
  | some (h, n) => (releaseFrom b.extents b n.next).map fun b =>
    { b.putNode h (some { n with next := none }) with
      tail := some h, extents := 1, held := n.size, brk := none }
  | none => some { b with tail := none, extents := 0, held := 0, brk := none }

/-- The budget `js_request_arena_new` computes from the one asked for. -/
def requestCapRound (requestCap : Nat) : Nat :=
  let requestCap := if requestCap = 0 then arenaDefaultSize else requestCap
  if requestCap = Word.sizeMax then Word.sizeMax else pagesRound H requestCap

/-- The bytes of the head extent it asks for. -/
def headNeed (cap : Nat) : Nat := if cap < reqExtentDefault then cap else reqExtentDefault

/-- An arena before its first acquisition. -/
def Budget.empty (set : ChunkSet) (cap : Nat) : Budget :=
  ⟨fun _ => none, none, none, 0, cap, 0, none, set⟩

/-- The budget part of `js_request_arena_new`. -/
def budgetNew (set : ChunkSet) (requestCap : Nat) (a : Answers) :
    Option (Option Budget) :=
  let b := Budget.empty set (requestCapRound H requestCap)
  let head := headNeed b.cap
  if head < arenaPrefixLen + requestSlotSize + arenaHeaderSize + arenaAlign then some none
  else (reqAcquireNode H b id head a).map fun
    | (none, _) => none
    | (some _, b) => some b

/-- `js_arena_morecore`, with the arena parked. -/
def budgetMorecore (n : Int) (a : Answers) :
    Option (Option Nat × Budget) :=
  if n = 0 then some (b.brk, b)
  else if n < 0 then some (none, b)
  else (reqAcquireNode H b id n.toNat a).map fun
    | (none, b) => (none, b)
    | (some c, b) => match b.nodes c with
      | some k => (some k.buf, { b with brk := some (k.buf + k.size) })
      | none => (none, b)

/-! ## The invariant -/

/-- The extent of a node. -/
def Budget.chunkAt (c : Nat) : Option ReqChunk :=
  (b.nodes c).map fun n => ⟨n.buf, n.size⟩

/-- The extents of a list of nodes. -/
def Budget.chunks (ns : List Nat) : List ReqChunk := ns.filterMap b.chunkAt

/-- The list at `head` has the nodes `ns`, its extents were acquired for `needs`, and the counters
say so. -/
structure BudgetOk (b : Budget) (ns needs : List Nat) : Prop where
  linked : Linked b.next b.head ns
  nodup : ns.Nodup
  addr : ∀ c ∈ ns, 0 < c ∧ c < 2 ^ 64
  tail : b.tail = ns.getLast?
  extents : b.extents = ns.length
  held : b.held = ((b.chunks ns).map ReqChunk.size).sum
  held_le : b.held ≤ b.cap
  cap_lt : b.cap < 2 ^ 64
  disjoint : (b.chunks ns).Pairwise fun c d => c.span.Disjoint d.span
  mapped : ∀ c ∈ b.chunks ns, 0 < c.buf ∧ c.buf + c.size ≤ 2 ^ 64
  needs : List.Forall₂ (fun need c => need ≤ c.size) needs (b.chunks ns)

/-- What the host guarantees about its answers: the node is a fresh libc block, and the provider's
block is mapped, chunk-aligned memory of the size asked for that the arena does not hold. -/
structure AnswersOk (b : Budget) (need : Nat) (a : Answers) : Prop where
  node : ∀ c ∈ a.node, b.nodes c = none ∧ 0 < c ∧ c < 2 ^ 64
  buf : ∀ buf ∈ a.buf, ∀ size ∈ acquireSize H b.cap b.held need,
    0 < buf ∧ chunkSize ∣ buf ∧ buf + size ≤ 2 ^ 64 ∧
      ∀ c n, b.nodes c = some n → (⟨n.buf, n.buf + n.size⟩ : Span).Disjoint ⟨buf, buf + size⟩

section
variable {H} {b : Budget} {ns needs : List Nat}
variable {id : ReqId} {a : Answers} {b' : Budget} {need : Nat}

/-- The number of distinct node addresses is a `size_t`. -/
theorem length_lt_of_nodup {l : List Nat} (hl : l.Nodup) (haddr : ∀ c ∈ l, 0 < c ∧ c < 2 ^ 64) :
    l.length < 2 ^ 64 := by
  have hsub : l.toFinset ⊆ Finset.Ico 1 (2 ^ 64) := fun c hc => by
    have := haddr c (List.mem_toFinset.1 hc)
    rw [Finset.mem_Ico]; omega
  have := Finset.card_le_card hsub
  rw [List.toFinset_card_of_nodup hl, Nat.card_Ico] at this
  omega

/-- Disjoint extents hold less than the address space. -/
theorem sum_size_lt {cs : List ReqChunk} (hd : cs.Pairwise fun c d => c.span.Disjoint d.span)
    (hm : ∀ c ∈ cs, 0 < c.buf ∧ c.buf + c.size ≤ 2 ^ 64) :
    (cs.map ReqChunk.size).sum < 2 ^ 64 := by
  have hsum := Span.sum_length_le (L := cs.map ReqChunk.span) (s := ⟨1, 2 ^ 64⟩)
    (List.pairwise_map.2 hd) (by
      intro t ht
      obtain ⟨c, hc, rfl⟩ := List.mem_map.1 ht
      have := hm c hc
      exact ⟨this.1, this.2⟩)
  have hlen : (cs.map ReqChunk.span).map (fun t => t.hi - t.lo) = cs.map ReqChunk.size := by
    rw [List.map_map]
    refine List.map_congr_left fun c _ => ?_
    simp [ReqChunk.span]
  rw [hlen] at hsum
  simp only at hsum
  omega

/-- The extents after a new node is linked. -/
theorem chunks_congr (h : ∀ c ∈ ns, b'.chunkAt c = b.chunkAt c) :
    b'.chunks ns = b.chunks ns := List.filterMap_congr h

theorem mem_chunks {c : ReqChunk} (hc : c ∈ b.chunks ns) :
    ∃ a n, b.nodes a = some n ∧ c = ⟨n.buf, n.size⟩ := by
  obtain ⟨a, -, ha⟩ := List.mem_filterMap.1 hc
  obtain ⟨n, hn, rfl⟩ := Option.map_eq_some_iff.1 ha
  exact ⟨a, n, hn, rfl⟩

/-- What linking a fresh node does to the nodes. -/
theorem linkNode_chunkAt (b : Budget) {c : Nat} (buf size : Nat) (hc : b.nodes c = none) (x : Nat) :
    (linkNode b c buf size).chunkAt x = if x = c then some ⟨buf, size⟩ else b.chunkAt x := by
  unfold linkNode Budget.chunkAt Budget.putNode
  cases ht : b.tail with
  | none => simp only; split <;> rfl
  | some t =>
    simp only
    by_cases htc : t = c
    · subst htc
      simp only [if_true]
      split <;> rfl
    · simp only [if_neg htc]
      cases hn : b.nodes t with
      | none => simp only; split <;> rfl
      | some n =>
        simp only
        by_cases hxt : x = t
        · subst hxt; simp [htc, hn]
        · simp only [if_neg hxt]; split <;> rfl

/-- The successors after a fresh node is linked behind the last one. -/
theorem linkNode_next (b : Budget) {c t : Nat} (buf size : Nat) (ht : b.tail = some t) (htc : t ≠ c)
    (hn : (b.nodes t).isSome) (x : Nat) :
    (linkNode b c buf size).next x =
      if x = t then some (some c) else if x = c then some none else b.next x := by
  obtain ⟨n, hn⟩ := Option.isSome_iff_exists.1 hn
  unfold linkNode Budget.next Budget.putNode
  simp only [ht, if_neg htc, hn]
  split
  · rfl
  · split <;> rfl

@[simp] theorem linkNode_fields (b : Budget) (c buf size : Nat) :
    (linkNode b c buf size).extents = Word.add b.extents 1 ∧
      (linkNode b c buf size).held = Word.add b.held size ∧ (linkNode b c buf size).cap = b.cap ∧
      (linkNode b c buf size).brk = b.brk ∧ (linkNode b c buf size).set = b.set := by
  unfold linkNode Budget.putNode
  simp only
  split
  · split <;> simp
  · simp

@[simp] theorem linkNode_tail (b : Budget) (c buf size : Nat) :
    (linkNode b c buf size).tail = some c := rfl

theorem linkNode_head (b : Budget) (c buf size : Nat) :
    (linkNode b c buf size).head = if b.tail = none then some c else b.head := by
  unfold linkNode Budget.putNode
  cases ht : b.tail with
  | none => rfl
  | some t => simp only; split <;> rfl

/-- A new node is not on the list. -/
theorem BudgetOk.not_mem (h : BudgetOk b ns needs) {c : Nat} (hc : b.nodes c = none) : c ∉ ns :=
  fun hmem => by
    have := h.linked.isSome hmem
    simp [Budget.next, hc] at this

theorem BudgetOk.chunks_link (h : BudgetOk b ns needs) {c : Nat} (buf size : Nat)
    (hc : b.nodes c = none) :
    (linkNode b c buf size).chunks (ns ++ [c]) = b.chunks ns ++ [⟨buf, size⟩] := by
  have hat := linkNode_chunkAt b buf size hc
  rw [Budget.chunks, List.filterMap_append]
  congr 1
  · exact chunks_congr fun x hx => by rw [hat, if_neg (by rintro rfl; exact h.not_mem hc hx)]
  · simp [hat]

/-- The new node ends the list. -/
theorem BudgetOk.linked_append (h : BudgetOk b ns needs) {c : Nat} (buf size : Nat)
    (hc : b.nodes c = none) :
    Linked (linkNode b c buf size).next (linkNode b c buf size).head (ns ++ [c]) := by
  have hlinked := h.linked
  have hnot := h.not_mem hc
  rw [linkNode_head, h.tail]
  cases hlast : ns.getLast? with
  | none =>
    obtain rfl : ns = [] := List.getLast?_eq_none_iff.1 hlast
    rw [if_pos rfl]
    refine ⟨rfl, none, ?_, rfl⟩
    simp [linkNode, Budget.next, Budget.putNode, h.tail]
  | some t =>
    have htmem : t ∈ ns := List.mem_of_getLast? hlast
    have htc : t ≠ c := fun heq => hnot (heq ▸ htmem)
    have hsome : (b.nodes t).isSome := by simpa [Budget.next] using hlinked.isSome htmem
    have hnext := linkNode_next b buf size (h.tail.trans hlast) htc hsome
    rw [if_neg (by simp)]
    refine hlinked.append hlast h.nodup ?_ ?_ fun a ha hat => ?_
    · rw [hnext, if_neg htc.symm, if_pos rfl]
    · rw [hnext, if_pos rfl]
    · rw [hnext, if_neg hat, if_neg (by rintro rfl; exact hnot ha)]

/-- Linking an extent the provider granted keeps the invariant. -/
theorem BudgetOk.link (h : BudgetOk b ns needs) {c buf size need : Nat} (hneed : need ≤ size)
    (hc : b.nodes c = none) (haddr : 0 < c ∧ c < 2 ^ 64) (hbuf : 0 < buf ∧ buf + size ≤ 2 ^ 64)
    (hfree : ∀ a n, b.nodes a = some n →
      (⟨n.buf, n.buf + n.size⟩ : Span).Disjoint ⟨buf, buf + size⟩)
    (hcap : Word.add b.held size ≤ b.cap) :
    BudgetOk (linkNode b c buf size) (ns ++ [c]) (needs ++ [need]) := by
  have hnot := h.not_mem hc
  have hchunks := h.chunks_link buf size hc
  obtain ⟨hextents, hheld, hcap', -⟩ := linkNode_fields b c buf size
  have hnodup : (ns ++ [c]).Nodup := by
    rw [List.nodup_append]
    exact ⟨h.nodup, List.nodup_singleton c, fun a ha d hd => by
      rw [List.mem_singleton.1 hd]; rintro rfl; exact hnot ha⟩
  have haddrs : ∀ a ∈ ns ++ [c], 0 < a ∧ a < 2 ^ 64 := by
    intro a ha
    rcases List.mem_append.1 ha with ha | ha
    · exact h.addr a ha
    · rw [List.mem_singleton.1 ha]; exact haddr
  have hdis : (b.chunks ns ++ [(⟨buf, size⟩ : ReqChunk)]).Pairwise
      fun c d => c.span.Disjoint d.span := by
    rw [List.pairwise_append]
    refine ⟨h.disjoint, List.pairwise_singleton _ _, fun d hd e he => ?_⟩
    obtain ⟨a, n, hn, rfl⟩ := mem_chunks hd
    rw [List.mem_singleton.1 he]
    exact hfree a n hn
  have hmapped : ∀ d ∈ b.chunks ns ++ [(⟨buf, size⟩ : ReqChunk)], 0 < d.buf ∧ d.buf + d.size ≤
    2 ^ 64 := by
    intro d hd
    rcases List.mem_append.1 hd with hd | hd
    · exact h.mapped d hd
    · rw [List.mem_singleton.1 hd]; exact hbuf
  -- the extents are disjoint, so neither counter wraps
  have hlen := length_lt_of_nodup hnodup haddrs
  have hsum := sum_size_lt hdis hmapped
  rw [List.length_append, List.length_singleton, ← h.extents] at hlen
  rw [List.map_append, List.sum_append, ← h.held, List.map_singleton, List.sum_singleton] at hsum
  rw [Word.add_eq hsum] at hcap
  refine ⟨h.linked_append buf size hc, hnodup, haddrs, by simp, ?_, ?_, ?_, by simpa using h.cap_lt,
    hchunks ▸ hdis, hchunks ▸ hmapped, ?_⟩
  · rw [hextents, Word.add_eq hlen, h.extents, List.length_append, List.length_singleton]
  · rw [hheld, Word.add_eq hsum, hchunks, List.map_append, List.sum_append, ← h.held,
      List.map_singleton, List.sum_singleton]
  · rw [hheld, hcap', Word.add_eq hsum]; exact hcap
  · rw [hchunks]
    exact List.rel_append h.needs (.cons hneed .nil)

/-- The invariant does not read the chunk set or the break. -/
theorem BudgetOk.congr (h : BudgetOk b ns needs) (set : ChunkSet) (brk : Option Nat) :
    BudgetOk { b with set, brk } ns needs :=
  { h with }

/-- A refused acquisition changes nothing; another links a node. -/
theorem reqAcquireNode_cases {r : Option Nat} (h : reqAcquireNode H b id need a = some (r, b')) :
    r = none ∧ b' = b ∨ ∃ c buf size q set, r = some c ∧ a.node = some c ∧ a.buf = some buf ∧
      acquireSize H b.cap b.held need = some size ∧
      registerRequest b.set buf (buf + size) id a.calloc = some (q, set) ∧ ¬ q < 0 ∧
      b' = linkNode { b with set } c buf size := by
  unfold reqAcquireNode at h
  split at h
  · cases h
    exact .inl ⟨rfl, rfl⟩
  next size hsize =>
  split at h
  · cases h
    exact .inl ⟨rfl, rfl⟩
  · cases h
    exact .inl ⟨rfl, rfl⟩
  next c buf hnode hbuf =>
  obtain ⟨⟨q, set⟩, hreg, h⟩ := Option.map_eq_some_iff.1 h
  simp only at h
  split at h
  · next hq =>
    cases h
    exact .inl ⟨rfl, by rw [registerRequest_failed hreg hq]⟩
  · next hq =>
    cases h
    exact .inr ⟨c, buf, size, q, set, rfl, hnode, hbuf, hsize, hreg, hq, rfl⟩

/-- An acquisition is refused, or appends an extent that covers the need. -/
theorem BudgetOk.acquire (h : BudgetOk b ns needs) (hset : b.set.Ok)
    {r : Option Nat} (hneed : need ≤ ptrdiffMax)
    (ha : AnswersOk H b need a) (hr : reqAcquireNode H b id need a = some (r, b')) :
    r = none ∧ b' = b ∨ ∃ c, r = some c ∧ b'.brk = b.brk ∧ b'.set.Ok ∧
      BudgetOk b' (ns ++ [c]) (needs ++ [need]) := by
  rcases reqAcquireNode_cases hr with hno |
    ⟨c, buf, size, q, set, rfl, hnode, hbuf, hsize, hreg, hq, rfl⟩
  · exact .inl hno
  · obtain ⟨hfresh, haddr⟩ := ha.node c hnode
    obtain ⟨hpos, -, hfits, hfree⟩ := ha.buf buf hbuf size hsize
    have hround : need + (H.round - 1) < 2 ^ 64 := by
      rw [ptrdiffMax] at hneed
      rcases H.round_eq with hr | hr | hr <;> omega
    obtain ⟨hle, hcap⟩ := acquireSize_spec hround hsize
    have hok : set.Ok := by
      rcases registerRequest_spec hset id a.calloc (registerRequest_fits hset hreg) with
        hs | ⟨cs, hs, hcs, -⟩
      · cases hreg.symm.trans hs
        exact absurd (by decide) hq
      · cases hreg.symm.trans hs
        exact hcs
    refine .inr ⟨c, rfl, by simp, by simpa using hok, ?_⟩
    exact (h.congr set b.brk).link hle hfresh haddr ⟨hpos, hfits⟩ hfree hcap

/-- An acquisition whose registration fits the chunk set returns. -/
theorem reqAcquireNode_returns (hset : b.set.Ok)
    (hfit : ∀ buf ∈ a.buf, ∀ size ∈ acquireSize H b.cap b.held need,
      b.set.count + ((buf + size) >>> chunkShift - buf >>> chunkShift) ≤ 2 ^ 30) :
    (reqAcquireNode H b id need a).isSome := by
  unfold reqAcquireNode
  split
  · rfl
  next size hsize =>
  split
  · rfl
  · rfl
  next c buf _ hbuf =>
  rcases registerRequest_spec hset id a.calloc (hfit buf hbuf size hsize) with
    hs | ⟨cs, hs, -⟩ <;> rw [hs] <;> rfl

/-! ## Release -/

/-- The release loop visits the nodes of the list, drops them and leaves the others alone. -/
theorem releaseFrom_spec (fuel : Nat) {p : Option Nat} {l : List Nat} (hset : b.set.Ok)
    (hl : Linked b.next p l) (hnodup : l.Nodup) (hfuel : l.length ≤ fuel) :
    ∃ b', releaseFrom fuel b p = some b' ∧ b'.set.Ok ∧ b'.head = b.head ∧ b'.cap = b.cap ∧
      ∀ x ∉ l, b'.nodes x = b.nodes x := by
  induction l generalizing b p fuel with
  | nil =>
    obtain rfl : p = none := hl
    exact ⟨b, by cases fuel <;> rfl, hset, rfl, rfl, fun _ _ => rfl⟩
  | cons c l ih =>
    obtain ⟨rfl, q, hq, hl⟩ := hl
    obtain ⟨n, hn, rfl⟩ := Option.map_eq_some_iff.1 hq
    obtain ⟨hc, hnodup⟩ := List.nodup_cons.1 hnodup
    cases fuel with
    | zero => cases hfuel
    | succ fuel =>
      obtain ⟨set, hun, hset', -⟩ := unregisterRequestRange_spec hset n.buf (n.buf + n.size)
      set b1 : Budget := { b with set }.putNode c none
      have hother : ∀ x, x ≠ c → b1.nodes x = b.nodes x := fun x hx => if_neg hx
      have hl1 : Linked b1.next n.next l := hl.congr fun a ha => by
        simp [Budget.next, hother a (by rintro rfl; exact hc ha)]
      obtain ⟨b', hb', hs, hh, hcap, hx⟩ := ih fuel (b := b1) hset' hl1 hnodup
        (Nat.le_of_succ_le_succ hfuel)
      refine ⟨b', by
        simp only [releaseFrom, hn, hun, Option.bind_some]; exact hb', hs, hh, hcap, ?_⟩
      intro x hxl
      rw [List.mem_cons, not_or] at hxl
      rw [hx x hxl.2, hother x hxl.1]

/-- After `req_release_extents` the head is the only extent. -/
theorem BudgetOk.release (h : BudgetOk b ns needs) (hset : b.set.Ok) :
    ∃ b', reqReleaseNodes b = some b' ∧ b'.set.Ok ∧ BudgetOk b' (ns.take 1) (needs.take 1) := by
  have hlinked := h.linked
  unfold reqReleaseNodes
  cases ns with
  | nil =>
    have hhead : b.head = none := hlinked
    have hneeds : needs = [] := List.forall₂_nil_right_iff.1 h.needs
    simp only [hhead, Option.bind_none]
    refine ⟨_, rfl, hset, ?_⟩
    exact ⟨rfl, .nil, nofun, rfl, rfl, rfl, Nat.zero_le _, h.cap_lt, .nil, nofun, by simp [hneeds,
      Budget.chunks]⟩
  | cons c l =>
    obtain ⟨hhead, q, hq, hl⟩ := hlinked
    obtain ⟨n, hn, rfl⟩ := Option.map_eq_some_iff.1 hq
    obtain ⟨hc, hnodup⟩ := List.nodup_cons.1 h.nodup
    have hext := h.extents
    rw [List.length_cons] at hext
    obtain ⟨b1, hb1, hset1, hh1, hcap1, hx1⟩ :=
      releaseFrom_spec b.extents hset hl hnodup (by omega)
    simp only [hhead, Option.bind_some, hn, Option.map_some, hb1]
    refine ⟨_, rfl, hset1, ?_⟩
    have hchunks : b.chunks (c :: l) = ⟨n.buf, n.size⟩ :: b.chunks l := by
      simp [Budget.chunks, Budget.chunkAt, hn]
    have hdis := h.disjoint
    have hmapped := h.mapped
    have hneeds := h.needs
    have hheld := h.held
    have hle := h.held_le
    rw [hchunks] at hdis hmapped hneeds hheld
    simp only [List.map_cons, List.sum_cons] at hheld
    cases needs with
    | nil => cases hneeds
    | cons need needs =>
      obtain ⟨hneed, -⟩ := List.forall₂_cons.1 hneeds
      refine ⟨⟨?_, none, ?_, rfl⟩, List.nodup_singleton c, ?_, rfl, rfl, ?_, ?_, ?_, ?_, ?_, ?_⟩
      · exact hh1.trans hhead
      · simp [Budget.next, Budget.putNode]
      · exact fun a ha => h.addr a (by rw [List.mem_singleton.1 ha]; exact .head _)
      · simp [Budget.chunks, Budget.chunkAt, Budget.putNode]
      · simp only [Budget.putNode, hcap1]; omega
      · simp only [Budget.putNode, hcap1]; exact h.cap_lt
      · simp [Budget.chunks, Budget.chunkAt, Budget.putNode]
      · simpa [Budget.chunks, Budget.chunkAt, Budget.putNode] using hmapped _ (.head _)
      · simpa [Budget.chunks, Budget.chunkAt, Budget.putNode] using hneed

theorem requestCapRound_lt (requestCap : Nat) : requestCapRound H requestCap < 2 ^ 64 := by
  simp only [requestCapRound]
  generalize (if requestCap = 0 then arenaDefaultSize else requestCap) = requestCap
  split
  · decide
  · exact Word.alignUp_lt _ _

theorem headNeed_le (cap : Nat) : headNeed cap ≤ ptrdiffMax := by
  have : headNeed cap ≤ reqExtentDefault := by unfold headNeed; split <;> omega
  exact this.trans (by decide)

/-- A new arena holds its head extent. -/
theorem budgetNew_spec {set : ChunkSet} {requestCap : Nat} {b : Budget}
    (hset : set.Ok) (ha : AnswersOk H (.empty set (requestCapRound H requestCap))
      (headNeed (requestCapRound H requestCap)) a)
    (h : budgetNew H id set requestCap a = some (some b)) :
    b.set.Ok ∧ ∃ c, BudgetOk b [c] [headNeed (requestCapRound H requestCap)] := by
  simp only [budgetNew] at h
  split at h
  · cases h
  · obtain ⟨⟨r, b'⟩, hacq, h⟩ := Option.map_eq_some_iff.1 h
    have h0 : BudgetOk (.empty set (requestCapRound H requestCap)) [] [] :=
      ⟨rfl, .nil, nofun, rfl, rfl, rfl, Nat.zero_le _, requestCapRound_lt _, .nil, nofun, .nil⟩
    rcases h0.acquire hset (headNeed_le _) ha hacq with ⟨rfl, -⟩ | ⟨c, rfl, -, hset', hok⟩
    · cases h
    · cases h
      exact ⟨hset', c, hok⟩

end

/-! ## Runs -/

/-- What happens to an arena: acquisitions, calls of `MORECORE`, resets, and calls on the thread's
chunk set by other arenas. -/
inductive BudgetOp where
  | acquire (need : Nat) (a : Answers)
  | morecore (n : Int) (a : Answers)
  | reset
  | thread (set : ChunkSet)

/-- One operation of the arena `id`, with the needs its extents were acquired for. -/
def budgetStep (S : Budget × List Nat) : BudgetOp → Option (Budget × List Nat)
  | .acquire need a => (reqAcquireNode H S.1 id need a).map fun (r, b) =>
    (b, if r.isSome then S.2 ++ [need] else S.2)
  | .morecore n a => (budgetMorecore H S.1 id n a).map fun (r, b) =>
    (b, if 0 < n ∧ r.isSome then S.2 ++ [n.toNat] else S.2)
  | .reset => (reqReleaseNodes S.1).map fun b => (b, S.2.take 1)
  | .thread set => some ({ S.1 with set }, S.2)

/-- A run of operations. -/
def budgetRun (S : Budget × List Nat) (ops : List BudgetOp) :
    Option (Budget × List Nat) :=
  ops.foldlM (budgetStep H id) S

/-- What the host guarantees, for needs up to `PTRDIFF_MAX`. -/
def BudgetOp.HostOk : BudgetOp → Prop
  | .acquire need a => need ≤ ptrdiffMax ∧ AnswersOk H b need a
  | .morecore n a => n ≤ ptrdiffMax ∧ (0 < n → AnswersOk H b n.toNat a)
  | .reset => True
  | .thread set => set.Ok

/-- The chunk set has room for what the provider grants. -/
def BudgetOp.Fits : BudgetOp → Prop
  | .acquire need a => ∀ buf ∈ a.buf, ∀ size ∈ acquireSize H b.cap b.held need,
      b.set.count + ((buf + size) >>> chunkShift - buf >>> chunkShift) ≤ 2 ^ 30
  | .morecore n a => ∀ buf ∈ a.buf, ∀ size ∈ acquireSize H b.cap b.held n.toNat,
      b.set.count + ((buf + size) >>> chunkShift - buf >>> chunkShift) ≤ 2 ^ 30
  | .reset | .thread _ => True

/-- Every operation of a run meets `P` in the state it is made in. -/
def AllBudgetOps (id : ReqId) (P : Budget → BudgetOp → Prop) :
    Budget × List Nat → List BudgetOp → Prop
  | _, [] => True
  | S, op :: ops => P S.1 op ∧ ∀ S' ∈ budgetStep H id S op, AllBudgetOps id P S' ops

section
variable {H} {id : ReqId} {S S' : Budget × List Nat}

/-- The invariant of a run. -/
def BudgetInv (S : Budget × List Nat) : Prop := S.1.set.Ok ∧ ∃ ns, BudgetOk S.1 ns S.2

/-- Every operation that returns keeps the invariant. -/
theorem BudgetInv.step (h : BudgetInv S) {op : BudgetOp} (hop : op.HostOk H S.1)
    (hS : budgetStep H id S op = some S') : BudgetInv S' := by
  obtain ⟨hset, ns, hok⟩ := h
  cases op with
  | acquire need a =>
    obtain ⟨⟨r, b⟩, hacq, rfl⟩ := Option.map_eq_some_iff.1 hS
    rcases hok.acquire hset hop.1 hop.2 hacq with ⟨rfl, rfl⟩ | ⟨c, rfl, -, hset', hok'⟩
    · exact ⟨hset, ns, hok⟩
    · exact ⟨hset', _, hok'⟩
  | morecore n a =>
    obtain ⟨⟨r, b⟩, hmore, rfl⟩ := Option.map_eq_some_iff.1 hS
    unfold budgetMorecore at hmore
    split at hmore
    · next hn =>
      cases hmore
      exact ⟨hset, ns, by simpa [hn] using hok⟩
    next hn =>
    split at hmore
    · next hn' =>
      cases hmore
      exact ⟨hset, ns, by simpa using hok⟩
    next hn' =>
    have hpos : 0 < n := by omega
    obtain ⟨⟨q, b1⟩, hacq, hmore⟩ := Option.map_eq_some_iff.1 hmore
    have hneed : n.toNat ≤ ptrdiffMax := Int.toNat_le.2 hop.1
    rcases hok.acquire hset hneed (hop.2 hpos) hacq with ⟨rfl, rfl⟩ | ⟨c, rfl, -, hset', hok'⟩
    · cases hmore
      exact ⟨hset, ns, by simpa using hok⟩
    · have hsome : (b1.nodes c).isSome := by
        simpa [Budget.next] using hok'.linked.isSome (List.mem_append_right ns (.head _))
      obtain ⟨k, hk⟩ := Option.isSome_iff_exists.1 hsome
      simp only [hk] at hmore
      cases hmore
      refine ⟨hset', ns ++ [c], ?_⟩
      simpa [hpos] using hok'.congr b1.set (some (k.buf + k.size))
  | reset =>
    obtain ⟨b, hrel, hset', hok'⟩ := hok.release hset
    simp only [budgetStep, hrel, Option.map_some] at hS
    cases hS
    exact ⟨hset', _, hok'⟩
  | thread set =>
    cases hS
    exact ⟨hop, ns, hok.congr set S.1.brk⟩

/-- An operation whose registration fits returns. -/
theorem BudgetInv.returns (h : BudgetInv S) {op : BudgetOp} (hfit : op.Fits H S.1) (id : ReqId) :
    (budgetStep H id S op).isSome := by
  obtain ⟨hset, ns, hok⟩ := h
  cases op with
  | acquire need a =>
    simpa only [budgetStep, Option.isSome_map] using reqAcquireNode_returns hset hfit
  | morecore n a =>
    simp only [budgetStep, Option.isSome_map, budgetMorecore]
    split
    · rfl
    · split
      · rfl
      · simpa only [Option.isSome_map] using reqAcquireNode_returns hset hfit
  | reset =>
    obtain ⟨b, hrel, -⟩ := hok.release hset
    simp [budgetStep, hrel]
  | thread set => rfl

/-- Every run that returns keeps the invariant. -/
theorem BudgetInv.run (h : BudgetInv S) {ops : List BudgetOp}
    (hops : AllBudgetOps H id (BudgetOp.HostOk H) S ops) (hS : budgetRun H id S ops = some S') :
    BudgetInv S' := by
  induction ops generalizing S with
  | nil => obtain rfl := Option.some.inj hS; exact h
  | cons op ops ih =>
    simp only [budgetRun, List.foldlM_cons, Option.bind_eq_bind] at hS
    obtain ⟨S1, hS1, hS⟩ := Option.bind_eq_some_iff.1 hS
    exact ih (h.step hops.1 hS1) (hops.2 S1 hS1) hS

/-- A run whose registrations fit returns. -/
theorem BudgetInv.run_returns (h : BudgetInv S) {ops : List BudgetOp}
    (hops : AllBudgetOps H id (BudgetOp.HostOk H) S ops)
    (hfit : AllBudgetOps H id (BudgetOp.Fits H) S ops) : (budgetRun H id S ops).isSome := by
  induction ops generalizing S with
  | nil => rfl
  | cons op ops ih =>
    obtain ⟨S1, hS1⟩ := Option.isSome_iff_exists.1 (h.returns hfit.1 id)
    have := ih (h.step hops.1 hS1) (hops.2 S1 hS1) (hfit.2 S1 hS1)
    simpa only [budgetRun, List.foldlM_cons, Option.bind_eq_bind, hS1, Option.bind_some] using this

end

/-- The budget invariant: after every run of acquisitions, calls of `MORECORE` and resets of a new
arena, for every budget and every need up to `PTRDIFF_MAX`, the counters describe the list, `held`
does not exceed the budget, every extent covers the need it was acquired for, and a refused
`req_acquire` leaves everything as it was, the chunk set included. The run returns when the chunk
set has room for what the provider grants. -/
theorem budget_invariant (id : ReqId) (set : ChunkSet) (hset : set.Ok) (requestCap : Nat)
    (a : Answers) (ha : AnswersOk H (.empty set (requestCapRound H requestCap))
      (headNeed (requestCapRound H requestCap)) a) (b0 : Budget)
    (hnew : budgetNew H id set requestCap a = some (some b0)) (ops : List BudgetOp)
    (hops : AllBudgetOps H id (BudgetOp.HostOk H)
      (b0, [headNeed (requestCapRound H requestCap)]) ops) :
    (∀ b needs, budgetRun H id (b0, [headNeed (requestCapRound H requestCap)]) ops =
      some (b, needs) → ∃ ns, Linked b.next b.head ns ∧
        b.held = ((b.chunks ns).map ReqChunk.size).sum ∧ b.extents = ns.length ∧
        b.tail = ns.getLast? ∧ b.held ≤ b.cap ∧
        List.Forall₂ (fun need c => need ≤ c.size) needs (b.chunks ns) ∧
        ∀ need a b', reqAcquireNode H b id need a = some (none, b') → b' = b) ∧
    (AllBudgetOps H id (BudgetOp.Fits H) (b0, [headNeed (requestCapRound H requestCap)]) ops →
      (budgetRun H id (b0, [headNeed (requestCapRound H requestCap)]) ops).isSome) := by
  obtain ⟨hset0, c, hok⟩ := budgetNew_spec hset ha hnew
  have hinv : BudgetInv (b0, [headNeed (requestCapRound H requestCap)]) := ⟨hset0, [c], hok⟩
  refine ⟨fun b needs hrun => ?_, hinv.run_returns hops⟩
  obtain ⟨-, ns, hb⟩ := hinv.run hops hrun
  refine ⟨ns, hb.linked, hb.held, hb.extents, hb.tail, hb.held_le, hb.needs, fun need a b' h => ?_⟩
  rcases reqAcquireNode_cases h with ⟨-, hb'⟩ | ⟨c, -, -, -, -, hc, -⟩
  · exact hb'
  · cases hc

/-- A new arena with a budget of 1 MiB whose head extent is at `2 ^ 25`. -/
def mibBudget? : Option (Option Budget) :=
  budgetNew bumpHost 7 ChunkSet.start (2 ^ 20) ⟨some 100, some (2 ^ 25), true⟩

/-- The budget it starts with. -/
def mibBudget : Budget := (mibBudget?.getD none).getD (.empty .start 0)

theorem mibBudget_nodes (c : Nat) :
    mibBudget.nodes c = if c = 100 then some ⟨none, 2 ^ 25, 2 ^ 18⟩ else none := rfl

theorem mibBudget_new : mibBudget? = some (some mibBudget) := by
  have hsome : mibBudget?.isSome ∧ (mibBudget?.getD none).isSome := by decide +kernel
  obtain ⟨o, ho⟩ := Option.isSome_iff_exists.1 hsome.1
  simp only [mibBudget, ho, Option.getD_some] at hsome ⊢
  obtain ⟨b, rfl⟩ := Option.isSome_iff_exists.1 hsome.2
  rfl

/-- The provider may grant an extent at `2 ^ 26`. -/
theorem mibBudget_answers :
    AnswersOk bumpHost mibBudget 300000 ⟨some 200, some (2 ^ 26), true⟩ := by
  have hsize : acquireSize bumpHost mibBudget.cap mibBudget.held 300000 = some 303104 := by
    decide +kernel
  refine ⟨?_, ?_⟩
  · rintro _ ⟨⟩
    exact ⟨rfl, by decide, by decide⟩
  · rintro _ ⟨⟩ size hs
    cases hsize.symm.trans hs
    refine ⟨by decide, by decide, by decide, fun c n hn => ?_⟩
    rw [mibBudget_nodes] at hn
    split at hn
    · cases hn
      decide
    · cases hn

/-- The answers with which that arena was made. -/
theorem mibBudget_head : AnswersOk bumpHost
    (.empty ChunkSet.start (requestCapRound bumpHost (2 ^ 20)))
    (headNeed (requestCapRound bumpHost (2 ^ 20))) ⟨some 100, some (2 ^ 25), true⟩ := by
  refine ⟨by rintro _ ⟨⟩; exact ⟨rfl, by decide, by decide⟩, ?_⟩
  rintro _ ⟨⟩ size hs
  have hsize : some (2 ^ 18) = some size := hs
  cases hsize
  exact ⟨by decide, by decide, by decide, nofun⟩

/-- That arena acquires 300 kB, and is then refused 2 MiB. -/
theorem budget_invariant_mib : ∃ b needs,
    budgetRun bumpHost 7 (mibBudget, [2 ^ 18])
      [.acquire 300000 ⟨some 200, some (2 ^ 26), true⟩,
        .acquire (2 ^ 21) ⟨none, none, true⟩] = some (b, needs) ∧
    b.extents = 2 ∧ b.held ≤ b.cap := by
  have hrun : (budgetRun bumpHost 7 (mibBudget, [2 ^ 18])
      [.acquire 300000 ⟨some 200, some (2 ^ 26), true⟩,
        .acquire (2 ^ 21) ⟨none, none, true⟩]).map (fun S => S.1.extents) = some 2 := by
    decide +kernel
  obtain ⟨⟨b, needs⟩, hrun, hext⟩ := Option.map_eq_some_iff.1 hrun
  obtain ⟨ns, -, -, -, -, hle, -⟩ := (budget_invariant bumpHost 7 ChunkSet.start ⟨rfl, rfl⟩ (2 ^ 20)
    ⟨some 100, some (2 ^ 25), true⟩ mibBudget_head mibBudget mibBudget_new
    [.acquire 300000 ⟨some 200, some (2 ^ 26), true⟩, .acquire (2 ^ 21) ⟨none, none, true⟩]
    ⟨⟨by decide, mibBudget_answers⟩, fun _ _ => ⟨⟨by decide, nofun, nofun⟩, fun _ _ => trivial⟩⟩).1
    b needs hrun
  exact ⟨b, needs, hrun, hext, hle⟩

/-! ## The list model -/

/-- The arena `ra` of the list model has the extents and counters of `b`. -/
structure Abstracts (b : Budget) (ns : List Nat) (ra : RequestArena σ) : Prop where
  chunks : ra.chunks = b.chunks ns
  extents : ra.extents = b.extents
  held : ra.held = b.held
  cap : ra.cap = b.cap
  brk : ra.brk = b.brk

/-- An acquisition on the linked list is one of the list model, whose host refuses or grants
accordingly. -/
theorem reqAcquireNode_refines {b b' : Budget} {ns needs : List Nat} {ra : RequestArena σ}
    {id : ReqId} {need : Nat} {a : Answers} {r : Option Nat} (h : BudgetOk b ns needs)
    (habs : Abstracts b ns ra) (ha : AnswersOk H b need a)
    (hr : reqAcquireNode H b id need a = some (r, b')) :
    ∃ ds, (reqAcquire H ra need ds).1 = r.bind b'.chunkAt ∧
      Abstracts b' (ns ++ r.toList) (reqAcquire H ra need ds).2.1 := by
  rcases reqAcquireNode_cases hr with ⟨rfl, rfl⟩ |
    ⟨c, buf, size, q, set, rfl, hnode, -, hs, -, -, rfl⟩
  · have href : reqAcquire H ra need [] = (none, ra, []) := by
      unfold reqAcquire
      cases acquireSize H ra.cap ra.held need <;> rfl
    exact ⟨[], by rw [href]; rfl, by simpa [href] using habs⟩
  · have hfresh : b.nodes c = none := (ha.node c hnode).1
    refine ⟨[some ⟨buf, buf + size⟩], ?_⟩
    simp only [reqAcquire, habs.cap, habs.held, hs, provAcquire]
    refine ⟨by simp [linkNode_chunkAt { b with set } buf size hfresh], ?_, by simp [habs.extents],
      by simp, by simp, by simp [habs.brk]⟩
    rw [Option.toList_some, (h.congr set b.brk).chunks_link buf size hfresh, habs.chunks]
    simp
    rfl

/-- The new arena of 1 MiB in the list model. -/
def mibArena : RequestArena BumpSpace :=
  ⟨7, [⟨2 ^ 25, 2 ^ 18⟩], 1, 2 ^ 20, 2 ^ 18, 0, none, 0, 0, none, 0, none, none, 0,
    ⟨false, 0, 0, 0⟩,
    .gc, .gc⟩

/-- Its acquisition of 300 kB: the extent at `2 ^ 26` is registered and linked behind the head. -/
theorem reqAcquireNode_refines_mib : ∃ ds b',
    reqAcquireNode bumpHost mibBudget 7 300000 ⟨some 200, some (2 ^ 26), true⟩ = some
      (some 200, b') ∧
    (reqAcquire bumpHost mibArena 300000 ds).1 = some ⟨2 ^ 26, 303104⟩ ∧
    (reqAcquire bumpHost mibArena 300000 ds).2.1.chunks = b'.chunks [100, 200] := by
  have hrun : (reqAcquireNode bumpHost mibBudget 7 300000 ⟨some 200, some (2 ^ 26), true⟩).map
      (fun x => (x.1, x.1.bind x.2.chunkAt)) = some (some 200, some ⟨2 ^ 26, 303104⟩) := by
    decide +kernel
  obtain ⟨⟨r, b'⟩, hr, hx⟩ := Option.map_eq_some_iff.1 hrun
  obtain ⟨rfl, hat⟩ := Prod.mk.inj hx
  have hstart : ChunkSet.start.Ok := ⟨rfl, rfl⟩
  obtain ⟨-, c, hok⟩ := budgetNew_spec hstart mibBudget_head mibBudget_new
  obtain rfl : 100 = c := Option.some.inj hok.tail
  have habs : Abstracts mibBudget [100] mibArena := ⟨rfl, rfl, rfl, rfl, rfl⟩
  obtain ⟨ds, hret, habs⟩ := reqAcquireNode_refines bumpHost hok habs mibBudget_answers hr
  exact ⟨ds, b', hr, hret.trans hat, habs.chunks⟩

end ArenaJs
