import ArenaJs.Lib.Probe
import ArenaJs.Alloc.Request

/-!
# The chunk set

Request memory is registered one 4 KiB chunk at a time in a per-thread hash table from chunk index
to owning arena: linear probing, growth ahead of a batch, deletion by backward shift, and, when a
rebuild cannot be allocated, entries whose owner is blanked while their key stays.
`js_arena_ptr_request_owner` asks the table.

The table's size is a `uint32_t` that is doubled until the batch fits in half of it. Beyond `2 ^ 30`
chunks the doubling reaches zero and the loop does not end (`growSize_diverges`). Below that every
call ends, and the table answers exactly for the registered extents (`chunkSet_exact`).

`none` stands for a call that does not return.
-/

namespace ArenaJs

variable {cs : ChunkSet} {lo hi : Nat}

/-- `JS_ARENA_CHUNK_SHIFT`. -/
def chunkShift : Nat := 12

/-- `JS_ARENA_CHUNK_SIZE`. -/
def chunkSize : Nat := 2 ^ chunkShift

/-- `JS_ARENA_CHUNK_TAB_INITIAL`. -/
def chunkTabInitial : Nat := 64

/-- `js_arena_chunk_hash`. -/
def chunkHash (mask key : Nat) : Nat := (key * 0x9E3779B97F4A7C15 % 2 ^ 64) >>> 32 &&& mask

/-- `js_arena_chunk`: a key is a chunk index plus one, and a blanked entry has no owner. -/
abbrev ChunkTab := Probe.Slots Nat (Option ReqId)

/-- `js_arena_chunk_tab`, `js_arena_chunk_mask` and `js_arena_chunk_count`. -/
structure ChunkSet where
  tab : Option ChunkTab
  mask : Nat
  count : Nat

namespace ChunkSet

/-- The set of a thread that has registered nothing. -/
def start : ChunkSet := ⟨none, 0, 0⟩

end ChunkSet

/-- `chunk_tab_put`. -/
def chunkTabPut (tab : ChunkTab) (mask key : Nat) (owner : ReqId) : Option ChunkTab :=
  Probe.put mask (chunkHash mask) tab key (some owner)

/-- The entries `chunk_tab_rebuild` keeps. -/
def keepsEntry (drop : Option ReqId) (e : Nat × Option ReqId) : Bool :=
  e.2.isSome && decide (e.2 ≠ drop)

/-- `chunk_tab_rebuild`; `calloc` tells whether the new table could be allocated. -/
def chunkTabRebuild (cs : ChunkSet) (newSize : Nat) (drop : Option ReqId) (calloc : Bool) :
    Option (Int × ChunkSet) :=
  if calloc then
    match cs.tab with
    | none => some (0, ⟨some Probe.empty, newSize - 1, 0⟩)
    | some tab =>
      (Probe.rehash tab (newSize - 1) (chunkHash (newSize - 1)) (keepsEntry drop)
        (cs.mask + 1)).map fun (nt, kept) => (0, ⟨some nt, newSize - 1, kept⟩)
  else some (-1, cs)

/-- `while ((size_t)size < need * 2) size *= 2` on a `uint32_t`. -/
def growSize (need : Nat) : Nat → Nat → Option Nat
  | 0, _ => none
  | fuel + 1, size =>
    if size < need * 2 then growSize need fuel (size * 2 % 2 ^ 32) else some size

/-- The insertions of `js_arena_register_request`, for the chunks below `n`. -/
def putChunks (mask first : Nat) (owner : ReqId) (tab : ChunkTab) : Nat → Option ChunkTab
  | 0 => some tab
  | c + 1 => (putChunks mask first owner tab c).bind fun tab =>
    chunkTabPut tab mask (first + c + 1) owner

/-- The tail of `js_arena_register_request`: the table is large enough for the batch. -/
def registerChunks (cs : ChunkSet) (first n : Nat) (owner : ReqId) : Option (Int × ChunkSet) :=
  match cs.tab with
  | none => none
  | some tab => (putChunks cs.mask first owner tab n).map fun tab =>
    (0, { cs with tab := some tab, count := (cs.count + n) % 2 ^ 32 })

/-- `js_arena_register_request`. -/
def registerRequest (cs : ChunkSet) (lo hi : Nat) (owner : ReqId) (calloc : Bool) :
    Option (Int × ChunkSet) :=
  let first := lo >>> chunkShift
  let n := hi >>> chunkShift - first
  -- the size doubles at most 32 times before it is zero
  (growSize (cs.count + n) 64 (if cs.mask ≠ 0 then cs.mask + 1 else chunkTabInitial)).bind
    fun size =>
    if size ≠ cs.mask + 1 then
      (chunkTabRebuild cs size none calloc).bind fun (r, cs) =>
        if r < 0 then some (-1, cs) else registerChunks cs first n owner
    else registerChunks cs first n owner

/-- The deletions of `js_arena_unregister_request_range`, for the chunks below `n`. -/
def delChunks (mask first : Nat) (tab : ChunkTab) (count : Nat) : Nat → Option (ChunkTab × Nat)
  | 0 => some (tab, count)
  | c + 1 => (delChunks mask first tab count c).bind fun (tab, count) =>
    let key := first + c + 1
    (Probe.find mask tab key (mask + 1) (chunkHash mask key)).bind fun i =>
      match tab i with
      | none => some (tab, count)
      | some _ => (Probe.del mask (chunkHash mask) tab i).map fun tab =>
        (tab, (count + (2 ^ 32 - 1)) % 2 ^ 32)

/-- `js_arena_unregister_request_range`. -/
def unregisterRequestRange (cs : ChunkSet) (lo hi : Nat) : Option ChunkSet :=
  match cs.tab with
  | none => some cs
  | some tab =>
    let first := lo >>> chunkShift
    (delChunks cs.mask first tab cs.count (hi >>> chunkShift - first)).map fun (tab, count) =>
      if count = 0 then ⟨none, 0, 0⟩ else { cs with tab := some tab, count }

/-- The entries of the other owners, as `js_arena_unregister_request` counts them. -/
def liveChunks (tab : ChunkTab) (mask : Nat) (owner : ReqId) : Nat :=
  ((List.range (mask + 1)).filter fun i => (tab i).any (keepsEntry (some owner))).length

/-- `js_arena_unregister_request`. -/
def unregisterRequest (cs : ChunkSet) (owner : ReqId) (calloc : Bool) : Option ChunkSet :=
  match cs.tab with
  | none => some cs
  | some tab =>
    if liveChunks tab cs.mask owner = 0 then some ⟨none, 0, 0⟩
    else (chunkTabRebuild cs (cs.mask + 1) (some owner) calloc).map fun (r, cs') =>
      if r < 0 then
        -- the keys stay, so that no other entry loses its way
        { cs with tab := some (Probe.mapVal (fun o => if o = some owner then none else o) tab) }
      else cs'

/-- `js_arena_ptr_request_owner`. -/
def ptrRequestOwner (cs : ChunkSet) (p : Nat) : Option (Option ReqId) :=
  match cs.tab with
  | none => some none
  | some tab => (Probe.get cs.mask (chunkHash cs.mask) tab (p >>> chunkShift + 1)).map Option.join

/-! ## The growth loop -/

/-- A size that reaches the need by doubling below `2 ^ 32` is found. -/
theorem growSize_spec (need fuel : Nat) {b d : Nat} (hb : b + d ≤ 31)
    (hneed : need * 2 ≤ 2 ^ (b + d)) (hd : d < fuel) : ∃ c, b ≤ c ∧ c ≤ b + d ∧
      growSize need fuel (2 ^ b) = some (2 ^ c) ∧ need * 2 ≤ 2 ^ c := by
  induction fuel generalizing b d with
  | zero => omega
  | succ fuel ih =>
    by_cases hlt : 2 ^ b < need * 2
    · cases d with
      | zero => exact absurd hneed (Nat.not_le.2 hlt)
      | succ d =>
        have hmod : 2 ^ b * 2 % 2 ^ 32 = 2 ^ (b + 1) := by
          rw [← Nat.pow_succ]
          exact Nat.mod_eq_of_lt (Nat.pow_lt_pow_right (by decide) (by omega))
        obtain ⟨c, h1, h2, h3, h4⟩ := ih (b := b + 1) (d := d) (by omega)
          (by rwa [show b + 1 + d = b + (d + 1) by omega]) (by omega)
        exact ⟨c, by omega, by omega, by rw [growSize, if_pos hlt, hmod, h3], h4⟩
    · exact ⟨b, Nat.le_refl _, by omega, by rw [growSize, if_neg hlt], Nat.le_of_not_lt hlt⟩

/-- Past `2 ^ 30` chunks no amount of doubling is enough: the size wraps to zero and stays there. -/
theorem growSize_diverges {need : Nat} (h : 2 ^ 30 < need) (fuel : Nat) {size : Nat}
    (hsize : size = 0 ∨ ∃ b ≤ 31, size = 2 ^ b) : growSize need fuel size = none := by
  induction fuel generalizing size with
  | zero => rfl
  | succ fuel ih =>
    have hle : size ≤ 2 ^ 31 := by
      rcases hsize with rfl | ⟨b, hb, rfl⟩
      · exact Nat.zero_le _
      · exact Nat.pow_le_pow_right (by decide) hb
    rw [growSize, if_pos (by omega)]
    refine ih ?_
    rcases hsize with rfl | ⟨b, hb, rfl⟩
    · exact .inl rfl
    · rcases Nat.lt_or_eq_of_le hb with hlt | rfl
      · refine .inr ⟨b + 1, hlt, ?_⟩
        rw [← Nat.pow_succ]
        exact Nat.mod_eq_of_lt (Nat.pow_lt_pow_right (by decide) (by omega))
      · exact .inl rfl

/-! ## The invariant -/

/-- The table is well formed and at most half full; `count` is at least its number of keys (blanked
keys that are registered again are counted twice). -/
structure TabOk (mask count : Nat) (tab : ChunkTab) : Prop where
  pow : ∃ b, 6 ≤ b ∧ b ≤ 31 ∧ mask + 1 = 2 ^ b
  wf : Probe.WF mask (chunkHash mask) tab
  load : Probe.load mask tab ≤ count
  half : count * 2 ≤ mask + 1

/-- The states of the set. -/
def ChunkSet.Ok (cs : ChunkSet) : Prop :=
  match cs.tab with
  | none => cs.mask = 0 ∧ cs.count = 0
  | some tab => TabOk cs.mask cs.count tab

/-- The chunk with key `key` is registered to `ra`. -/
def ChunkSet.Owns (cs : ChunkSet) (key : Nat) (ra : ReqId) : Prop :=
  ∃ tab, cs.tab = some tab ∧ Probe.Has cs.mask tab key (some ra)

theorem chunkHash_le (mask key : Nat) : chunkHash mask key ≤ mask := Nat.and_le_right

theorem sized_chunkHash {mask b : Nat} (h : mask + 1 = 2 ^ b) : Probe.Sized mask (chunkHash mask) :=
  ⟨⟨b, h⟩, chunkHash_le mask⟩

section
variable {mask count : Nat} {tab : ChunkTab}

theorem TabOk.sized (h : TabOk mask count tab) : Probe.Sized mask (chunkHash mask) :=
  let ⟨_, _, _, hb⟩ := h.pow
  sized_chunkHash hb

theorem TabOk.room (h : TabOk mask count tab) : ∃ e ≤ mask, tab e = none := by
  have := h.load
  have := h.half
  exact Probe.exists_empty (by omega)

end

/-- A lookup ends and answers with the registered owner. -/
theorem ptrRequestOwner_spec (h : cs.Ok) (p : Nat) :
    ∃ o, ptrRequestOwner cs p = some o ∧ ∀ ra, o = some ra ↔ cs.Owns (p >>> chunkShift + 1) ra := by
  unfold ptrRequestOwner
  cases htab : cs.tab with
  | none => exact ⟨none, rfl, fun ra => by simp [ChunkSet.Owns, htab]⟩
  | some tab =>
    have hok : TabOk cs.mask cs.count tab := by simpa only [ChunkSet.Ok, htab] using h
    obtain ⟨o, ho, hiff⟩ := Probe.get_spec hok.wf hok.sized hok.room (p >>> chunkShift + 1)
    refine ⟨o.join, by simp [ho], fun ra => ?_⟩
    simp only [ChunkSet.Owns, htab, Option.some.injEq, exists_eq_left', ← hiff]
    cases o <;> simp

/-! ## Registration -/

/-- `chunk_tab_rebuild` at a size that leaves room: it fails and changes nothing, or keeps the
entries of the other owners. -/
theorem chunkTabRebuild_spec (h : cs.Ok) {b : Nat} (hb : 6 ≤ b ∧ b ≤ 31)
    (hroom : cs.count * 2 ≤ 2 ^ b) (drop : Option ReqId) (calloc : Bool) :
    chunkTabRebuild cs (2 ^ b) drop calloc = some (-1, cs) ∨
    ∃ cs', chunkTabRebuild cs (2 ^ b) drop calloc = some (0, cs') ∧ cs'.Ok ∧ cs'.tab.isSome ∧
      cs'.mask + 1 = 2 ^ b ∧ cs'.count ≤ cs.count ∧
      ∀ key ra, cs'.Owns key ra ↔ some ra ≠ drop ∧ cs.Owns key ra := by
  have hpos : 2 ^ b - 1 + 1 = 2 ^ b := Nat.sub_add_cancel Nat.one_le_two_pow
  cases calloc with
  | false => exact .inl rfl
  | true =>
    right
    unfold chunkTabRebuild
    cases htab : cs.tab with
    | none =>
      have hzero : cs.count = 0 := by simp only [ChunkSet.Ok, htab] at h; exact h.2
      refine ⟨_, rfl, ⟨⟨b, hb.1, hb.2, hpos⟩, .empty, Nat.le_of_eq Probe.load_empty, ?_⟩, rfl, hpos,
        Nat.zero_le _, fun key ra => ?_⟩
      · rw [Nat.zero_mul]; exact Nat.zero_le _
      · simp [ChunkSet.Owns, htab, Probe.Has, Probe.empty]
    | some tab =>
      have hok : TabOk cs.mask cs.count tab := by simpa only [ChunkSet.Ok, htab] using h
      have hload := hok.load
      obtain ⟨nt, kept, hre, hwf, hhas, hnt, hkept⟩ :=
        Probe.rehash_spec hok.wf (sized_chunkHash hpos) (keepsEntry drop)
          (Nat.le_refl (cs.mask + 1)) (by omega)
      have hle : kept ≤ cs.count := Nat.le_trans hkept hload
      have hhalf : kept * 2 ≤ 2 ^ b := by omega
      refine ⟨⟨some nt, 2 ^ b - 1, kept⟩, by simp [hre], ⟨⟨b, hb.1, hb.2, hpos⟩, hwf, hnt, ?_⟩, rfl,
        hpos, hle, fun key ra => ?_⟩
      · rw [hpos]; exact hhalf
      · simp only [ChunkSet.Owns, htab, Option.some.injEq, exists_eq_left', hhas, keepsEntry,
          Option.isSome_some, Bool.true_and, decide_eq_true_eq, Nat.lt_succ_iff]
        rfl

/-- The insertions of a batch that fits. -/
theorem putChunks_spec (first : Nat) {mask b load0 : Nat} {tab : ChunkTab} (hb : mask + 1 = 2 ^ b)
    (hw : Probe.WF mask (chunkHash mask) tab) (hload : Probe.load mask tab ≤ load0)
    (owner : ReqId) {n : Nat} (hroom : load0 + n ≤ mask + 1) :
    ∃ tab', putChunks mask first owner tab n = some tab' ∧ Probe.WF mask (chunkHash mask) tab' ∧
      Probe.load mask tab' ≤ load0 + n ∧
      ∀ key o, Probe.Has mask tab' key o ↔
        if first < key ∧ key ≤ first + n then o = some owner else Probe.Has mask tab key o := by
  induction n with
  | zero =>
    refine ⟨tab, rfl, hw, by omega, fun key o => ?_⟩
    rw [if_neg (by omega)]
  | succ n ih =>
    obtain ⟨t, ht, hwt, hlt, hhas⟩ := ih (by omega)
    obtain ⟨t', ht', hwt', hhas', hlt'⟩ := Probe.put_spec hwt (sized_chunkHash hb)
      (Probe.exists_empty (by omega)) (first + n + 1) (some owner)
    refine ⟨t', by simp [putChunks, ht, chunkTabPut, ht'], hwt', by omega, fun key o => ?_⟩
    rw [hhas']
    by_cases hkey : key = first + n + 1
    · rw [if_pos hkey, if_pos (by omega)]
    · rw [if_neg hkey, hhas]
      by_cases hin : first < key ∧ key ≤ first + n
      · rw [if_pos hin, if_pos (by omega)]
      · rw [if_neg hin, if_neg (by omega)]

/-- A batch that fits in half of the table. -/
theorem registerChunks_spec (h : cs.Ok) (htab : cs.tab.isSome) (first n : Nat)
    (hfit : (cs.count + n) * 2 ≤ cs.mask + 1) (owner : ReqId) :
    ∃ cs', registerChunks cs first n owner = some (0, cs') ∧ cs'.Ok ∧
      ∀ key ra, cs'.Owns key ra ↔
        if first < key ∧ key ≤ first + n then ra = owner else cs.Owns key ra := by
  obtain ⟨tab, htab⟩ := Option.isSome_iff_exists.1 htab
  have hok : TabOk cs.mask cs.count tab := by simpa only [ChunkSet.Ok, htab] using h
  obtain ⟨b, h1, h2, hb⟩ := hok.pow
  have hmask : cs.mask + 1 ≤ 2 ^ 31 := hb ▸ Nat.pow_le_pow_right (by decide) h2
  obtain ⟨t, ht, hwt, hlt, hhas⟩ := putChunks_spec first hb hok.wf hok.load owner
    (n := n) (by omega)
  have hmod : (cs.count + n) % 2 ^ 32 = cs.count + n := Nat.mod_eq_of_lt (by omega)
  refine ⟨{ cs with tab := some t, count := cs.count + n }, ?_,
    ⟨⟨b, h1, h2, hb⟩, hwt, hlt, hfit⟩, fun key ra => ?_⟩
  · simp only [registerChunks, htab, ht, hmod, Option.map_some]
  · simp only [ChunkSet.Owns, htab, Option.some.injEq, exists_eq_left', hhas]

/-- The size before growth is a power of two. -/
theorem ChunkSet.Ok.size (h : cs.Ok) : ∃ b, 6 ≤ b ∧ b ≤ 31 ∧
    (if cs.mask ≠ 0 then cs.mask + 1 else chunkTabInitial) = 2 ^ b := by
  cases htab : cs.tab with
  | none =>
    simp only [ChunkSet.Ok, htab] at h
    exact ⟨6, by omega, by omega, by rw [h.1]; rfl⟩
  | some tab =>
    simp only [ChunkSet.Ok, htab] at h
    obtain ⟨b, h1, h2, hb⟩ := h.pow
    have : 2 ^ 6 ≤ 2 ^ b := Nat.pow_le_pow_right (by decide) h1
    exact ⟨b, h1, h2, by rw [if_pos (by omega), hb]⟩

/-- `js_arena_register_request` on at most `2 ^ 30` chunks: it returns, and either fails and changes
nothing or registers the batch. -/
theorem registerRequest_spec (h : cs.Ok) (owner : ReqId)
    (calloc : Bool) (hfit : cs.count + (hi >>> chunkShift - lo >>> chunkShift) ≤ 2 ^ 30) :
    registerRequest cs lo hi owner calloc = some (-1, cs) ∨
    ∃ cs', registerRequest cs lo hi owner calloc = some (0, cs') ∧ cs'.Ok ∧
      ∀ key ra, cs'.Owns key ra ↔ if lo >>> chunkShift < key ∧
        key ≤ lo >>> chunkShift + (hi >>> chunkShift - lo >>> chunkShift) then ra = owner
        else cs.Owns key ra := by
  set first := lo >>> chunkShift
  set n := hi >>> chunkShift - first
  obtain ⟨b, hb6, hb31, hsize⟩ := h.size
  obtain ⟨c, hbc, hc, hgrow, hneed⟩ := growSize_spec (cs.count + n) 64 (b := b) (d := 31 - b)
    (by omega) (by rw [show b + (31 - b) = 31 by omega]; omega) (by omega)
  have hreg : registerRequest cs lo hi owner calloc = if 2 ^ c ≠ cs.mask + 1 then
      (chunkTabRebuild cs (2 ^ c) none calloc).bind fun (r, cs) =>
        if r < 0 then some (-1, cs) else registerChunks cs first n owner
      else registerChunks cs first n owner := by
    simp only [registerRequest, hsize]
    rw [hgrow]
    rfl
  rw [hreg]
  by_cases hsame : 2 ^ c = cs.mask + 1
  · rw [if_neg (by simpa using hsame)]
    have htab : cs.tab.isSome := by
      cases htab : cs.tab with
      | some tab => rfl
      | none =>
        simp only [ChunkSet.Ok, htab] at h
        have : 2 ^ 6 ≤ 2 ^ c := Nat.pow_le_pow_right (by decide) (by omega)
        omega
    exact .inr (registerChunks_spec h htab first n (by omega) owner)
  · rw [if_pos hsame]
    rcases chunkTabRebuild_spec h (b := c) ⟨by omega, by omega⟩ (by omega) none calloc with
      hre | ⟨cs', hre, hok', htab', hmask, hcount, hown⟩
    · left; rw [hre]; rfl
    · right
      obtain ⟨cs'', hcs'', hok'', hown''⟩ := registerChunks_spec hok' htab' first n (by omega) owner
      refine ⟨cs'', by rw [hre]; exact hcs'', hok'', fun key ra => ?_⟩
      rw [hown'']
      split
      · rfl
      · rw [hown]; simp

/-! ## Removal -/

/-- The deletions of a range. -/
theorem delChunks_spec (first : Nat) {mask count : Nat} {tab : ChunkTab} (h : TabOk mask count tab)
    (n : Nat) : ∃ tab' count', delChunks mask first tab count n = some (tab', count') ∧
      TabOk mask count' tab' ∧ ∀ key o, Probe.Has mask tab' key o ↔
        ¬ (first < key ∧ key ≤ first + n) ∧ Probe.Has mask tab key o := by
  induction n with
  | zero =>
    refine ⟨tab, count, rfl, h, fun key o => ?_⟩
    rw [iff_and_self]
    omega
  | succ n ih =>
    obtain ⟨t, c, ht, hok, hhas⟩ := ih
    obtain ⟨i, hi, hat⟩ := Probe.find_spec hok.sized hok.room (first + n + 1)
    cases hti : t i with
    | none =>
      refine ⟨t, c, by simp [delChunks, ht, hi, hti], hok, fun key o => ?_⟩
      rw [hhas]
      refine and_congr_left fun hkey => not_congr ⟨by omega, fun hle => ?_⟩
      by_contra hnot
      -- the search for the last key ended at an empty slot, so it is not stored
      obtain rfl : key = first + n + 1 := by omega
      obtain ⟨x, hx, hsx⟩ := (hhas _ _).2 ⟨hnot, hkey⟩
      rw [hat.eq hok.wf hok.sized hx hsx, hsx] at hti
      cases hti
    | some e =>
      obtain ⟨k, o⟩ := e
      obtain rfl : k = first + n + 1 := hat.stop _ hti
      obtain ⟨t', ht', hwf, hhas', hload⟩ := Probe.del_spec hok.wf hok.sized hok.room hat.le hti
      obtain ⟨b, h1, h2, hb⟩ := hok.pow
      have hmask : mask + 1 ≤ 2 ^ 31 := hb ▸ Nat.pow_le_pow_right (by decide) h2
      have hc := hok.load
      have hhalf := hok.half
      have hdec : (c + (2 ^ 32 - 1)) % 2 ^ 32 = c - 1 := by omega
      refine ⟨t', c - 1, ?_, ⟨hok.pow, hwf, by omega, by omega⟩, fun key o => ?_⟩
      · simp only [delChunks, ht, hi, hti, ht', hdec, Option.bind_some, Option.map_some]
      · rw [hhas', hhas, ← and_assoc]
        exact and_congr_left fun _ => by omega

/-- `js_arena_unregister_request_range`. -/
theorem unregisterRequestRange_spec (h : cs.Ok) (lo hi : Nat) :
    ∃ cs', unregisterRequestRange cs lo hi = some cs' ∧ cs'.Ok ∧
      ∀ key ra, cs'.Owns key ra ↔ ¬ (lo >>> chunkShift < key ∧
        key ≤ lo >>> chunkShift + (hi >>> chunkShift - lo >>> chunkShift)) ∧ cs.Owns key ra := by
  unfold unregisterRequestRange
  cases htab : cs.tab with
  | none => exact ⟨cs, rfl, h, fun key ra => by simp [ChunkSet.Owns, htab]⟩
  | some tab =>
    have hok : TabOk cs.mask cs.count tab := by simpa only [ChunkSet.Ok, htab] using h
    obtain ⟨t, c, ht, hok', hhas⟩ := delChunks_spec (lo >>> chunkShift) hok
      (hi >>> chunkShift - lo >>> chunkShift)
    simp only [ht, Option.map_some]
    refine ⟨_, rfl, ?_, fun key ra => ?_⟩
    · split
      · exact ⟨rfl, rfl⟩
      · exact hok'
    · have hcs : cs.Owns key ra ↔ Probe.Has cs.mask tab key (some ra) := by
        simp [ChunkSet.Owns, htab]
      rw [hcs, ← hhas]
      split
      · next hzero =>
        have hload := hok'.load
        have := Probe.not_has_of_load (Nat.le_zero.1 (hzero ▸ hload)) key (some ra)
        simp [ChunkSet.Owns, this]
      · simp [ChunkSet.Owns]

/-- `js_arena_unregister_request`, whether or not the rebuild can be allocated. -/
theorem unregisterRequest_spec (h : cs.Ok) (owner : ReqId) (calloc : Bool) :
    ∃ cs', unregisterRequest cs owner calloc = some cs' ∧ cs'.Ok ∧
      ∀ key ra, cs'.Owns key ra ↔ ra ≠ owner ∧ cs.Owns key ra := by
  unfold unregisterRequest
  cases htab : cs.tab with
  | none => exact ⟨cs, rfl, h, fun key ra => by simp [ChunkSet.Owns, htab]⟩
  | some tab =>
    have hok : TabOk cs.mask cs.count tab := by simpa only [ChunkSet.Ok, htab] using h
    have hcs : ∀ key ra, cs.Owns key ra ↔ Probe.Has cs.mask tab key (some ra) :=
      fun key ra => by simp [ChunkSet.Owns, htab]
    by_cases hlive : liveChunks tab cs.mask owner = 0
    · -- every entry that answers is the owner's
      refine ⟨_, if_pos hlive, ⟨rfl, rfl⟩, fun key ra => ?_⟩
      refine iff_of_false (by simp [ChunkSet.Owns]) ?_
      rintro ⟨hne, hown⟩
      obtain ⟨i, hi, hsi⟩ := (hcs key ra).1 hown
      have hmem : i ∈ (List.range (cs.mask + 1)).filter fun i =>
          (tab i).any (keepsEntry (some owner)) := by
        rw [List.mem_filter, List.mem_range]
        exact ⟨by omega, by simpa [hsi, keepsEntry] using hne⟩
      rw [List.length_eq_zero_iff.1 hlive] at hmem
      cases hmem
    · obtain ⟨b, h1, h2, hb⟩ := hok.pow
      have hhalf := hok.half
      simp only [if_neg hlive, hb]
      rcases chunkTabRebuild_spec h ⟨h1, h2⟩ (by omega) (some owner) calloc with
        hre | ⟨cs', hre, hok', -, -, -, hown⟩
      · refine ⟨_, by rw [hre]; rfl, ?_, fun key ra => ?_⟩
        · exact ⟨⟨b, h1, h2, hb⟩, hok.wf.mapVal _, by rw [Probe.load_mapVal]; exact hok.load, hhalf⟩
        · simp only [ChunkSet.Owns, htab, Option.some.injEq, exists_eq_left', Probe.has_mapVal,
            show ((-1 : Int) < 0) = True from by simp, if_true]
          constructor
          · rintro ⟨w, hw, hf⟩
            split at hf
            · cases hf
            · next hne => exact ⟨by rintro rfl; exact hne hf, hf ▸ hw⟩
          · rintro ⟨hne, hw⟩
            exact ⟨some ra, hw, if_neg (by simpa using hne)⟩
      · refine ⟨cs', by rw [hre]; rfl, hok', fun key ra => ?_⟩
        rw [hown]
        simp

/-! ## Runs -/

/-- A registered extent. -/
structure Extent where
  lo : Nat
  hi : Nat
  owner : ReqId
deriving DecidableEq

/-- The addresses of an extent. -/
def Extent.span (e : Extent) : Span := ⟨e.lo, e.hi⟩

/-- The calls on the set. -/
inductive SetCall where
  | register (lo hi : Nat) (owner : ReqId) (calloc : Bool)
  | unregisterRange (lo hi : Nat)
  | unregister (owner : ReqId) (calloc : Bool)

/-- One call, with the list of extents it leaves registered. -/
def setStep (S : ChunkSet × List Extent) : SetCall → Option (ChunkSet × List Extent)
  | .register lo hi owner calloc => (registerRequest S.1 lo hi owner calloc).map fun (r, cs) =>
    if r < 0 then (cs, S.2) else (cs, ⟨lo, hi, owner⟩ :: S.2)
  | .unregisterRange lo hi => (unregisterRequestRange S.1 lo hi).map fun cs =>
    (cs, S.2.filter fun e => ¬ e.span.Within ⟨lo, hi⟩)
  | .unregister owner calloc => (unregisterRequest S.1 owner calloc).map fun cs =>
    (cs, S.2.filter fun e => e.owner ≠ owner)

/-- A run of calls. -/
def setRun (S : ChunkSet × List Extent) (calls : List SetCall) : Option (ChunkSet × List Extent) :=
  calls.foldlM setStep S

/-- What the callers guarantee: extents are chunk-aligned, a new one overlaps none that is
registered, and a range that is dropped cuts none in two. -/
def SetCall.Ok (live : List Extent) : SetCall → Prop
  | .register lo hi _ _ => chunkSize ∣ lo ∧ chunkSize ∣ hi ∧ lo ≤ hi ∧
      ∀ e ∈ live, e.span.Disjoint ⟨lo, hi⟩
  | .unregisterRange lo hi => chunkSize ∣ lo ∧ chunkSize ∣ hi ∧ lo ≤ hi ∧
      ∀ e ∈ live, e.span.Within ⟨lo, hi⟩ ∨ e.span.Disjoint ⟨lo, hi⟩
  | .unregister _ _ => True

/-- What the code needs and does not check: the keys and the new chunks are at most `2 ^ 30`. -/
def SetCall.Fits (cs : ChunkSet) : SetCall → Prop
  | .register lo hi _ _ => cs.count + (hi >>> chunkShift - lo >>> chunkShift) ≤ 2 ^ 30
  | _ => True

/-- Every call of a run meets `P` in the state it is made in. -/
def AllSetCalls (P : ChunkSet × List Extent → SetCall → Prop) :
    ChunkSet × List Extent → List SetCall → Prop
  | _, [] => True
  | S, c :: calls => P S c ∧ ∀ S' ∈ setStep S c, AllSetCalls P S' calls

instance (live : List Extent) : (c : SetCall) → Decidable (c.Ok live)
  | .register .. | .unregisterRange .. => inferInstanceAs (Decidable (_ ∧ _))
  | .unregister .. => inferInstanceAs (Decidable True)

instance (cs : ChunkSet) : (c : SetCall) → Decidable (c.Fits cs)
  | .register .. => inferInstanceAs (Decidable (_ ≤ _))
  | .unregisterRange .. | .unregister .. => inferInstanceAs (Decidable True)

instance AllSetCalls.decidable (P : ChunkSet × List Extent → SetCall → Prop)
    [∀ S c, Decidable (P S c)] : (S : ChunkSet × List Extent) → (calls : List SetCall) →
      Decidable (AllSetCalls P S calls)
  | _, [] => inferInstanceAs (Decidable True)
  | S, c :: calls =>
    let _ := fun S' => AllSetCalls.decidable P S' calls
    inferInstanceAs (Decidable (P S c ∧ ∀ S' ∈ setStep S c, AllSetCalls P S' calls))

/-- The set answers for the extents. -/
structure Tracks (S : ChunkSet × List Extent) : Prop where
  ok : S.1.Ok
  owns : ∀ p ra, S.1.Owns (p >>> chunkShift + 1) ra ↔ ∃ e ∈ S.2, e.owner = ra ∧ e.span.Has p

/-- The chunks between two chunk boundaries hold the addresses between them. -/
theorem chunk_mem_iff {lo hi p : Nat} (hlo : chunkSize ∣ lo) (hhi : chunkSize ∣ hi)
    (hle : lo ≤ hi) : (lo >>> chunkShift < p >>> chunkShift + 1 ∧
      p >>> chunkShift + 1 ≤ lo >>> chunkShift + (hi >>> chunkShift - lo >>> chunkShift)) ↔
      (⟨lo, hi⟩ : Span).Has p := by
  simp only [chunkSize, chunkShift, Nat.shiftRight_eq_div_pow, Span.Has] at *
  omega

/-- Every call returns and keeps the answers right. -/
theorem Tracks.step {S : ChunkSet × List Extent} (h : Tracks S) {c : SetCall} (hok : c.Ok S.2)
    (hfit : c.Fits S.1) : ∃ S', setStep S c = some S' ∧ Tracks S' := by
  cases c with
  | register lo hi owner calloc =>
    obtain ⟨hlo, hhi, hle, hdis⟩ := hok
    rcases registerRequest_spec h.ok owner calloc hfit with hreg | ⟨cs, hreg, hcs, hown⟩
    · exact ⟨S, by simp [setStep, hreg], h⟩
    · refine ⟨(cs, ⟨lo, hi, owner⟩ :: S.2), by simp [setStep, hreg], hcs, fun p ra => ?_⟩
      simp only [hown, chunk_mem_iff hlo hhi hle, h.owns, List.exists_mem_cons_iff, Extent.span]
      split
      · next hp =>
        have hno : ¬ ∃ e ∈ S.2, e.owner = ra ∧ e.span.Has p :=
          fun ⟨e, he, _, hep⟩ => (hdis e he).not_has hep hp
        exact ⟨fun h => .inl ⟨h.symm, hp⟩, fun h => (h.resolve_right hno).1.symm⟩
      · next hp => exact ⟨.inr, fun h => h.resolve_left fun h => hp h.2⟩
  | unregisterRange lo hi =>
    obtain ⟨hlo, hhi, hle, hcut⟩ := hok
    obtain ⟨cs, hun, hcs, hown⟩ := unregisterRequestRange_spec h.ok lo hi
    refine ⟨_, by rw [setStep, hun]; rfl, hcs, fun p ra => ?_⟩
    simp only [hown, chunk_mem_iff hlo hhi hle, h.owns, List.mem_filter, decide_eq_true_eq]
    constructor
    · rintro ⟨hp, e, he, hra, hep⟩
      refine ⟨e, ⟨he, fun hw => hp ?_⟩, hra, hep⟩
      simp only [Span.Within, Span.Has] at *
      omega
    · rintro ⟨e, ⟨he, hw⟩, hra, hep⟩
      exact ⟨((hcut e he).resolve_left hw).not_has hep, e, he, hra, hep⟩
  | unregister owner calloc =>
    obtain ⟨cs, hun, hcs, hown⟩ := unregisterRequest_spec h.ok owner calloc
    refine ⟨_, by rw [setStep, hun]; rfl, hcs, fun p ra => ?_⟩
    simp only [hown, h.owns, List.mem_filter, decide_eq_true_eq]
    constructor
    · rintro ⟨hne, e, he, rfl, hep⟩
      exact ⟨e, ⟨he, hne⟩, rfl, hep⟩
    · rintro ⟨e, ⟨he, hne⟩, rfl, hep⟩
      exact ⟨hne, e, he, rfl, hep⟩

/-- Every run returns and keeps the answers right. -/
theorem Tracks.run {S : ChunkSet × List Extent} (h : Tracks S) {calls : List SetCall}
    (hok : AllSetCalls (fun S c => c.Ok S.2) S calls)
    (hfit : AllSetCalls (fun S c => c.Fits S.1) S calls) :
    ∃ S', setRun S calls = some S' ∧ Tracks S' := by
  induction calls generalizing S with
  | nil => exact ⟨S, rfl, h⟩
  | cons c calls ih =>
    obtain ⟨S1, hS1, h1⟩ := h.step hok.1 hfit.1
    obtain ⟨S', hS', h'⟩ := ih h1 (hok.2 S1 hS1) (hfit.2 S1 hS1)
    exact ⟨S', by simpa [setRun, List.foldlM_cons, hS1] using hS', h'⟩

theorem Tracks.start : Tracks (ChunkSet.start, []) :=
  ⟨⟨rfl, rfl⟩, fun p ra => by simp [ChunkSet.Owns, ChunkSet.start]⟩

/-- A registration that fails leaves the set as it was. -/
theorem registerRequest_failed {cs cs' : ChunkSet} {owner : ReqId} {calloc : Bool}
    {r : Int} (h : registerRequest cs lo hi owner calloc = some (r, cs')) (hr : r < 0) :
    cs' = cs := by
  have hput : ∀ (cs1 : ChunkSet) (first n : Nat),
      registerChunks cs1 first n owner ≠ some (r, cs') := by
    intro cs1 first n heq
    unfold registerChunks at heq
    split at heq
    · cases heq
    · obtain ⟨t, -, ⟨⟩⟩ := Option.map_eq_some_iff.1 heq
      cases hr
  simp only [registerRequest] at h
  obtain ⟨size, -, h⟩ := Option.bind_eq_some_iff.1 h
  split at h
  · obtain ⟨⟨r', cs1⟩, hre, h⟩ := Option.bind_eq_some_iff.1 h
    simp only at h
    split at h
    · next hr' =>
      cases h
      unfold chunkTabRebuild at hre
      split at hre
      · split at hre
        · cases hre
          cases hr'
        · obtain ⟨t, -, ⟨⟩⟩ := Option.map_eq_some_iff.1 hre
          cases hr'
      · exact (congrArg Prod.snd (Option.some.inj hre)).symm
    · exact absurd h (hput _ _ _)
  · exact absurd h (hput _ _ _)

/-- A registration that returns was within the bound. -/
theorem registerRequest_fits (hcs : cs.Ok) {owner : ReqId}
    {calloc : Bool} {r : Int × ChunkSet} (h : registerRequest cs lo hi owner calloc = some r) :
    cs.count + (hi >>> chunkShift - lo >>> chunkShift) ≤ 2 ^ 30 := by
  by_contra hnot
  obtain ⟨b, -, hb31, hsize⟩ := hcs.size
  have hgrow := growSize_diverges (Nat.lt_of_not_le hnot) 64 (.inr ⟨b, hb31, hsize⟩)
  simp only [registerRequest] at h
  rw [hgrow] at h
  cases h

/-- Exactness of the chunk set: after every sequence of calls on chunk-aligned extents that do not
overlap, in which no registration takes the table past `2 ^ 30` chunks, whatever allocations fail,
`js_arena_ptr_request_owner` returns and names the arena whose registered extent holds the pointer,
or none; and a registration that fails changes no answer. -/
theorem chunkSet_exact (calls : List SetCall)
    (hok : AllSetCalls (fun S c => c.Ok S.2) (ChunkSet.start, []) calls)
    (hfit : AllSetCalls (fun S c => c.Fits S.1) (ChunkSet.start, []) calls) :
    ∃ cs live, setRun (ChunkSet.start, []) calls = some (cs, live) ∧
      (∀ p, ∃ o, ptrRequestOwner cs p = some o ∧
        ∀ ra, o = some ra ↔ ∃ e ∈ live, e.owner = ra ∧ e.span.Has p) ∧
      ∀ lo hi owner calloc cs', registerRequest cs lo hi owner calloc = some (-1, cs') →
        ∀ p, ptrRequestOwner cs' p = ptrRequestOwner cs p := by
  obtain ⟨⟨cs, live⟩, hrun, h⟩ := Tracks.start.run hok hfit
  refine ⟨cs, live, hrun, fun p => ?_, fun lo hi owner calloc cs' hreg p => ?_⟩
  · obtain ⟨o, ho, hiff⟩ := ptrRequestOwner_spec h.ok p
    exact ⟨o, ho, fun ra => (hiff ra).trans (h.owns p ra)⟩
  · rw [registerRequest_failed hreg (by decide)]

/-- An arena's extents are blanked because the rebuild cannot be allocated, and one of the ranges is
registered to another arena. -/
theorem chunkSet_exact_blanked : ∃ cs live,
    setRun (ChunkSet.start, []) [.register 0x10000 0x12000 1 true, .register 0x20000 0x21000 2 true,
      .unregister 1 false, .register 0x10000 0x12000 3 true] = some (cs, live) ∧
      ptrRequestOwner cs 0x11fff = some (some 3) := by
  obtain ⟨cs, live, hrun, hown, -⟩ := chunkSet_exact [.register 0x10000 0x12000 1 true,
    .register 0x20000 0x21000 2 true, .unregister 1 false, .register 0x10000 0x12000 3 true]
    (by decide +kernel) (by decide +kernel)
  have hlive : (setRun (ChunkSet.start, []) [.register 0x10000 0x12000 1 true,
      .register 0x20000 0x21000 2 true, .unregister 1 false,
      .register 0x10000 0x12000 3 true]).map Prod.snd =
      some [⟨0x10000, 0x12000, 3⟩, ⟨0x20000, 0x21000, 2⟩] := by decide +kernel
  rw [hrun] at hlive
  obtain rfl : live = _ := Option.some.inj hlive
  obtain ⟨o, ho, hiff⟩ := hown 0x11fff
  exact ⟨cs, _, hrun, by rw [ho, (hiff 3).2 (by decide)]⟩

/-- The first registration of a thread with `2 ^ 30 + 1` chunks: the growth loop does not end. -/
theorem register_diverges :
    (SetCall.register 4096 (4096 + (2 ^ 30 + 1) * 4096) 1 true).Ok [] ∧
      (∀ fuel, growSize (2 ^ 30 + 1) fuel chunkTabInitial = none) ∧
      registerRequest ChunkSet.start 4096 (4096 + (2 ^ 30 + 1) * 4096) 1 true = none := by
  have hgrow : ∀ fuel, growSize (2 ^ 30 + 1) fuel chunkTabInitial = none :=
    fun fuel => growSize_diverges (by decide) fuel (.inr ⟨6, by decide, rfl⟩)
  refine ⟨by decide +kernel, hgrow, ?_⟩
  have hn : (4096 + (2 ^ 30 + 1) * 4096) >>> chunkShift - 4096 >>> chunkShift = 2 ^ 30 + 1 := by
    decide +kernel
  simp only [registerRequest, hn, ChunkSet.start, ne_eq, not_true_eq_false, if_false, Nat.zero_add]
  rw [hgrow]
  rfl

end ArenaJs
