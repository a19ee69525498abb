import ArenaJs.Lib.Swap
import ArenaJs.Alloc.Safety

/-!
# Base classification on one thread

A thread keeps the base ranges of its frozen runtimes in a table of `JS_ARENA_RANGES_MAX` entries,
and `js_arena_ptr_is_base` asks the table. `js_dual_arena_freeze` enters the range of the arena it
freezes but ignores the answer of `js_arena_register_base`, so a freeze at a full table leaves the
runtime frozen and its base pointers unclassified (`seventeenth_freeze`). Below that bound the table
is the set of the ranges of the arenas that are frozen and not yet freed, whatever the order of the
calls (`ptrIsBase_exact`).
-/

namespace ArenaJs

/-- `JS_ARENA_RANGES_MAX`. -/
def arenaRangesMax : Nat := 16

/-- `js_arena_register_base`; the entries in use are a list. -/
def registerBase (ranges : List Span) (s : Span) : Int × List Span :=
  if arenaRangesMax ≤ ranges.length then (-1, ranges) else (0, ranges ++ [s])

/-- `js_arena_unregister_base`: the last entry moves into the slot of the first match. -/
def unregisterBase (ranges : List Span) (s : Span) : List Span := swapErase ranges s

/-- `js_arena_ptr_is_base`. -/
def ptrIsBase (ranges : List Span) (p : Nat) : Bool := ranges.any fun s => decide (s.Has p)

variable {σ : Type}

/-- A runtime on a dual arena; `id` is the arena's address. -/
structure ThreadRuntime (σ : Type) where
  id : Nat
  da : DualArena σ
  isArena : Bool

/-- The base region of a runtime. -/
def ThreadRuntime.span (r : ThreadRuntime σ) : Span := r.da.base.span

/-- `js_dual_arena_is_frozen`. -/
def ThreadRuntime.isFrozen (r : ThreadRuntime σ) : Bool := decide (r.da.mode = .request)

/-- A thread: its table of base ranges and its live dual arenas. -/
structure Thread (σ : Type) where
  ranges : List Span
  runtimes : List (ThreadRuntime σ)

/-- The calls that create, freeze and free dual arenas. -/
inductive ThreadCall where
  | create (id : Nat) (m : Mem) (baseSize : Nat) (map : Option Nat) (req cap : Nat)
      (ds : List Decision)
  | freezeArena (id : Nat)
  | freezeRuntime (id : Nat)
  | free (id : Nat)

namespace Thread

/-- A thread before its first call. -/
def start : Thread σ := ⟨[], []⟩

/-- The live runtime at `id`. -/
def find (T : Thread σ) (id : Nat) : Option (ThreadRuntime σ) :=
  T.runtimes.find? fun r => r.id = id

/-- Replace the runtime at `r.id`. -/
def put (T : Thread σ) (r : ThreadRuntime σ) : Thread σ :=
  { T with runtimes := T.runtimes.map fun q => if q.id = r.id then r else q }

/-- The base ranges of the runtimes that are frozen and not freed. -/
def frozenSpans (T : Thread σ) : List Span :=
  (T.runtimes.filter ThreadRuntime.isFrozen).map ThreadRuntime.span

end Thread

variable (H : Host σ)

variable (T : Thread σ)

/-- `js_dual_arena_new2`, wrapped in a runtime. -/
def threadCreate (id : Nat) (m : Mem) (baseSize : Nat) (map : Option Nat)
    (req cap : Nat) (ds : List Decision) : Thread σ :=
  match dualArenaNew2 H m baseSize map req cap ds with
  | none => T
  | some da => { T with runtimes := ⟨id, da, false⟩ :: T.runtimes }

/-- `js_dual_arena_freeze`, with the registration whose answer it drops; `mark` is
`js_runtime_mark_arena`, which `JS_FreezeRuntime` calls after it. -/
def threadFreeze (id : Nat) (mark : Bool) : Thread σ :=
  match T.find id with
  | none => T
  | some r =>
    let T := T.put { r with da := freeze H r.da, isArena := r.isArena || mark }
    { T with ranges := (registerBase T.ranges r.span).2 }

/-- `js_dual_arena_free`. -/
def threadFree (id : Nat) : Thread σ :=
  match T.find id with
  | none => T
  | some r => ⟨unregisterBase T.ranges r.span, T.runtimes.filter fun q => q.id ≠ id⟩

/-- One call. -/
def threadStep : ThreadCall → Thread σ
  | .create id m baseSize map req cap ds => threadCreate H T id m baseSize map req cap ds
  | .freezeArena id => threadFreeze H T id false
  | .freezeRuntime id => threadFreeze H T id true
  | .free id => threadFree T id

/-- A run of calls. -/
def threadRun (calls : List ThreadCall) : Thread σ := calls.foldl (threadStep H) T

/-- What the host guarantees: a new arena has an address of its own, and its base is mapped memory
that no live arena uses. -/
def ThreadCall.HostOk : ThreadCall → Prop
  | .create id _ baseSize map _ _ _ => (∀ r ∈ T.runtimes, r.id ≠ id) ∧ ∀ buf ∈ map,
      ∀ r ∈ T.runtimes, r.span.Disjoint
        ⟨buf, buf + pagesRound H (if baseSize = 0 then arenaDefaultSize else baseSize)⟩
  | _ => True

/-- What the code needs and does not check: an arena is frozen once, and while the table has a free
entry. -/
def ThreadCall.RoomOk : ThreadCall → Prop
  | .freezeArena id | .freezeRuntime id =>
      ∀ r ∈ T.find id, r.da.mode = .base ∧ T.frozenSpans.length < arenaRangesMax
  | _ => True

instance (T : Thread σ) : (c : ThreadCall) → Decidable (c.HostOk H T)
  | .create .. => inferInstanceAs (Decidable (_ ∧ _))
  | .freezeArena _ | .freezeRuntime _ | .free _ => inferInstanceAs (Decidable True)

instance (T : Thread σ) : (c : ThreadCall) → Decidable (c.RoomOk T)
  | .freezeArena id | .freezeRuntime id =>
    inferInstanceAs (Decidable (∀ r ∈ T.find id, _ ∧ _))
  | .create .. | .free _ => inferInstanceAs (Decidable True)

/-- Every call of a run from `T` meets `P` in the state it is made in. -/
def AllCalls (P : Thread σ → ThreadCall → Prop) : Thread σ → List ThreadCall → Prop
  | _, [] => True
  | T, c :: calls => P T c ∧ AllCalls P (threadStep H T c) calls

instance AllCalls.decidable (P : Thread σ → ThreadCall → Prop) [∀ T c, Decidable (P T c)] :
    (T : Thread σ) → (calls : List ThreadCall) → Decidable (AllCalls H P T calls)
  | _, [] => inferInstanceAs (Decidable True)
  | T, c :: calls =>
    let _ := AllCalls.decidable P (threadStep H T c) calls
    inferInstanceAs (Decidable (_ ∧ _))

/-! ## The table as a set -/

theorem registerBase_room {l : List Span} (h : l.length < arenaRangesMax) (s : Span) :
    registerBase l s = (0, l ++ [s]) := if_neg (Nat.not_le.2 h)

theorem ptrIsBase_iff {l : List Span} {p : Nat} : ptrIsBase l p = true ↔ ∃ s ∈ l, s.Has p := by
  simp [ptrIsBase]

/-- What holds between calls: the table lists the ranges of the frozen arenas, and the base regions
of the live arenas are disjoint. -/
structure Thread.Inv (T : Thread σ) : Prop where
  table : T.ranges.Perm T.frozenSpans
  disjoint : T.runtimes.Pairwise fun r q => r.span.Disjoint q.span
  nonempty : ∀ r ∈ T.runtimes, r.span.lo < r.span.hi
  ids : T.runtimes.Pairwise fun r q => r.id ≠ q.id

section
variable {H} {T : Thread σ} {id : Nat} {r : ThreadRuntime σ}

/-- The position of a live runtime. -/
theorem Thread.Inv.split (h : T.Inv) (hr : T.find id = some r) : r.id = id ∧ ∃ l1 l2,
    T.runtimes = l1 ++ r :: l2 ∧ (∀ q ∈ l1, q.id ≠ id) ∧ ∀ q ∈ l2, q.id ≠ id := by
  have hid : r.id = id := by simpa using List.find?_some hr
  obtain ⟨l1, l2, hl⟩ := List.append_of_mem (List.mem_of_find?_eq_some hr)
  have hids := h.ids
  rw [hl, List.pairwise_append, List.pairwise_cons] at hids
  obtain ⟨-, ⟨hright, -⟩, hleft⟩ := hids
  exact ⟨hid, l1, l2, hl, fun q hq => hid ▸ hleft q hq r (.head _),
    fun q hq => hid ▸ (hright q hq).symm⟩

theorem Thread.put_runtimes {l1 l2 : List (ThreadRuntime σ)} (r' : ThreadRuntime σ)
    (hl : T.runtimes = l1 ++ r :: l2) (hid : r'.id = r.id) (h1 : ∀ q ∈ l1, q.id ≠ r.id)
    (h2 : ∀ q ∈ l2, q.id ≠ r.id) : (T.put r').runtimes = l1 ++ r' :: l2 := by
  have key : ∀ l : List (ThreadRuntime σ), (∀ q ∈ l, q.id ≠ r.id) →
      (l.map fun q => if q.id = r.id then r' else q) = l := by
    intro l hq
    exact (List.map_congr_left fun q hm => if_neg (hq q hm)).trans l.map_id'
  simp [Thread.put, hid, hl, key l1 h1, key l2 h2]

/-- Freezing an arena while the table has room enters its range. -/
theorem Thread.Inv.freeze (h : T.Inv) (hr : T.find id = some r) (hmode : r.da.mode = .base)
    (hroom : T.frozenSpans.length < arenaRangesMax) (mark : Bool) :
    (threadFreeze H T id mark).Inv := by
  obtain ⟨rfl, l1, l2, hl, h1, h2⟩ := h.split hr
  have hlen : T.ranges.length < arenaRangesMax := h.table.length_eq ▸ hroom
  set r' : ThreadRuntime σ := { r with da := ArenaJs.freeze H r.da, isArena := r.isArena || mark }
  have hput : (T.put r').runtimes = l1 ++ r' :: l2 := Thread.put_runtimes _ hl rfl h1 h2
  have hT : threadFreeze H T r.id mark = ⟨T.ranges ++ [r.span], l1 ++ r' :: l2⟩ := by
    simp only [threadFreeze, hr]
    exact congrArg₂ Thread.mk (congrArg Prod.snd (registerBase_room hlen r.span)) hput
  rw [hT]
  have hspan : r'.span = r.span := rfl
  have hnot : r.isFrozen = false := by simp [ThreadRuntime.isFrozen, hmode]
  have hyes : r'.isFrozen = true := rfl
  have hdis := h.disjoint
  have hne := h.nonempty
  have hids := h.ids
  have htab := h.table
  simp only [Thread.frozenSpans, hl, List.filter_append, List.filter_cons, hnot, List.map_append,
    Bool.false_eq_true, if_false] at htab
  rw [hl] at hdis hne hids
  refine ⟨?_, ?_, ?_, ?_⟩
  · simp only [Thread.frozenSpans, List.filter_append, List.filter_cons, hyes, if_true,
      List.map_append, List.map_cons, hspan]
    exact (List.perm_append_singleton _ _).trans ((htab.cons _).trans List.perm_middle.symm)
  · simpa only [List.pairwise_append, List.pairwise_cons, List.forall_mem_cons, hspan] using hdis
  · simpa only [List.forall_mem_append, List.forall_mem_cons, hspan] using hne
  · exact (List.pairwise_append.1 hids).elim fun a b => List.pairwise_append.2 ⟨a,
      List.pairwise_cons.2 (List.pairwise_cons.1 b.1), fun q hq => List.forall_mem_cons.2
        (List.forall_mem_cons.1 (b.2 q hq))⟩

/-- Freeing an arena drops its range, if it was frozen. -/
theorem Thread.Inv.free (h : T.Inv) (hr : T.find id = some r) : (threadFree T id).Inv := by
  obtain ⟨rfl, l1, l2, hl, h1, h2⟩ := h.split hr
  have hfilter : T.runtimes.filter (fun q => q.id ≠ r.id) = l1 ++ l2 := by
    rw [hl, List.filter_append, List.filter_cons]
    simp only [ne_eq, not_true_eq_false, decide_false, Bool.false_eq_true, if_false]
    rw [List.filter_eq_self.2 (by simpa using h1), List.filter_eq_self.2 (by simpa using h2)]
  have hT : threadFree T r.id = ⟨unregisterBase T.ranges r.span, l1 ++ l2⟩ := by
    simp only [threadFree, hr]
    exact congrArg (Thread.mk _) hfilter
  have hsub : (l1 ++ l2).Sublist T.runtimes := by
    rw [hl]; exact (List.Sublist.refl l1).append (List.sublist_cons_self r l2)
  rw [hT]
  refine ⟨?_, h.disjoint.sublist hsub, fun q hq => h.nonempty q (hsub.mem hq),
    h.ids.sublist hsub⟩
  have htab := h.table.erase r.span
  refine (swapErase_perm _ _).trans (htab.trans ?_)
  simp only [Thread.frozenSpans, hl, List.filter_append, List.filter_cons, List.map_append]
  cases hz : r.isFrozen with
  | true =>
    simp only [if_true, List.map_cons]
    exact (List.perm_middle.erase r.span).trans (by rw [List.erase_cons_head])
  | false =>
    simp only [Bool.false_eq_true, if_false, ← List.map_append, ← List.filter_append]
    rw [List.erase_of_not_mem]
    intro hmem
    -- a frozen arena with the same range would overlap this one
    obtain ⟨q, hq, hqs⟩ := List.mem_map.1 hmem
    have hq' := List.mem_of_mem_filter hq
    have hdis := h.disjoint
    rw [hl, List.pairwise_append, List.pairwise_cons] at hdis
    obtain ⟨-, ⟨hright, -⟩, hleft⟩ := hdis
    have hne := h.nonempty r (by rw [hl]; simp)
    have : r.span.Disjoint q.span := by
      rcases List.mem_append.1 hq' with hm | hm
      · exact (hleft q hm r (.head _)).symm
      · exact hright q hm
    rw [hqs] at this
    simp only [Span.Disjoint] at this
    omega

/-- A new dual arena is not frozen, and its base is the whole mapping. -/
theorem dualArenaNew2_base {m : Mem} {baseSize req cap : Nat} {map : Option Nat}
    {ds : List Decision} {da : DualArena σ}
    (h : dualArenaNew2 H m baseSize map req cap ds = some da) :
    da.mode = .base ∧ da.base.span.lo < da.base.span.hi ∧ ∃ buf, map = some buf ∧ da.base.span =
      ⟨buf, buf + pagesRound H (if baseSize = 0 then arenaDefaultSize else baseSize)⟩ := by
  simp only [dualArenaNew2, arenaInit] at h
  by_cases hlt : pagesRound H (if baseSize = 0 then arenaDefaultSize else baseSize) <
      arenaPrefixLen + arenaHeaderSize + arenaAlign
  · simp only [if_pos hlt] at h
    cases h
  simp only [if_neg hlt] at h
  cases map with
  | none => cases h
  | some buf =>
    simp only [jsRequestArenaNew] at h
    split at h
    · cases h
    next hnew =>
      split at hnew
      · cases hnew
      cases hnew
      cases h
      refine ⟨rfl, ?_, buf, rfl, rfl⟩
      simp only [selectRequest, JSArena.span, arenaPrefixLen, arenaHeaderSize, arenaAlign] at hlt ⊢
      omega

/-- A new arena is not in the table. -/
theorem Thread.Inv.create (h : T.Inv) {m : Mem} {baseSize req cap : Nat} {map : Option Nat}
    {ds : List Decision}
    (hok : (ThreadCall.create id m baseSize map req cap ds).HostOk H T) :
    (threadCreate H T id m baseSize map req cap ds).Inv := by
  unfold threadCreate
  cases hnew : dualArenaNew2 H m baseSize map req cap ds with
  | none => exact h
  | some da =>
    obtain ⟨hmode, hne, buf, rfl, hspan⟩ := dualArenaNew2_base hnew
    have hspan' : ThreadRuntime.span ⟨id, da, false⟩ = ⟨buf, _⟩ := hspan
    have hnot : ThreadRuntime.isFrozen ⟨id, da, false⟩ = false := by
      simp [ThreadRuntime.isFrozen, hmode]
    refine ⟨?_, ?_, List.forall_mem_cons.2 ⟨hne, h.nonempty⟩, ?_⟩
    · simp only [frozenSpans, List.filter_cons, hnot, Bool.false_eq_true, if_false]
      exact h.table
    · refine List.pairwise_cons.2 ⟨fun q hq => ?_, h.disjoint⟩
      rw [hspan']
      exact (hok.2 buf rfl q hq).symm
    · exact List.pairwise_cons.2 ⟨fun q hq => (hok.1 q hq).symm, h.ids⟩

/-- Every call keeps the invariant. -/
theorem Thread.Inv.step (h : T.Inv) {c : ThreadCall} (hhost : c.HostOk H T) (hroom : c.RoomOk T) :
    (threadStep H T c).Inv := by
  have hfreeze : ∀ id mark, (∀ r, T.find id = some r →
      r.da.mode = .base ∧ T.frozenSpans.length < arenaRangesMax) →
      (threadFreeze H T id mark).Inv := by
    intro id mark hid
    cases hr : T.find id with
    | none => simpa only [threadFreeze, hr] using h
    | some r => exact h.freeze hr (hid r hr).1 (hid r hr).2 mark
  cases c with
  | create => exact h.create hhost
  | freezeArena id => exact hfreeze id false hroom
  | freezeRuntime id => exact hfreeze id true hroom
  | free id =>
    cases hr : T.find id with
    | none => simpa only [threadStep, threadFree, hr] using h
    | some r => exact h.free hr

/-- A run keeps the invariant. -/
theorem Thread.Inv.run {calls : List ThreadCall} (h : T.Inv)
    (hhost : AllCalls H (fun T c => c.HostOk H T) T calls)
    (hroom : AllCalls H (fun T c => c.RoomOk T) T calls) : (threadRun H T calls).Inv := by
  induction calls generalizing T with
  | nil => exact h
  | cons c calls ih => exact ih (h.step hhost.1 hroom.1) hhost.2 hroom.2

theorem Thread.Inv.start : (Thread.start : Thread σ).Inv := ⟨.nil, .nil, nofun, .nil⟩

/-- In the invariant the table answers for the frozen arenas. -/
theorem Thread.Inv.exact (h : T.Inv) (p : Nat) : ptrIsBase T.ranges p = true ↔
    ∃ r ∈ T.runtimes, r.da.mode = .request ∧ r.da.base.span.Has p := by
  rw [ptrIsBase_iff]
  simp only [h.table.mem_iff, Thread.frozenSpans, List.mem_map, List.mem_filter,
    ThreadRuntime.isFrozen, decide_eq_true_eq, ThreadRuntime.span]
  constructor
  · rintro ⟨_, ⟨r, ⟨hr, hm⟩, rfl⟩, hp⟩
    exact ⟨r, hr, hm, hp⟩
  · rintro ⟨r, hr, hm, hp⟩
    exact ⟨_, ⟨r, ⟨hr, hm⟩, rfl⟩, hp⟩

end

/-- Base classification: after every sequence of calls that create, freeze and free arenas, in which
an arena is frozen once and while fewer than `JS_ARENA_RANGES_MAX` are frozen,
`js_arena_ptr_is_base` holds exactly of the pointers into the base of an arena that is frozen and
not freed. -/
theorem ptrIsBase_exact (calls : List ThreadCall)
    (hhost : AllCalls H (fun T c => c.HostOk H T) Thread.start calls)
    (hroom : AllCalls H (fun T c => c.RoomOk T) Thread.start calls) (p : Nat) :
    ptrIsBase (threadRun H Thread.start calls).ranges p = true ↔
      ∃ r ∈ (threadRun H Thread.start calls).runtimes,
        r.da.mode = .request ∧ r.da.base.span.Has p :=
  (Thread.Inv.start.run hhost hroom).exact p

/-- Create and freeze the arena number `i`. -/
def createFrozen (i : Nat) : List ThreadCall :=
  [.create i (fun _ => 0) 4096 (some ((i + 1) * 2 ^ 20)) i 0
    [some ⟨2 ^ 40 + i * 2 ^ 20, 2 ^ 40 + (i + 1) * 2 ^ 20⟩], .freezeRuntime i]

/-- Three arenas frozen and the first one freed: its last address, then the third one's. -/
theorem ptrIsBase_exact_three :
    let calls := (List.range 3).flatMap createFrozen ++ [.free 0]
    ptrIsBase (threadRun bumpHost Thread.start calls).ranges (2 ^ 20 + 4095) = false ∧
      ptrIsBase (threadRun bumpHost Thread.start calls).ranges (3 * 2 ^ 20 + 4095) = true := by
  have hexact := ptrIsBase_exact bumpHost ((List.range 3).flatMap createFrozen ++ [.free 0])
    (by decide +kernel) (by decide +kernel)
  refine ⟨?_, (hexact _).2 (by decide +kernel)⟩
  rw [Bool.eq_false_iff, ne_eq, hexact]
  decide +kernel

/-- Seventeen frozen arenas on one thread: the last one's base pointers classify as non-base. -/
theorem seventeenth_freeze :
    let calls := (List.range 17).flatMap createFrozen
    AllCalls bumpHost (fun T c => c.HostOk bumpHost T) Thread.start calls ∧
      (∃ r ∈ (threadRun bumpHost Thread.start calls).runtimes,
        r.da.mode = .request ∧ r.isArena ∧ r.da.base.span.Has (17 * 2 ^ 20)) ∧
      ptrIsBase (threadRun bumpHost Thread.start calls).ranges (17 * 2 ^ 20) = false := by
  decide +kernel

end ArenaJs
