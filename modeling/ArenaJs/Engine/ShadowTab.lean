import ArenaJs.Engine.Walks
import ArenaJs.Lib.Probe

/-!
# The shadow tables

Two hash tables map snapshot pointers to their shadows for the length of a request, one for objects
and one for closure cells; the code is the same. They are probed linearly, entries are never
removed, and a table is doubled before an entry would make it more than half full.
`ArenaJs.Engine.Shadow` keeps such a table as the list of the pointers that have a shadow; this is
the table itself.

The sizes are `uint32_t`. A table that holds `2 ^ 30` entries and gets one more computes the size
zero, which the allocator refuses with an assertion (`reserve_wraps`). Up to there the tables are
finite maps: `shadow_tables_faithful`.

Pointers are addresses. What the allocator answers is part of a call: whether the table could grow
and where the new shadow is. `none` stands for a call that does not return.
-/

namespace ArenaJs

/-! ## The code -/

/-- `shadow_tab`, `shadow_tab_size` and `shadow_tab_count`; or `varref_tab` and so on. -/
structure ShadowTab where
  tab : Option (Probe.Slots Nat Nat)
  size : Nat
  count : Nat

/-- `js_shadow_hash`. -/
def shadowHash (mask p : Nat) : Nat := ((p >>> 4) * 0x9E3779B97F4A7C15 % 2 ^ 64) >>> 32 &&& mask

namespace ShadowTab

/-- The table of a request that has written nothing. -/
def start : ShadowTab := ⟨none, 0, 0⟩

/-- `js_object_shadow_lookup`, `js_var_ref_shadow_lookup`. -/
def lookup (t : ShadowTab) (p : Nat) : Option (Option Nat) :=
  match t.tab with
  | none => some none
  | some s => Probe.get (t.size - 1) (shadowHash (t.size - 1)) s p

/-- `js_shadow_tab_put`, `js_varref_tab_put` with the count of their last callers. -/
def put (t : ShadowTab) (base shadow : Nat) : Option ShadowTab :=
  t.tab.bind fun s => (Probe.add (t.size - 1) (shadowHash (t.size - 1)) s base shadow).map fun s =>
    { t with tab := some s, count := (t.count + 1) % 2 ^ 32 }

/-- `js_shadow_tab_reserve`, `js_varref_tab_reserve`; `malloc` tells whether a new table could be
allocated. -/
def reserve (t : ShadowTab) (malloc : Bool) : Option (Bool × ShadowTab) :=
  if t.tab.isSome && decide ((t.count + 1) * 2 % 2 ^ 32 ≤ t.size) then some (true, t)
  else
    let newSize := if t.size ≠ 0 then t.size * 2 % 2 ^ 32 else Heap.tabInitial
    -- `js_calloc_rt` asserts that it is not asked for zero bytes
    if newSize = 0 then none
    else if malloc then
      (Probe.readd (t.tab.getD Probe.empty) (newSize - 1) (shadowHash (newSize - 1)) t.size).map
        fun nt => (true, ⟨some nt, newSize, t.count⟩)
    else some (false, t)

/-- `js_object_for_write`, `js_var_ref_for_write`. `clone` is the new shadow, if there is memory for
one. -/
def forWrite (isBase : Nat → Bool) (t : ShadowTab) (p : Nat) (malloc : Bool) (clone : Option Nat) :
    Option (Option Nat × ShadowTab) :=
  if !isBase p then some (some p, t)
  else (t.lookup p).bind fun
    | some shadow => some (some shadow, t)
    | none => (t.reserve malloc).bind fun (ok, t) =>
      if !ok then some (none, t)
      else match clone with
        | none => some (none, t)
        | some shadow => (t.put p shadow).map fun t => (some shadow, t)

/-- The scan of `js_object_base_identity` from slot `i` on, with `n` slots to go. -/
def identityScan (s : Probe.Slots Nat Nat) (p live : Nat) : Nat → Nat → Nat → Nat
  | 0, _, _ => p
  | n + 1, i, seen =>
    if seen < live then
      match s i with
      | none => identityScan s p live n (i + 1) seen
      | some (base, shadow) =>
        if shadow = p then base else identityScan s p live n (i + 1) (seen + 1)
    else p

/-- `js_object_base_identity`. -/
def baseIdentity (isBase : Nat → Bool) (t : ShadowTab) (p : Nat) : Nat :=
  if isBase p then p else identityScan (t.tab.getD Probe.empty) p t.count t.size 0 0

/-! ## Well-formed tables -/

/-- `base` has the shadow `shadow`. -/
def Maps (t : ShadowTab) (base shadow : Nat) : Prop :=
  ∃ s, t.tab = some s ∧ Probe.Has (t.size - 1) s base shadow

/-- The states of a table. -/
structure Ok (isBase : Nat → Bool) (t : ShadowTab) : Prop where
  size : t.size = 0 ∨ ∃ b, 4 ≤ b ∧ b ≤ 31 ∧ t.size = 2 ^ b
  tab : t.tab = none ↔ t.size = 0
  wf : ∀ s, t.tab = some s → Probe.WF (t.size - 1) (shadowHash (t.size - 1)) s
  load : ∀ s, t.tab = some s → Probe.load (t.size - 1) s = t.count
  half : t.count * 2 ≤ t.size
  inj : ∀ {b b' sh}, t.Maps b sh → t.Maps b' sh → b = b'
  request : ∀ {b sh}, t.Maps b sh → isBase sh = false

section
variable {isBase : Nat → Bool} {t : ShadowTab}

theorem sized_shadowHash {mask b : Nat} (h : mask + 1 = 2 ^ b) :
    Probe.Sized mask (shadowHash mask) :=
  ⟨⟨b, h⟩, fun _ => Nat.and_le_right⟩

theorem Ok.start : Ok isBase start :=
  ⟨.inl rfl, by simp [ShadowTab.start], nofun, nofun, Nat.le_refl _, nofun, nofun⟩

theorem Ok.pow (h : t.Ok isBase) {s : Probe.Slots Nat Nat} (hs : t.tab = some s) :
    ∃ b, 4 ≤ b ∧ b ≤ 31 ∧ t.size = 2 ^ b := by
  refine h.size.resolve_left fun h0 => ?_
  rw [h.tab.2 h0] at hs
  cases hs

theorem Ok.sized (h : t.Ok isBase) {s : Probe.Slots Nat Nat} (hs : t.tab = some s) :
    t.size - 1 + 1 = t.size ∧ Probe.Sized (t.size - 1) (shadowHash (t.size - 1)) := by
  obtain ⟨b, _, _, hb⟩ := h.pow hs
  have hpos : t.size - 1 + 1 = t.size := by
    rw [hb]
    exact Nat.sub_add_cancel Nat.one_le_two_pow
  exact ⟨hpos, sized_shadowHash (hpos.trans hb)⟩

/-- Half of the slots are empty. -/
theorem Ok.room (h : t.Ok isBase) {s : Probe.Slots Nat Nat} (hs : t.tab = some s) :
    ∃ e ≤ t.size - 1, s e = none := by
  have hload := h.load s hs
  have hhalf := h.half
  obtain ⟨b, hb, _, hsize⟩ := h.pow hs
  have h16 : 2 ^ 4 ≤ t.size := hsize ▸ Nat.pow_le_pow_right (by decide) hb
  exact Probe.exists_empty (by omega)

/-- A lookup ends, with the shadow if there is one. -/
theorem Ok.lookup (h : t.Ok isBase) (p : Nat) :
    ∃ o, t.lookup p = some o ∧ ∀ sh, o = some sh ↔ t.Maps p sh := by
  unfold ShadowTab.lookup Maps
  cases hs : t.tab with
  | none => exact ⟨none, rfl, by simp⟩
  | some s =>
    obtain ⟨o, ho, hiff⟩ := Probe.get_spec (h.wf s hs) (h.sized hs).2 (h.room hs) p
    exact ⟨o, ho, fun sh => by simp [hiff]⟩

theorem Ok.unique (h : t.Ok isBase) {b sh sh' : Nat} (h1 : t.Maps b sh) (h2 : t.Maps b sh') :
    sh = sh' := by
  obtain ⟨o, _, ho⟩ := h.lookup b
  exact Option.some.inj (((ho sh).2 h1).symm.trans ((ho sh').2 h2))

/-! ## Growing and entering -/

/-- `js_shadow_tab_reserve`: the table is left as it is, or doubled with its entries. -/
structure Reserved (isBase : Nat → Bool) (t t' : ShadowTab) : Prop where
  ok : t'.Ok isBase
  count : t'.count = t.count
  maps : ∀ b sh, t'.Maps b sh ↔ t.Maps b sh

theorem Reserved.refl (h : t.Ok isBase) : Reserved isBase t t := ⟨h, rfl, fun _ _ => Iff.rfl⟩

/-- A larger table with the same entries. -/
theorem Ok.rebuilt (h : t.Ok isBase) {b : Nat} (hb : 4 ≤ b ∧ b ≤ 31) (hroom : t.count * 2 < 2 ^ b) :
    ∃ nt, Probe.readd (t.tab.getD Probe.empty) (2 ^ b - 1) (shadowHash (2 ^ b - 1)) t.size =
      some nt ∧ Reserved isBase t ⟨some nt, 2 ^ b, t.count⟩ := by
  have hpos : 2 ^ b - 1 + 1 = 2 ^ b := Nat.sub_add_cancel Nat.one_le_two_pow
  -- the old entries, as those of a table
  have hold : ∃ mask, t.size ≤ mask + 1 ∧
      Probe.WF mask (shadowHash mask) (t.tab.getD Probe.empty) ∧
      Probe.load mask (t.tab.getD Probe.empty) = t.count ∧
      Probe.occ (t.tab.getD Probe.empty) t.size = t.count ∧
      ∀ k v, (∃ i < t.size, t.tab.getD Probe.empty i = some (k, v)) ↔ t.Maps k v := by
    cases hs : t.tab with
    | none =>
      have hsize := h.tab.1 hs
      have hcount : t.count = 0 := by
        have := h.half
        omega
      refine ⟨0, by omega, .empty, by rw [hcount]; exact Probe.load_empty, ?_, fun k v => ?_⟩
      · rw [hsize, hcount]
        simp [Probe.occ]
      · simp [Maps, hs, Probe.empty]
    | some s =>
      have hsize := (h.sized hs).1
      refine ⟨t.size - 1, by omega, h.wf s hs, h.load s hs, ?_, fun k v => ?_⟩
      · rw [← h.load s hs, Probe.load, hsize]
        rfl
      · simp only [Maps, hs, Option.some.injEq, exists_eq_left', Probe.Has, Option.getD_some]
        exact exists_congr fun i => and_congr_left fun _ => by omega
  obtain ⟨mask, hle, hwf, hload, hocc, hmaps⟩ := hold
  obtain ⟨nt, hnt, hwt, hhas, hlt⟩ :=
    Probe.readd_spec hwf (sized_shadowHash hpos) hle (by omega)
  have hm : ∀ k v, ShadowTab.Maps ⟨some nt, 2 ^ b, t.count⟩ k v ↔ t.Maps k v := by
    intro k v
    rw [← hmaps, ← hhas]
    simp [Maps]
  refine ⟨nt, hnt, ⟨.inr ⟨b, hb.1, hb.2, rfl⟩, ?_, ?_, ?_, ?_, ?_, ?_⟩, rfl, hm⟩
  · simp
  · rintro _ ⟨⟩
    exact hwt
  · rintro _ ⟨⟩
    rw [hlt, hocc]
  · exact Nat.le_of_lt hroom
  · intro k k' sh h1 h2
    exact h.inj ((hm _ _).1 h1) ((hm _ _).1 h2)
  · intro k sh h1
    exact h.request ((hm _ _).1 h1)

/-- `js_shadow_tab_reserve` below `2 ^ 30` entries. -/
theorem Ok.reserve (h : t.Ok isBase) (hfit : t.count < 2 ^ 30) (malloc : Bool) :
    ∃ ok t', t.reserve malloc = some (ok, t') ∧ Reserved isBase t t' ∧
      (ok → (t'.count + 1) * 2 ≤ t'.size ∧ t'.tab.isSome) ∧ (malloc → ok) := by
  have hmod : (t.count + 1) * 2 % 2 ^ 32 = (t.count + 1) * 2 := Nat.mod_eq_of_lt (by omega)
  unfold ShadowTab.reserve
  rw [hmod]
  by_cases hroom : t.tab.isSome && decide ((t.count + 1) * 2 ≤ t.size)
  · rw [if_pos hroom]
    simp only [Bool.and_eq_true, decide_eq_true_eq] at hroom
    exact ⟨true, t, rfl, .refl h, fun _ => ⟨hroom.2, hroom.1⟩, fun _ => rfl⟩
  · rw [if_neg hroom]
    -- the new size
    have hnew : ∃ b, 4 ≤ b ∧ b ≤ 31 ∧ (t.count + 1) * 2 ≤ 2 ^ b ∧
        (if t.size ≠ 0 then t.size * 2 % 2 ^ 32 else Heap.tabInitial) = 2 ^ b := by
      rcases h.size with h0 | ⟨b, hb, hb', hsize⟩
      · have := h.half
        exact ⟨4, le_rfl, by omega, by omega, by rw [if_neg (by simp [h0])]; rfl⟩
      · have hsome : t.tab.isSome := by
          rw [Option.isSome_iff_ne_none]
          intro hnone
          have := h.tab.1 hnone
          have := Nat.two_pow_pos b
          omega
        simp only [hsome, Bool.true_and, decide_eq_true_eq] at hroom
        have hhalf := h.half
        have hb30 : b ≤ 30 := by
          by_contra hb31
          have : b = 31 := by omega
          subst this
          omega
        have hpow : 2 ^ (b + 1) = t.size * 2 := by rw [hsize, pow_succ]
        have hlt : t.size * 2 < 2 ^ 32 := by
          rw [← hpow]
          exact Nat.pow_lt_pow_right (by decide) (by omega)
        refine ⟨b + 1, by omega, by omega, ?_, ?_⟩
        · have h16 : 2 ^ 4 ≤ t.size := hsize ▸ Nat.pow_le_pow_right (by decide) hb
          rw [hpow]
          omega
        · rw [if_pos (by have := Nat.two_pow_pos b; omega), Nat.mod_eq_of_lt hlt, hpow]
    obtain ⟨b, hb, hb', hle, hsize⟩ := hnew
    simp only [hsize]
    rw [if_neg (by have := Nat.two_pow_pos b; omega)]
    cases malloc with
    | false => exact ⟨false, t, rfl, .refl h, nofun, nofun⟩
    | true =>
      obtain ⟨nt, hnt, hres⟩ := h.rebuilt ⟨hb, hb'⟩ (by omega)
      exact ⟨true, _, by simp [hnt], hres, fun _ => ⟨hle, rfl⟩, fun _ => rfl⟩

/-- `js_shadow_tab_put` of a new pointer into a table with room. -/
theorem Ok.put (h : t.Ok isBase) (hroom : (t.count + 1) * 2 ≤ t.size) (htab : t.tab.isSome)
    {p sh : Nat} (hp : ∀ sh, ¬ t.Maps p sh) (hsh : ∀ b, ¬ t.Maps b sh) (hreq : isBase sh = false) :
    ∃ t', t.put p sh = some t' ∧ t'.Ok isBase ∧ t'.count = t.count + 1 ∧
      ∀ b sh', t'.Maps b sh' ↔ if b = p then sh' = sh else t.Maps b sh' := by
  obtain ⟨s, hs⟩ := Option.isSome_iff_exists.1 htab
  obtain ⟨b, hb, hb', hsize⟩ := h.pow hs
  have hnew : ∀ v, ¬ Probe.Has (t.size - 1) s p v := fun v hv => hp v ⟨s, hs, hv⟩
  obtain ⟨s', hadd, hwf, hhas, hload⟩ :=
    Probe.add_spec (h.wf s hs) (h.sized hs).2 (h.room hs) hnew sh
  have hlt : t.count + 1 < 2 ^ 32 := by
    have : (2 : Nat) ^ b ≤ 2 ^ 31 := Nat.pow_le_pow_right (by decide) hb'
    omega
  have hmod : (t.count + 1) % 2 ^ 32 = t.count + 1 := Nat.mod_eq_of_lt hlt
  have hm : ∀ k v, ShadowTab.Maps { t with tab := some s', count := t.count + 1 } k v ↔
      if k = p then v = sh else t.Maps k v := by
    intro k v
    simp only [Maps, Option.some.injEq, exists_eq_left', hhas, hs]
  refine ⟨{ t with tab := some s', count := t.count + 1 }, ?_,
    ⟨h.size, ?_, ?_, ?_, hroom, ?_, ?_⟩, rfl, hm⟩
  · simp only [ShadowTab.put, hs, hadd, hmod, Option.bind_some, Option.map_some]
  · have := Nat.two_pow_pos b
    simp only [reduceCtorEq, false_iff]
    omega
  · rintro _ ⟨⟩
    exact hwf
  · rintro _ ⟨⟩
    rw [hload, h.load s hs]
  · intro k k' v h1 h2
    rw [hm] at h1 h2
    split at h1 <;> split at h2
    · simp_all
    · subst h1
      exact absurd h2 (hsh _)
    · subst h2
      exact absurd h1 (hsh _)
    · exact h.inj h1 h2
  · intro k v h1
    rw [hm] at h1
    split at h1
    · rw [h1]
      exact hreq
    · exact h.request h1

/-! ## Calls -/

/-- A pointer that has a shadow keeps it, whatever the allocator has to offer. -/
theorem Ok.forWrite_known (h : t.Ok isBase) {p sh : Nat} (hp : isBase p) (hm : t.Maps p sh)
    (malloc : Bool) (clone : Option Nat) :
    t.forWrite isBase p malloc clone = some (some sh, t) := by
  obtain ⟨o, ho, hiff⟩ := h.lookup p
  obtain rfl := (hiff sh).2 hm
  simp [forWrite, hp, ho]

/-- What a call does to a table: it adds at most the pointer it was called with. -/
structure Written (isBase : Nat → Bool) (p : Nat) (t : ShadowTab) (r : Option Nat)
    (t' : ShadowTab) :
    Prop where
  ok : t'.Ok isBase
  result : ∀ sh, r = some sh → t'.Maps p sh
  keeps : ∀ b sh, t.Maps b sh → t'.Maps b sh
  failed : r = none → ∀ b sh, t'.Maps b sh ↔ t.Maps b sh

/-- A new pointer gets the shadow that could be made for it. -/
theorem Ok.forWrite_new (h : t.Ok isBase) {p sh : Nat} (hp : isBase p) (hnew : ∀ sh, ¬ t.Maps p sh)
    (hreq : isBase sh = false) (hfresh : ∀ b, ¬ t.Maps b sh) {malloc : Bool} {t1 : ShadowTab}
    (hres : t.reserve malloc = some (true, t1)) (hr : Reserved isBase t t1)
    (hroom : (t1.count + 1) * 2 ≤ t1.size ∧ t1.tab.isSome) :
    ∃ t', t.forWrite isBase p malloc (some sh) = some (some sh, t') ∧ t'.Ok isBase ∧
      t'.count = t.count + 1 ∧
        ∀ b sh', t'.Maps b sh' ↔ if b = p then sh' = sh else t.Maps b sh' := by
  obtain ⟨o, ho, hiff⟩ := h.lookup p
  obtain rfl : o = none := Option.eq_none_iff_forall_ne_some.2 fun sh hs => hnew sh ((hiff sh).1 hs)
  obtain ⟨t', hput, hok, hcount, hmaps⟩ := hr.ok.put hroom.1 hroom.2
    (fun sh' hm => hnew sh' ((hr.maps _ _).1 hm)) (fun b hm => hfresh b ((hr.maps _ _).1 hm)) hreq
  refine ⟨t', by simp [ShadowTab.forWrite, hp, ho, hres, hput], hok, by rw [hcount, hr.count], ?_⟩
  intro b sh'
  rw [hmaps, hr.maps]

/-- `js_object_for_write` returns, with a shadow or because memory ran out. -/
theorem Ok.forWrite (h : t.Ok isBase) {p : Nat} (hp : isBase p) (hfit : t.count < 2 ^ 30)
    (malloc : Bool) {clone : Option Nat}
    (hclone : ∀ sh, clone = some sh → isBase sh = false ∧ ∀ b, ¬ t.Maps b sh) :
    ∃ r t', t.forWrite isBase p malloc clone = some (r, t') ∧ Written isBase p t r t' := by
  obtain ⟨o, ho, hiff⟩ := h.lookup p
  cases o with
  | some sh =>
    have hm := (hiff sh).1 rfl
    exact ⟨some sh, t, h.forWrite_known hp hm malloc clone, h, by rintro _ ⟨⟩; exact hm,
      fun _ _ => id, nofun⟩
  | none =>
    have hnew : ∀ sh, ¬ t.Maps p sh := fun sh hm => nomatch (hiff sh).2 hm
    obtain ⟨ok, t1, hres, hr, hroom, -⟩ := h.reserve hfit malloc
    have hfailed : Written isBase p t none t1 :=
      ⟨hr.ok, nofun, fun b sh => (hr.maps b sh).2, fun _ => hr.maps⟩
    cases ok with
    | false => exact ⟨none, t1, by simp [ShadowTab.forWrite, hp, ho, hres], hfailed⟩
    | true =>
      cases clone with
      | none => exact ⟨none, t1, by simp [ShadowTab.forWrite, hp, ho, hres], hfailed⟩
      | some sh =>
        obtain ⟨hreq, hfresh⟩ := hclone sh rfl
        obtain ⟨t2, hrun, hok, -, hmaps⟩ := h.forWrite_new hp hnew hreq hfresh hres hr (hroom rfl)
        refine ⟨some sh, t2, hrun, hok, ?_, ?_, nofun⟩
        · rintro _ ⟨⟩
          rw [hmaps, if_pos rfl]
        · intro b sh' hm
          rw [hmaps, if_neg]
          · exact hm
          · rintro rfl
            exact hnew sh' hm

/-! ## The way back -/

/-- The scan has `seen` the entries below `i` and reaches the one at `j`. -/
theorem identityScan_eq {s : Probe.Slots Nat Nat} {p live b j m : Nat} (hj : s j = some (b, p))
    (huniq : ∀ j' < m, ∀ b', s j' = some (b', p) → b' = b) (hlive : Probe.occ s m ≤ live)
    {n i seen : Nat} (hm : i + n = m) (hij : i ≤ j) (hjm : j < m) (hseen : seen = Probe.occ s i) :
    identityScan s p live n i seen = b := by
  induction n generalizing i seen with
  | zero => omega
  | succ n ih =>
    have hlt : Probe.occ s j < Probe.occ s (j + 1) := by
      rw [Probe.occ_succ, hj]
      simp
    have hle : Probe.occ s i ≤ Probe.occ s j := Probe.occ_mono hij
    have hle' : Probe.occ s (j + 1) ≤ Probe.occ s m := Probe.occ_mono (by omega)
    rw [identityScan, if_pos (by omega)]
    have hocc := Probe.occ_succ s i
    cases hsi : s i with
    | none =>
      have hne : i ≠ j := by
        rintro rfl
        rw [hsi] at hj
        cases hj
      simp only [hsi, Option.isSome_none, Bool.false_eq_true, if_false] at hocc
      exact ih (by omega) (by omega) (by omega)
    | some e =>
      obtain ⟨b', sh⟩ := e
      simp only
      by_cases hsh : sh = p
      · rw [if_pos hsh]
        exact huniq i (by omega) b' (by rw [hsi, hsh])
      · have hne : i ≠ j := by
          rintro rfl
          rw [hsi] at hj
          cases hj
          exact hsh rfl
        rw [if_neg hsh]
        simp only [hsi, Option.isSome_some, if_true] at hocc
        exact ih (by omega) (by omega) (by omega)

/-- `js_object_base_identity` of a shadow. -/
theorem Ok.baseIdentity (h : t.Ok isBase) {b sh : Nat} (hm : t.Maps b sh) :
    t.baseIdentity isBase sh = b := by
  obtain ⟨s, hs, j, hj, hsj⟩ := id hm
  have hsize := (h.sized hs).1
  have hlive : Probe.occ s t.size ≤ t.count := by
    rw [← h.load s hs, Probe.load, hsize]
    exact Nat.le_refl _
  have huniq : ∀ j' < t.size, ∀ b', s j' = some (b', sh) → b' = b := fun j' hj' b' hb' =>
    h.inj ⟨s, hs, j', by omega, hb'⟩ hm
  rw [ShadowTab.baseIdentity, h.request hm, hs]
  exact identityScan_eq hsj huniq hlive (Nat.zero_add _) (Nat.zero_le _) (by omega)
    (by simp [Probe.occ])

end

end ShadowTab

/-! ## Sequences of calls -/

/-- The two tables of a request. -/
structure ShadowTables where
  objs : ShadowTab
  cells : ShadowTab

/-- Which of the tables a call is about. -/
inductive ShadowKind where
  | object
  | cell
deriving DecidableEq, Repr

namespace ShadowTables

/-- The tables at the start of a request. -/
def start : ShadowTables := ⟨.start, .start⟩

def get (S : ShadowTables) : ShadowKind → ShadowTab
  | .object => S.objs
  | .cell => S.cells

def set (S : ShadowTables) (t : ShadowTab) : ShadowKind → ShadowTables
  | .object => { S with objs := t }
  | .cell => { S with cells := t }

end ShadowTables

/-- A call of `js_object_for_write` or `js_var_ref_for_write`, with what the allocator answers. -/
structure ShadowCall where
  kind : ShadowKind
  p : Nat
  malloc : Bool
  clone : Option Nat
deriving DecidableEq, Repr

section
variable (isBase : Nat → Bool)

/-- One call. -/
def shadowStep (S : ShadowTables) (c : ShadowCall) : Option (Option Nat × ShadowTables) :=
  ((S.get c.kind).forWrite isBase c.p c.malloc c.clone).map fun (r, t) => (r, S.set t c.kind)

/-- The call is about a snapshot pointer, and the memory of a new shadow is request memory that is
not in use. -/
structure ShadowCall.Valid (S : ShadowTables) (c : ShadowCall) : Prop where
  base : isBase c.p
  fresh : ∀ sh, c.clone = some sh → isBase sh = false ∧ ∀ b, ¬ (S.get c.kind).Maps b sh

/-- There is room for one more entry in a table with a `uint32_t` size. -/
def ShadowCall.Fits (S : ShadowTables) (c : ShadowCall) : Prop := (S.get c.kind).count < 2 ^ 30

/-- One call of a request that keeps to the condition. -/
def ShadowNext (S S' : ShadowTables) : Prop :=
  ∃ c r, c.Valid isBase S ∧ c.Fits S ∧ shadowStep isBase S c = some (r, S')

/-- The table is a finite injective map with the load at most one half, whose lookups end and whose
scan leads back. -/
structure ShadowTab.Faithful (t : ShadowTab) : Prop where
  unique : ∀ {b sh sh'}, t.Maps b sh → t.Maps b sh' → sh = sh'
  injective : ∀ {b b' sh}, t.Maps b sh → t.Maps b' sh → b = b'
  half : t.count * 2 ≤ t.size
  count : ∀ s, t.tab = some s → Probe.load (t.size - 1) s = t.count
  lookup : ∀ p, ∃ o, t.lookup p = some o ∧ ∀ sh, o = some sh ↔ t.Maps p sh
  identity : ∀ {b sh}, t.Maps b sh → t.baseIdentity isBase sh = b

end

section
variable {isBase : Nat → Bool} {S S' : ShadowTables}

theorem ShadowTab.Ok.faithful {t : ShadowTab} (h : t.Ok isBase) : t.Faithful isBase :=
  ⟨h.unique, h.inj, h.half, h.load, h.lookup, h.baseIdentity⟩

theorem ShadowTables.get_set (t : ShadowTab) (k k' : ShadowKind) :
    (S.set t k).get k' = if k' = k then t else S.get k' := by
  cases k <;> cases k' <;> rfl

/-- A call that meets the condition returns. -/
theorem shadowStep_spec (h : ∀ k, (S.get k).Ok isBase) {c : ShadowCall} (hv : c.Valid isBase S)
    (hfit : c.Fits S) : ∃ r S', shadowStep isBase S c = some (r, S') ∧
      ∀ k, if k = c.kind then ShadowTab.Written isBase c.p (S.get k) r (S'.get k)
        else S'.get k = S.get k := by
  obtain ⟨r, t, hrun, hw⟩ := (h c.kind).forWrite hv.base hfit c.malloc hv.fresh
  refine ⟨r, S.set t c.kind, by simp [shadowStep, hrun], fun k => ?_⟩
  rw [ShadowTables.get_set]
  split
  · rename_i hk
    rw [hk]
    exact hw
  · rfl

/-- Both tables are in order, and no entry is lost. -/
theorem ShadowNext.keeps (h : ∀ k, (S.get k).Ok isBase) (hs : ShadowNext isBase S S')
    (k : ShadowKind) :
    (S'.get k).Ok isBase ∧ ∀ b sh, (S.get k).Maps b sh → (S'.get k).Maps b sh := by
  obtain ⟨c, r, hv, hfit, hrun⟩ := hs
  obtain ⟨r', S'', hrun', hw⟩ := shadowStep_spec h hv hfit
  rw [hrun] at hrun'
  cases hrun'
  have hk := hw k
  split at hk
  · exact ⟨hk.ok, hk.keeps⟩
  · rw [hk]
    exact ⟨h k, fun _ _ => id⟩

theorem shadowReach_keeps (h : ∀ k, (S.get k).Ok isBase)
    (hs : Relation.ReflTransGen (ShadowNext isBase) S S') (k : ShadowKind) :
    (S'.get k).Ok isBase ∧ ∀ b sh, (S.get k).Maps b sh → (S'.get k).Maps b sh := by
  induction hs generalizing k with
  | refl => exact ⟨h k, fun _ _ => id⟩
  | tail _ hstep ih =>
    have hk := hstep.keeps (fun k => (ih k).1) k
    exact ⟨hk.1, fun b sh hm => hk.2 b sh ((ih k).2 b sh hm)⟩

/-- The calls of a request that writes one snapshot object after the other. -/
def objectCall (i : Nat) : ShadowCall := ⟨.object, 16 * (i + 1), true, some (2 ^ 40 + 16 * i)⟩

/-- A request that makes `n` of these calls gets as far as the table of `n` entries. -/
theorem objectCall_reach {n : Nat} (hn : n ≤ 2 ^ 30) : ∃ S,
    Relation.ReflTransGen (ShadowNext fun p => decide (p < 2 ^ 40)) .start S ∧
      S.objs.Ok (fun p => decide (p < 2 ^ 40)) ∧ S.objs.count = n ∧
      ∀ b sh, S.objs.Maps b sh ↔ ∃ i < n, b = 16 * (i + 1) ∧ sh = 2 ^ 40 + 16 * i := by
  induction n with
  | zero => exact ⟨_, .refl, .start, rfl, fun b sh => ⟨nofun, by simp⟩⟩
  | succ n ih =>
    obtain ⟨S, hS, hok, hcount, hmaps⟩ := ih (by omega)
    have hnew : ∀ sh, ¬ S.objs.Maps (16 * (n + 1)) sh := by
      intro sh hm
      obtain ⟨i, hi, hb, -⟩ := (hmaps _ _).1 hm
      omega
    have hfresh : ∀ b, ¬ S.objs.Maps b (2 ^ 40 + 16 * n) := by
      intro b hm
      obtain ⟨i, hi, -, hsh⟩ := (hmaps _ _).1 hm
      omega
    have hbase : decide (16 * (n + 1) < 2 ^ 40) = true := decide_eq_true (by omega)
    have hreq : decide (2 ^ 40 + 16 * n < 2 ^ 40) = false := decide_eq_false (by omega)
    obtain ⟨ok, t1, hres, hr, hroom, hgrant⟩ := hok.reserve (by omega) true
    obtain rfl : ok = true := hgrant rfl
    obtain ⟨t, hrun, hok', hcount', hmaps'⟩ := @ShadowTab.Ok.forWrite_new _ _ hok
      (16 * (n + 1)) (2 ^ 40 + 16 * n) hbase hnew hreq hfresh _ _ hres hr (hroom rfl)
    refine ⟨S.set t .object, hS.tail ⟨objectCall n, some (2 ^ 40 + 16 * n), ⟨hbase, ?_⟩, ?_, ?_⟩,
      hok', by rw [← hcount]; exact hcount', fun b sh => (hmaps' b sh).trans ?_⟩
    · rintro _ ⟨⟩
      exact ⟨hreq, hfresh⟩
    · show S.objs.count < 2 ^ 30
      omega
    · show (S.objs.forWrite _ _ _ _).map _ = _
      rw [show (objectCall n).p = 16 * (n + 1) from rfl,
        show (objectCall n).clone = some (2 ^ 40 + 16 * n) from rfl,
        show (objectCall n).malloc = true from rfl, hrun]
      rfl
    · rw [hmaps]
      split
      · next hb => exact ⟨fun hm => ⟨n, by omega, hb, hm⟩, fun ⟨i, hi, hbi, hsh⟩ => by omega⟩
      · next hb =>
        constructor
        · rintro ⟨i, hi, hbi⟩
          exact ⟨i, by omega, hbi⟩
        · rintro ⟨i, hi, hbi, hsh⟩
          exact ⟨i, by omega, hbi, hsh⟩

/-- In every state of a request whose calls meet the condition both tables are faithful maps, and
the next call returns; a shadow it returns is returned for its pointer from then on and leads back
to it, and a call that fails changes neither map. -/
theorem shadow_tables_faithful (hS : Relation.ReflTransGen (ShadowNext isBase) .start S) :
    (∀ k, (S.get k).Faithful isBase) ∧
      ∀ c : ShadowCall, c.Valid isBase S → c.Fits S →
        ∃ r S', shadowStep isBase S c = some (r, S') ∧
          (r = none → ∀ k b sh, (S'.get k).Maps b sh ↔ (S.get k).Maps b sh) ∧
          ∀ sh, r = some sh → ∀ S'', Relation.ReflTransGen (ShadowNext isBase) S' S'' →
            (S''.get c.kind).baseIdentity isBase sh = c.p ∧
              ∀ malloc clone, shadowStep isBase S'' { c with malloc, clone } =
                some (some sh, S'') := by
  have hstart : ∀ k, (ShadowTables.start.get k).Ok isBase := by
    rintro (_ | _) <;> exact .start
  have h : ∀ k, (S.get k).Ok isBase := fun k => (shadowReach_keeps hstart hS k).1
  refine ⟨fun k => (h k).faithful, fun c hv hfit => ?_⟩
  obtain ⟨r, S', hrun, hw⟩ := shadowStep_spec h hv hfit
  have hc := hw c.kind
  rw [if_pos rfl] at hc
  have h' : ∀ k, (S'.get k).Ok isBase := fun k =>
    (ShadowNext.keeps h ⟨c, r, hv, hfit, hrun⟩ k).1
  refine ⟨r, S', hrun, ?_, ?_⟩
  · rintro hr k b sh
    have hk := hw k
    split at hk
    · exact hk.failed hr b sh
    · rw [hk]
  · intro sh hr S'' hS''
    obtain ⟨hok, hkeep⟩ := shadowReach_keeps h' hS'' c.kind
    have hm := hkeep _ _ (hc.result sh hr)
    refine ⟨hok.baseIdentity hm, fun malloc clone => ?_⟩
    have hknown := hok.forWrite_known hv.base hm malloc clone
    simp only [shadowStep, hknown, Option.map_some]
    cases c.kind <;> rfl

/-- After nine objects have been written, and the table has grown, every shadow leads back to its
object and the write of a tenth returns. -/
theorem shadow_tables_faithful_nine : ∃ S,
    Relation.ReflTransGen (ShadowNext fun p => decide (p < 2 ^ 40)) .start S ∧ S.objs.count = 9 ∧
      (∀ i < 9, S.objs.baseIdentity (fun p => decide (p < 2 ^ 40)) (2 ^ 40 + 16 * i) =
        16 * (i + 1)) ∧
      (shadowStep (fun p => decide (p < 2 ^ 40)) S (objectCall 9)).isSome := by
  obtain ⟨S, hS, -, hcount, hmaps⟩ := objectCall_reach (show 9 ≤ 2 ^ 30 by decide)
  obtain ⟨hfaithful, hnext⟩ := shadow_tables_faithful hS
  refine ⟨S, hS, hcount, fun i hi => ?_, ?_⟩
  · exact (hfaithful .object).identity ((hmaps _ _).2 ⟨i, hi, rfl, rfl⟩)
  have hvalid : (objectCall 9).Valid (fun p => decide (p < 2 ^ 40)) S := by
    refine ⟨by decide, ?_⟩
    rintro _ ⟨⟩
    refine ⟨by decide, fun b hm => ?_⟩
    obtain ⟨i, hi, -, hsh⟩ := (hmaps _ _).1 hm
    omega
  obtain ⟨r, S', hrun, -⟩ := hnext (objectCall 9) hvalid (hcount.trans_lt (by decide))
  rw [hrun]
  rfl

/-! ## A full table -/

/-- A table with `2 ^ 30` entries cannot take one more: the next size is zero. -/
theorem ShadowTab.Ok.reserve_wraps {t : ShadowTab} (h : t.Ok isBase) (hfull : t.count = 2 ^ 30)
    (malloc : Bool) : t.reserve malloc = none := by
  have hhalf := h.half
  obtain ⟨b, _, hb, hsize⟩ := h.size.resolve_left (by omega)
  have h31 : t.size = 2 ^ 31 := by
    have : (2 : Nat) ^ b ≤ 2 ^ 31 := Nat.pow_le_pow_right (by decide) hb
    omega
  simp [ShadowTab.reserve, hfull, h31]

/-- After `2 ^ 30` objects have been written, with memory granted every time, the write of another
one does not return. -/
theorem shadow_table_full : ∃ S,
    Relation.ReflTransGen (ShadowNext fun p => decide (p < 2 ^ 40)) .start S ∧
      (objectCall (2 ^ 30)).Valid (fun p => decide (p < 2 ^ 40)) S ∧
      shadowStep (fun p => decide (p < 2 ^ 40)) S (objectCall (2 ^ 30)) = none := by
  obtain ⟨S, hS, hok, hcount, hmaps⟩ := objectCall_reach (le_refl (2 ^ 30))
  have hbase : decide (16 * (2 ^ 30 + 1) < 2 ^ 40) = true := by decide
  obtain ⟨o, ho, hiff⟩ := hok.lookup (16 * (2 ^ 30 + 1))
  obtain rfl : o = none := Option.eq_none_iff_forall_ne_some.2 fun sh hs => by
    obtain ⟨i, hi, hb, -⟩ := (hmaps _ _).1 ((hiff sh).1 hs)
    omega
  refine ⟨S, hS, ⟨hbase, ?_⟩, ?_⟩
  · rintro _ ⟨⟩
    refine ⟨by decide, fun b hm => ?_⟩
    obtain ⟨i, hi, -, hsh⟩ := (hmaps _ _).1 hm
    omega
  · show (S.objs.forWrite _ (16 * (2 ^ 30 + 1)) _ _).map _ = none
    simp only [ShadowTab.forWrite, hbase, ho, hok.reserve_wraps hcount, Option.bind_some,
      Option.bind_none, Option.map_none, Bool.not_true, Bool.false_eq_true, if_false]

end

/-! ## The table as a list -/

namespace ShadowTab

/-- The list and the size stand for the table. -/
structure Tracks (tab : List Nat) (size : Nat) (t : ShadowTab) : Prop where
  mem : ∀ b, b ∈ tab ↔ ∃ sh, t.Maps b sh
  length : tab.length = t.count
  size : t.size = size

section
variable {isBase : Nat → Bool} {t : ShadowTab} {env : Heap.Env} {s : Heap.State}

/-- `js_shadow_tab_reserve` on the list is that on the table. When it succeeds the entries are the
same as before in both, both have the same size, and there is room for one more; when the allocation
is refused both are left as they were. -/
theorem shadowTabReserve_tracks (h : t.Ok isBase) (hfit : t.count < 2 ^ 30)
    (ht : Tracks s.shadowTab s.shadowTabSize t) :
    ∃ ok t', t.reserve (env.alloc s.allocs) = some (ok, t') ∧ Ends s (Heap.shadowTabReserve env)
      (fun _ s' => ok = true ∧ Tracks s'.shadowTab s'.shadowTabSize t' ∧
        s'.shadowTab = s.shadowTab ∧ (∀ b sh, t'.Maps b sh ↔ t.Maps b sh) ∧
        (t'.count + 1) * 2 ≤ t'.size)
      fun _ s' => ok = false ∧ t' = t ∧ s'.shadowTab = s.shadowTab ∧
        s'.shadowTabSize = s.shadowTabSize := by
  obtain ⟨ok, t', hres, hr, hroom, -⟩ := h.reserve hfit (env.alloc s.allocs)
  refine ⟨ok, t', hres, Ends.bind_ok (a := s) (t := s) rfl ?_⟩
  have htrack : ∀ {n}, t'.size = n → Tracks s.shadowTab n t' := fun hn =>
    ⟨fun b => (ht.mem b).trans (exists_congr fun sh => (hr.maps b sh).symm),
      ht.length.trans hr.count.symm, hn⟩
  have hsome : t.tab.isSome = decide (t.size ≠ 0) := by
    cases htab : t.tab <;> simp [← h.tab, htab]
  -- the size does not wrap when the table grows
  have hwrap : (t.count + 1) * 2 ≤ t.size ∨ t.size * 2 % 2 ^ 32 = t.size * 2 := by
    rcases h.size with h0 | ⟨b, _, hb, hsize⟩
    · simp [h0]
    · obtain rfl | hb := hb.eq_or_lt
      · omega
      · have := Nat.pow_le_pow_right Nat.two_pos (Nat.le_of_lt_succ hb)
        omega
  simp only [ShadowTab.reserve, hsome,
    Nat.mod_eq_of_lt (show (t.count + 1) * 2 < 2 ^ 32 by omega)] at hres
  simp only [← ht.length, ht.size] at hres hwrap
  split at hres
  next henough =>
    cases hres
    rw [if_pos henough]
    exact ⟨rfl, ht, rfl, hr.maps, (hroom rfl).1⟩
  next henough =>
    generalize hn : (if s.shadowTabSize ≠ 0 then s.shadowTabSize * 2 % 2 ^ 32
      else Heap.tabInitial) = n at hres
    have hnew : n = if s.shadowTabSize ≠ 0 then s.shadowTabSize * 2 else Heap.tabInitial := by
      grind
    rw [if_neg henough]
    split at hres
    · cases hres
    · split at hres
      next hm =>
        obtain ⟨nt, -, he⟩ := Option.map_eq_some_iff.1 hres
        cases he
        have hdone := And.intro (htrack hnew) (And.intro hr.maps (hroom rfl).1)
        simpa [Ends, Heap.jsMallocRt, Heap.allocate, hm] using hdone
      next hm =>
        cases hres
        simp [Ends, Heap.jsMallocRt, Heap.allocate, hm]

/-- The table of a request that has written nine objects keeps them and has room for another. -/
theorem shadowTabReserve_tracks_nine : ∃ t t' : ShadowTab, t.count = 9 ∧
    t.reserve true = some (true, t') ∧ 20 ≤ t'.size ∧
    ∀ i < 9, t'.Maps (16 * (i + 1)) (2 ^ 40 + 16 * i) := by
  obtain ⟨S, -, hok, hcount, hmaps⟩ := objectCall_reach (show 9 ≤ 2 ^ 30 by decide)
  let tab := (List.range 9).map fun i => 16 * (i + 1)
  have ht : Tracks tab S.objs.size S.objs := by
    refine ⟨fun b => ?_, hcount.symm, rfl⟩
    simp only [tab, hmaps, List.mem_map, List.mem_range]
    exact ⟨fun ⟨i, hi, hb⟩ => ⟨_, i, hi, hb.symm, rfl⟩, fun ⟨_, i, hi, hb, _⟩ => ⟨i, hi, hb.symm⟩⟩
  let s : Heap.State := { Heap.plainState with shadowTab := tab, shadowTabSize := S.objs.size }
  have hlt : S.objs.count < 2 ^ 30 := hcount.trans_lt (by decide)
  obtain ⟨ok, t', hres, hends⟩ := @shadowTabReserve_tracks _ _ Heap.plainEnv s hok hlt ht
  obtain ⟨_, _, hres', -, -, hgrant⟩ := hok.reserve hlt true
  cases hres'.symm.trans hres
  obtain rfl := hgrant rfl
  cases hrun : (Heap.shadowTabReserve Heap.plainEnv).run s with
  | error e s' => cases (hends.error hrun).1
  | ok a s' =>
    obtain ⟨-, htrack, hsame, hkeep, hroom⟩ := hends.ok hrun
    have hnine : t'.count = 9 := by rw [← htrack.length, hsame]; rfl
    exact ⟨S.objs, t', hcount, hres, by omega, fun i hi =>
      (hkeep _ _).2 ((hmaps _ _).2 ⟨i, hi, rfl, rfl⟩)⟩

end

end ShadowTab

end ArenaJs
