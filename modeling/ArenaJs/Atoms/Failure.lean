import ArenaJs.Atoms.NameLookup

/-!
# Interning when memory runs out

`__JS_NewAtom` of a string of a request allocates up to three times: a struct, if the string is an
atom of another type (`FailPoint.block`), slots of the overlay (`FailPoint.slots`), and the
overlay's chain heads (`FailPoint.hash`). By the second allocation the string has been made an atom,
or has been released in favour of its copy; by the third the atom has its slot. Nothing of this is
taken back.

`interning_atomic` says at which of these points a failed call leaves everything as it was:
the first, and the second if the caller held the only reference to a string that was not an atom.
-/

namespace ArenaJs.Atoms

/-! ## The points of failure -/

/-- The allocations of `__JS_NewAtom`. -/
inductive FailPoint where
  | block
  | slots
  | hash
  deriving DecidableEq, Repr

/-- The first allocation that fails in making an atom of the string `s`. -/
def Runtime.allocFails (rt : Runtime) (s : JSString) (t : AtomType) (a : Allocs) :
    Option FailPoint :=
  if s.atomType ≠ none ∧ a.block = false then some .block
  else if rt.req.overlayFreeIndex = 0 ∧ a.slots = false then some .slots
  else if t.hashed = true ∧ rt.req.hashOverlay = [] ∧ a.hash = false then some .hash
  else none

/-- The allocation that fails in `__JS_NewAtom` of the string `s` of a request. A string that is the
atom, or whose text is interned, needs none. -/
def Runtime.failPoint (rt : Runtime) (s : JSString) (t : AtomType) (a : Allocs) :
    Option FailPoint :=
  if t.hashed = true ∧ (s.atomType = some t ∨
      rt.findHashed (atomHashOf t s.chars) (rt.sameAtom t (atomHashOf t s.chars) s.chars) ≠
        some 0) then
    none
  else rt.allocFails s t a

section
variable {Q : TextPred} {rt rt' rt1 : Runtime} {ids ids' : Nat → List Nat} {skip : StrPtr → Prop}
  {p q : StrPtr} {s u : JSString} {i j n v : Nat} {a : Allocs} {t : AtomType} {f : FailPoint}
  {chars heads : List Nat} {s' : JSString}

theorem AtomType.kind_ne_symbol : t.kind ≠ .symbol ↔ t.hashed = true := by
  cases t <;> simp [AtomType.kind, AtomType.hashed]

/-- Where an allocation fails, an atom is being made. -/
theorem Runtime.newAtom_creates (hs : rt.str p = some s) (hf : rt.failPoint s t a = some f) :
    rt.allocFails s t a = some f ∧
      ∃ v, rt.newAtom (some p) t a = rt.createAtom (some p) t.kind v a := by
  unfold Runtime.failPoint at hf
  split at hf
  · cases hf
  next hno =>
  refine ⟨hf, ?_⟩
  cases hth : t.hashed with
  | true =>
    refine ⟨atomHashOf t s.chars, ?_⟩
    obtain ⟨hat, hfind⟩ := not_or.1 fun h => hno ⟨hth, h⟩
    have hkind : t.kind = t := by cases t <;> first | rfl | cases hth
    simp [newAtom_hashed hs hth, Runtime.newHashed, if_neg hat, not_not.1 hfind, hkind]
  | false =>
    cases t with
    | string | globalSymbol => cases hth
    | symbol => exact ⟨0, rfl⟩
    | priv => exact ⟨1, rfl⟩

/-! ## The failure exit -/

/-- `js_free_string` of an atom of the request counts down. -/
theorem Runtime.freeString_counts (harena : rt.isArena = true) (hs : rt.str (.req n) = some s)
    (hat : s.atomType ≠ none) : rt.freeString (.req n) =
      some (rt.setStr (.req n) (some { s with refCount := s.refCount - 1 })) := by
  simp only [Runtime.freeString, rcDec_req hs]
  split
  · rw [str_setStr hs, if_pos rfl, Option.bind_some, if_pos (Option.isSome_iff_ne_none.2 hat)]
    exact freeAtomStruct_arena (by exact harena) _
  · rfl

theorem Runtime.newAtomFail_counts (harena : rt.isArena = true) (hs : rt.str (.req n) = some s)
    (hat : s.atomType ≠ none) : rt.newAtomFail (some (.req n)) =
      some (0, rt.setStr (.req n) (some { s with refCount := s.refCount - 1 })) := by
  simp [Runtime.newAtomFail, freeString_counts harena hs hat]

/-! ## Findable results -/

/-- An atom on a chain is found. -/
theorem Frozen.findHashed_hashed (h : Frozen Q rt ids ids' skip) (hj : rt.Hashed ids ids' j)
    (hs : rt.atom j = some s) (hat : s.atomType = some t) :
    rt.findHashed (atomHashOf t s.chars) (rt.sameAtom t (atomHashOf t s.chars) s.chars) =
      some j := by
  obtain ⟨k, hk, hfound, hnone⟩ := h.ok.findHashed_same (t := t) s.chars
  by_cases hk0 : k = 0
  · exact absurd rfl (hnone hk0 j s hj hs hat)
  · obtain ⟨hkm, s2, hs2, hat2, hc2⟩ := hfound hk0
    rw [hk, h.ok.hashed_unique hkm hj hs2 hs (hat2.trans hat.symm) hc2]

/-- After a step that changes no atom, an atom on a chain is found. -/
theorem Frozen.findHashed_quiet (h : Frozen Q rt ids ids' skip) (hq : Quiet rt rt')
    (hj : rt.Hashed ids ids' j) (hs : rt.atom j = some s) (hat : s.atomType = some t) :
    rt'.findHashed (atomHashOf t s.chars) (rt'.sameAtom t (atomHashOf t s.chars) s.chars) =
      some j := by
  obtain ⟨s', hs', hat', hc'⟩ := hq.atom hs hat
  rw [← hc']
  refine (h.quiet hq).findHashed_hashed ?_ hs' hat'
  rwa [Runtime.Hashed, QuietBut.base hq, QuietBut.hash hq]

/-- A struct in front of the chain its hash selects is found at once. -/
theorem Entered.findHashed (he : Entered rt rt' n i s' heads) (hi : i ≠ 0) (hv : s'.hash = v)
    (ht : s'.atomType = some t) (hc : s'.chars = chars)
    (hhead : heads[v &&& (heads.length - 1)]? = some i) :
    rt'.findHashed v (rt'.sameAtom t v chars) = some i := by
  have hne : rt'.req.hashOverlay ≠ [] := fun hnil => by
    rw [← he.hash, hnil] at hhead
    cases hhead
  have htest : rt'.sameAtom t v chars i = true := by
    simp [Runtime.sameAtom, he.atom, hv, ht, hc]
  have hfind : rt'.findIn heads v (rt'.sameAtom t v chars) = some i := by
    rw [Runtime.findIn, hhead, Option.bind_some, Runtime.walkFuel, chainFind, if_neg hi,
      if_pos htest]
  rw [Runtime.findHashed, if_pos hne, he.hash, hfind, Option.bind_some, if_pos hi]

/-- A new atom is found. -/
theorem Frozen.createAtom_findable (h : Frozen Q rt ids ids' skip) {str : Option StrPtr}
    (hlt : rt.req.overlayBase + (rt.req.overlayCount + 1) < tagInt) (hth : t.hashed = true)
    (hstr : Makeable rt str) (hr : rt.createAtom str t v a = some (j, rt')) (hj : j ≠ 0) :
    rt'.findHashed v (rt'.sameAtom t v (rt.textOf str)) = some j := by
  have hgrow : rt.growAtomArray a = .ok rt := by simp [Runtime.growAtomArray, h.arena]
  have hsym : t ≠ .symbol := by rintro rfl; cases hth
  simp only [Runtime.createAtom, hgrow] at hr
  rcases h.atomBlock (t := t) (a := a) hstr with ⟨herr, -⟩ | ⟨n, rt1, hok, hready, hq, -, -⟩
  · rw [herr, Option.bind_some] at hr
    exact absurd (Runtime.newAtomFail_number hr) hj
  rw [hok] at hr
  change rt1.installAtom str (.req n) t v a = some (j, rt') at hr
  rcases hready.installAtom_cases str t v a (by rw [hq.overlayBase, hq.count]; exact hlt) with
    ⟨-, hfail⟩ | ⟨-, rt2, s', heads, hent, hv, ht, -, hc, ⟨-, -, hfail⟩ | ⟨-, hdone, -, hlink⟩⟩
  · rw [hfail] at hr
    exact absurd (Runtime.newAtomFail_number hr) hj
  · rw [hfail] at hr
    exact absurd (Runtime.newAtomFail_number hr) hj
  · rw [hdone] at hr
    cases hr
    exact hent.findHashed hj hv ht hc (hlink hsym).2

/-- **A successful interning returns a findable number.** -/
theorem Frozen.newAtom_findable (h : Frozen Q rt ids ids' skip) (hs : rt.str p = some s)
    (hth : t.hashed = true) (hlt : rt.req.overlayBase + (rt.req.overlayCount + 1) < tagInt)
    (hknown : p.isBase = true → s.atomType = none → Known rt ids ids' t s.chars)
    (hr : rt.newAtom (some p) t a = some (j, rt')) (hj : j ≠ 0) :
    rt'.findHashed (atomHashOf t s.chars) (rt'.sameAtom t (atomHashOf t s.chars) s.chars) =
      some j := by
  rw [Runtime.newAtom_hashed hs hth] at hr
  rcases h.newHashed_cases hs hth hr with ⟨u, hq, hmem, hu, hat, hc, -⟩ | ⟨hnew, hr⟩
  · exact hc ▸ h.findHashed_quiet hq hmem hu hat
  · rw [← Runtime.textOf_some hs] at hr ⊢
    exact h.createAtom_findable hlt hth (Makeable.of_not_known hs hknown hnew) hr hj

/-! ## What a failed call leaves behind -/

/-- Writing a struct keeps the entries of the tables, if it keeps the atom it is. -/
theorem Runtime.denotes_setStr (hs : rt.str p = some s)
    (hkeep : rt.atomStruct i = some p → s'.atomType = s.atomType ∧ s'.chars = s.chars) :
    (rt.setStr p (some s')).denotes i = rt.denotes i := by
  have hstruct : (rt.setStr p (some s')).atomStruct i = rt.atomStruct i := by cases p <;> rfl
  have hatom : ((rt.setStr p (some s')).atom i).bind
    (fun s => s.atomType.map fun t => (t, s.chars)) =
      (rt.atom i).bind fun s => s.atomType.map fun t => (t, s.chars) := by
    rw [Runtime.atom, Runtime.atom, hstruct]
    cases hi : rt.atomStruct i with
    | none => rfl
    | some q =>
      rw [Option.bind_some, Option.bind_some, str_setStr hs]
      split
      · next hq =>
        obtain ⟨hat, hc⟩ := hkeep (hq ▸ hi)
        rw [hq, hs, Option.bind_some, Option.bind_some, hat, hc]
      · rfl
  rw [Runtime.denotes, Runtime.denotes, hatom]

/-- A string of the request that is not an atom has no number. -/
theorem Frozen.no_number (h : Frozen Q rt ids ids' skip) (hs : rt.str (.req n) = some s)
    (hat : s.atomType = none) : rt.atomStruct i ≠ some (.req n) := by
  intro hi
  unfold Runtime.atomStruct at hi
  split at hi
  · obtain ⟨d, hd⟩ := h.ok.base.live (show rt.base.slot i = some (.req n) from hi)
    cases hd
  · next hb =>
    have hnone : rt.req.data (.req n) = none := by
      rw [Runtime.data_req hs, JSString.data?, hat, Option.map_none]
    exact h.unslotted hnone i (by rw [Request.slot, if_neg hb]; exact hi)

/-- The next number stands for nothing. -/
theorem Frozen.next_denotes (h : Frozen Q rt ids ids' skip)
    (hlt : rt.req.overlayBase + (rt.req.overlayCount + 1) < tagInt) :
    rt.denotes (rt.req.overlayBase + (rt.req.overlayCount + 1)) = none := by
  have hslot := h.next_none
  rw [Request.slot, if_neg (by omega)] at hslot
  rw [Runtime.denotes, if_neg (by simpa [atomIsTaggedInt] using hlt), Runtime.atom,
    Runtime.atomStruct, if_neg (by omega), hslot]
  rfl

/-- An atom with a slot still has it after a step that changes no atom. -/
theorem Entered.denotes_quiet (he : Entered rt rt1 n i s' heads) (ht : s'.atomType = some t)
    (hi : i < tagInt) (hq : Quiet rt1 rt') : rt'.denotes i ≠ none := by
  obtain ⟨s2, hs2, hat2, -⟩ := hq.atom he.atom ht
  rw [Runtime.denotes, if_neg (by simpa [atomIsTaggedInt] using hi), hs2, Option.bind_some, hat2]
  simp

end

/-- The effect of a failed call on the string `s` at `p`: its reference was released, once, and
apart from that nothing has changed. The string itself is live afterwards if there was another
reference. -/
structure Undone (rt rt' : Runtime) (p : StrPtr) (s : JSString) : Prop where
  released : ∀ s' ∈ rt'.str p, s'.refCount = s.refCount - 1
  entries : ∀ i, rt'.denotes i = rt.denotes i
  free : ∀ l, Chain rt'.req.freeNext rt'.req.overlayFreeIndex l ↔
    Chain rt.req.freeNext rt.req.overlayFreeIndex l
  strings : ∀ q u, rt.str q = some u → (q = p → 1 < s.refCount) →
    ∃ u', rt'.str q = some u' ∧ u'.Like u ∧ u'.data? = u.data? ∧ (q ≠ p → u'.refCount = u.refCount)

/-- In every state that is reached from here on, a successful interning of the text returns a number
that the lookup finds. -/
def StaysFindable (rt : Runtime) (chars : List Nat) : Prop :=
  ∀ rt1, Relation.ReflTransGen (Step fun rt op => op.Sparing rt) rt rt1 →
    ∀ q u t a j rt2, rt1.str q = some u → u.chars = chars → t.hashed = true →
      (Op.newAtom (some q) t a).Sparing rt1 → rt1.newAtom (some q) t a = some (j, rt2) → j ≠ 0 →
      rt2.findHashed (atomHashOf t chars) (rt2.sameAtom t (atomHashOf t chars) chars) = some j

section
variable {Q : TextPred} {rt rt' rt1 : Runtime} {ids ids' : Nat → List Nat} {skip : StrPtr → Prop}
  {p : StrPtr} {s : JSString} {n v : Nat} {a : Allocs} {t : AtomType}

theorem Frozen.staysFindable (h : Frozen NoNum rt ids ids' fun _ => True) (chars : List Nat) :
    StaysFindable rt chars := by
  rintro rt1 hrun q u t a j rt2 hs rfl hth hop hr hj
  obtain ⟨-, ids1, hf⟩ := h.run admits_sparing hrun
  have hready := admits_sparing.ready hf hop
  have hdirect : t = .string → smallInt u.chars = false := fun ht => by
    have := hop.valid.direct
    simpa [Op.direct, ht, Runtime.textOf_some hs] using this
  exact hf.newAtom_findable hs hth hready.low
    (fun hb hat => (hready.atom q t u rfl hs hdirect hb hat).2) hr hj

theorem Runtime.setStr_setStr (p : StrPtr) (o o' : Option JSString) :
    (rt.setStr p o).setStr p o' = rt.setStr p o' := by
  cases p <;> simp [Runtime.setStr]

/-- The string was counted down, and changed only if nobody holds it any more. -/
theorem Undone.of_write {s' : JSString} (hs : rt.str p = some s) (hc : s'.refCount = s.refCount - 1)
    (hkeep : ∀ i, rt.atomStruct i = some p → s'.atomType = s.atomType ∧ s'.chars = s.chars)
    (hlive : 1 < s.refCount → s'.Like s ∧ s'.data? = s.data?) :
    Undone rt (rt.setStr p (some s')) p s := by
  refine ⟨fun s2 hs2 => ?_, fun i => Runtime.denotes_setStr hs (hkeep i),
    fun l => by cases p <;> exact .rfl, fun q u hu hq => ?_⟩
  · rw [Runtime.str_setStr hs, if_pos rfl] at hs2
    exact Option.some.inj hs2 ▸ hc
  · rw [Runtime.str_setStr hs]
    split
    · next hqp =>
      subst hqp
      cases hs.symm.trans hu
      obtain ⟨hlike, hdata⟩ := hlive (hq rfl)
      exact ⟨s', rfl, hlike, hdata, fun hne => absurd rfl hne⟩
    · exact ⟨u, hu, .refl u, rfl, fun _ => rfl⟩

/-! ## The failures, one by one -/

theorem Frozen.createAtom_arena (h : Frozen Q rt ids ids' skip) (str : Option StrPtr) :
    rt.createAtom str t v a = (rt.atomBlock str t a).bind fun
      | .error rt => rt.newAtomFail str
      | .ok (p, rt) => rt.installAtom str p t v a := by
  have hgrow : rt.growAtomArray a = .ok rt := by simp [Runtime.growAtomArray, h.arena]
  rw [Runtime.createAtom]
  generalize rt.growAtomArray a = grown at hgrow ⊢
  cases hgrow
  rfl

/-- No memory for the copy. -/
theorem Frozen.createAtom_block (h : Frozen Q rt ids ids' skip) (hs : rt.str (.req n) = some s)
    (hfail : s.atomType ≠ none ∧ a.block = false) : rt.createAtom (some (.req n)) t v a =
      some (0, rt.setStr (.req n) (some { s with refCount := s.refCount - 1 })) := by
  rw [h.createAtom_arena, ← Runtime.newAtomFail_counts h.arena hs hfail.1]
  simp only [Runtime.atomBlock, hs, Option.bind_some, if_neg hfail.1, hfail.2,
    Bool.not_false, if_true]

/-- The string made an atom in place. -/
theorem Runtime.atomBlock_place (hs : rt.str p = some s) (hat : s.atomType = none) :
    rt.atomBlock (some p) t a =
      some (.ok (p, rt.setStr p (some { s with atomType := some t }))) := by
  simp [Runtime.atomBlock, hs, if_pos hat, Runtime.modStr]

section
variable (h : Frozen Q rt ids ids' skip) (hs : rt.str (.req n) = some s)
include h hs

/-- The struct of the atom that is made of the string `s` of the request. A string that was an atom
before has been released by now. -/
theorem Frozen.atomBlock_req
    (hok : ¬ (s.atomType ≠ none ∧ a.block = false)) : ∃ m rt1 s1,
      rt.atomBlock (some (.req n)) t a = some (.ok (.req m, rt1)) ∧
      Ready Q rt1 ids ids' skip m s.isWide s.chars ∧ QuietBut rt rt1 (· = .req m) ∧
      rt1.str (.req n) = some s1 ∧ s1.atomType ≠ none ∧
      s1.refCount = if s.atomType = none then s.refCount else s.refCount - 1 := by
  have hmake : Makeable rt (some (.req n)) := fun p hp =>
    ⟨s, Option.some.inj hp ▸ hs, fun hb => by rw [← Option.some.inj hp] at hb; cases hb⟩
  rcases h.atomBlock (t := t) (a := a) hmake with ⟨-, ha, hatom⟩
    | ⟨m, rt1, heq, hready, hq, -, hatom⟩
  · obtain ⟨s2, hs2, hat⟩ := hatom _ rfl
    cases hs.symm.trans hs2
    exact absurd ⟨hat, ha⟩ hok
  rw [Runtime.textOf_some hs, Runtime.wideOf_some hs] at hready
  obtain ⟨s1, hs1, hat1⟩ := hatom _ rfl
  refine ⟨m, rt1, s1, heq, hready, hq, hs1, hat1, ?_⟩
  by_cases hat : s.atomType = none
  · rw [Runtime.atomBlock_place hs hat] at heq
    cases heq
    rw [Runtime.str_setStr hs, if_pos rfl] at hs1
    rw [if_pos hat, ← Option.some.inj hs1]
  · have hblock : a.block = true := by
      cases hb : a.block with
      | true => rfl
      | false => exact absurd ⟨hat, hb⟩ hok
    obtain ⟨k, rt2, hal, hq2, -, -, -, hkeep⟩ :=
      Runtime.allocStr_arena h.arena ⟨s.isWide, s.chars, 0, none, 0, 1, none⟩
    have hs2 := hkeep _ _ hs
    simp only [Runtime.atomBlock, hs, Option.bind_some, if_neg hat, hblock, Bool.not_true,
      Bool.false_eq_true, if_false, hal,
      Runtime.freeString_counts (hq2.arena.trans h.arena) hs2 hat, Option.map_some] at heq
    cases heq
    rw [Runtime.str_setStr hs2, if_pos rfl] at hs1
    rw [if_neg hat, ← Option.some.inj hs1]

/-- No slot for a string that was made an atom in place. -/
theorem Frozen.createAtom_slots_place
    (hat : s.atomType = none)
    (hlt : rt.req.overlayBase + (rt.req.overlayCount + 1) < tagInt)
    (hfull : rt.req.overlayFreeIndex = 0 ∧ a.slots = false) : rt.createAtom (some (.req n)) t v a =
      some (0, rt.setStr (.req n)
        (some { s with atomType := some t, refCount := s.refCount - 1 })) := by
  obtain ⟨m, rt1, -, hblock, hready, hq, -⟩ := h.atomBlock_req (t := t) (a := a) hs
    (fun hc => hc.1 hat)
  have hplace := Runtime.atomBlock_place (t := t) (a := a) hs hat
  obtain ⟨hm, rfl⟩ := Prod.mk.injEq _ _ _ _ ▸
    Except.ok.inj (Option.some.inj (hblock.symm.trans hplace))
  cases hm
  rw [h.createAtom_arena, hblock]
  rcases hready.installAtom_cases (some (.req n)) t v a hlt with ⟨-, hfail⟩ | ⟨hroom, -⟩
  · refine hfail.trans ?_
    rw [Runtime.newAtomFail_counts (s := { s with atomType := some t }) hready.frozen.arena
      (by rw [Runtime.str_setStr hs, if_pos rfl]) nofun, Runtime.setStr_setStr]
  · exact absurd hfull hroom

/-- No slot for a copy: the string is released a second time. -/
theorem Frozen.createAtom_slots_copy
    (hat : s.atomType ≠ none) (hb : a.block = true)
    (hlt : rt.req.overlayBase + (rt.req.overlayCount + 1) < tagInt)
    (hfull : rt.req.overlayFreeIndex = 0 ∧ a.slots = false) :
    ∃ rt' s', rt.createAtom (some (.req n)) t v a = some (0, rt') ∧ rt'.str (.req n) = some s' ∧
      s'.refCount = s.refCount - 2 := by
  obtain ⟨m, rt1, s1, hblock, hready, hq, hs1, hat1, hc1⟩ := h.atomBlock_req (t := t) (a := a) hs
    (fun hc => by rw [hb] at hc; cases hc.2)
  rw [h.createAtom_arena, hblock]
  rcases hready.installAtom_cases (some (.req n)) t v a
    (by rw [hq.overlayBase, hq.count]; exact hlt)
    with ⟨-, hfail⟩ | ⟨hroom, -⟩
  · refine ⟨_, { s1 with refCount := s1.refCount - 1 }, hfail.trans
      (Runtime.newAtomFail_counts hready.frozen.arena hs1 hat1), ?_, ?_⟩
    · rw [Runtime.str_setStr hs1, if_pos rfl]
    · rw [if_neg hat] at hc1
      simp only [hc1]
      omega
  · exact absurd (by rw [hq.free]; exact hfull) hroom

/-- No chain heads: the atom keeps its slot. -/
theorem Frozen.createAtom_hash
    (hok : ¬ (s.atomType ≠ none ∧ a.block = false))
    (hlt : rt.req.overlayBase + (rt.req.overlayCount + 1) < tagInt)
    (hroom : ¬ (rt.req.overlayFreeIndex = 0 ∧ a.slots = false))
    (hfail : t ≠ .symbol ∧ rt.req.hashOverlay = [] ∧ a.hash = false) :
    ∃ rt', rt.createAtom (some (.req n)) t v a = some (0, rt') ∧
      rt'.denotes (rt.req.overlayBase + (rt.req.overlayCount + 1)) ≠ none := by
  obtain ⟨m, rt1, s1, hblock, hready, hq, hs1, hat1, -⟩ := h.atomBlock_req (t := t) (a := a) hs hok
  rw [h.createAtom_arena, hblock]
  rcases hready.installAtom_cases (some (.req n)) t v a
    (by rw [hq.overlayBase, hq.count]; exact hlt)
    with ⟨hfull, -⟩ | ⟨-, rt2, s', heads, hent, -, ht, -, -, ⟨-, -, hexit⟩ | ⟨hno, -⟩⟩
  · exact absurd (by rw [← hq.free]; exact hfull) hroom
  · obtain ⟨rt', hr, hq'⟩ := Runtime.newAtomFail_atom (hent.arena.trans hready.frozen.arena)
      fun p (hp : some (StrPtr.req n) = some p) =>
        hent.isAtom (by rw [ht]; nofun) ⟨s1, Option.some.inj hp ▸ hs1, hat1⟩
    rw [hq.overlayBase, hq.count] at hent
    exact ⟨rt', hexit.trans hr, hent.denotes_quiet ht hlt hq'⟩
  · exact absurd (by rw [hq.hash]; exact hfail) hno

end

end

/-- **Interning under allocation failure.** Take any state of a request that is reached by sparing
calls, and intern a string of the request that the caller holds a reference to. If an allocation
fails, the call returns 0; and it leaves everything as it was, with the reference released once,
exactly if the allocation was that of a copy, or that of slots for a string that was not an atom and
that nobody else holds. -/
theorem interning_atomic {rt : Runtime} (hreach : Reach (fun rt op => op.Sparing rt) rt)
    (harena : rt.isArena = true) {n : Nat} {s : JSString} (hs : rt.str (.req n) = some s)
    (hheld : 1 ≤ s.refCount) {t : AtomType} {a : Allocs}
    (hop : (Op.newAtom (some (.req n)) t a).Sparing rt) {f : FailPoint}
    (hf : rt.failPoint s t a = some f) :
    ∃ rt', rt.newAtom (some (.req n)) t a = some (0, rt') ∧ StaysFindable rt' s.chars ∧
      (Undone rt rt' (.req n) s ↔
        f = .block ∨ f = .slots ∧ s.atomType = none ∧ s.refCount = 1) := by
  obtain ⟨ids, ids', h⟩ := hreach.frozen admits_sparing harena
  have hlt := hop.low harena
  have hfind : ∀ {rt'}, rt.newAtom (some (.req n)) t a = some (0, rt') →
      StaysFindable rt' s.chars := fun {rt'} hr => by
    obtain ⟨-, ids1, h1⟩ := h.step admits_sparing ⟨_, _, hop, hr⟩
    exact h1.staysFindable s.chars
  obtain ⟨hfails, v, hcreate⟩ := Runtime.newAtom_creates hs hf
  unfold Runtime.allocFails at hfails
  split at hfails
  · -- the copy
    next hblock =>
    cases hfails
    have hr := hcreate.trans (h.createAtom_block hs hblock)
    refine ⟨_, hr, hfind hr, fun _ => .inl rfl, fun _ => ?_⟩
    exact .of_write hs rfl (fun _ _ => ⟨rfl, rfl⟩) fun _ => ⟨⟨rfl, rfl, rfl, rfl⟩, rfl⟩
  next hblock =>
  split at hfails
  · -- the slots
    next hfull =>
    cases hfails
    by_cases hat : s.atomType = none
    · have hr := hcreate.trans (h.createAtom_slots_place hs hat hlt hfull)
      refine ⟨_, hr, hfind hr, fun hund => .inr ⟨rfl, hat, ?_⟩, fun hc => ?_⟩
      · by_contra hone
        obtain ⟨u', hu', hlike, -⟩ := hund.strings _ s hs fun _ => by omega
        rw [Runtime.str_setStr hs, if_pos rfl] at hu'
        have hu := hlike.atomType
        rw [← Option.some.inj hu', hat] at hu
        cases hu
      · have hone : s.refCount = 1 := (hc.resolve_left nofun).2.2
        exact .of_write hs rfl (fun i hi => absurd hi (h.no_number hs hat)) fun hlive => by omega
    · have hb : a.block = true := by
        cases hb : a.block with
        | true => rfl
        | false => exact absurd ⟨hat, hb⟩ hblock
      obtain ⟨rt', s', hr, hs', hc'⟩ := h.createAtom_slots_copy (v := v) (t := t.kind) hs hat
        hb hlt hfull
      refine ⟨rt', hcreate.trans hr, hfind (hcreate.trans hr), fun hund => ?_, fun hc => ?_⟩
      · have := hund.released s' hs'
        omega
      · exact absurd (hc.resolve_left nofun).2.1 hat
  next hroom =>
  split at hfails
  · -- the chain heads
    next hnil =>
    cases hfails
    obtain ⟨rt', hr, hden⟩ := h.createAtom_hash (v := v) (t := t.kind) hs hblock hlt hroom
      ⟨AtomType.kind_ne_symbol.2 hnil.1, hnil.2⟩
    refine ⟨rt', hcreate.trans hr, hfind (hcreate.trans hr), fun hund => ?_,
      fun hc => by rcases hc with hc | ⟨hc, -⟩ <;> cases hc⟩
    rw [hund.entries, h.next_denotes hlt] at hden
    exact absurd rfl hden
  · cases hfails

/-- Valid calls that intern nothing after the freeze. -/
def Op.Idle (rt : Runtime) (op : Op) : Prop :=
  op.Valid rt ∧ (rt.isArena = true →
    op.interns = none ∧ rt.req.overlayBase + (rt.req.overlayCount + 1) < tagInt)

instance (rt : Runtime) (op : Op) : Decidable (op.Idle rt) :=
  inferInstanceAs (Decidable (_ ∧ (_ → _)))

theorem Op.Idle.sparing {rt : Runtime} {op : Op} (h : op.Idle rt) : op.Sparing rt := by
  refine ⟨h.1, fun ha => (h.2 ha).2, fun ha p t s hop => ?_⟩
  rw [(h.2 ha).1] at hop
  cases hop

/-- An atom, the freeze, and a string of the request. -/
def oneString : List Op :=
  [.string false [97] none, .newAtomStr (.base 0) allOk, .freeze, .string false [98] none]

/-- The only holder of the string interns it, and there is no memory for the overlay. -/
theorem interning_atomic_slots : ∃ rt ∈ runOps Runtime.initial oneString,
    ∃ s ∈ rt.str (.req 0), ∃ rt', rt.newAtom (some (.req 0)) .string ⟨true, false, true⟩ =
      some (0, rt') ∧
      Undone rt rt' (.req 0) s := by
  have hrun : ∃ rt ∈ runOps Runtime.initial oneString, rt.isArena = true ∧
      (Op.newAtom (some (.req 0)) .string ⟨true, false, true⟩).Valid rt ∧
      rt.req.overlayBase + (rt.req.overlayCount + 1) < tagInt ∧
      ∃ s ∈ rt.str (.req 0), s.refCount = 1 ∧ s.atomType = none ∧
        rt.failPoint s .string ⟨true, false, true⟩ = some .slots := by decide +kernel
  obtain ⟨rt, hr, harena, hv, hlow, s, hs, hone, hat, hf⟩ := hrun
  have hreach : Reach (fun rt op => op.Sparing rt) rt :=
    Reach.runOps (D := fun rt op => op.Idle rt) (fun _ _ h => h.sparing) .refl
      (by decide +kernel) hr
  have hop : (Op.newAtom (some (.req 0)) .string ⟨true, false, true⟩).Sparing rt := by
    refine ⟨hv, fun _ => hlow, fun _ p t s' hop _ hb => ?_⟩
    cases hop
    cases hb
  obtain ⟨rt', hr', -, hund⟩ := interning_atomic hreach harena hs (by omega) hop hf
  exact ⟨rt, hr, s, hs, rt', hr', hund.2 (.inr ⟨rfl, hat, hone⟩)⟩

/-- Someone else holds the string: it is now an atom that is in no table, and interning it runs into
the assertion of `js_get_atom_index`. And with the chain heads as the point of failure, a slot is
lost. -/
theorem interning_not_undone : ∃ rt ∈ runOps Runtime.initial (oneString ++ [.dupString (.req 0)]),
    Reach (fun rt op => op.Sparing rt) rt ∧
    (∃ s ∈ rt.str (.req 0), s.refCount = 2 ∧ s.atomType = none) ∧
    (∃ r ∈ rt.newAtom (some (.req 0)) .string ⟨true, false, true⟩, r.1 = 0 ∧
      (∃ s ∈ r.2.str (.req 0), s.refCount = 1 ∧ s.atomType = some .string) ∧
      r.2.newAtom (some (.req 0)) .string allOk = none) ∧
    ∃ r ∈ rt.newAtom (some (.req 0)) .string ⟨true, true, false⟩, r.1 = 0 ∧
      rt.denotes (rt.req.overlayBase + 1) = none ∧
      r.2.denotes (rt.req.overlayBase + 1) = some (.string, [98]) := by
  have hrun : ∃ rt ∈ runOps Runtime.initial (oneString ++ [.dupString (.req 0)]),
      (∃ s ∈ rt.str (.req 0), s.refCount = 2 ∧ s.atomType = none) ∧
      (∃ r ∈ rt.newAtom (some (.req 0)) .string ⟨true, false, true⟩, r.1 = 0 ∧
        (∃ s ∈ r.2.str (.req 0), s.refCount = 1 ∧ s.atomType = some .string) ∧
        r.2.newAtom (some (.req 0)) .string allOk = none) ∧
      ∃ r ∈ rt.newAtom (some (.req 0)) .string ⟨true, true, false⟩, r.1 = 0 ∧
        rt.denotes (rt.req.overlayBase + 1) = none ∧
        r.2.denotes (rt.req.overlayBase + 1) = some (.string, [98]) := by decide +kernel
  obtain ⟨rt, hr, hrest⟩ := hrun
  refine ⟨rt, hr, ?_, hrest⟩
  exact Reach.runOps (D := fun rt op => op.Idle rt) (fun _ _ h => h.sparing) .refl
    (by decide +kernel) hr

end ArenaJs.Atoms
