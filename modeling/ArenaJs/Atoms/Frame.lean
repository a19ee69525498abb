import ArenaJs.Atoms.Run

/-!
# Interning and the snapshot

A string that is not an atom becomes one in place, also if it is a string of the snapshot:
`__JS_NewAtom` then writes the base, and the next request finds an atom that is in no table
(`base_string_written`). Where a request only interns strings of its own, atoms, and strings of the
snapshot whose text is interned or a small integer, the base is never written and such strings can
be interned again and again (`snapshot_untouched`).
-/

namespace ArenaJs.Atoms

/-- The text is interned: an atom with it is on a chain of one of the tables. -/
def Runtime.Interned (rt : Runtime) (t : AtomType) (chars : List Nat) : Prop :=
  ∃ heads, (heads = rt.base.atomHash ∨ heads = rt.req.hashOverlay) ∧ ∃ h ∈ heads, ∃ l,
    Chain rt.nextOf h l ∧ ∃ i ∈ l, ∃ s, rt.atom i = some s ∧ s.atomType = some t ∧ s.chars = chars

/-- The calls that spare the snapshot. After the freeze a string of the snapshot that is not an atom
is only interned if its text is a small integer or interned, and the request has atom numbers
left. -/
structure Op.Sparing (rt : Runtime) (op : Op) : Prop where
  valid : op.Valid rt
  low : rt.isArena = true → rt.req.overlayBase + (rt.req.overlayCount + 1) < tagInt
  spares : rt.isArena = true → ∀ p t s, op.interns = some (p, t) → rt.str p = some s →
    p.isBase = true → s.atomType = none →
    t = .string ∧ smallInt s.chars = true ∨ t.hashed = true ∧ rt.Interned t s.chars

section
variable {Q : TextPred} {rt : Runtime} {ids ids' : Nat → List Nat} {t : AtomType} {chars : List Nat}

/-- A node of an index is found at its place. -/
theorem Runtime.mem_of_chain {heads : List Nat} {ids : Nat → List Nat}
    (hidx : HashIndex rt.nextOf rt.hashOf heads ids) {v i : Nat} {l : List Nat} (hv : v ∈ heads)
    (hc : Chain rt.nextOf v l) (hi : i ∈ l) : HashIndex.Mem heads ids i := by
  obtain ⟨b, hb, hvb⟩ := List.getElem_of_mem hv
  have hchain := hidx.chain (List.getElem?_eq_some_iff.2 ⟨hb, hvb⟩)
  exact ⟨b, hb, hc.unique hchain ▸ hi⟩

theorem Runtime.Interned.known (h : rt.Interned t chars) (hok : rt.Ok Q ids ids') :
    Known rt ids ids' t chars := by
  obtain ⟨heads, hheads, v, hv, l, hc, i, hi, s, hs, hat, rfl⟩ := h
  have hmem : rt.Hashed ids ids' i := by
    rcases hheads with rfl | rfl
    · exact .inl (mem_of_chain hok.tableBase.index hv hc hi)
    · exact .inr (mem_of_chain hok.tableReq.index hv hc hi)
  obtain ⟨d, hsd, he, -⟩ := hok.hashed_entry hmem hs
  obtain ⟨h1, h2, -⟩ := JSString.data?_eq hsd
  exact ⟨i, d, he, by rw [AtomData.key, h2, Option.some.inj (h1.symm.trans hat)]⟩

/-- The sparing calls keep the invariants, whether or not memory runs out. -/
theorem admits_sparing : Admits (fun rt op => op.Sparing rt) NoNum fun _ => True where
  valid hp := hp.valid
  texts hp p t hop ht hno := hno
  ready h hp := by
    refine ⟨hp.low h.arena, fun p t s hop hs hsm hb hat => ?_⟩
    rcases hp.spares h.arena p t s hop hs hb hat with ⟨rfl, hsmall⟩ | ⟨hth, hin⟩
    · rw [hsm rfl] at hsmall
      cases hsmall
    · exact ⟨hth, hin.known h.ok⟩
  allocs _ _ := .inr fun _ => trivial

end

/-- The calls that intern a string value. -/
def Op.internsValue (p : StrPtr) (op : Op) : Prop :=
  ∃ a, op = .newAtomStr p a ∨ op = .valueToAtom (.string p) a

/-- **Interning never touches the snapshot.** In every run whose calls are all sparing, no base byte
changes from the freeze on; and a string of the snapshot that is not an atom can be interned in any
state of the run, with an atom of its text as the result. -/
theorem snapshot_untouched {rt0 rt : Runtime} (h0 : Reach (fun rt op => op.Sparing rt) rt0)
    (harena : rt0.isArena = true)
    (hrun : Relation.ReflTransGen (Step fun rt op => op.Sparing rt) rt0 rt) :
    rt.base = rt0.base ∧ ∀ p s op, p.isBase = true → rt0.str p = some s → s.atomType = none →
      op.internsValue p → op.Sparing rt → ∃ i rt', rt.exec op = some (i, rt') ∧
        rt'.base = rt0.base ∧ rt'.denotes i = some (.string, s.chars) := by
  obtain ⟨ids, ids0, hf0⟩ := h0.frozen admits_sparing harena
  obtain ⟨hbase, ids', hf⟩ := hf0.run admits_sparing hrun
  refine ⟨hbase, fun p s op hb hs0 hat ⟨a, hop⟩ hp => ?_⟩
  have hs : rt.str p = some s := by
    cases p with
    | base n => rw [Runtime.str, hbase]; exact hs0
    | req n => cases hb
  have hready := admits_sparing.ready hf hp
  have hlow := hready.low
  have hgood : smallInt s.chars = false → NoNum .string s.isWide s.chars :=
    fun hsm _ => noNum_of_not_small hsm
  rcases hop with rfl | rfl
  · have hin := fun hsm => hready.atom p .string s rfl hs fun _ => hsm
    obtain ⟨i, rt', hr, hout⟩ := hf.newAtomStr_total (a := a) ⟨hlow, .inr fun _ => trivial⟩ hs
      (fun _ hnb => by rw [hb] at hnb; cases hnb) hin hgood (.inl hb)
    exact ⟨i, rt', hr, hout.ext.base.trans hbase,
      hout.text (hf.newAtomStr_ne_zero hs hb hat hin hr)⟩
  · have hin := fun hsm => hready.atom p .string s rfl hs fun _ => hsm
    obtain ⟨i, rt', hr, hout⟩ :=
      hf.valueToAtom_string_total (a := a) ⟨hlow, .inr fun _ => trivial⟩ hs
      (fun _ hnb => by rw [hb] at hnb; cases hnb) hin hgood (.inl hb)
    have hq := Runtime.rcInc_quiet hf.arena p
    obtain ⟨s', hs', hlike⟩ := Runtime.rcInc_live hs p
    refine ⟨i, rt', hr, hout.ext.base.trans hbase, hout.text ?_⟩
    exact (hf.quiet hq).newAtomStr_ne_zero hs' hb (hlike.atomType.trans hat)
      (fun hsm => (hin (hlike.chars ▸ hsm)).quiet hq hlike) hr

/-- Before the freeze valid calls are sparing. -/
theorem Op.Valid.sparing {rt : Runtime} {op : Op} (hv : op.Valid rt) (harena : rt.isArena = false) :
    op.Sparing rt :=
  have hno : rt.isArena ≠ true := by simp [harena]
  ⟨hv, fun h => absurd h hno, fun h => absurd h hno⟩

/-- Two strings with one text, one of them an atom; then the freeze. -/
def sameText : List Op :=
  [.string false [97, 98] none, .newAtomStr (.base 0) ⟨true, true, true⟩,
    .string false [97, 98] none, .freeze]

/-- The other one is interned without memory. -/
theorem snapshot_untouched_sameText : ∃ rt0, runOps Runtime.initial sameText = some rt0 ∧
    ∃ i rt', rt0.exec (.newAtomStr (.base 2) ⟨false, false, false⟩) = some (i, rt') ∧
      rt'.base = rt0.base ∧ rt'.denotes i = some (.string, [97, 98]) := by
  have hrun : ∃ rt0 ∈ runOps Runtime.initial sameText, rt0.isArena = true ∧
      (∃ s ∈ rt0.str (.base 2), s.atomType = none ∧ s.chars = [97, 98]) ∧
      (Op.newAtomStr (.base 2) ⟨false, false, false⟩).Valid rt0 ∧
      rt0.req.overlayBase + (rt0.req.overlayCount + 1) < tagInt ∧ 1 ∈ rt0.base.atomHash ∧
      rt0.nextOf 1 = some 0 ∧
      ∃ s ∈ rt0.atom 1, s.atomType = some .string ∧ s.chars = [97, 98] := by decide +kernel
  obtain ⟨rt0, hr, harena, ⟨s, hs, hat, hc⟩, hv, hlow, hhead, hnext, s1, hs1, hat1, hc1⟩ := hrun
  have hreach : Reach (fun rt op => op.Sparing rt) rt0 :=
    Reach.runOps (D := fun rt op => op.Valid rt ∧ rt.isArena = false)
      (fun rt op h => h.1.sparing h.2) .refl (by decide +kernel) hr
  refine ⟨rt0, hr, ?_⟩
  have hmain := (snapshot_untouched hreach harena .refl).2 (.base 2) s
    (.newAtomStr (.base 2) ⟨false, false, false⟩) rfl hs hat ⟨_, .inl rfl⟩ ⟨hv, fun _ => hlow, ?_⟩
  · rwa [hc] at hmain
  · rintro - p t s' hop hs' - -
    cases hop
    cases hs.symm.trans hs'
    refine .inr ⟨rfl, _, .inl rfl, 1, hhead, [1], ?_, 1, .head _, s1, hs1, hat1, hc1.trans hc.symm⟩
    exact Chain.cons_iff.2 ⟨rfl, by decide, 0, hnext, Chain.nil⟩

/-- A string of the snapshot that is not an atom, interned in a request: the base changes, and
neither this request nor the next one can intern the string again. -/
theorem base_string_written : ∃ rt0 ∈ runOps Runtime.initial
      [.string false [97] none, .newAtomStr (.base 0) ⟨true, true, true⟩,
        .string false [98] none, .freeze],
    rt0.isArena = true ∧ (∃ s ∈ rt0.str (.base 2), s.atomType = none) ∧
    ∃ r1 ∈ rt0.exec (.newAtomStr (.base 2) ⟨true, true, true⟩), r1.2.base ≠ rt0.base ∧
      r1.2.exec (.newAtomStr (.base 2) ⟨true, true, true⟩) = none ∧
      ∃ r2 ∈ r1.2.exec .request,
        r2.2.exec (.newAtomStr (.base 2) ⟨true, true, true⟩) = none := by
  decide +kernel

end ArenaJs.Atoms
