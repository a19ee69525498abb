import ArenaJs.Atoms.Run

/-!
# Atoms are canonical

Two tables, a free list threaded through one of them, and numbers shared between base atoms, overlay
atoms and small integers: `atoms_canonical` says that in every state of an orderly run they fit
together. Interned texts have one number each, `__JS_NewAtom` and `__JS_FindAtom` agree on it,
numbers keep their meaning while the overlay grows, and the free list is exactly the unused slots.

An orderly run is one without failed allocations in which no string of the snapshot becomes an atom,
no wide string with a narrow text is interned, and no request makes more atoms than there are
numbers without a tag. The last two are conditions the code does not check: `__JS_FindAtom` does not
see a wide string (`find_misses_wide`), and the number after the last one without a tag is the atom
of "0".
-/

namespace ArenaJs.Atoms

/-- The texts an orderly run interns: no string atom is a small integer, and a string atom is only
wide if it has to be. -/
def Narrow (t : AtomType) (w : Bool) (chars : List Nat) : Prop :=
  NoNum t w chars ∧ (t = .string → w = true → ∃ c ∈ chars, 256 ≤ c)

/-- All allocations succeed. -/
def allOk : Allocs := ⟨true, true, true⟩

/-- The calls of an orderly run. -/
structure Op.Orderly (rt : Runtime) (op : Op) : Prop where
  valid : op.Valid rt
  narrow : ∀ x ∈ op.interns, x.2 = .string → rt.wideOf (some x.1) = true →
    ∃ c ∈ rt.textOf (some x.1), 256 ≤ c
  allocs : rt.isArena = true → op.allocs = allOk
  base : rt.isArena = true → ∀ x ∈ op.interns, ∀ s ∈ rt.str x.1, x.1.isBase = true →
    s.atomType ≠ none
  low : rt.isArena = true → rt.req.overlayBase + (rt.req.overlayCount + 1) < tagInt

/-- Orderly calls keep the invariants, with every atom struct in its table. -/
theorem admits_orderly : Admits (fun rt op => op.Orderly rt) Narrow fun _ => False where
  valid hp := hp.valid
  texts hp p t hop _ hno := ⟨hno, hp.narrow (p, t) hop⟩
  ready h hp := ⟨hp.low h.arena, fun p t s hop hs _ hb hat =>
    absurd hat (hp.base h.arena (p, t) hop s hs hb)⟩
  allocs h hp := .inl (by rw [hp.allocs h.arena]; exact ⟨rfl, rfl, rfl⟩)

section
variable {Q : TextPred} {rt rt' : Runtime} {ids ids' : Nat → List Nat} {skip : StrPtr → Prop}
  {p : StrPtr} {s : JSString} {t : AtomType} {chars : List Nat} {i j : Nat} {a : Allocs}

/-! ## One number for a text -/

/-- A string or global symbol is on a chain. -/
theorem Frozen.hashed_of_atom (h : Frozen Q rt ids ids' fun _ => False) (hs : rt.atom i = some s)
    (hat : s.atomType = some t) (ht : t ≠ .symbol) : rt.Hashed ids ids' i := by
  obtain ⟨p, hp, -⟩ := Option.bind_eq_some_iff.1 hs
  have hne : s.atomType ≠ some .symbol := fun hc => ht (Option.some.inj (hat.symm.trans hc))
  unfold Runtime.atomStruct at hp
  split at hp
  · exact .inl (h.ok.tableBase.hashed h.complete hp hs hne)
  · next hb =>
    exact .inr (h.ok.tableReq.hashed h.overlay (by rw [Request.slot, if_neg hb]; exact hp) hs hne)

/-- The text of a chain entry is one the run interns. -/
theorem Runtime.Ok.good (hok : rt.Ok Q ids ids') (hi : rt.Hashed ids ids' i)
    (hs : rt.atom i = some s)
    (hat : s.atomType = some t) : Q t s.isWide s.chars := by
  obtain ⟨d, hsd, he, -⟩ := hok.hashed_entry hi hs
  obtain ⟨h1, h2, -, -, h3⟩ := JSString.data?_eq hsd
  rw [h2, h3, ← Option.some.inj (h1.symm.trans hat)]
  rcases he with ⟨hi, hd⟩ | ⟨hi, hd⟩
  · exact hok.base.good hi hd
  · exact hok.overlay.good hi hd

/-- An atom number that stands for something has a struct or a tag. -/
theorem Runtime.denotes_cases (h : rt.denotes i = some (t, chars)) :
    (tagInt ≤ i ∧ t = .string ∧ chars = decimal (i - tagInt)) ∨
      (i < tagInt ∧ ∃ s, rt.atom i = some s ∧ s.atomType = some t ∧ s.chars = chars) := by
  unfold Runtime.denotes at h
  split at h
  · next htag =>
    cases h
    exact .inl ⟨by simpa [atomIsTaggedInt] using htag, rfl, rfl⟩
  · next htag =>
    obtain ⟨s, hs, hat⟩ := Option.bind_eq_some_iff.1 h
    obtain ⟨t', ht', ⟨⟩⟩ := Option.map_eq_some_iff.1 hat
    exact .inr ⟨by simpa [atomIsTaggedInt] using htag, s, hs, ht', rfl⟩

/-- The number of a text that is not a small integer has no tag. -/
theorem not_tagged (hno : ∀ m, isNumString chars = some m → maxInt < m) (hi : i < 2 ^ 32)
    (hd : rt.denotes i = some (t, chars)) : i < tagInt := by
  rcases Runtime.denotes_cases hd with ⟨htag, -, hc⟩ | ⟨hlt, -⟩
  · have hnum := hno (i - tagInt) (by
      rw [hc, isNumString_decimal (Nat.lt_of_le_of_lt (Nat.sub_le ..) hi)])
    simp only [tagInt, maxInt] at *
    omega
  · exact hlt

/-- A small integer and a string atom never have the same text. -/
theorem Frozen.not_decimal (h : Frozen Narrow rt ids ids' fun _ => False) (hs : rt.atom i = some s)
    (hat : s.atomType = some .string) {n : Nat} (hn : n ≤ maxInt) : s.chars ≠ decimal n := by
  intro hc
  have hgood := h.ok.good (h.hashed_of_atom hs hat nofun) hs hat
  have hnum := hgood.1 rfl n (by
    rw [hc, isNumString_decimal (by simp only [maxInt] at hn; omega)])
  omega

/-- A text has one number. -/
theorem Frozen.canonical (h : Frozen Narrow rt ids ids' fun _ => False) (hi : i < 2 ^ 32)
    (hj : j < 2 ^ 32) (ht : t ≠ .symbol) (hdi : rt.denotes i = some (t, chars))
    (hdj : rt.denotes j = some (t, chars)) : i = j := by
  have hsmall : ∀ {k}, k < 2 ^ 32 → k - tagInt ≤ maxInt := fun hk => by
    simp only [tagInt, maxInt]
    omega
  rcases Runtime.denotes_cases hdi with ⟨hti, rfl, hci⟩ | ⟨-, s, hs, hat, hc⟩ <;>
    rcases Runtime.denotes_cases hdj with ⟨htj, htype, hcj⟩ | ⟨-, s', hs', hat', hc'⟩
  · have hdec : ∀ {k}, k < 2 ^ 32 → chars = decimal (k - tagInt) →
        isNumString chars = some (k - tagInt) := fun hk hk' => by
      rw [hk', isNumString_decimal (Nat.lt_of_le_of_lt (Nat.sub_le ..) hk)]
    have := Option.some.inj ((hdec hi hci).symm.trans (hdec hj hcj))
    omega
  · exact absurd (hc'.trans hci) (h.not_decimal hs' hat' (hsmall hi))
  · subst htype
    exact absurd (hc.trans hcj) (h.not_decimal hs hat (hsmall hj))
  · exact h.ok.hashed_unique (h.hashed_of_atom hs hat ht) (h.hashed_of_atom hs' hat' ht) hs hs'
      (hat.trans hat'.symm) (hc.trans hc'.symm)

/-! ## Numbers keep their meaning -/

/-- What a number stands for after a call that keeps the atoms. -/
theorem Extends.denotes (h : Frozen Q rt ids ids' skip) (he : Extends rt rt')
    {ids'' : Nat → List Nat}
    (h' : Frozen Q rt' ids ids'' skip) {d : AtomType × List Nat} (hd : rt.denotes i = some d) :
    rt'.denotes i = some d := by
  obtain ⟨t, chars⟩ := d
  rcases Runtime.denotes_cases hd with ⟨htag, ht, hc⟩ | ⟨-, s, hs, hat, hc⟩
  · rw [Runtime.denotes, if_pos (by simpa [atomIsTaggedInt] using htag), ht, hc]
  · rw [← hc]
    obtain ⟨p, hp, hsp⟩ := Option.bind_eq_some_iff.1 hs
    unfold Runtime.atomStruct at hp
    split at hp
    · next hb =>
      -- an atom of the snapshot
      have hslot : rt.base.slot i = some p := hp
      obtain ⟨d, hd⟩ := h.ok.base.live hslot
      obtain ⟨s', hs', -⟩ := Option.bind_eq_some_iff.1 hd
      cases (Runtime.str_base hs').symm.trans hsp
      refine h'.denotes ?_ hat
      rw [Runtime.atom, Runtime.atomStruct_base h'.ok.bound (by rw [he.base]; exact hslot),
        Option.bind_some]
      exact Runtime.str_base (by rw [he.base]; exact hs')
    · next hb =>
      have hslot : rt.req.slot i = some p := by rw [Request.slot, if_neg hb]; exact hp
      obtain ⟨d, hd⟩ := h.ok.overlay.live hslot
      obtain ⟨s', hs', hsd⟩ := Option.bind_eq_some_iff.1 hd
      cases (Runtime.str_req hs').symm.trans hsp
      obtain ⟨s'', hs'', hsd''⟩ := Runtime.atom_req (he.atom (atomIn_eq_some.2 ⟨p, hslot, hd⟩))
      obtain ⟨h1, h2, -⟩ := JSString.data?_eq hsd
      obtain ⟨h3, h4, -⟩ := JSString.data?_eq hsd''
      rw [h'.denotes hs'' (h3.trans (h1.symm.trans hat)), h4, h2]

/-! ## Finding -/

/-- `__JS_FindAtom` of a Latin-1 text finds the atom, if there is one. -/
theorem Frozen.findAtom (h : Frozen Narrow rt ids ids' fun _ => False)
    (hlatin : ∀ c ∈ chars, c < 256) : ∃ i rt1, rt.findAtom chars = some (i, rt1) ∧ i < 2 ^ 32 ∧
      (i ≠ 0 → rt.denotes i = some (.string, chars)) ∧
      (i = 0 → ∀ j, j < tagInt → rt.denotes j ≠ some (.string, chars)) := by
  obtain ⟨i, rt1, hr, hfound, hnone⟩ := h.ok.findAtom chars
  refine ⟨i, rt1, hr, ?_, fun h0 => ?_, fun h0 j hj hd => ?_⟩
  · by_cases h0 : i = 0
    · rw [h0]; decide
    · obtain ⟨-, s, hs, -⟩ := hfound h0
      obtain ⟨q, hq, -⟩ := Option.bind_eq_some_iff.1 hs
      exact Nat.lt_trans (h.struct_lt hq) (by decide)
  · obtain ⟨-, s, hs, hat, -, hc⟩ := hfound h0
    rw [h.denotes hs hat, hc]
  · rcases Runtime.denotes_cases hd with ⟨htag, -⟩ | ⟨-, s, hs, hat, hc⟩
    · omega
    have hj := h.hashed_of_atom hs hat nofun
    -- the text is Latin-1, so the atom is not wide
    have hnarrow : s.isWide = false := by
      by_contra hw
      obtain ⟨c, hcm, hc256⟩ := (h.ok.good hj hs hat).2 rfl (by simpa using hw)
      have := hlatin c (hc ▸ hcm)
      omega
    exact (hnone h0).2 j s hj hs hat hnarrow hc

/-! ## Orderly runs -/

/-- The orderly calls within one request. -/
def Op.WithinRequest (rt : Runtime) (op : Op) : Prop := op.Orderly rt ∧ op ≠ .request

/-- Numbers keep their meaning within a request. -/
theorem Frozen.stable (h : Frozen Narrow rt ids ids' fun _ => False)
    (hrun : Relation.ReflTransGen (Step fun rt op => op.WithinRequest rt) rt rt')
    {d : AtomType × List Nat} (hd : rt.denotes i = some d) : rt'.denotes i = some d := by
  suffices hinv : rt'.denotes i = some d ∧ ∃ ids'', Frozen Narrow rt' ids ids'' fun _ =>
    False from hinv.1
  induction hrun with
  | refl => exact ⟨hd, ids', h⟩
  | tail _ hst ih =>
    obtain ⟨hd1, ids1, h1⟩ := ih
    obtain ⟨op, r, ⟨hop, hne⟩, hr⟩ := hst
    obtain ⟨⟨ids2, h2⟩, hext⟩ := h1.exec hop.valid (admits_orderly.texts hop)
      (admits_orderly.ready h1 hop) hne (admits_orderly.allocs h1 hop) hr
    exact ⟨Extends.denotes h1 hext h2 hd1, ids2, h2⟩

/-- The numbers of the overlay: above the base's, and without a tag. -/
theorem Frozen.overlay_number (h : Frozen Q rt ids ids' skip) {k : Nat}
    (hk : rt.req.overlay[k]? = some (.atom p)) :
    rt.atomStruct (rt.req.overlayBase + k) = some p ∧ rt.req.overlayBase + k ≠ 0 ∧
      rt.base.atomArray.length ≤ rt.req.overlayBase + k ∧ rt.req.overlayBase + k < tagInt := by
  have hstruct : rt.atomStruct (rt.req.overlayBase + k) = some p := by
    rw [Runtime.atomStruct, if_neg (by omega), Nat.add_sub_cancel_left, hk]
    rfl
  have hused := (h.shape.used_iff (List.getElem?_eq_some_iff.1 hk).1).1 ⟨p, hk⟩
  exact ⟨hstruct, by omega, by rw [← h.first]; omega, h.struct_lt hstruct⟩

/-- `__JS_NewAtom` of a string, in an orderly run. -/
theorem Frozen.newString (h : Frozen Narrow rt ids ids' fun _ => False) (hs : rt.str p = some s)
    (hop : (Op.newAtom (some p) .string allOk).Orderly rt) (harena : rt.isArena = true)
    (hrel : Releasable rt p) : ∃ i rt1, rt.newAtom (some p) .string allOk = some (i, rt1) ∧
      Outcome Narrow rt rt1 ids (fun _ => False) allOk .string s.chars i := by
  have hgood := admits_orderly.texts hop p .string rfl rfl hop.valid.noNum
  rw [Runtime.wideOf_some hs, Runtime.textOf_some hs] at hgood
  obtain ⟨i, rt1, hr, hout⟩ := h.newHashed_total (t := .string) (a := allOk) hs rfl
    ⟨hop.low harena, .inl ⟨rfl, rfl, rfl⟩⟩ (fun _ _ => id)
    (fun hb hat => absurd hat (hop.base harena (p, .string) rfl s hs hb)) hgood hrel
  exact ⟨i, rt1, by simp only [Runtime.newAtom, Option.bind_some, hs, hr], hout⟩

/-- `JS_NewAtomStr`, in an orderly run. -/
theorem Frozen.newStr (h : Frozen Narrow rt ids ids' fun _ => False) (hs : rt.str p = some s)
    (hop : (Op.newAtomStr p allOk).Orderly rt) (harena : rt.isArena = true)
    (hrel : Releasable rt p) : ∃ i rt1, rt.newAtomStr p allOk = some (i, rt1) ∧
      Outcome Narrow rt rt1 ids (fun _ => False) allOk .string s.chars i :=
  h.newAtomStr_total ⟨hop.low harena, .inl ⟨rfl, rfl, rfl⟩⟩ hs (fun _ _ => id)
    (fun _ hb hat => absurd hat (hop.base harena (p, .string) rfl s hs hb))
    ((admits_orderly.texts hop).not_small rfl hs) hrel

end

/-- **Atoms are canonical.** In every state of a frozen runtime that an orderly run reaches:

* two numbers that stand for the same string or global symbol are equal;
* `__JS_NewAtom` of a Latin-1 text returns, `__JS_FindAtom` finds that number afterwards, and before
  it finds no other;
* `JS_NewAtomStr` returns a number of the text;
* numbers stand for the same text as long as the request lasts;
* overlay numbers are not 0, not base numbers and have no tag;
* the free list of the overlay is the unused slots. -/
theorem atoms_canonical {rt : Runtime} (h : Reach (fun rt op => op.Orderly rt) rt)
    (harena : rt.isArena = true) :
    (∀ i j t chars, i < 2 ^ 32 → j < 2 ^ 32 → t ≠ .symbol → rt.denotes i = some (t, chars) →
      rt.denotes j = some (t, chars) → i = j) ∧
    (∀ p s, rt.str p = some s → (∀ c ∈ s.chars, c < 256) → Releasable rt p →
      (Op.newAtom (some p) .string allOk).Orderly rt →
      ∃ i rt1, rt.newAtom (some p) .string allOk = some (i, rt1) ∧ i ≠ 0 ∧
        rt1.denotes i = some (.string, s.chars) ∧
        (∃ rt2, rt1.findAtom s.chars = some (i, rt2)) ∧
        ∃ j rt2, rt.findAtom s.chars = some (j, rt2) ∧ (j = 0 ∨ j = i)) ∧
    (∀ p s, rt.str p = some s → Releasable rt p → (Op.newAtomStr p allOk).Orderly rt →
      ∃ i rt1, rt.newAtomStr p allOk = some (i, rt1) ∧ i ≠ 0 ∧
        rt1.denotes i = some (.string, s.chars)) ∧
    (∀ rt', Relation.ReflTransGen (Step fun rt op => op.WithinRequest rt) rt rt' →
      ∀ i d, rt.denotes i = some d → rt'.denotes i = some d) ∧
    (∀ k p, rt.req.overlay[k]? = some (.atom p) →
      rt.atomStruct (rt.req.overlayBase + k) = some p ∧ rt.req.overlayBase + k ≠ 0 ∧
        rt.base.atomArray.length ≤ rt.req.overlayBase + k ∧ rt.req.overlayBase + k < tagInt) ∧
    ∃ l, Chain rt.req.freeNext rt.req.overlayFreeIndex l ∧ ∀ k, k ∈ l ↔
      0 < k ∧ k < rt.req.overlay.length ∧ ∀ p, rt.req.overlay[k]? ≠ some (.atom p) := by
  obtain ⟨ids, ids', hf⟩ := h.frozen admits_orderly harena
  refine ⟨fun i j t chars hi hj ht => hf.canonical hi hj ht, fun p s hs hlatin hrel hop => ?_,
    fun p s hs hrel hop => ?_, fun rt' hrun i d => hf.stable hrun, fun k p => hf.overlay_number, _,
    hf.shape.freeList, fun k => ?_⟩
  · obtain ⟨i, rt1, hr, hout⟩ := hf.newString hs hop harena hrel
    have hi0 : i ≠ 0 := fun h0 => hout.zero h0 ⟨rfl, rfl, rfl⟩
    have hd := hout.text hi0
    obtain ⟨ids1, hf1⟩ := hout.frozen
    obtain ⟨j, rt2, hr2, hj, hfound, hnone⟩ := hf1.findAtom hlatin
    obtain ⟨k, rt3, hr3, hk, hfound', -⟩ := hf.findAtom hlatin
    have hlow : i < tagInt := not_tagged (Runtime.textOf_some hs ▸ hop.valid.noNum rfl)
      hout.bound hd
    have hj0 : j ≠ 0 := fun h0 => hnone h0 i hlow hd
    obtain rfl := hf1.canonical (t := .string) hj hout.bound nofun (hfound hj0) hd
    refine ⟨j, rt1, hr, hi0, hd, ⟨rt2, hr2⟩, k, rt3, hr3, Classical.or_iff_not_imp_left.2
      fun hk0 => ?_⟩
    exact hf1.canonical (t := .string) hk hj nofun
      (Extends.denotes hf hout.ext hf1 (hfound' hk0)) hd
  · obtain ⟨i, rt1, hr, hout⟩ := hf.newStr hs hop harena hrel
    have hi0 : i ≠ 0 := fun h0 => hout.zero h0 ⟨rfl, rfl, rfl⟩
    exact ⟨i, rt1, hr, hi0, hout.text hi0⟩
  · rw [List.mem_range'_1]
    constructor
    · rintro ⟨hle, hlt⟩
      have hk : k < rt.req.overlay.length := by omega
      refine ⟨by omega, hk, fun p hp => ?_⟩
      have := ((hf.shape.used_iff hk).1 ⟨p, hp⟩).2
      omega
    · rintro ⟨h0, hk, hno⟩
      have hnot : ¬ k ≤ rt.req.overlayCount := fun hle => by
        obtain ⟨p, hp⟩ := hf.shape.used h0 hle
        exact hno p hp
      omega

/-- An orderly call by what can be decided: its string is narrow, and after the freeze the request's
own. -/
def Op.Plain (rt : Runtime) (op : Op) : Prop :=
  op.Valid rt ∧ (∀ x ∈ op.interns, rt.wideOf (some x.1) = false) ∧ (rt.isArena = true →
    op.allocs = allOk ∧ (∀ x ∈ op.interns, x.1.isBase = false) ∧
      rt.req.overlayBase + (rt.req.overlayCount + 1) < tagInt)

instance (rt : Runtime) (op : Op) : Decidable (op.Plain rt) :=
  inferInstanceAs (Decidable (_ ∧ _ ∧ (_ → _)))

theorem Op.Plain.orderly {rt : Runtime} {op : Op} (h : op.Plain rt) : op.Orderly rt := by
  obtain ⟨hv, hw, hreq⟩ := h
  refine ⟨hv, fun x hx _ hwide => ?_, fun ha => (hreq ha).1, fun ha x hx s _ hb => ?_,
    fun ha => (hreq ha).2.2⟩
  · rw [hw x hx] at hwide
    cases hwide
  · rw [(hreq ha).2.1 x hx] at hb
    cases hb

/-- One atom, then the freeze. -/
def oneAtom : List Op :=
  [.string false [97] none, .newAtomStr (.base 0) allOk, .freeze]

/-- The request interns another text, and has a second string with it. -/
def overlayAtom : List Op :=
  oneAtom ++ [.string false [98] none, .newAtomStr (.req 0) allOk, .string false [98] none]

/-- The atoms of the snapshot and of the overlay are the only ones of their texts, the second string
has the atom of the first, and the slot of the overlay has its number. -/
theorem atoms_canonical_overlayAtom : ∃ rt, runOps Runtime.initial overlayAtom = some rt ∧
    rt.denotes 1 = some (.string, [97]) ∧ rt.denotes 712 = some (.string, [98]) ∧
    (∀ i < 2 ^ 32, rt.denotes i = some (.string, [97]) → i = 1) ∧
    (∀ i < 2 ^ 32, rt.denotes i = some (.string, [98]) → i = 712) ∧
    (∃ i rt1, rt.newAtomStr (.req 1) allOk = some (i, rt1) ∧ i ≠ 0 ∧
      rt1.denotes i = some (.string, [98])) ∧
    ∃ p, rt.req.overlay[1]? = some (.atom p) ∧ rt.atomStruct (rt.req.overlayBase + 1) = some p := by
  have hrun : ∃ rt ∈ runOps Runtime.initial overlayAtom, rt.isArena = true ∧
      rt.denotes 1 = some (.string, [97]) ∧ rt.denotes 712 = some (.string, [98]) ∧
      (∃ s ∈ rt.str (.req 1), s.chars = [98] ∧ s.parent = none) ∧
      (Op.newAtomStr (.req 1) allOk).Plain rt ∧
      rt.req.overlay[1]? = some (.atom (.req 0)) := by decide +kernel
  obtain ⟨rt, hr, harena, ha, hb, ⟨s, hs, hchars, hpar⟩, hop, hslot⟩ := hrun
  have hreach : Reach (fun rt op => op.Orderly rt) rt :=
    Reach.runOps (D := fun rt op => op.Plain rt) (fun rt op h => h.orderly) .refl
      (by decide +kernel) hr
  obtain ⟨hone, -, hnew, -, hnum, -⟩ := atoms_canonical hreach harena
  have hrel : Releasable rt (.req 1) := .inr ⟨s, hs, fun q hq => by simp [hpar] at hq⟩
  exact ⟨rt, hr, ha, hb, fun i hi hd => hone i 1 .string [97] hi (by decide) (by decide) hd ha,
    fun i hi hd => hone i 712 .string [98] hi (by decide) (by decide) hd hb,
    hchars ▸ hnew (.req 1) s hs hrel hop.orderly, _, hslot, (hnum 1 _ hslot).1⟩

/-! ## What the conditions are for -/

/-- The assumptions of an orderly run without its conditions on widths and numbers. -/
def Op.Assumed (rt : Runtime) (op : Op) : Prop :=
  op.Valid rt ∧ (rt.isArena = true → op.allocs = allOk) ∧
    (rt.isArena = true → ∀ x ∈ op.interns, ∀ s ∈ rt.str x.1, x.1.isBase = true → s.atomType ≠ none)

instance (rt : Runtime) (op : Op) : Decidable (op.Assumed rt) :=
  inferInstanceAs (Decidable (_ ∧ _ ∧ _))

/-- A wide string with a Latin-1 text. -/
theorem find_misses_wide : ∃ rt, Reach (fun rt op => op.Assumed rt) rt ∧ rt.isArena = true ∧
    ∃ s ∈ rt.str (.req 0), (∀ c ∈ s.chars, c < 256) ∧
      (Op.newAtom (some (.req 0)) .string allOk).Assumed rt ∧
      ∃ r ∈ rt.newAtom (some (.req 0)) .string allOk, r.1 ≠ 0 ∧
        ∃ r' ∈ r.2.findAtom s.chars, r'.1 = 0 := by
  have hrun : ∃ rt ∈ runOps Runtime.initial (oneAtom ++ [.string true [98] none]),
      rt.isArena = true ∧ ∃ s ∈ rt.str (.req 0), (∀ c ∈ s.chars, c < 256) ∧
      (Op.newAtom (some (.req 0)) .string allOk).Assumed rt ∧
      ∃ r ∈ rt.newAtom (some (.req 0)) .string allOk, r.1 ≠ 0 ∧
        ∃ r' ∈ r.2.findAtom s.chars, r'.1 = 0 := by decide +kernel
  obtain ⟨rt, hr, h⟩ := hrun
  exact ⟨rt, Reach.runOps (fun _ _ => id) .refl (by decide +kernel) hr, h⟩

end ArenaJs.Atoms
