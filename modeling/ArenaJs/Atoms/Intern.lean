import ArenaJs.Atoms.Frozen
import ArenaJs.Atoms.Text

/-!
# Interning after the freeze

What `__JS_NewAtom` and the functions over it do in a frozen runtime. `Frozen.newAtom` is about
every call that returns: the base is not written, the atoms there were keep their numbers, and the
result stands for the text. `Frozen.newHashed_total` says when a call does return.
-/

namespace ArenaJs.Atoms

section
variable {Q : TextPred} {rt rt' : Runtime} {ids ids' : Nat → List Nat} {skip : StrPtr → Prop}
  {p q : StrPtr} {s : JSString} {i n : Nat} {a : Allocs} {t : AtomType}
variable {chars : List Nat}

/-! ## The number of an atom -/

/-- `js_get_atom_index` of an atom of either table. -/
theorem Frozen.getAtomIndex (h : Frozen Q rt ids ids' skip) (hs : rt.str p = some s)
    (hat : s.atomType ≠ none) (hskip : p.isBase = false → ¬ skip p) :
    ∃ i, rt.getAtomIndex p s = some i ∧ rt.atomStruct i = some p ∧
      (s.atomType ≠ some .symbol → rt.Hashed ids ids' i) := by
  obtain ⟨d, hd⟩ := JSString.data?_of_isSome (Option.isSome_iff_ne_none.2 hat)
  cases p with
  | base n =>
    obtain ⟨i, hi, hstruct, hmem⟩ := h.ok.tableBase.getAtomIndex
      (fun _ => if_neg (by simp [Runtime.ptrIsBase, h.arena, StrPtr.isBase])) hs hd
      (h.complete _ d (by rw [Snapshot.data, show rt.base.str (.base n) = some s from hs,
        Option.bind_some, hd]) id)
    exact ⟨i, hi, hstruct, fun hne => .inl (hmem hne)⟩
  | req n =>
    obtain ⟨i, hi, hstruct, hmem⟩ := h.ok.tableReq.getAtomIndex
      (fun hne => if_pos ⟨hne, by simp [Runtime.ptrIsBase, StrPtr.isBase]⟩) hs hd
      (h.overlay _ d (by rw [Runtime.data_req hs, hd]) (hskip rfl))
    exact ⟨i, hi, hstruct, fun hne => .inr (hmem hne)⟩

/-- Where the walk of `js_get_atom_index` ends, there is the struct. -/
theorem Runtime.getAtomIndex_sound (hs : s.atomType ≠ some .symbol)
    (hr : rt.getAtomIndex p s = some i) : rt.atomStruct i = some p := by
  rw [Runtime.getAtomIndex, if_neg hs] at hr
  obtain ⟨j, -, hj⟩ := Option.bind_eq_some_iff.1 hr
  simpa using chainSeek_sound hj

/-- Numbers of atoms with a struct have no tag. -/
theorem Frozen.struct_lt (h : Frozen Q rt ids ids' skip) (hi : rt.atomStruct i = some p) :
    i < tagInt := by
  have hlen := h.len
  have hfirst := h.first
  have hlow := h.low
  unfold Runtime.atomStruct at hi
  split at hi
  · have := Snapshot.slot_lt (b := rt.base) hi
    simp only [atomMax, tagInt] at *
    omega
  · next hb =>
    obtain ⟨o, ho, hop⟩ := Option.bind_eq_some_iff.1 hi
    cases o with
    | null => cases hop
    | free k => cases hop
    | atom q =>
      have := ((h.shape.used_iff (List.getElem?_eq_some_iff.1 ho).1).1 ⟨q, ho⟩).2
      omega

/-- `JS_ATOM_NULL` is the number of no string or global symbol. -/
theorem Frozen.struct_ne_zero (h : Frozen Q rt ids ids' skip) (hi : rt.atomStruct i = some p)
    (hs : rt.str p = some s) (hat : s.atomType = some t) (hth : t.hashed = true) : i ≠ 0 := by
  rintro rfl
  unfold Runtime.atomStruct at hi
  split at hi
  · -- the first entry of the snapshot's table
    have hslot : rt.base.slot 0 = some p := hi
    obtain ⟨d, hd⟩ := h.ok.base.live hslot
    obtain ⟨j, hj, hmem, -⟩ := h.complete p d hd id
    obtain ⟨s', hs', hsd⟩ := Option.bind_eq_some_iff.1 hd
    cases (Runtime.str_base hs').symm.trans hs
    have htype : d.type = t := Option.some.inj ((JSString.data?_eq hsd).1.symm.trans hat)
    have hj0 : j = 0 := h.ok.base.inj hj hslot
    exact h.ok.base.index.ne_zero (hmem (htype ▸ hth)) hj0
  · -- the reserved slot of the overlay
    obtain ⟨o, ho, hop⟩ := Option.bind_eq_some_iff.1 hi
    rw [Nat.zero_sub] at ho
    rw [h.shape.null fun hnil => by simp [hnil] at ho] at ho
    cases ho
    cases hop

/-- What an atom with a struct stands for. -/
theorem Frozen.denotes (h : Frozen Q rt ids ids' skip) (hs : rt.atom i = some s)
    (hat : s.atomType = some t) : rt.denotes i = some (t, s.chars) := by
  obtain ⟨p, hp, -⟩ := Option.bind_eq_some_iff.1 hs
  have hlt := h.struct_lt hp
  rw [Runtime.denotes, if_neg (by simpa [atomIsTaggedInt] using hlt), hs, Option.bind_some, hat,
    Option.map_some]

/-! ## Interning -/

/-- The outcome of interning: the base is as it was, the atoms there were are still there, and the
result, if it is not 0, stands for the text. -/
structure Outcome (Q : TextPred) (rt rt' : Runtime) (ids : Nat → List Nat) (skip : StrPtr → Prop)
    (a : Allocs) (t : AtomType) (chars : List Nat) (i : Nat) : Prop where
  frozen : ∃ ids'', Frozen Q rt' ids ids'' skip
  ext : Extends rt rt'
  zero : i = 0 → ¬ (a.block = true ∧ a.slots = true ∧ a.hash = true)
  text : i ≠ 0 → rt'.denotes i = some (t, chars)
  bound : i < 2 ^ 32

theorem NewAtom.outcome (h : NewAtom Q rt rt' ids ids' skip a t chars i) :
    Outcome Q rt rt' ids skip a t chars i := by
  obtain ⟨ids'', hf⟩ := h.frozen
  refine ⟨h.frozen, h.ext, h.zero, fun h0 => ?_, ?_⟩
  · obtain ⟨-, -, d, hd, hkey⟩ := h.atom h0
    obtain ⟨s, hs, hsd⟩ := Runtime.atom_req hd
    obtain ⟨h1, h2, -⟩ := JSString.data?_eq hsd
    rw [hf.denotes hs h1, h2]
    exact congrArg some hkey
  · by_cases h0 : i = 0
    · rw [h0]; decide
    · obtain ⟨-, -, d, hd, -⟩ := h.atom h0
      obtain ⟨p, hp, -⟩ := atomIn_eq_some.1 hd
      exact Nat.lt_trans (hf.struct_lt (Runtime.atomStruct_req hp)) (by decide)

/-- The atoms after a step that changes none of their fields. -/
theorem Quiet.atom (hq : Quiet rt rt') {s : JSString} (hs : rt.atom i = some s)
    (hat : s.atomType = some t) :
    ∃ s', rt'.atom i = some s' ∧ s'.atomType = some t ∧ s'.chars = s.chars := by
  obtain ⟨p, hp, hsp⟩ := Option.bind_eq_some_iff.1 hs
  have hp' : rt'.atomStruct i = some p := by
    rw [Runtime.atomStruct, hq.base, QuietBut.overlayBase hq, hq.overlay]; exact hp
  cases p with
  | base n =>
    refine ⟨s, ?_, hat, rfl⟩
    rw [Runtime.atom, hp', Option.bind_some, Runtime.str, hq.base]
    exact hsp
  | req n =>
    have hd : rt'.req.data (.req n) = s.data? := by rw [hq.data_eq, Runtime.data_req hsp]
    rw [JSString.data?, hat, Option.map_some] at hd
    obtain ⟨s', hs', hd'⟩ := Option.bind_eq_some_iff.1 hd
    obtain ⟨h1, h2, -⟩ := JSString.data?_eq hd'
    exact ⟨s', by rw [Runtime.atom, hp', Option.bind_some, Runtime.str_req hs'], h1, h2⟩

/-- A step that changes no atom, with an atom there is as its result. -/
theorem Frozen.outcome (h : Frozen Q rt ids ids' skip) (hq : Quiet rt rt') (hi : rt.atom i = some s)
    (hi0 : i ≠ 0) (hat : s.atomType = some t) : Outcome Q rt rt' ids skip a t s.chars i :=
  ⟨⟨ids', h.quiet hq⟩, hq.extends, fun h0 => absurd h0 hi0, fun _ => by
    obtain ⟨s', hs', hat', hc'⟩ := hq.atom hi hat
    rw [(h.quiet hq).denotes hs' hat', hc'], by
    obtain ⟨p, hp, -⟩ := Option.bind_eq_some_iff.1 hi
    exact Nat.lt_trans (h.struct_lt hp) (by decide)⟩

/-- Whether a string is interned already: its text is on a chain. -/
def Known (rt : Runtime) (ids ids' : Nat → List Nat) (t : AtomType) (chars : List Nat) : Prop :=
  ∃ i e, rt.Entry ids ids' i e ∧ e.key = (t, chars)

/-- `__JS_NewAtom` of a string: if the search finds nothing, the text is new. -/
theorem Frozen.not_known (h : Frozen Q rt ids ids' skip)
    (hfind : rt.findHashed (atomHashOf t chars) (rt.sameAtom t (atomHashOf t chars) chars) =
    some 0) :
    ¬ Known rt ids ids' t chars := by
  rintro ⟨j, e, he, hkey⟩
  obtain ⟨k, hk, -, hnone⟩ := h.ok.findHashed_same (t := t) chars
  cases hk.symm.trans hfind
  obtain ⟨hj, s, hs, hse⟩ := h.ok.entry_atom he
  obtain ⟨h1, h2, -⟩ := JSString.data?_eq hse
  obtain ⟨h3, h4⟩ := Prod.mk.injEq _ _ _ _ ▸ hkey
  exact hnone rfl j s hj hs (by rw [h1, h3]) (by rw [h2, h4])

/-- `js_get_atom_index` of a string atom finds it on a chain. -/
theorem Frozen.getAtomIndex_hashed (h : Frozen Q rt ids ids' skip) (hs : rt.str p = some s)
    (hat : s.atomType = some t) (hth : t.hashed = true) (hr : rt.getAtomIndex p s = some j) :
    rt.Hashed ids ids' j := by
  have hsym : s.atomType ≠ some .symbol := fun hc => by
    rw [Option.some.inj (hat.symm.trans hc)] at hth
    cases hth
  have h0 : (rt.atomStruct 0 == some p) = false := by
    simpa using fun hi => h.struct_ne_zero hi hs hat hth rfl
  simp only [Runtime.getAtomIndex, if_neg hsym] at hr
  split at hr
  · obtain ⟨i, hi, hr⟩ := Option.bind_eq_some_iff.1 hr
    have hb := (List.getElem?_eq_some_iff.1 hi).1
    exact .inr ⟨_, hb, chainSeek_mem (h.ok.tableReq.index.chain hi) h0 hr⟩
  · obtain ⟨i, hi, hr⟩ := Option.bind_eq_some_iff.1 hr
    have hb := (List.getElem?_eq_some_iff.1 hi).1
    exact .inl ⟨_, hb, chainSeek_mem (h.ok.tableBase.index.chain hi) h0 hr⟩

/-- `__JS_NewAtom` of a string returns an atom there is, or makes one of a new text. -/
theorem Frozen.newHashed_cases (h : Frozen Q rt ids ids' skip) (hs : rt.str p = some s)
    (hth : t.hashed = true) (hr : rt.newHashed p s t a = some (i, rt')) :
    (∃ u, Quiet rt rt' ∧ rt.Hashed ids ids' i ∧ rt.atom i = some u ∧ u.atomType = some t ∧
        u.chars = s.chars ∧ i ≠ 0) ∨
      ¬ Known rt ids ids' t s.chars ∧
        rt.createAtom (some p) t (atomHashOf t s.chars) a = some (i, rt') := by
  rcases Runtime.newHashed_cases hr with ⟨hat, hj, rfl⟩
    | ⟨-, j, hj, ⟨hj0, rfl, q, hfree⟩ | ⟨rfl, hr⟩⟩
  · -- the string is the atom
    have hstruct := Runtime.getAtomIndex_sound
      (fun hc => by rw [Option.some.inj (hat.symm.trans hc)] at hth; cases hth) hj
    refine .inl ⟨s, ?_, h.getAtomIndex_hashed hs hat hth hj,
      by rw [Runtime.atom, hstruct, Option.bind_some, hs], hat, rfl,
      h.struct_ne_zero hstruct hs hat hth⟩
    split
    · exact Runtime.rcDec_quiet h.arena p
    · exact .refl rt
  · -- an atom with the text
    obtain ⟨k, hk, hfound, -⟩ := h.ok.findHashed_same (t := t) s.chars
    obtain rfl := Option.some.inj (hk.symm.trans hj)
    obtain ⟨hmem, u, hu, hat, hc⟩ := hfound hj0
    have hq : Quiet rt (if atomIsConst k = true then rt else rt.rcInc q) := by
      split
      · exact .refl rt
      · exact Runtime.rcInc_quiet h.arena q
    exact .inl ⟨u, hq.trans (Runtime.freeString_quiet (hq.arena.trans h.arena) hfree),
      hmem, hu, hat,
      hc, hj0⟩
  · exact .inr ⟨h.not_known hj, hr⟩

/-- A string of the snapshot is made an atom only if its text is one. -/
theorem Makeable.of_not_known (hs : rt.str p = some s)
    (hknown : p.isBase = true → s.atomType = none → Known rt ids ids' t s.chars)
    (hnew : ¬ Known rt ids ids' t s.chars) : Makeable rt (some p) := fun _ hq =>
  ⟨s, Option.some.inj hq ▸ hs, fun hb hnone => hnew (hknown (Option.some.inj hq ▸ hb) hnone)⟩

section
variable (h : Frozen Q rt ids ids' skip) (hs : rt.str p = some s) (hth : t.hashed = true)
  (hroom : Room rt a skip)
  (hknown : p.isBase = true → s.atomType = none → Known rt ids ids' t s.chars)
  (hgood : Q t s.isWide s.chars)
include h hs hth hroom hknown hgood

/-- Making an atom of a new text. -/
theorem Frozen.createHashed
    (hnew : ¬ Known rt ids ids' t s.chars) :
    ∃ i rt', rt.createAtom (some p) t (atomHashOf t s.chars) a = some (i, rt') ∧
      NewAtom Q rt rt' ids ids' skip a t s.chars i := by
  have htext := Runtime.textOf_some hs
  have hmake := h.createAtom (some p) (t := t) (v := atomHashOf t s.chars) (a := a) hroom
    (.of_not_known hs hknown hnew) (.inr ⟨hth, by rw [htext], fun k e he hkey => hnew ⟨k, e, he, by
      rw [hkey, htext]⟩, by rwa [htext, Runtime.wideOf_some hs]⟩)
  rwa [htext] at hmake

/-- `__JS_NewAtom` of a string, when it returns. -/
theorem Frozen.newHashed
    (hr : rt.newHashed p s t a = some (i, rt')) :
    Outcome Q rt rt' ids skip a t s.chars i := by
  rcases h.newHashed_cases hs hth hr with ⟨u, hq, -, hu, hat, hc, hi0⟩ | ⟨hnew, hr⟩
  · exact hc ▸ h.outcome hq hu hi0 hat
  · obtain ⟨k, rt1, hr1, hout⟩ := h.createHashed hs hth hroom hknown hgood hnew
    cases hr1.symm.trans hr
    exact hout.outcome

end

/-- Interning a text that is interned always has a result. -/
theorem Frozen.newHashed_ne_zero (h : Frozen Q rt ids ids' skip) (hs : rt.str p = some s)
    (hth : t.hashed = true) (hknown : Known rt ids ids' t s.chars)
    (hr : rt.newHashed p s t a = some (i, rt')) : i ≠ 0 := by
  rcases h.newHashed_cases hs hth hr with ⟨u, -, -, -, -, -, hi0⟩ | ⟨hnew, -⟩
  · exact hi0
  · exact absurd hknown hnew

/-! ## Returning -/

/-- `js_free_string` of `p` returns: the string is there, and so is what it points into. A string of
the snapshot is never freed. -/
def Releasable (rt : Runtime) (p : StrPtr) : Prop :=
  p.isBase = true ∨ ∃ s, rt.str p = some s ∧ ∀ q, s.parent = some q → ∃ s', rt.str q = some s'

/-- The strings after one was written. -/
theorem Runtime.str_setStr (hs : rt.str p = some s) (o : Option JSString) (q : StrPtr) :
    (rt.setStr p o).str q = if q = p then o else rt.str q := by
  cases p with
  | base n =>
    have hn := (List.getElem?_eq_some_iff.1 (Option.join_eq_some_iff.1 hs)).1
    cases q with
    | base m =>
      have hm := congrFun (Snapshot.str_set hn o) (.base m)
      rw [Function.update_apply] at hm
      exact hm
    | req m => rw [if_neg nofun]; rfl
  | req n =>
    cases q with
    | base m => rw [if_neg nofun]; rfl
    | req m =>
      have hm := congrFun (setStr_req_str hs o) (.req m)
      rw [Function.update_apply] at hm
      exact hm

/-- The same string, with another count. -/
structure JSString.Like (s' s : JSString) : Prop where
  parent : s'.parent = s.parent
  atomType : s'.atomType = s.atomType
  isWide : s'.isWide = s.isWide
  chars : s'.chars = s.chars

theorem JSString.Like.refl (s : JSString) : s.Like s := ⟨rfl, rfl, rfl, rfl⟩

/-- Counting keeps the strings. -/
theorem Runtime.modStr_live {f : JSString → JSString} (hf : ∀ s, (f s).Like s)
    (hs : rt.str q = some s) (p : StrPtr) : ∃ s', (rt.modStr p f).str q = some s' ∧ s'.Like s := by
  cases hp : rt.str p with
  | none =>
    rw [Runtime.modStr, hp, Option.map_none, Runtime.setStr_none hp]
    exact ⟨s, hs, .refl s⟩
  | some sp =>
    rw [Runtime.modStr, hp, Option.map_some, str_setStr hp]
    split
    · next hq =>
      obtain rfl := Option.some.inj (hp.symm.trans (hq ▸ hs))
      exact ⟨_, rfl, hf sp⟩
    · exact ⟨s, hs, .refl s⟩

theorem Runtime.rcDec_live (hs : rt.str q = some s) (p : StrPtr) :
    ∃ s', (rt.rcDec p).2.str q = some s' ∧ s'.Like s := by
  unfold Runtime.rcDec
  split
  · exact ⟨s, hs, .refl s⟩
  · refine modStr_live ?_ hs p
    exact fun _ => ⟨rfl, rfl, rfl, rfl⟩

theorem Runtime.rcInc_live (hs : rt.str q = some s) (p : StrPtr) :
    ∃ s', (rt.rcInc p).str q = some s' ∧ s'.Like s := by
  unfold Runtime.rcInc
  split
  · exact ⟨s, hs, .refl s⟩
  · refine modStr_live ?_ hs p
    exact fun _ => ⟨rfl, rfl, rfl, rfl⟩

/-- Counting keeps the tables. -/
theorem Runtime.rcInc_slot (p : StrPtr) : (rt.rcInc p).base.slot = rt.base.slot := by
  unfold Runtime.rcInc
  split
  · rfl
  · cases p <;> rfl

theorem Releasable.rcInc (h : Releasable rt p) (q : StrPtr) : Releasable (rt.rcInc q) p := by
  refine h.imp_right fun ⟨s, hs, hpar⟩ => ?_
  obtain ⟨s', hs', hlike⟩ := Runtime.rcInc_live hs q
  refine ⟨s', hs', fun r hr => ?_⟩
  obtain ⟨t, ht⟩ := hpar r (hlike.parent ▸ hr)
  obtain ⟨t', ht', -⟩ := Runtime.rcInc_live ht q
  exact ⟨t', ht'⟩

theorem Runtime.freeBy_total {f : Runtime → JSString → Option Runtime}
    (harena : rt.isArena = true) (hs : rt.str p = some s)
    (hrel : ∀ s', s'.Like s → ∃ rt1, f (rt.rcDec p).2 s' = some rt1) :
    ∃ rt', rt.freeBy p f = some rt' := by
  obtain ⟨s', hs', hlike⟩ := rcDec_live hs p
  simp only [Runtime.freeBy]
  split
  · rw [hs', Option.bind_some]
    split
    · exact ⟨_, freeAtomStruct_arena ((rcDec_quiet harena p).arena.trans harena) p⟩
    · obtain ⟨rt1, hr1⟩ := hrel s' hlike
      exact ⟨_, by rw [hr1, Option.map_some]⟩
  · exact ⟨_, rfl⟩

theorem Runtime.freeString_total (harena : rt.isArena = true) (h : Releasable rt p) :
    ∃ rt', rt.freeString p = some rt' := by
  rcases h with hb | ⟨s, hs, hpar⟩
  · cases p with
    | base n =>
      exact ⟨rt, by simp only [Runtime.freeString, rcDec_base harena]; rw [if_neg (by decide)]⟩
    | req n => cases hb
  refine freeBy_total harena hs fun s' hlike => ?_
  unfold Runtime.releaseParent
  split
  · next q hparq =>
    obtain ⟨t, ht⟩ := hpar q (hlike.parent ▸ hparq)
    obtain ⟨t', ht', -⟩ := rcDec_live ht p
    exact freeBy_total (f := fun rt _ => some rt)
      ((rcDec_quiet harena p).arena.trans harena) ht' fun _ _ => ⟨_, rfl⟩
  · exact ⟨_, rfl⟩

/-- When `__JS_NewAtom` of a string returns. -/
theorem Frozen.newHashed_total (h : Frozen Q rt ids ids' skip) (hs : rt.str p = some s)
    (hth : t.hashed = true) (hroom : Room rt a skip)
    (hatom : s.atomType = some t → p.isBase = false → ¬ skip p)
    (hknown : p.isBase = true → s.atomType = none → Known rt ids ids' t s.chars)
    (hgood : Q t s.isWide s.chars) (hrel : Releasable rt p) :
    ∃ i rt', rt.newHashed p s t a = some (i, rt') ∧ Outcome Q rt rt' ids skip a t s.chars i := by
  suffices hret : ∃ r, rt.newHashed p s t a = some r by
    obtain ⟨⟨i, rt'⟩, hr⟩ := hret
    exact ⟨i, rt', hr, h.newHashed hs hth hroom hknown hgood hr⟩
  unfold Runtime.newHashed
  split
  · next hat =>
    obtain ⟨i, hi, -⟩ := h.getAtomIndex hs (by rw [hat]; nofun) (hatom hat)
    exact ⟨_, by rw [hi, Option.map_some]⟩
  · obtain ⟨k, hk, hfound, -⟩ := h.ok.findHashed_same (t := t) s.chars
    simp only [hk, Option.bind_some]
    split
    · next hk0 =>
      obtain ⟨-, s', hs', -⟩ := hfound hk0
      obtain ⟨q, hq, -⟩ := Option.bind_eq_some_iff.1 hs'
      have hrel' : Releasable (if atomIsConst k = true then rt else rt.rcInc q) p := by
        split
        · exact hrel
        · exact hrel.rcInc q
      have harena : (if atomIsConst k = true then rt else rt.rcInc q).isArena = true := by
        split
        · exact h.arena
        · exact (Runtime.rcInc_quiet h.arena q).arena.trans h.arena
      obtain ⟨rt1, hr1⟩ := Runtime.freeString_total harena hrel'
      exact ⟨_, by rw [hq, Option.bind_some, hr1, Option.map_some]⟩
    · next hk0 =>
      obtain rfl : k = 0 := by simpa using hk0
      obtain ⟨i, rt', hr, -⟩ := h.createHashed hs hth hroom hknown hgood (h.not_known hk)
      exact ⟨_, hr⟩

/-! ## The entry points -/

/-- The type a struct gets: private names are symbols. -/
def AtomType.kind : AtomType → AtomType
  | .priv => .symbol
  | t => t

/-- The strings of the snapshot that can be interned as `t`: those that are atoms, and those whose
text is. -/
def Internable (rt : Runtime) (ids ids' : Nat → List Nat) (t : AtomType) (p : StrPtr)
    (s : JSString) :
    Prop :=
  p.isBase = true → s.atomType = none → t.hashed = true ∧ Known rt ids ids' t s.chars

/-- `__JS_NewAtom` of a type that is on the chains. -/
theorem Runtime.newAtom_hashed (hs : rt.str p = some s) (hth : t.hashed = true) :
    rt.newAtom (some p) t a = rt.newHashed p s t a := by
  cases t with
  | string | globalSymbol => simp [Runtime.newAtom, hs]
  | symbol | priv => cases hth

/-- `__JS_NewAtom` after the freeze, when it returns. -/
theorem Frozen.newAtom (h : Frozen Q rt ids ids' skip) {str : Option StrPtr}
    (hroom : Room rt a skip)
    (hstr : ∀ p, str = some p → ∃ s, rt.str p = some s ∧ Internable rt ids ids' t p s)
    (hnone : str = none → t.hashed = false)
    (hgood : t.hashed = true → Q t (rt.wideOf str) (rt.textOf str))
    (hr : rt.newAtom str t a = some (i, rt')) :
    Outcome Q rt rt' ids skip a t.kind (rt.textOf str) i := by
  have hmake : t.hashed = false → Makeable rt str := fun ht p hp => by
    obtain ⟨s, hs, hin⟩ := hstr p hp
    refine ⟨s, hs, fun hb hat => ?_⟩
    rw [(hin hb hat).1] at ht
    cases ht
  have hcreate : ∀ {v}, t.hashed = false → rt.createAtom str .symbol v a = some (i, rt') →
      Outcome Q rt rt' ids skip a .symbol (rt.textOf str) i := by
    intro v hth hr
    obtain ⟨k, rt1, hr1, hout⟩ := h.createAtom str (t := .symbol) (v := v) hroom
      (hmake hth) (.inl rfl)
    cases hr1.symm.trans hr
    exact hout.outcome
  have hhashed : t.hashed = true → Outcome Q rt rt' ids skip a t (rt.textOf str) i := by
    intro hth
    cases str with
    | none =>
      rw [hnone rfl] at hth
      cases hth
    | some p =>
      obtain ⟨s, hs, hin⟩ := hstr p rfl
      have hq := hgood hth
      rw [Runtime.newAtom_hashed hs hth] at hr
      rw [Runtime.textOf_some hs] at hq ⊢
      rw [Runtime.wideOf_some hs] at hq
      exact h.newHashed hs hth hroom (fun hb hat => (hin hb hat).2) hq hr
  cases t with
  | symbol | priv => exact hcreate rfl hr
  | string | globalSymbol => exact hhashed rfl

/-- The texts of small integers. -/
def smallInt (chars : List Nat) : Bool := (isNumString chars).any fun n => decide (n ≤ maxInt)

/-- `JS_NewAtomStr` of a small integer. -/
theorem Frozen.newAtomStr_small (h : Frozen Q rt ids ids' skip) (hs : rt.str p = some s)
    (hsmall : smallInt s.chars = true) (hr : rt.newAtomStr p a = some (i, rt')) :
    Outcome Q rt rt' ids skip a .string s.chars i := by
  obtain ⟨n, hn, hle⟩ := (Option.any_eq_true ..).1 hsmall
  have hle' : n ≤ maxInt := by simpa using hle
  simp only [Runtime.newAtomStr, hs, Option.bind_some, hn, if_pos hle'] at hr
  obtain ⟨rt1, hr1, ⟨⟩⟩ := Option.map_eq_some_iff.1 hr
  have hq := Runtime.freeString_quiet h.arena hr1
  refine ⟨⟨ids', h.quiet hq⟩, hq.extends, fun h0 => ?_, fun _ => ?_, ?_⟩
  rotate_left 2
  · simp only [atomFromUInt32, tagInt, maxInt] at hle' ⊢
    omega
  · simp only [atomFromUInt32, tagInt] at h0
    omega
  · rw [Runtime.denotes, if_pos (by simp [atomIsTaggedInt, atomFromUInt32]), atomFromUInt32,
      Nat.add_sub_cancel, decimal_of_isNumString hn]

/-- `JS_NewAtomStr` of any other text. -/
theorem Runtime.newAtomStr_of_not_small (hs : rt.str p = some s)
    (hsmall : smallInt s.chars = false) :
    rt.newAtomStr p a = rt.newAtom (some p) .string a := by
  unfold smallInt at hsmall
  rw [Runtime.newAtomStr, hs, Option.bind_some]
  cases hn : isNumString s.chars with
  | none => rfl
  | some n =>
    rw [hn, Option.any_some, decide_eq_false_iff_not] at hsmall
    exact if_neg hsmall

theorem noNum_of_not_small (h : smallInt chars = false) :
    ∀ m, isNumString chars = some m → maxInt < m := by
  intro m hm
  rw [smallInt, hm, Option.any_some, decide_eq_false_iff_not] at h
  omega

theorem not_small_of_noNum (h : ∀ m, isNumString chars = some m → maxInt < m) :
    smallInt chars = false := by
  rw [smallInt]
  cases hn : isNumString chars with
  | none => rfl
  | some n =>
    rw [Option.any_some, decide_eq_false_iff_not]
    exact Nat.not_le_of_lt (h n hn)

/-- `JS_NewAtomStr` after the freeze, when it returns. -/
theorem Frozen.newAtomStr (h : Frozen Q rt ids ids' skip)
    (hroom : Room rt a skip)
    (hs : rt.str p = some s)
    (hin : smallInt s.chars = false → Internable rt ids ids' .string p s)
    (hgood : smallInt s.chars = false → Q .string s.isWide s.chars)
    (hr : rt.newAtomStr p a = some (i, rt')) : Outcome Q rt rt' ids skip a .string s.chars i := by
  cases hsmall : smallInt s.chars with
  | true => exact h.newAtomStr_small hs hsmall hr
  | false =>
    rw [Runtime.newAtomStr_of_not_small hs hsmall] at hr
    have hout := h.newAtom hroom (fun q hq => ⟨s, Option.some.inj hq ▸ hs,
      Option.some.inj hq ▸ hin hsmall⟩) nofun (fun _ => by
        rw [Runtime.wideOf_some hs, Runtime.textOf_some hs]; exact hgood hsmall) hr
    rwa [Runtime.textOf_some hs] at hout

/-- When `JS_NewAtomStr` of a string that is not an atom of the request returns. -/
theorem Frozen.newAtomStr_total (h : Frozen Q rt ids ids' skip)
    (hroom : Room rt a skip)
    (hs : rt.str p = some s) (hatom : s.atomType = some .string → p.isBase = false → ¬ skip p)
    (hin : smallInt s.chars = false → Internable rt ids ids' .string p s)
    (hgood : smallInt s.chars = false → Q .string s.isWide s.chars) (hrel : Releasable rt p) :
    ∃ i rt', rt.newAtomStr p a = some (i, rt') ∧ Outcome Q rt rt' ids skip a .string s.chars i := by
  suffices hret : ∃ r, rt.newAtomStr p a = some r by
    obtain ⟨⟨i, rt'⟩, hr⟩ := hret
    exact ⟨i, rt', hr, h.newAtomStr hroom hs hin hgood hr⟩
  cases hsmall : smallInt s.chars with
  | true =>
    obtain ⟨n, hn, hle⟩ := (Option.any_eq_true ..).1 hsmall
    obtain ⟨rt1, hr1⟩ := Runtime.freeString_total h.arena hrel
    refine ⟨(atomFromUInt32 n, rt1), ?_⟩
    simp only [Runtime.newAtomStr, hs, Option.bind_some, hn]
    rw [if_pos (by simpa using hle), hr1, Option.map_some]
  | false =>
    obtain ⟨i, rt', hr, -⟩ := h.newHashed_total hs rfl hroom hatom
      (fun hb hat => (hin hsmall hb hat).2) (hgood hsmall) hrel
    refine ⟨(i, rt'), ?_⟩
    rw [Runtime.newAtomStr_of_not_small hs hsmall]
    rw [Runtime.newAtom_hashed hs rfl, hr]

/-- The result of interning a string of the snapshot that is not an atom is never 0. -/
theorem Frozen.newAtomStr_ne_zero (h : Frozen Q rt ids ids' skip) (hs : rt.str p = some s)
    (hb : p.isBase = true) (hat : s.atomType = none)
    (hin : smallInt s.chars = false → Internable rt ids ids' .string p s)
    (hr : rt.newAtomStr p a = some (i, rt')) : i ≠ 0 := by
  cases hsmall : smallInt s.chars with
  | true =>
    obtain ⟨n, hn, hle⟩ := (Option.any_eq_true ..).1 hsmall
    simp only [Runtime.newAtomStr, hs, Option.bind_some, hn] at hr
    rw [if_pos (by simpa using hle)] at hr
    obtain ⟨rt1, -, ⟨⟩⟩ := Option.map_eq_some_iff.1 hr
    rw [atomFromUInt32, tagInt]
    omega
  | false =>
    rw [Runtime.newAtomStr_of_not_small hs hsmall] at hr
    rw [Runtime.newAtom_hashed hs rfl] at hr
    exact h.newHashed_ne_zero hs rfl (hin hsmall hb hat).2 hr

theorem Internable.quiet (h : Internable rt ids ids' t p s) (hq : Quiet rt rt') {s' : JSString}
    (hlike : s'.Like s) : Internable rt' ids ids' t p s' := by
  intro hb hat
  obtain ⟨hth, i, e, he, hkey⟩ := h hb (hlike.atomType ▸ hat)
  refine ⟨hth, i, e, ?_, by rw [hkey, hlike.chars]⟩
  rwa [Runtime.Entry, hq.base, hq.data_eq, QuietBut.slot hq, QuietBut.hash hq]

/-- `JS_ValueToAtomInternal` counts a string before it interns it. -/
theorem Frozen.valueToAtom_string (h : Frozen Q rt ids ids' skip)
    (hroom : Room rt a skip)
    (hs : rt.str p = some s)
    (hin : smallInt s.chars = false → Internable rt ids ids' .string p s)
    (hgood : smallInt s.chars = false → Q .string s.isWide s.chars)
    (hr : rt.valueToAtomInternal (.string p) a = some (i, rt')) :
    Outcome Q rt rt' ids skip a .string s.chars i := by
  have hq := Runtime.rcInc_quiet h.arena p
  obtain ⟨s', hs', hlike⟩ := Runtime.rcInc_live hs p
  have hout := (h.quiet hq).newAtomStr (hroom.quiet hq) hs'
    (fun hsm => (hin (hlike.chars ▸ hsm)).quiet hq hlike)
    (fun hsm => by rw [hlike.isWide, hlike.chars]; exact hgood (hlike.chars ▸ hsm)) hr
  rw [hlike.chars] at hout
  exact { hout with ext := hq.extends.trans hout.ext }

/-- When it returns. -/
theorem Frozen.valueToAtom_string_total (h : Frozen Q rt ids ids' skip)
    (hroom : Room rt a skip)
    (hs : rt.str p = some s) (hatom : s.atomType = some .string → p.isBase = false → ¬ skip p)
    (hin : smallInt s.chars = false → Internable rt ids ids' .string p s)
    (hgood : smallInt s.chars = false → Q .string s.isWide s.chars) (hrel : Releasable rt p) :
    ∃ i rt', rt.valueToAtomInternal (.string p) a = some (i, rt') ∧
      Outcome Q rt rt' ids skip a .string s.chars i := by
  have hq := Runtime.rcInc_quiet h.arena p
  obtain ⟨s', hs', hlike⟩ := Runtime.rcInc_live hs p
  obtain ⟨i, rt', hr, -⟩ := (h.quiet hq).newAtomStr_total (a := a)
    (hroom.quiet hq) hs' (fun hat => hatom (hlike.atomType ▸ hat))
    (fun hsm => (hin (hlike.chars ▸ hsm)).quiet hq hlike)
    (fun hsm => by rw [hlike.isWide, hlike.chars]; exact hgood (hlike.chars ▸ hsm)) (hrel.rcInc p)
  exact ⟨i, rt', hr, h.valueToAtom_string hroom hs hin hgood hr⟩

theorem Runtime.dupAtom_quiet (harena : rt.isArena = true) (hr : rt.dupAtom i = some (n, rt')) :
    Quiet rt rt' := by
  unfold Runtime.dupAtom at hr
  split at hr
  · cases hr
    exact .refl rt
  · obtain ⟨p, -, ⟨⟩⟩ := Option.map_eq_some_iff.1 hr
    exact rcInc_quiet harena p

theorem Runtime.freeAtom_quiet (harena : rt.isArena = true) (hr : rt.freeAtom i = some rt') :
    Quiet rt rt' := by
  unfold Runtime.freeAtom at hr
  split at hr
  · exact Option.some.inj hr ▸ .refl rt
  · obtain ⟨p, -, hr⟩ := Option.bind_eq_some_iff.1 hr
    have hq := rcDec_quiet harena p
    change (if 0 < (rt.rcDec p).1 then some (rt.rcDec p).2 else (rt.rcDec p).2.freeAtomStruct p) =
      some rt' at hr
    rw [freeAtomStruct_arena (hq.arena.trans harena), ite_self] at hr
    exact Option.some.inj hr ▸ hq

theorem Runtime.findAtom_quiet (harena : rt.isArena = true)
    (hr : rt.findAtom chars = some (n, rt')) : Quiet rt rt' := by
  obtain ⟨j, -, hr⟩ := Option.bind_eq_some_iff.1 hr
  split at hr
  · obtain ⟨p, -, ⟨⟩⟩ := Option.map_eq_some_iff.1 hr
    exact rcInc_quiet harena p
  · cases hr
    exact .refl rt

end

end ArenaJs.Atoms
