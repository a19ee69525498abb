import ArenaJs.Atoms.Invariant

/-!
# Looking atoms up

A runtime has two tables, the snapshot's and the overlay of its request; before the freeze the
second is empty. `Runtime.Ok` is the invariant of the two together. Under it the walks of
`__JS_NewAtom`, `__JS_FindAtom` and `js_get_atom_index` end, and find an atom exactly when there is
one (`Runtime.Ok.findHashed_same`, `Runtime.Table.getAtomIndex`).
-/

namespace ArenaJs.Atoms

/-! ## The two tables -/

namespace Snapshot

/-- The strings of the base. -/
def str (b : Snapshot) : StrPtr → Option JSString
  | .base n => b.strs[n]?.join
  | .req _ => none

/-- The atoms among them. -/
def data (b : Snapshot) (p : StrPtr) : Option AtomData := (b.str p).bind JSString.data?

/-- The occupied entries of `atom_array`. -/
def slot (b : Snapshot) (i : Nat) : Option StrPtr := b.atomArray[i]?.bind Slot.ptr?

end Snapshot

namespace Request

/-- The strings of the request. -/
def str (r : Request) : StrPtr → Option JSString
  | .req n => r.strs[n]?.join
  | .base _ => none

/-- The atoms among them. -/
def data (r : Request) (p : StrPtr) : Option AtomData := (r.str p).bind JSString.data?

/-- The occupied slots of the overlay, by atom number. -/
def slot (r : Request) (i : Nat) : Option StrPtr :=
  if i < r.overlayBase then none else r.overlay[i - r.overlayBase]?.bind Slot.ptr?

end Request

/-- The tables of a runtime: the overlay's numbers are above the base's, and no text is in both. -/
structure Runtime.Ok (Q : TextPred) (rt : Runtime) (ids ids' : Nat → List Nat) : Prop where
  base : TableOk Q rt.base.data rt.base.slot rt.base.atomHash ids
  overlay : TableOk Q rt.req.data rt.req.slot rt.req.hashOverlay ids'
  hash_ne : rt.base.atomHash ≠ []
  bound : rt.base.atomArray.length ≤ rt.req.overlayBase
  cross : ∀ {i j d e}, HashIndex.Mem rt.base.atomHash ids i →
    HashIndex.Mem rt.req.hashOverlay ids' j →
    atomIn rt.base.data rt.base.slot i = some d → atomIn rt.req.data rt.req.slot j = some e →
    d.key ≠ e.key

section
variable {Q : TextPred} {rt : Runtime} {ids ids' : Nat → List Nat} {i : Nat} {p : StrPtr}
  {d : AtomData}
variable {s : JSString}

theorem Snapshot.slot_lt {b : Snapshot} (h : b.slot i = some p) : i < b.atomArray.length := by
  obtain ⟨s, hs, -⟩ := Option.bind_eq_some_iff.1 h
  exact (List.getElem?_eq_some_iff.1 hs).1

theorem Request.slot_lt {r : Request} (h : r.slot i = some p) :
    r.overlayBase ≤ i ∧ i - r.overlayBase < r.overlay.length := by
  unfold Request.slot at h
  split at h
  · cases h
  · obtain ⟨s, hs, -⟩ := Option.bind_eq_some_iff.1 h
    exact ⟨by omega, (List.getElem?_eq_some_iff.1 hs).1⟩

/-- Atom numbers of the base are resolved in the base. -/
theorem Runtime.atomStruct_base (hb : rt.base.atomArray.length ≤ rt.req.overlayBase)
    (h : rt.base.slot i = some p) : rt.atomStruct i = some p := by
  rw [atomStruct, if_pos (Nat.lt_of_lt_of_le (Snapshot.slot_lt h) hb)]
  exact h

/-- Atom numbers of the overlay are resolved in the overlay. -/
theorem Runtime.atomStruct_req (h : rt.req.slot i = some p) : rt.atomStruct i = some p := by
  have := Request.slot_lt h
  rw [atomStruct, if_neg (by omega)]
  rwa [Request.slot, if_neg (by omega)] at h

theorem Runtime.str_base (h : rt.base.str p = some s) : rt.str p = some s := by
  cases p with
  | base n => exact h
  | req n => cases h

theorem Runtime.str_req (h : rt.req.str p = some s) : rt.str p = some s := by
  cases p with
  | base n => cases h
  | req n => exact h

/-- An atom of the base as a struct. -/
theorem Runtime.atom_base (hb : rt.base.atomArray.length ≤ rt.req.overlayBase)
    (h : atomIn rt.base.data rt.base.slot i = some d) :
    ∃ s, rt.atom i = some s ∧ s.data? = some d := by
  obtain ⟨p, hp, hd⟩ := atomIn_eq_some.1 h
  obtain ⟨s, hs, hsd⟩ := Option.bind_eq_some_iff.1 hd
  exact ⟨s, by rw [atom, atomStruct_base hb hp, Option.bind_some, str_base hs], hsd⟩

/-- An atom of the overlay as a struct. -/
theorem Runtime.atom_req (h : atomIn rt.req.data rt.req.slot i = some d) :
    ∃ s, rt.atom i = some s ∧ s.data? = some d := by
  obtain ⟨p, hp, hd⟩ := atomIn_eq_some.1 h
  obtain ⟨s, hs, hsd⟩ := Option.bind_eq_some_iff.1 hd
  exact ⟨s, by rw [atom, atomStruct_req hp, Option.bind_some, str_req hs], hsd⟩

theorem JSString.data?_eq (h : s.data? = some d) :
    s.atomType = some d.type ∧ s.chars = d.chars ∧ s.hash = d.hash ∧ s.hashNext = d.hashNext ∧
      s.isWide = d.isWide := by
  obtain ⟨t, ht, rfl⟩ := Option.map_eq_some_iff.1 h
  exact ⟨ht, rfl, rfl, rfl, rfl⟩

section
variable (ha : rt.atom i = some s) (hs : s.data? = some d)
include ha hs

theorem Runtime.nextOf_eq :
    rt.nextOf i = some d.hashNext := by
  rw [nextOf, ha, Option.map_some, (JSString.data?_eq hs).2.2.2.1]

theorem Runtime.hashOf_eq :
    rt.hashOf i = some d.hash := by
  rw [hashOf, ha, Option.map_some, (JSString.data?_eq hs).2.2.1]

theorem Runtime.sameAtom_eq
    (t : AtomType) (h : Nat) (chars : List Nat) :
    rt.sameAtom t h chars i = (d.hash = h && d.type = t && d.chars = chars) := by
  obtain ⟨h1, h2, h3, -⟩ := JSString.data?_eq hs
  simp [sameAtom, ha, h1, h2, h3]

end

/-! ## Walks -/

/-- A chain is no longer than there are slots. -/
theorem TableOk.length {data : StrPtr → Option AtomData} {slot : Nat → Option StrPtr}
    {heads : List Nat} (h : TableOk Q data slot heads ids) {a n : Nat}
    (hslot : ∀ {i p}, slot i = some p → a ≤ i ∧ i - a < n) {b : Nat} (hb : b < heads.length) :
    (ids b).length ≤ n :=
  length_le_of_interval (h.index.chain (List.getElem?_eq_getElem hb)).nodup fun i hi => by
    obtain ⟨d, hd, -⟩ := h.entry ⟨b, hb, hi⟩
    obtain ⟨p, hp, -⟩ := atomIn_eq_some.1 hd
    exact hslot hp

theorem Runtime.Ok.length_base (h : rt.Ok Q ids ids') {b : Nat} (hb : b < rt.base.atomHash.length) :
    (ids b).length < rt.walkFuel := by
  have := h.base.length (fun hp => ⟨Nat.zero_le _, Snapshot.slot_lt hp⟩) hb
  unfold walkFuel
  omega

theorem Runtime.Ok.length_req (h : rt.Ok Q ids ids') {b : Nat}
    (hb : b < rt.req.hashOverlay.length) :
    (ids' b).length < rt.walkFuel := by
  have := h.overlay.length Request.slot_lt hb
  unfold walkFuel
  omega

/-- A table of a runtime: its numbers are resolved in it, and no chain is longer than a walk. -/
structure Runtime.Table (Q : TextPred) (rt : Runtime) (data : StrPtr → Option AtomData)
    (slot : Nat → Option StrPtr) (heads : List Nat) (ids : Nat → List Nat) : Prop where
  ok : TableOk Q data slot heads ids
  struct : ∀ {i p}, slot i = some p → rt.atomStruct i = some p
  atom : ∀ {i d}, atomIn data slot i = some d → ∃ s, rt.atom i = some s ∧ s.data? = some d
  length : ∀ b < heads.length, (ids b).length < rt.walkFuel

theorem Runtime.Ok.tableBase (h : rt.Ok Q ids ids') :
    rt.Table Q rt.base.data rt.base.slot rt.base.atomHash ids :=
  ⟨h.base, atomStruct_base h.bound, atom_base h.bound, fun _ => h.length_base⟩

theorem Runtime.Ok.tableReq (h : rt.Ok Q ids ids') :
    rt.Table Q rt.req.data rt.req.slot rt.req.hashOverlay ids' :=
  ⟨h.overlay, atomStruct_req, atom_req, fun _ => h.length_req⟩

section
variable {data : StrPtr → Option AtomData} {slot : Nat → Option StrPtr} {heads : List Nat}

/-- A chain entry as a struct. -/
theorem Runtime.Table.entry (h : rt.Table Q data slot heads ids) (hi : HashIndex.Mem heads ids i) :
    ∃ s d, rt.atom i = some s ∧ s.data? = some d ∧ atomIn data slot i = some d ∧
      d.type.hashed = true ∧ d.hash = atomHashOf d.type d.chars := by
  obtain ⟨d, hd, ht, hh⟩ := h.ok.entry hi
  obtain ⟨s, hs, hsd⟩ := h.atom hd
  exact ⟨s, d, hs, hsd, hd, ht, hh⟩

/-- The index, in the terms the walks use. -/
theorem Runtime.Table.index (h : rt.Table Q data slot heads ids) :
    HashIndex rt.nextOf rt.hashOf heads ids := by
  refine h.ok.index.congr (fun i hi => ?_) fun i hi => ?_
  · obtain ⟨s, d, hs, hsd, hd, -⟩ := h.entry hi
    rw [nextOf_eq hs hsd, nextIn, hd, Option.map_some]
  · obtain ⟨s, d, hs, hsd, hd, -⟩ := h.entry hi
    rw [hashOf_eq hs hsd, hashIn, hd, Option.map_some]

/-- A walk of one table: the first atom of the bucket that passes, or 0. -/
theorem Runtime.Table.findIn (t : rt.Table Q data slot heads ids) (hne : heads ≠ []) (h : Nat)
    {test : Nat → Bool}
    (htest : ∀ i, test i = true → rt.hashOf i = some h) :
    ∃ i, rt.findIn heads h test = some i ∧
      (i ≠ 0 → HashIndex.Mem heads ids i ∧ test i = true) ∧
      (i = 0 → ∀ j, HashIndex.Mem heads ids j → test j = false) := by
  have hb : h % heads.length < heads.length := Nat.mod_lt _ (List.length_pos_of_ne_nil hne)
  have hfind := chainFind_spec (t.index.chain (List.getElem?_eq_getElem hb)) test (t.length _ hb)
  refine ⟨((ids (h % heads.length)).find? test).getD 0, ?_, fun hi => ?_, fun hi j hj => ?_⟩
  · rw [Runtime.findIn, t.ok.and_eq_mod hne, List.getElem?_eq_getElem hb, Option.bind_some]
    exact hfind
  · cases hf : (ids (h % heads.length)).find? test with
    | none => simp [hf] at hi
    | some i =>
      rw [Option.getD_some]
      exact ⟨⟨_, hb, List.mem_of_find?_eq_some hf⟩, List.find?_some hf⟩
  · cases hf : (ids (h % heads.length)).find? test with
    | none =>
      by_contra hjt
      have htj : test j = true := by simpa using hjt
      have := List.find?_eq_none.1 hf j (t.index.mem_bucket hj (htest j htj))
      exact this htj
    | some i =>
      rw [hf, Option.getD_some] at hi
      exact absurd hi (t.index.ne_zero ⟨_, hb, List.mem_of_find?_eq_some hf⟩)

/-- In a complete table a string or global symbol is on a chain. -/
theorem Runtime.Table.hashed (t : rt.Table Q data slot heads ids)
    (hc : Complete data slot heads ids fun _ => False) (hi : slot i = some p)
    (hs : rt.atom i = some s) (ht : s.atomType ≠ some .symbol) : HashIndex.Mem heads ids i := by
  obtain ⟨d, hd⟩ := t.ok.live hi
  obtain ⟨s', hs', hsd⟩ := t.atom (atomIn_eq_some.2 ⟨p, hi, hd⟩)
  cases hs'.symm.trans hs
  obtain ⟨k, hk, hmem, hsym⟩ := hc p d hd id
  obtain rfl := t.ok.inj hk hi
  cases hth : d.type.hashed with
  | true => exact hmem hth
  | false => exact absurd ((JSString.data?_eq hsd).1.trans (congrArg some (hsym hth).1)) ht

/-- `js_get_atom_index` of an atom of the table; a symbol's number is in its struct. -/
theorem Runtime.Table.getAtomIndex (t : rt.Table Q data slot heads ids)
    (hheads : heads ≠ [] → (if rt.req.hashOverlay ≠ [] ∧ ¬ rt.ptrIsBase p then rt.req.hashOverlay
      else rt.base.atomHash) = heads)
    (hs : rt.str p = some s) (hd : s.data? = some d)
    (hc : ∃ i, slot i = some p ∧ (d.type.hashed = true → HashIndex.Mem heads ids i) ∧
      (d.type.hashed = false → d.type = .symbol ∧ d.hashNext = i)) :
    ∃ i, rt.getAtomIndex p s = some i ∧ rt.atomStruct i = some p ∧
      (s.atomType ≠ some .symbol → HashIndex.Mem heads ids i) := by
  obtain ⟨i, hi, hmem, hsym⟩ := hc
  obtain ⟨htype, -, hhash, hnext, -⟩ := JSString.data?_eq hd
  have hstruct := t.struct hi
  have hatom : rt.atom i = some s := by rw [Runtime.atom, hstruct, Option.bind_some, hs]
  cases hth : d.type.hashed with
  | false =>
    obtain ⟨hdt, hdi⟩ := hsym hth
    refine ⟨i, ?_, hstruct, fun hne => absurd (htype.trans (congrArg some hdt)) hne⟩
    rw [Runtime.getAtomIndex, if_pos (htype.trans (congrArg some hdt)), hnext, hdi]
  | true =>
    obtain ⟨b, hb, hib⟩ := hmem hth
    have hne : heads ≠ [] := fun hnil => by simp [hnil] at hb
    have hb := Nat.mod_lt s.hash (List.length_pos_of_ne_nil hne)
    refine ⟨i, ?_, hstruct, fun _ => hmem hth⟩
    rw [Runtime.getAtomIndex, if_neg fun hc => by
      rw [Option.some.inj (htype.symm.trans hc)] at hth; cases hth]
    simp only [hheads hne]
    rw [t.ok.and_eq_mod hne, List.getElem?_eq_getElem hb, Option.bind_some]
    refine chainSeek_spec (t.index.chain (List.getElem?_eq_getElem hb))
      (t.index.mem_bucket (hmem hth) (by rw [hashOf, hatom, Option.map_some]))
        (by simpa using hstruct)
      (fun j hj hjs => ?_) (t.length _ hb)
    obtain ⟨e, he, -⟩ := t.ok.entry ⟨_, hb, hj⟩
    obtain ⟨q, hq, -⟩ := atomIn_eq_some.1 he
    have hqp : some q = some p := (t.struct hq).symm.trans (by simpa using hjs)
    exact t.ok.inj (Option.some.inj hqp ▸ hq) hi

end

/-- The atom `i` is on a chain. -/
def Runtime.Hashed (rt : Runtime) (ids ids' : Nat → List Nat) (i : Nat) : Prop :=
  HashIndex.Mem rt.base.atomHash ids i ∨ HashIndex.Mem rt.req.hashOverlay ids' i

/-- The chain entry `i` with its data. -/
def Runtime.Entry (rt : Runtime) (ids ids' : Nat → List Nat) (i : Nat) (d : AtomData) : Prop :=
  HashIndex.Mem rt.base.atomHash ids i ∧ atomIn rt.base.data rt.base.slot i = some d ∨
    HashIndex.Mem rt.req.hashOverlay ids' i ∧ atomIn rt.req.data rt.req.slot i = some d

section
variable (hok : rt.Ok Q ids ids')
include hok

/-- A chain entry as a struct. -/
theorem Runtime.Ok.entry_atom (he : rt.Entry ids ids' i d) :
    rt.Hashed ids ids' i ∧ ∃ s, rt.atom i = some s ∧ s.data? = some d :=
  he.elim (fun ⟨hi, hd⟩ => ⟨.inl hi, atom_base hok.bound hd⟩)
    fun ⟨hi, hd⟩ => ⟨.inr hi, atom_req hd⟩

/-- The search of both lookups ends, with an atom that passes if there is one. -/
theorem Runtime.Ok.findHashed (h : Nat) (test : Nat → Bool)
    (htest : ∀ i, test i = true → rt.hashOf i = some h) :
    ∃ i, rt.findHashed h test = some i ∧ (i ≠ 0 → rt.Hashed ids ids' i ∧ test i = true) ∧
      (i = 0 → ∀ j, rt.Hashed ids ids' j → test j = false) := by
  obtain ⟨i, hi, hfound, hnone⟩ := hok.tableBase.findIn hok.hash_ne h htest
  by_cases hover : rt.req.hashOverlay = []
  · refine ⟨i, by rw [Runtime.findHashed, if_neg (by simpa using hover), hi], fun hne => ?_,
      fun h0 j hj => ?_⟩
    · exact ⟨.inl (hfound hne).1, (hfound hne).2⟩
    · rcases hj with hj | ⟨b, hb, -⟩
      · exact hnone h0 j hj
      · simp [hover] at hb
  · obtain ⟨k, hk, hfound', hnone'⟩ := hok.tableReq.findIn hover h htest
    by_cases hk0 : k = 0
    · refine ⟨i, by simp [Runtime.findHashed, hover, hk, hk0, hi], fun hne => ?_, fun h0 j hj => ?_⟩
      · exact ⟨.inl (hfound hne).1, (hfound hne).2⟩
      · exact hj.elim (hnone h0 j) (hnone' hk0 j)
    · exact ⟨k, by simp [Runtime.findHashed, hover, hk, hk0],
        fun hne => ⟨.inr (hfound' hne).1, (hfound' hne).2⟩, fun h0 => absurd h0 hk0⟩

/-- The data of an atom on a chain. -/
theorem Runtime.Ok.hashed_entry (hi : rt.Hashed ids ids' i) (hs : rt.atom i = some s) :
    ∃ d, s.data? = some d ∧ rt.Entry ids ids' i d ∧ d.hash = atomHashOf d.type d.chars := by
  rcases hi with hi | hi
  · obtain ⟨s', d, hs', hsd, hd, -, hh⟩ := hok.tableBase.entry hi
    exact ⟨d, Option.some.inj (hs'.symm.trans hs) ▸ hsd, .inl ⟨hi, hd⟩, hh⟩
  · obtain ⟨s', d, hs', hsd, hd, -, hh⟩ := hok.tableReq.entry hi
    exact ⟨d, Option.some.inj (hs'.symm.trans hs) ▸ hsd, .inr ⟨hi, hd⟩, hh⟩

/-- No two entries have the same type and text. -/
theorem Runtime.Ok.entry_unique {j : Nat} {e : AtomData} (hi : rt.Entry ids ids' i d)
    (hj : rt.Entry ids ids' j e) (hkey : d.key = e.key) : i = j := by
  rcases hi with ⟨hi, hd⟩ | ⟨hi, hd⟩ <;> rcases hj with ⟨hj, he⟩ | ⟨hj, he⟩
  · exact hok.base.distinct hi hj hd he hkey
  · exact absurd hkey (hok.cross hi hj hd he)
  · exact absurd hkey.symm (hok.cross hj hi he hd)
  · exact hok.overlay.distinct hi hj hd he hkey

/-- Two atoms on chains with the same type and text are the same. -/
theorem Runtime.Ok.hashed_unique {j : Nat} {s s' : JSString}
    (hi : rt.Hashed ids ids' i) (hj : rt.Hashed ids ids' j) (hs : rt.atom i = some s)
    (hs' : rt.atom j = some s') (ht : s.atomType = s'.atomType) (hc : s.chars = s'.chars) :
    i = j := by
  obtain ⟨d, hsd, hid, -⟩ := hok.hashed_entry hi hs
  obtain ⟨e, hse, hje, -⟩ := hok.hashed_entry hj hs'
  obtain ⟨h1, h2, -⟩ := JSString.data?_eq hsd
  obtain ⟨h3, h4, -⟩ := JSString.data?_eq hse
  refine hok.entry_unique hid hje ?_
  rw [AtomData.key, AtomData.key, ← h2, ← h4, hc, Option.some.inj (h1.symm.trans (ht.trans h3))]

/-- A lookup by type and text among the atoms that pass a test: one of them, or 0 if there is
none. -/
theorem Runtime.Ok.findHashed_any {t : AtomType} (chars : List Nat) (more : JSString → Bool)
    {f : Nat → Bool} (htest : f = fun i =>
      rt.sameAtom t (atomHashOf t chars) chars i && (rt.atom i).any more) :
    ∃ i, rt.findHashed (atomHashOf t chars) f = some i ∧
      (i ≠ 0 → rt.Hashed ids ids' i ∧
        ∃ s, rt.atom i = some s ∧ s.atomType = some t ∧ more s = true ∧ s.chars = chars) ∧
      (i = 0 → ∀ j s, rt.Hashed ids ids' j → rt.atom j = some s → s.atomType = some t →
        more s = true → s.chars ≠ chars) := by
  have hpass : ∀ {j}, f j = true → ∃ s, rt.atom j = some s ∧ s.hash = atomHashOf t chars ∧
      s.atomType = some t ∧ more s = true ∧ s.chars = chars := by
    intro j hj
    simp only [htest, sameAtom, Option.any_eq_true, Bool.and_eq_true, decide_eq_true_eq] at hj
    obtain ⟨⟨s, hs, ⟨hh, hat⟩, hc⟩, s', hs', hm⟩ := hj
    cases hs.symm.trans hs'
    exact ⟨s, hs, hh, hat, hm, hc⟩
  obtain ⟨i, hi, hfound, hnone⟩ := hok.findHashed (atomHashOf t chars) f fun j hj => by
    obtain ⟨s, hs, hh, -⟩ := hpass hj
    rw [hashOf, hs, Option.map_some, hh]
  refine ⟨i, hi, fun hne => ?_, fun h0 j s hj hs ht hm hc => ?_⟩
  · obtain ⟨hi, hpi⟩ := hfound hne
    obtain ⟨s, hs, -, hrest⟩ := hpass hpi
    exact ⟨hi, s, hs, hrest⟩
  · have hno := hnone h0 j hj
    obtain ⟨d, hd, -, hh⟩ := hok.hashed_entry hj hs
    obtain ⟨h1, h2, -⟩ := JSString.data?_eq hd
    have htd : d.type = t := Option.some.inj (h1.symm.trans ht)
    simp [htest, sameAtom_eq hs hd, hs, hm, hh, htd, ← h2, hc] at hno

/-- The lookup of `__JS_NewAtom`: the atom with this type and text, or 0 if there is none. -/
theorem Runtime.Ok.findHashed_same {t : AtomType} (chars : List Nat) :
    ∃ i, rt.findHashed (atomHashOf t chars) (rt.sameAtom t (atomHashOf t chars) chars) = some i ∧
      (i ≠ 0 → rt.Hashed ids ids' i ∧
        ∃ s, rt.atom i = some s ∧ s.atomType = some t ∧ s.chars = chars) ∧
      (i = 0 → ∀ j s, rt.Hashed ids ids' j → rt.atom j = some s → s.atomType = some t →
        s.chars ≠ chars) := by
  obtain ⟨i, hi, hfound, hnone⟩ := hok.findHashed_any (t := t) chars (fun _ => true)
    (f := rt.sameAtom t (atomHashOf t chars) chars) (funext fun i => by
      cases h : rt.atom i <;> simp [sameAtom, h])
  simp only [true_and, forall_const] at hfound hnone
  exact ⟨i, hi, hfound, hnone⟩

/-- `__JS_FindAtom` finds the narrow string atom with the text, if there is one. -/
theorem Runtime.Ok.findAtom (chars : List Nat) :
    ∃ i rt', rt.findAtom chars = some (i, rt') ∧
      (i ≠ 0 → rt.Hashed ids ids' i ∧ ∃ s, rt.atom i = some s ∧ s.atomType = some .string ∧
        s.isWide = false ∧ s.chars = chars) ∧
      (i = 0 → rt' = rt ∧ ∀ j s, rt.Hashed ids ids' j → rt.atom j = some s →
        s.atomType = some .string → s.isWide = false → s.chars ≠ chars) := by
  obtain ⟨i, hi, hfound, hnone⟩ := hok.findHashed_any (t := .string) chars (!·.isWide) rfl
  simp only [Bool.not_eq_true'] at hfound hnone
  by_cases h0 : i = 0
  · subst h0
    exact ⟨0, rt, by simp [Runtime.findAtom, hi], fun h => absurd rfl h, fun _ => ⟨rfl, hnone rfl⟩⟩
  · obtain ⟨-, s, hs, -⟩ := hfound h0
    obtain ⟨q, hq, -⟩ := Option.bind_eq_some_iff.1 hs
    refine ⟨i, if atomIsConst i then rt else rt.rcInc q, ?_, hfound, fun h => absurd h h0⟩
    simp only [Runtime.findAtom, hi, Option.bind_some]
    by_cases hc : atomIsConst i = true
    · simp [hc]
    · simp [h0, hc, hq]

end

/-! ## Interning -/

/-- What `__JS_NewAtom` of a string returns: the atom the string is, the one with its text, or a new
one. -/
theorem Runtime.newHashed_cases {rt' : Runtime} {t : AtomType} {a : Allocs}
    (hr : rt.newHashed p s t a = some (i, rt')) :
    s.atomType = some t ∧ rt.getAtomIndex p s = some i ∧
        rt' = (if atomIsConst i then (rt.rcDec p).2 else rt) ∨
      s.atomType ≠ some t ∧ ∃ j, rt.findHashed (atomHashOf t s.chars)
          (rt.sameAtom t (atomHashOf t s.chars) s.chars) = some j ∧
        (j ≠ 0 ∧ i = j ∧ (∃ q, (if atomIsConst j then rt else rt.rcInc q).freeString p = some rt') ∨
          j = 0 ∧ rt.createAtom (some p) t (atomHashOf t s.chars) a = some (i, rt')) := by
  unfold newHashed at hr
  split at hr
  · next hat =>
    obtain ⟨j, hj, ⟨⟩⟩ := Option.map_eq_some_iff.1 hr
    exact .inl ⟨hat, hj, rfl⟩
  next hat =>
  obtain ⟨j, hj, hr⟩ := Option.bind_eq_some_iff.1 hr
  refine .inr ⟨hat, j, hj, ?_⟩
  split at hr
  · next hj0 =>
    obtain ⟨q, -, hr⟩ := Option.bind_eq_some_iff.1 hr
    obtain ⟨rt1, hfree, ⟨⟩⟩ := Option.map_eq_some_iff.1 hr
    exact .inl ⟨hj0, rfl, q, hfree⟩
  · next hj0 => exact .inr ⟨not_not.1 hj0, hr⟩

end

end ArenaJs.Atoms
