import ArenaJs.Atoms.Frame
import ArenaJs.Atoms.Canonical
import ArenaJs.Atoms.Utf8

/-!
# Names by bytes

`JS_NewAtomLen` interns a name given as UTF-8. Before it decodes the bytes it looks for an atom
whose text is the bytes themselves, with `__JS_FindAtom`. For ASCII that is the same text, and the
atom is the one that interning the decoded string returns. For other bytes it is another text: if it
happens to be interned as a narrow string, its atom is returned instead (`name_lookup_agrees`).
-/

namespace ArenaJs.Atoms

/-- `JS_ATOM_empty_string`. -/
def emptyStringAtom : Nat := 48

/-- `JS_STRING_LEN_MAX`. -/
def stringLenMax : Nat := 2 ^ 30 - 1

namespace Runtime

/-- `JS_NewStringLen`: no string is an exception. `granted` says whether memory is there. -/
def newStringLen (rt : Runtime) (buf : List Nat) (granted : Bool) :
    Option (Option StrPtr × Runtime) :=
  if buf = [] then
    -- `js_empty_string`
    (rt.atomStruct emptyStringAtom).map fun p => (some p, rt.rcInc p)
  else
    let (isWide, len, chars) := decodeText buf
    if stringLenMax < len then some (none, rt)
    else if !granted then some (none, rt)
    else
      let (p, rt) := rt.allocStr ⟨isWide, chars, 0, none, 0, 1, none⟩
      some (some p, rt)

/-- `JS_NewAtomLen`. -/
def newAtomLen (rt : Runtime) (buf : List Nat) (granted : Bool) (a : Allocs) :
    Option (Nat × Runtime) :=
  (if buf = [] ∨ isNum (buf.headD 0) = false then rt.findAtom buf else some (0, rt)).bind
    fun (i, rt) =>
      if i ≠ 0 then some (i, rt)
      else (rt.newStringLen buf granted).bind fun
        | (none, rt) => some (0, rt)
        | (some p, rt) => rt.newAtomStr p a

/-- A narrow string atom with this text is on a chain of one of the tables. -/
def RawName (rt : Runtime) (chars : List Nat) : Prop :=
  ∃ heads, (heads = rt.base.atomHash ∨ heads = rt.req.hashOverlay) ∧ ∃ h ∈ heads, ∃ l,
    Chain rt.nextOf h l ∧ ∃ i ∈ l, ∃ s, rt.atom i = some s ∧ s.atomType = some .string ∧
      s.isWide = false ∧ s.chars = chars

/-- What `JS_InitAtoms` sees to, of the empty string. -/
def HasEmptyString (rt : Runtime) : Prop :=
  ∃ p s, rt.base.slot emptyStringAtom = some p ∧ rt.base.str p = some s ∧
    s.atomType = some .string ∧ s.chars = []

end Runtime

section
variable {Q : TextPred} {rt rt' : Runtime} {ids ids' : Nat → List Nat} {skip : StrPtr → Prop}
  {p q : StrPtr} {s : JSString} {i k : Nat} {a : Allocs} {chars : List Nat}
variable {t : JSString} {v : Nat}

/-! ## Lookups -/

/-- The narrow string atoms on the chains. -/
theorem Runtime.Ok.rawName_iff (hok : rt.Ok Q ids ids') : rt.RawName chars ↔
    ∃ i s, rt.Hashed ids ids' i ∧ rt.atom i = some s ∧ s.atomType = some .string ∧
      s.isWide = false ∧ s.chars = chars := by
  constructor
  · rintro ⟨heads, hheads, v, hv, l, hc, i, hi, s, hs⟩
    rcases hheads with rfl | rfl
    · exact ⟨i, s, .inl (Runtime.mem_of_chain hok.tableBase.index hv hc hi), hs⟩
    · exact ⟨i, s, .inr (Runtime.mem_of_chain hok.tableReq.index hv hc hi), hs⟩
  · rintro ⟨i, s, hi, hs⟩
    rcases hi with ⟨b, hb, hi⟩ | ⟨b, hb, hi⟩
    · exact ⟨_, .inl rfl, _, List.getElem_mem hb, _,
        hok.tableBase.index.chain (List.getElem?_eq_getElem hb), i, hi, s, hs⟩
    · exact ⟨_, .inr rfl, _, List.getElem_mem hb, _,
        hok.tableReq.index.chain (List.getElem?_eq_getElem hb), i, hi, s, hs⟩

/-! ## A new string -/

/-- A string that is not an atom and that nothing else holds. -/
structure Plain (rt : Runtime) (p : StrPtr) (s : JSString) : Prop where
  str : rt.str p = some s
  type : s.atomType = none
  parent : s.parent = none
  count : s.refCount = 1
  owned : rt.ptrIsBase p = false

/-- `js_alloc_string`. -/
theorem Runtime.allocStr_plain (rt : Runtime) (hs : s.atomType = none) (hpar : s.parent = none)
    (hcount : s.refCount = 1) : Plain (rt.allocStr s).2 (rt.allocStr s).1 s ∧
      (∀ q t, rt.str q = some t → q ≠ (rt.allocStr s).1 ∧ (rt.allocStr s).2.str q = some t) ∧
      (rt.allocStr s).2.atomStruct = rt.atomStruct := by
  unfold Runtime.allocStr
  split
  · rename_i harena
    refine ⟨⟨by simp [Runtime.str], hs, hpar, hcount, by simp [Runtime.ptrIsBase, StrPtr.isBase]⟩,
      fun q t hq => ?_, rfl⟩
    cases q with
    | base n => exact ⟨by simp, hq⟩
    | req n =>
      have hn := (List.getElem?_eq_some_iff.1 (Option.join_eq_some_iff.1 hq)).1
      refine ⟨by simp; omega, ?_⟩
      simp only [Runtime.str] at hq ⊢
      rw [List.getElem?_append_left hn, hq]
  · rename_i harena
    refine ⟨⟨by simp [Runtime.str], hs, hpar, hcount, by simp [Runtime.ptrIsBase, harena]⟩,
      fun q t hq => ?_, rfl⟩
    cases q with
    | req n => exact ⟨by simp, hq⟩
    | base n =>
      have hn := (List.getElem?_eq_some_iff.1 (Option.join_eq_some_iff.1 hq)).1
      refine ⟨by simp; omega, ?_⟩
      simp only [Runtime.str] at hq ⊢
      rw [List.getElem?_append_left hn, hq]

/-- Releasing it returns. -/
theorem Plain.freeString (h : Plain rt p s) : ∃ rt', rt.freeString p = some rt' := by
  have hmod : (rt.modStr p fun s => { s with refCount := s.refCount - 1 }).str p =
      some { s with refCount := s.refCount - 1 } := by
    rw [Runtime.modStr, Runtime.str_setStr h.str, if_pos rfl, h.str, Option.map_some]
  simp only [Runtime.freeString, Runtime.rcDec, h.owned, Bool.false_eq_true, if_false, h.str,
    Option.map_some, Option.getD_some, h.count, Int.sub_self, Int.le_refl, if_true, hmod,
    Option.bind_some, h.type, Option.isSome_none, Runtime.releaseParent, h.parent]
  exact ⟨_, rfl⟩

/-- Another struct gets a reference. -/
theorem Plain.rcInc (h : Plain rt p s) (hq : rt.str q = some t) (hne : p ≠ q) :
    Plain (rt.rcInc q) p s := by
  unfold Runtime.rcInc
  split
  · exact h
  · refine ⟨?_, h.type, h.parent, h.count, ?_⟩
    · rw [Runtime.modStr, Runtime.str_setStr hq, if_neg hne, h.str]
    · have hown := h.owned
      cases q <;> exact hown

/-- A text that does not start with a digit is no number. -/
theorem smallInt_of_head (h : isNum (chars.headD 0) = false) : smallInt chars = false := by
  cases chars with
  | nil => rfl
  | cons c cs =>
    have hc : isNum c = false := h
    simp [smallInt, isNumString, hc]

/-- Interning a new string whose text is interned returns the atom there is. -/
theorem Plain.newAtomStr_known (h : Plain rt p s) (hok : rt.Ok Q ids ids')
    (hsmall : smallInt s.chars = false) (hi : rt.Hashed ids ids' i) (ht : rt.atom i = some t)
    (hat : t.atomType = some .string) (hc : t.chars = s.chars) (a : Allocs) :
    (rt.newAtomStr p a).map Prod.fst = some i := by
  obtain ⟨j, hj, hfound, hnone⟩ := @Runtime.Ok.findHashed_same Q rt ids ids' hok .string s.chars
  have h0 : j ≠ 0 := fun h0 => hnone h0 i t hi ht hat hc
  obtain ⟨hjm, t', ht', hat', hc'⟩ := hfound h0
  obtain rfl := hok.hashed_unique hjm hi ht' ht (hat'.trans hat.symm) (hc'.trans hc.symm)
  obtain ⟨q, hq, hqt⟩ := Option.bind_eq_some_iff.1 ht
  have hne : p ≠ q := by
    rintro rfl
    rw [Option.some.inj (hqt.symm.trans h.str), h.type] at hat
    cases hat
  have hfree : ∃ rt', (if atomIsConst j then rt else rt.rcInc q).freeString p = some rt' := by
    split
    · exact h.freeString
    · exact (h.rcInc hqt hne).freeString
  obtain ⟨rt', hfree⟩ := hfree
  rw [Runtime.newAtomStr_of_not_small h.str hsmall]
  simp [Runtime.newAtom, h.str, Runtime.newHashed, h.type, hj, h0, hq, hfree]

/-- Interning a new string does not return the atom of another text. -/
theorem Plain.newAtomStr_other (h : Plain rt p s) (hok : rt.Ok Q ids ids')
    (hlow : i < tagInt)
    (hfresh : ∀ {v k rt'}, rt.createAtom (some p) .string v a = some (k, rt') → k ≠ i)
    (ht : rt.atom i = some t) (hc : t.chars ≠ s.chars) :
    (rt.newAtomStr p a).map Prod.fst ≠ some i := by
  intro heq
  obtain ⟨⟨k, rt'⟩, hr, hk⟩ := Option.map_eq_some_iff.1 heq
  clear heq
  obtain rfl : k = i := hk
  cases hsmall : smallInt s.chars with
  | true =>
    obtain ⟨n, hn, hle⟩ := (Option.any_eq_true ..).1 hsmall
    have hle' : n ≤ maxInt := by simpa using hle
    simp only [Runtime.newAtomStr, h.str, Option.bind_some, hn, if_pos hle'] at hr
    obtain ⟨rt1, -, hr⟩ := Option.map_eq_some_iff.1 hr
    have hk := (Prod.mk.inj hr).1
    simp only [atomFromUInt32] at hk
    omega
  | false =>
    rw [Runtime.newAtomStr_of_not_small h.str hsmall] at hr
    obtain ⟨j, hj, hfound, -⟩ := @Runtime.Ok.findHashed_same Q rt ids ids' hok .string s.chars
    simp only [Runtime.newAtom, Option.bind_some, h.str, Runtime.newHashed, h.type, reduceCtorEq,
      if_false, hj] at hr
    split at hr
    · rename_i h0
      obtain ⟨q, -, hr⟩ := Option.bind_eq_some_iff.1 hr
      obtain ⟨rt1, -, hr⟩ := Option.map_eq_some_iff.1 hr
      obtain ⟨rfl, -⟩ := Prod.mk.inj hr
      obtain ⟨-, t', ht', -, hc'⟩ := hfound h0
      exact hc (Option.some.inj (ht.symm.trans ht') ▸ hc')
    · exact hfresh hr rfl

/-! ## New numbers -/

theorem Runtime.newAtomFail_number {str : Option StrPtr} (h : rt.newAtomFail str = some (k, rt')) :
    k = 0 := by
  cases str with
  | none => exact ((Prod.mk.inj (Option.some.inj h)).1).symm
  | some p =>
    obtain ⟨rt1, -, h⟩ := Option.map_eq_some_iff.1 h
    exact (Prod.mk.inj h).1.symm

/-- The number of a new atom is that of the slot that was taken. -/
theorem Runtime.installAtom_number {str : Option StrPtr} {t : AtomType}
    (h : rt.installAtom str p t v a = some (k, rt')) :
    k = 0 ∨ ∃ rt1, rt.takeSlot p a = some (.ok (k, rt1)) := by
  obtain ⟨r, htake, h⟩ := Option.bind_eq_some_iff.1 h
  cases r with
  | error rt1 => exact .inl (newAtomFail_number h)
  | ok r =>
    obtain ⟨j, rt1⟩ := r
    simp only at h
    split at h
    · exact .inr ⟨rt1, (Prod.mk.inj (Option.some.inj h)).1 ▸ htake⟩
    · obtain ⟨r, -, h⟩ := Option.bind_eq_some_iff.1 h
      cases r with
      | error rt2 => exact .inl (newAtomFail_number h)
      | ok rt2 => exact .inr ⟨rt1, (Prod.mk.inj (Option.some.inj h)).1 ▸ htake⟩

/-- A string that is not an atom becomes one in place. -/
theorem Runtime.createAtom_number {t : AtomType} {rt1 : Runtime}
    (hgrow : rt.growAtomArray a = .ok rt1) (hs : rt1.str p = some s) (hat : s.atomType = none)
    (h : rt.createAtom (some p) t v a = some (k, rt')) :
    k = 0 ∨ ∃ rt2, (rt1.modStr p fun s => { s with atomType := some t }).takeSlot p a =
      some (.ok (k, rt2)) := by
  simp only [Runtime.createAtom, hgrow, Runtime.atomBlock, hs, Option.bind_some, hat, if_true] at h
  exact Runtime.installAtom_number h

/-- After the freeze a new atom gets a number there was no atom for. -/
theorem Frozen.createAtom_new (h : Frozen Q rt ids ids' skip) (hp : Plain rt p s)
    (hbase : 1 < rt.req.overlayBase) (hi : rt.atomStruct i = some q) (hi0 : i ≠ 0)
    (hr : rt.createAtom (some p) .string v a = some (k, rt')) : k ≠ i := by
  have hgrow : rt.growAtomArray a = .ok rt := by simp [Runtime.growAtomArray, h.arena]
  rintro rfl
  have hlow := h.low
  simp only [tagInt] at hlow
  rcases Runtime.createAtom_number hgrow hp.str hp.type hr with h0 | ⟨rt2, htake⟩
  · exact hi0 h0
  · have hfields : (rt.modStr p fun s => { s with atomType := some .string }).isArena = true ∧
        OverlayOk (rt.modStr p fun s => { s with atomType := some .string }).req ∧
        (rt.modStr p fun s => { s with atomType := some .string }).req.overlayBase =
          rt.req.overlayBase ∧
        (rt.modStr p fun s => { s with atomType := some .string }).req.overlayCount =
          rt.req.overlayCount := by
      have hshape := h.shape
      cases p <;> exact ⟨h.arena, hshape.congr rfl rfl rfl, rfl, rfl⟩
    obtain ⟨harena, hshape, hob, hoc⟩ := hfields
    rcases hshape.takeSlot harena (by omega) (by omega) with ⟨-, herr⟩ | ⟨-, r', hok, -⟩
    · rw [herr] at htake
      cases htake
    · rw [hok, hob, hoc] at htake
      have hk := (Prod.mk.inj (Except.ok.inj (Option.some.inj htake))).1
      rw [Runtime.atomStruct, if_neg (by omega)] at hi
      obtain ⟨sl, hsl, hptr⟩ := Option.bind_eq_some_iff.1 hi
      obtain ⟨p', rfl⟩ : ∃ p', sl = .atom p' := by
        cases sl with
        | atom p' => exact ⟨p', rfl⟩
        | null => cases hptr
        | free n => cases hptr
      have hused := (h.shape.used_iff (List.getElem?_eq_some_iff.1 hsl).1).1 ⟨p', hsl⟩
      omega

/-- Before the freeze too. -/
theorem Pre.createAtom_new {free : List Nat} (h : Pre Q rt ids free skip)
    (hp : Plain rt p s) (hlen : rt.base.atomArray ≠ []) (hi : rt.atomStruct i = some q)
    (hi0 : i ≠ 0) (hr : rt.createAtom (some p) .string v a = some (k, rt')) : k ≠ i := by
  rintro rfl
  rw [h.atomStruct_eq] at hi
  obtain ⟨sl, hsl, hptr⟩ := Option.bind_eq_some_iff.1 hi
  cases hgrow : rt.growAtomArray a with
  | error rt1 =>
    rw [Runtime.createAtom, hgrow] at hr
    exact hi0 (Runtime.newAtomFail_number hr)
  | ok rt1 =>
    -- the array has grown at its end, if at all
    obtain ⟨more, hstr, harr⟩ : ∃ more, rt1.str = rt.str ∧
        rt1.isArena = false ∧ rt1.base.atomArray = rt.base.atomArray ++ more := by
      have hlen' : rt.base.atomArray.length ≠ 0 := by simpa using hlen
      simp only [Runtime.growAtomArray, if_neg hlen'] at hgrow
      split_ifs at hgrow
      · cases hgrow
        exact ⟨_, rfl, h.arena, rfl⟩
      · cases hgrow
        exact ⟨[], rfl, h.arena, (List.append_nil _).symm⟩
    rcases Runtime.createAtom_number hgrow (by rw [hstr]; exact hp.str) hp.type hr with
      h0 | ⟨rt2, htake⟩
    · exact hi0 h0
    · have hfields : (rt1.modStr p fun s => { s with atomType := some .string }).isArena = false ∧
          (rt1.modStr p fun s => { s with atomType := some .string }).base.atomArray =
            rt.base.atomArray ++ more := by
        cases p <;> exact harr
      rw [Runtime.takeSlot, if_neg (by simp [hfields.1]), hfields.2] at htake
      obtain ⟨next, hnext, htake⟩ := Option.map_eq_some_iff.1 htake
      have hk := (Prod.mk.inj (Except.ok.inj htake)).1
      rw [hk, List.getElem?_append_left (List.getElem?_eq_some_iff.1 hsl).1, hsl] at hnext
      cases sl <;> simp [Slot.next?, Slot.ptr?] at hnext hptr

/-! ## Before and after the freeze -/

/-- What lookups and new strings need of a state, before the freeze or after it. -/
structure Settled (rt : Runtime) (ids ids' : Nat → List Nat) : Prop where
  ok : rt.Ok NoNum ids ids'
  low : ∀ {i q}, rt.atomStruct i = some q → i < tagInt
  new : ∀ {p s i q a v k rt'}, Plain rt p s → rt.atomStruct i = some q → i ≠ 0 →
    rt.createAtom (some p) .string v a = some (k, rt') → k ≠ i
  index : ∀ {p s}, rt.base.str p = some s → s.atomType = some .string →
    ∃ i, rt.getAtomIndex p s = some i ∧ rt.atomStruct i = some p ∧ rt.Hashed ids ids' i

theorem Frozen.settled (h : Frozen NoNum rt ids ids' skip) (hbase : 1 < rt.base.atomArray.length) :
    Settled rt ids ids' := by
  refine ⟨h.ok, h.struct_lt, fun hp hi hi0 hr => ?_, fun {p s} hs hat => ?_⟩
  · exact h.createAtom_new hp (by rw [h.first]; exact hbase) hi hi0 hr
  · obtain ⟨i, hi, hstruct, hmem⟩ := h.getAtomIndex (Runtime.str_base hs) (by rw [hat]; exact nofun)
      (fun hp => by
        cases p with
        | base n => cases hp
        | req n => cases hs)
    exact ⟨i, hi, hstruct, hmem (by rw [hat]; exact nofun)⟩

theorem Pre.settled {free : List Nat} (h : Pre NoNum rt ids free fun _ => False)
    (hbase : 1 < rt.base.atomArray.length) : Settled rt ids fun _ => [] := by
  refine ⟨h.ok, fun {i q} hi => ?_, fun hp hi hi0 hr => ?_, fun {p s} hs hat => ?_⟩
  · rw [h.atomStruct_eq] at hi
    have hlt := Snapshot.slot_lt hi
    have hlen := h.len
    simp only [atomMax, tagInt] at hlen ⊢
    omega
  · refine h.createAtom_new hp (fun hnil => ?_) hi hi0 hr
    rw [hnil] at hbase
    cases hbase
  · obtain ⟨d, hd⟩ := JSString.data?_of_isSome (show s.atomType.isSome = true by rw [hat]; rfl)
    obtain ⟨i, hi, hstruct, hmem⟩ := h.ok.tableBase.getAtomIndex (p := p)
      (fun _ => if_neg (by simp [h.req, Request.initial])) (Runtime.str_base hs) hd
      (h.complete p d (by rw [Snapshot.data, hs, Option.bind_some, hd]) id)
    exact ⟨i, hi, hstruct, .inl (hmem (by simp [hat]))⟩

/-- The states of runs that spare the snapshot, and those one string further. -/
theorem Reach.settled (h : Reach (fun rt op => op.Sparing rt) rt) (hempty : rt.HasEmptyString) :
    ∃ ids ids', Settled rt ids ids' ∧
      (∀ s, s.atomType = none → Settled (rt.allocStr s).2 ids ids') ∧
      ∀ p, Settled (rt.rcInc p) ids ids' := by
  have hlen : 1 < rt.base.atomArray.length := by
    obtain ⟨p, s, hslot, -⟩ := hempty
    exact Nat.lt_of_le_of_lt (by decide) (Snapshot.slot_lt hslot)
  rcases h.inv admits_sparing with ⟨ids, free, hpre⟩ | ⟨ids, ids', hf⟩
  · refine ⟨ids, fun _ => [], hpre.settled hlen, fun s hs => ?_, fun p => ?_⟩
    · refine (hpre.allocStr hs).1.settled ?_
      rw [(hpre.allocStr_str (s := s)).1]
      exact hlen
    · refine (hpre.rcInc p).1.settled ?_
      unfold Runtime.rcInc
      split
      · exact hlen
      · cases p <;> exact hlen
  · refine ⟨ids, ids', hf.settled hlen, fun s hs => ?_, fun p => ?_⟩
    · have hq := Runtime.allocStr_quiet hf.arena hs
      exact (hf.quiet hq).settled (by rw [hq.base]; exact hlen)
    · have hq := Runtime.rcInc_quiet hf.arena p
      exact (hf.quiet hq).settled (by rw [hq.base]; exact hlen)

/-! ## The two ways -/

/-- A reference to a struct changes no table. -/
theorem Runtime.rcInc_tables (rt : Runtime) (p : StrPtr) :
    (rt.rcInc p).atomStruct = rt.atomStruct ∧ (rt.rcInc p).Hashed = rt.Hashed := by
  unfold Runtime.rcInc
  split
  · exact ⟨rfl, rfl⟩
  · cases p <;> exact ⟨rfl, rfl⟩

/-- Interning the empty string that `JS_NewStringLen` returns. -/
theorem Settled.newAtomStr_empty (h : Settled (rt.rcInc p) ids ids')
    (hslot : rt.atomStruct emptyStringAtom = some p) (hs : rt.base.str p = some s)
    (hat : s.atomType = some .string) (hc : s.chars = []) (hi : rt.Hashed ids ids' i)
    (ht : rt.atom i = some t) (htt : t.atomType = some .string) (htc : t.chars = []) :
    ((rt.rcInc p).newAtomStr p a).map Prod.fst = some i := by
  obtain ⟨hstruct, hhashed⟩ := Runtime.rcInc_tables rt p
  obtain ⟨s', hs', hlike⟩ := Runtime.rcInc_live (Runtime.str_base hs) p
  have hbase : (rt.rcInc p).base.str p = some s' := by
    cases p with
    | base n => exact hs'
    | req n => cases hs
  obtain ⟨j, hj, hjs, hjm⟩ := h.index hbase (hlike.atomType.trans hat)
  obtain ⟨q, hq, hqt⟩ := Option.bind_eq_some_iff.1 ht
  obtain ⟨t', ht', hlike'⟩ := Runtime.rcInc_live hqt p
  have hji : j = i := by
    have hja : (rt.rcInc p).atom j = some s' := by rw [Runtime.atom, hjs, Option.bind_some, hs']
    have hia : (rt.rcInc p).atom i = some t' := by
      rw [Runtime.atom, hstruct, hq, Option.bind_some, ht']
    refine h.ok.hashed_unique hjm (hhashed ▸ hi) hja hia ?_ ?_
    · rw [hlike.atomType, hat, hlike'.atomType, htt]
    · rw [hlike.chars, hc, hlike'.chars, htc]
  have hsmall : smallInt s'.chars = false := by rw [hlike.chars, hc]; rfl
  rw [Runtime.newAtomStr_of_not_small hs' hsmall]
  simp [Runtime.newAtom, hs', Runtime.newHashed, hlike.atomType, hat, hj, hji]

/-- Where the bytes are interned as they are, interning the decoded string returns that atom if they
are ASCII, and not otherwise. -/
theorem Settled.newAtomStr_raw {rt1 : Runtime} {buf : List Nat}
    (hset : Settled rt ids ids')
    (halloc : ∀ s, s.atomType = none → Settled (rt.allocStr s).2 ids ids')
    (hinc : ∀ p, Settled (rt.rcInc p) ids ids') (hempty : rt.HasEmptyString)
    (hb : ∀ c ∈ buf, c < 0x100) (hdigit : isNum (buf.headD 0) = false)
    (hstr : rt.newStringLen buf true = some (some p, rt1)) (hi : rt.Hashed ids ids' i) (hi0 : i ≠ 0)
    (ht : rt.atom i = some t) (hat : t.atomType = some .string) (hc : t.chars = buf) :
    (rt1.newAtomStr p a).map Prod.fst = some i ↔ ∀ c ∈ buf, c < 0x80 := by
  obtain ⟨q, hq, hqt⟩ := Option.bind_eq_some_iff.1 ht
  by_cases hnil : buf = []
  · subst hnil
    obtain ⟨p', s', hslot, hs', hat', hc'⟩ := hempty
    have hstruct := Runtime.atomStruct_base hset.ok.bound hslot
    simp only [Runtime.newStringLen, if_true, hstruct, Option.map_some, Option.some.injEq,
      Prod.mk.injEq] at hstr
    obtain ⟨rfl, rfl⟩ := hstr
    have hres := (hinc p').newAtomStr_empty (a := a) hstruct hs' hat' hc' hi ht hat hc
    simp [hres]
  · rcases hdec : decodeText buf with ⟨isWide, len, chars⟩
    rw [← decodeText_eq_iff hb, hdec]
    simp only [Runtime.newStringLen, if_neg hnil, hdec, Bool.not_true, Bool.false_eq_true,
      if_false] at hstr
    split at hstr
    · cases hstr
    · generalize hnew : (⟨isWide, chars, 0, none, 0, 1, none⟩ : JSString) = new at hstr
      obtain ⟨hp, hold, hstruct⟩ := rt.allocStr_plain (s := new) (by rw [← hnew])
        (by rw [← hnew]) (by rw [← hnew])
      have hset1 := halloc new (by rw [← hnew])
      have hhashed : (rt.allocStr new).2.Hashed = rt.Hashed := by
        unfold Runtime.allocStr
        split <;> rfl
      generalize rt.allocStr new = r at hstr hp hold hstruct hset1 hhashed
      obtain ⟨p', rt'⟩ := r
      simp only [Option.some.injEq, Prod.mk.injEq] at hstr
      obtain ⟨rfl, rfl⟩ := hstr
      have ht1 : rt'.atom i = some t := by
        rw [Runtime.atom, hstruct, hq, Option.bind_some, (hold q t hqt).2]
      have hchars : new.chars = chars := by rw [← hnew]
      constructor
      · intro hres
        by_contra hne
        refine hp.newAtomStr_other hset1.ok (hset.low hq) ?_ ht1 ?_ hres
        · exact fun hr => hset1.new hp (by rw [hstruct]; exact hq) hi0 hr
        · rw [hc, hchars]
          exact Ne.symm hne
      · intro heq
        have hce : chars = buf := heq
        refine hp.newAtomStr_known hset1.ok (smallInt_of_head ?_) (hhashed ▸ hi) ht1 hat ?_ a
        · rw [hchars, hce]
          exact hdigit
        · rw [hc, hchars, hce]

end

/-- **Looking a name up by its bytes.** In every state that a run reaches that spares the snapshot:
`JS_NewAtomLen` returns what `JS_NewAtomStr` returns for the string that `JS_NewStringLen` makes of
the bytes, unless the bytes do not start with a digit, are not ASCII, and are themselves the text of
a narrow string atom. -/
theorem name_lookup_agrees {rt rt1 : Runtime} {p : StrPtr}
    (h : Reach (fun rt op => op.Sparing rt) rt) (hempty : rt.HasEmptyString) (bytes : List UInt8)
    (a : Allocs) (hstr : rt.newStringLen (bytes.map UInt8.toNat) true = some (some p, rt1)) :
    (rt.newAtomLen (bytes.map UInt8.toNat) true a).map Prod.fst =
        (rt1.newAtomStr p a).map Prod.fst ↔
      ¬ (isNum ((bytes.map UInt8.toNat).headD 0) = false ∧ (∃ b ∈ bytes, 0x80 ≤ b) ∧
        rt.RawName (bytes.map UInt8.toNat)) := by
  obtain ⟨ids, ids', hset, halloc, hinc⟩ := h.settled hempty
  have hb : ∀ c ∈ bytes.map UInt8.toNat, c < 0x100 := by
    intro c hc
    obtain ⟨b, -, rfl⟩ := List.mem_map.1 hc
    exact b.toNat_lt
  have hascii : (∀ c ∈ bytes.map UInt8.toNat, c < 0x80) ↔ ¬ ∃ b ∈ bytes, 0x80 ≤ b := by
    simp [UInt8.le_iff_toNat_le]
  rw [Runtime.newAtomLen]
  generalize bytes.map UInt8.toNat = buf at *
  cases hdigit : isNum (buf.headD 0) with
  | true =>
    have hne : ¬ (buf = [] ∨ true = false) := by
      rintro (rfl | h)
      · cases hdigit
      · cases h
    rw [if_neg hne]
    simp [hstr]
  | false =>
    obtain ⟨i, rt', hfind, hfound, hnone⟩ := hset.ok.findAtom buf
    rw [if_pos (.inr rfl), hfind, Option.bind_some]
    by_cases h0 : i = 0
    · obtain ⟨rfl, hno⟩ := hnone h0
      have hraw : ¬ rt'.RawName buf := fun hraw => by
        obtain ⟨j, s, hj, hs, hat, hw, hc⟩ := hset.ok.rawName_iff.1 hraw
        exact hno j s hj hs hat hw hc
      simp [h0, hstr, hraw]
    · obtain ⟨hi, t, ht, hat, hw, hc⟩ := hfound h0
      have hraw : rt.RawName buf := hset.ok.rawName_iff.2 ⟨i, t, hi, ht, hat, hw, hc⟩
      have hres := Settled.newAtomStr_raw (a := a) hset halloc hinc hempty hb hdigit hstr hi
        h0 ht hat hc
      simp only [ne_eq, h0, not_false_eq_true, if_true, Option.map_some, hraw, true_and, and_true]
      rw [eq_comm, hres, hascii]

/-- The predefined atoms up to the empty string, with symbols for the others, then the atom of two
Latin-1 letters, and the freeze. -/
def twoLetters : List Op :=
  List.replicate 47 (.newAtom none .symbol allOk) ++
    [.string false [] none, .newAtomStr (.base 48) allOk, .string false [0xC3, 0xA9] none,
      .newAtomStr (.base 49) allOk, .freeze]

/-- The run gets there. -/
theorem twoLetters_reach : ∃ rt ∈ runOps Runtime.initial twoLetters,
    Reach (fun rt op => op.Sparing rt) rt ∧ rt.isArena = true ∧ rt.HasEmptyString ∧
      (∃ r ∈ rt.newStringLen [0xC3, 0xA9] true, ∃ p ∈ r.1,
        (rt.newAtomLen [0xC3, 0xA9] true allOk).map Prod.fst = some 49 ∧
          (r.2.newAtomStr p allOk).map Prod.fst = some 712) ∧
      ∃ r ∈ rt.newStringLen [97] true, ∃ p ∈ r.1,
        (r.2.newAtomStr p allOk).map Prod.fst = some 712 := by
  have hrun : ∃ rt ∈ runOps Runtime.initial twoLetters, rt.isArena = true ∧
      (∃ p ∈ rt.base.slot emptyStringAtom, ∃ s ∈ rt.base.str p,
        s.atomType = some .string ∧ s.chars = []) ∧
      (∃ r ∈ rt.newStringLen [0xC3, 0xA9] true, ∃ p ∈ r.1,
        (rt.newAtomLen [0xC3, 0xA9] true allOk).map Prod.fst = some 49 ∧
          (r.2.newAtomStr p allOk).map Prod.fst = some 712) ∧
      ∃ r ∈ rt.newStringLen [97] true, ∃ p ∈ r.1,
        (r.2.newAtomStr p allOk).map Prod.fst = some 712 := by
    decide +kernel
  obtain ⟨rt, hr, harena, ⟨p, hp, s, hs, hat, hc⟩, hrest⟩ := hrun
  refine ⟨rt, hr, ?_, harena, ⟨p, s, hp, hs, hat, hc⟩, hrest⟩
  exact Reach.runOps (D := fun rt op => op.Valid rt ∧ rt.isArena = false)
    (fun rt op h => h.1.sparing h.2) .refl (by decide +kernel) hr

/-- An ASCII name. -/
theorem name_lookup_agrees_ascii : ∃ rt ∈ runOps Runtime.initial twoLetters,
    (rt.newAtomLen [97] true allOk).map Prod.fst = some 712 := by
  obtain ⟨rt, hr, hreach, -, hempty, -, ⟨o, rt1⟩, hstr, p, hp, hres⟩ := twoLetters_reach
  obtain rfl : o = some p := hp
  refine ⟨rt, hr, ?_⟩
  rw [← hres]
  exact (name_lookup_agrees hreach hempty [97] allOk hstr).2 (by simp)

/-- The bytes of one letter are the Latin-1 text of two: the lookup returns the atom of the two
letters, while interning the string makes an atom of the one. -/
theorem name_lookup_raw_bytes : ∃ rt ∈ runOps Runtime.initial twoLetters,
    Reach (fun rt op => op.Sparing rt) rt ∧ rt.isArena = true ∧ rt.HasEmptyString ∧
      ∃ r ∈ rt.newStringLen [0xC3, 0xA9] true, ∃ p ∈ r.1,
        (rt.newAtomLen [0xC3, 0xA9] true allOk).map Prod.fst = some 49 ∧
          (r.2.newAtomStr p allOk).map Prod.fst = some 712 := by
  obtain ⟨rt, hr, hreach, harena, hempty, hrest, -⟩ := twoLetters_reach
  exact ⟨rt, hr, hreach, harena, hempty, hrest⟩

end ArenaJs.Atoms
