import ArenaJs.Atoms.Intern

/-!
# Runs

An embedder makes strings and atoms, freezes the runtime, and from then on runs requests that do the
same. `Op` are the calls, `Runtime.exec` runs one. `Prefrozen.exec` and `Frozen.exec` are the steps
before and after the freeze; `Reach` collects what runs reach whose steps all meet a condition.
-/

namespace ArenaJs.Atoms

/-- A call into the runtime. -/
inductive Op where
  /-- `js_alloc_string` or, with a parent, `js_sub_string`. -/
  | string (isWide : Bool) (chars : List Nat) (parent : Option StrPtr)
  | dupString (p : StrPtr)
  | freeString (p : StrPtr)
  | newAtom (str : Option StrPtr) (t : AtomType) (a : Allocs)
  | newAtomStr (p : StrPtr) (a : Allocs)
  | valueToAtom (v : Value) (a : Allocs)
  | findAtom (chars : List Nat)
  | dupAtom (i : Nat)
  | freeAtom (i : Nat)
  /-- `JS_FreezeRuntime`. -/
  | freeze
  /-- `JS_ResetRequestArena`, or the selection of a new request. -/
  | request
  deriving DecidableEq, Repr

/-- The state `JS_RelocateReqState` gives a request. -/
def Request.fresh (b : Snapshot) : Request := ⟨[], [], b.atomArray.length, 0, 0, []⟩

namespace Runtime

/-- A new runtime: `JS_ResizeAtomHash` made the chain heads. -/
def initial : Runtime := ⟨false, ⟨[], [], List.replicate 512 0, 0, 0, 1024⟩, Request.initial⟩

/-- One call: its result, 0 where there is none, and the state. -/
def exec (rt : Runtime) : Op → Option (Nat × Runtime)
  | .string w c none => some (0, (rt.allocStr ⟨w, c, 0, none, 0, 1, none⟩).2)
  | .string w c (some q) => some (0, ((rt.rcInc q).allocStr ⟨w, c, 0, none, 0, 1, some q⟩).2)
  | .dupString p => some (0, rt.rcInc p)
  | .freeString p => (rt.freeString p).map fun rt => (0, rt)
  | .newAtom str t a => rt.newAtom str t a
  | .newAtomStr p a => rt.newAtomStr p a
  | .valueToAtom v a => rt.valueToAtomInternal v a
  | .findAtom chars => rt.findAtom chars
  | .dupAtom i => rt.dupAtom i
  | .freeAtom i => (rt.freeAtom i).map fun rt => (0, rt)
  | .freeze =>
    if rt.isArena then none else some (0, { rt with isArena := true, req := Request.fresh rt.base })
  | .request => if rt.isArena then some (0, { rt with req := Request.fresh rt.base }) else none

end Runtime

/-- The string a call makes an atom of, with the type. -/
def Op.interns : Op → Option (StrPtr × AtomType)
  | .newAtom (some p) t _ => some (p, t)
  | .newAtomStr p _ | .valueToAtom (.string p) _ | .valueToAtom (.other (.string p)) _ =>
    some (p, .string)
  | _ => none

/-- No string atom has the text of a small integer. -/
def NoNum (t : AtomType) (_ : Bool) (chars : List Nat) : Prop :=
  t = .string → ∀ m, isNumString chars = some m → maxInt < m

/-- `__JS_NewAtom` itself is not called with the text of a small integer, and without a string only
for symbols. -/
def Op.direct (rt : Runtime) : Op → Bool
  | .newAtom none t _ => !t.hashed
  | .newAtom (some p) t _ => t ≠ .string || !smallInt (rt.textOf (some p))
  | _ => true

/-- What every caller sees to: an interned string is there, and is not the struct of
`JS_ATOM_NULL`. -/
structure Op.Valid (rt : Runtime) (op : Op) : Prop where
  live : ∀ x ∈ op.interns, (rt.str x.1).isSome = true
  null : ∀ x ∈ op.interns, rt.base.slot 0 ≠ some x.1
  direct : op.direct rt = true

instance (rt : Runtime) (op : Op) : Decidable (op.Valid rt) :=
  decidable_of_iff ((∀ x ∈ op.interns, (rt.str x.1).isSome = true) ∧
    (∀ x ∈ op.interns, rt.base.slot 0 ≠ some x.1) ∧ op.direct rt = true)
    ⟨fun h => ⟨h.1, h.2.1, h.2.2⟩, fun h => ⟨h.1, h.2, h.3⟩⟩

section
variable {Q : TextPred} {rt rt' : Runtime} {ids ids' : Nat → List Nat} {skip : StrPtr → Prop}
  {p q : StrPtr} {s : JSString} {i n : Nat} {a : Allocs} {t : AtomType} {op : Op}

theorem Op.Valid.str (hv : op.Valid rt) (hop : op.interns = some (p, t)) :
    ∃ s, rt.str p = some s := Option.isSome_iff_exists.1 (hv.live (p, t) hop)

theorem Op.Valid.slot (hv : op.Valid rt) (hop : op.interns = some (p, t)) :
    rt.base.slot 0 ≠ some p := hv.null (p, t) hop

theorem Op.Valid.noNum (hv : (Op.newAtom (some p) t a).Valid rt) :
    NoNum t (rt.wideOf (some p)) (rt.textOf (some p)) := by
  have hd := hv.direct
  rintro rfl
  exact noNum_of_not_small (by simpa [Op.direct] using hd)

theorem Op.Valid.hashed (hv : (Op.newAtom none t a).Valid rt) : t.hashed = false := by
  simpa [Op.direct] using hv.direct

/-! ## Before the freeze -/

theorem Prefrozen.initial : Prefrozen Q Runtime.initial := by
  refine ⟨fun _ => [], [], rfl, rfl, ?_, fun p d hd => ?_, by decide, Chain.nil, by decide⟩
  · exact TableOk.empty 512 rfl (.inr ⟨9, List.length_replicate ..⟩) fun _ => rfl
  · have hd : none = some d := by cases p <;> exact hd
    cases hd

theorem Prefrozen.arena (h : Prefrozen Q rt) : rt.isArena = false := by
  obtain ⟨ids, free, h⟩ := h
  exact h.arena

theorem Prefrozen.allocStr (h : Prefrozen Q rt) (hs : s.atomType = none) :
    Prefrozen Q (rt.allocStr s).2 := by
  obtain ⟨ids, free, h⟩ := h
  exact ⟨ids, free, (h.allocStr hs).1⟩

theorem Prefrozen.dupAtom (h : Prefrozen Q rt) (hr : rt.dupAtom i = some (n, rt')) :
    Prefrozen Q rt' := by
  unfold Runtime.dupAtom at hr
  split at hr
  · cases hr
    exact h
  · obtain ⟨p, -, ⟨⟩⟩ := Option.map_eq_some_iff.1 hr
    exact h.rcInc p

theorem Prefrozen.findAtom {chars : List Nat} (h : Prefrozen Q rt)
    (hr : rt.findAtom chars = some (n, rt')) : Prefrozen Q rt' := by
  obtain ⟨j, -, hr⟩ := Option.bind_eq_some_iff.1 hr
  split at hr
  · obtain ⟨p, -, ⟨⟩⟩ := Option.map_eq_some_iff.1 hr
    exact h.rcInc p
  · cases hr
    exact h

theorem Prefrozen.freeAtom (h : Prefrozen Q rt) (hr : rt.freeAtom i = some rt') :
    Prefrozen Q rt' := by
  unfold Runtime.freeAtom at hr
  split at hr
  · exact Option.some.inj hr ▸ h
  · obtain ⟨p, hp, hr⟩ := Option.bind_eq_some_iff.1 hr
    obtain ⟨ids, free, h⟩ := h
    obtain ⟨h1, -⟩ := h.rcDec p
    rw [h.atomStruct_eq] at hp
    obtain ⟨d, hd⟩ := h.table.live hp
    obtain ⟨s, hs, hsd⟩ := Option.bind_eq_some_iff.1 hd
    obtain ⟨s', hs', hlike⟩ := Runtime.rcDec_live (Runtime.str_base hs) p
    change (if 0 < (rt.rcDec p).1 then some (rt.rcDec p).2 else (rt.rcDec p).2.freeAtomStruct p) =
      some rt' at hr
    generalize rt.rcDec p = r at hr h1 hs'
    split at hr
    · exact Option.some.inj hr ▸ ⟨ids, free, h1⟩
    · obtain ⟨d', hd'⟩ := JSString.data?_of_isSome (s := s') (by
        rw [hlike.atomType, (JSString.data?_eq hsd).1]; rfl)
      obtain ⟨rt2, ids2, free2, hr2, h2, -⟩ := h1.freeAtomStruct hs' hd' id
      exact Option.some.inj (hr2.symm.trans hr) ▸ ⟨ids2, free2, h2⟩

/-- What a run keeps to: the texts it interns are as `Q` says. -/
def Op.Texts (Q : TextPred) (rt : Runtime) (op : Op) : Prop :=
  ∀ p t, op.interns = some (p, t) → t.hashed = true →
    NoNum t (rt.wideOf (some p)) (rt.textOf (some p)) →
      Q t (rt.wideOf (some p)) (rt.textOf (some p))

theorem Prefrozen.valueToAtom (h : Prefrozen Q rt) {v : Value} (hv : (Op.valueToAtom v a).Valid rt)
    (hQ : (Op.valueToAtom v a).Texts Q rt) (hr : rt.valueToAtomInternal v a = some (i, rt')) :
    Prefrozen Q rt' := by
  unfold Runtime.valueToAtomInternal at hr
  split at hr
  · cases hr
    exact h
  · obtain ⟨s, -, hr⟩ := Option.bind_eq_some_iff.1 hr
    obtain ⟨j, -, hr⟩ := Option.bind_eq_some_iff.1 hr
    exact h.dupAtom hr
  · next p =>
    obtain ⟨s, hs⟩ := hv.str (t := .string) rfl
    obtain ⟨s', hs', hlike⟩ := Runtime.rcInc_live hs p
    refine (h.rcInc p).newAtomStr ?_ ?_ hr
    · rw [Runtime.rcInc_slot]
      exact hv.slot (t := .string) rfl
    · have hgood := hQ p .string rfl rfl
      rw [Runtime.textOf_some hs, Runtime.wideOf_some hs] at hgood
      rw [Runtime.textOf_some hs', Runtime.wideOf_some hs', hlike.chars, hlike.isWide]
      exact fun hnum => hgood fun _ => hnum
  · next p =>
    exact h.newAtomStr (hv.slot (t := .string) rfl)
      (fun hnum => hQ p .string rfl rfl fun _ => hnum) hr
  · obtain ⟨s, -, hr⟩ := Option.bind_eq_some_iff.1 hr
    obtain ⟨j, -, ⟨⟩⟩ := Option.map_eq_some_iff.1 hr
    exact h
  · cases hr
    exact h

/-- Every call before the freeze keeps the table. -/
theorem Prefrozen.exec (h : Prefrozen Q rt) (hv : op.Valid rt) (hQ : op.Texts Q rt)
    (hne : op ≠ .freeze) (hr : rt.exec op = some (i, rt')) : Prefrozen Q rt' := by
  cases op with
  | string w c parent =>
    cases parent with
    | none =>
      cases hr
      exact h.allocStr rfl
    | some q =>
      cases hr
      exact (h.rcInc q).allocStr rfl
  | dupString p =>
    cases hr
    exact h.rcInc p
  | freeString p =>
    obtain ⟨rt1, hr1, ⟨⟩⟩ := Option.map_eq_some_iff.1 hr
    exact h.freeString hr1
  | newAtom str t a =>
    refine h.newAtom ⟨fun p hp => ?_, fun p hp => ?_, fun ht => ?_⟩ hr
    · subst hp
      exact hv.str rfl
    · subst hp
      exact hv.slot rfl
    · cases str with
      | none => rw [hv.hashed] at ht; cases ht
      | some p => exact hQ p t rfl ht hv.noNum
  | newAtomStr p a =>
    exact h.newAtomStr (hv.slot (t := .string) rfl)
      (fun hnum => hQ p .string rfl rfl fun _ => hnum) hr
  | valueToAtom v a => exact h.valueToAtom hv hQ hr
  | findAtom chars => exact h.findAtom hr
  | dupAtom j => exact h.dupAtom hr
  | freeAtom j =>
    obtain ⟨rt1, hr1, ⟨⟩⟩ := Option.map_eq_some_iff.1 hr
    exact h.freeAtom hr1
  | freeze => exact absurd rfl hne
  | request => simp [Runtime.exec, h.arena] at hr

/-! ## After it -/

/-- A fresh request: nothing in the overlay. -/
theorem Frozen.fresh {b : Snapshot} (htable : TableOk Q b.data b.slot b.atomHash ids)
    (hcomplete : Complete b.data b.slot b.atomHash ids fun _ => False) (hne : b.atomHash ≠ [])
    (hlen : b.atomArray.length ≤ atomMax) (skip : StrPtr → Prop) :
    Frozen Q ⟨true, b, Request.fresh b⟩ ids (fun _ => []) skip := by
  have hslot : ∀ i, (Request.fresh b).slot i = none :=
    fun i => by simp [Request.slot, Request.fresh]
  refine ⟨rfl, ⟨htable, TableOk.empty 0 rfl (.inl rfl) hslot, hne, Nat.le_refl _, fun _ hj => ?_⟩,
    hcomplete, fun p d hd => ?_, rfl, hlen, ?_, OverlayOk.fresh rfl rfl rfl⟩
  · obtain ⟨b, -, hj⟩ := hj
    cases hj
  · have hd : none = some d := by cases p <;> exact hd
    cases hd
  · simp only [Request.fresh, atomMax, tagInt] at *
    omega

/-- The freeze. -/
theorem Prefrozen.freeze (h : Prefrozen Q rt) (hr : rt.exec .freeze = some (i, rt'))
    (skip : StrPtr → Prop) : ∃ ids, Frozen Q rt' ids (fun _ => []) skip ∧ rt'.base = rt.base := by
  obtain ⟨ids, free, h⟩ := h
  simp only [Runtime.exec, h.arena, Bool.false_eq_true, if_false, Option.some.injEq,
    Prod.mk.injEq] at hr
  obtain ⟨-, rfl⟩ := hr
  exact ⟨ids, Frozen.fresh h.table h.complete h.hash_ne h.len skip, rfl⟩

/-- The next request. -/
theorem Frozen.request (h : Frozen Q rt ids ids' skip) (hr : rt.exec .request = some (i, rt')) :
    Frozen Q rt' ids (fun _ => []) skip ∧ rt'.base = rt.base := by
  simp only [Runtime.exec, h.arena, if_true, Option.some.injEq, Prod.mk.injEq] at hr
  obtain ⟨-, rfl⟩ := hr
  exact ⟨Frozen.fresh h.ok.base h.complete h.ok.hash_ne h.len skip, rfl⟩

/-- A new string of a request changes no atom. -/
theorem Runtime.allocStr_quiet (harena : rt.isArena = true) (hs : s.atomType = none) :
    Quiet rt (rt.allocStr s).2 := by
  obtain ⟨n, rt1, hal, hq, hnew, -, hnone, -⟩ := allocStr_arena harena s
  rw [hal]
  refine { hq with data := fun q _ => ?_ }
  by_cases hqn : q = .req n
  · rw [hqn, data_req hnew, hnone, JSString.data?, hs, Option.map_none]
  · exact hq.data q hqn

/-- Which allocations of a call succeed. -/
def Op.allocs : Op → Allocs
  | .newAtom _ _ a | .newAtomStr _ a | .valueToAtom _ a => a
  | _ => ⟨true, true, true⟩

/-- What a call after the freeze needs: room for one more number, and no string of the snapshot that
would have to become an atom itself. -/
structure Op.Ready (rt : Runtime) (ids ids' : Nat → List Nat) (op : Op) : Prop where
  low : rt.req.overlayBase + (rt.req.overlayCount + 1) < tagInt
  atom : ∀ p t s, op.interns = some (p, t) → rt.str p = some s →
    (t = .string → smallInt s.chars = false) → Internable rt ids ids' t p s

theorem Op.Texts.not_small (hQ : op.Texts Q rt) (hop : op.interns = some (p, .string))
    (hs : rt.str p = some s) (hsm : smallInt s.chars = false) : Q .string s.isWide s.chars := by
  have hgood := hQ p .string hop rfl
  rw [Runtime.textOf_some hs, Runtime.wideOf_some hs] at hgood
  exact hgood fun _ => noNum_of_not_small hsm

theorem Frozen.valueToAtom (h : Frozen Q rt ids ids' skip) {v : Value}
    (hv : (Op.valueToAtom v a).Valid rt) (hQ : (Op.valueToAtom v a).Texts Q rt)
    (hok : (Op.valueToAtom v a).Ready rt ids ids')
    (hskip : a.block = true ∧ a.slots = true ∧ a.hash = true ∨ ∀ q, skip q)
    (hr : rt.valueToAtomInternal v a = some (i, rt')) :
    (∃ ids'', Frozen Q rt' ids ids'' skip) ∧ Extends rt rt' := by
  unfold Runtime.valueToAtomInternal at hr
  split at hr
  · cases hr
    exact ⟨⟨ids', h⟩, (Quiet.refl rt).extends⟩
  · obtain ⟨s, -, hr⟩ := Option.bind_eq_some_iff.1 hr
    obtain ⟨j, -, hr⟩ := Option.bind_eq_some_iff.1 hr
    have hq := Runtime.dupAtom_quiet h.arena hr
    exact ⟨⟨ids', h.quiet hq⟩, hq.extends⟩
  · next p =>
    obtain ⟨s, hs⟩ := hv.str (t := .string) rfl
    have hout :=
      h.valueToAtom_string ⟨hok.low, hskip⟩ hs (fun hsm => hok.atom p .string s rfl hs fun _ => hsm)
      (hQ.not_small rfl hs) hr
    exact ⟨hout.frozen, hout.ext⟩
  · next p =>
    obtain ⟨s, hs⟩ := hv.str (t := .string) rfl
    have hout :=
      h.newAtomStr ⟨hok.low, hskip⟩ hs (fun hsm => hok.atom p .string s rfl hs fun _ => hsm)
      (hQ.not_small rfl hs) hr
    exact ⟨hout.frozen, hout.ext⟩
  · obtain ⟨s, -, hr⟩ := Option.bind_eq_some_iff.1 hr
    obtain ⟨j, -, ⟨⟩⟩ := Option.map_eq_some_iff.1 hr
    exact ⟨⟨ids', h⟩, (Quiet.refl rt).extends⟩
  · cases hr
    exact ⟨⟨ids', h⟩, (Quiet.refl rt).extends⟩

/-- Every call of a request keeps the tables, writes nothing in the base, and keeps the atoms. -/
theorem Frozen.exec (h : Frozen Q rt ids ids' skip) (hv : op.Valid rt) (hQ : op.Texts Q rt)
    (hok : op.Ready rt ids ids') (hne : op ≠ .request)
    (hskip : op.allocs.block = true ∧ op.allocs.slots = true ∧ op.allocs.hash = true ∨ ∀ q, skip q)
    (hr : rt.exec op = some (i, rt')) :
    (∃ ids'', Frozen Q rt' ids ids'' skip) ∧ Extends rt rt' := by
  have hquiet : Quiet rt rt' → (∃ ids'', Frozen Q rt' ids ids'' skip) ∧ Extends rt rt' :=
    fun hq => ⟨⟨ids', h.quiet hq⟩, hq.extends⟩
  cases op with
  | string w c parent =>
    cases parent with
    | none =>
      cases hr
      exact hquiet (Runtime.allocStr_quiet h.arena rfl)
    | some q =>
      cases hr
      have hq := Runtime.rcInc_quiet h.arena q
      exact hquiet (hq.trans (Runtime.allocStr_quiet (hq.arena.trans h.arena) rfl))
  | dupString p =>
    cases hr
    exact hquiet (Runtime.rcInc_quiet h.arena p)
  | freeString p =>
    obtain ⟨rt1, hr1, ⟨⟩⟩ := Option.map_eq_some_iff.1 hr
    exact hquiet (Runtime.freeString_quiet h.arena hr1)
  | newAtom str t a =>
    have hout := h.newAtom ⟨hok.low, hskip⟩ (t := t) (fun p hp => ?_) (fun hp => ?_)
      (fun ht => ?_) hr
    · exact ⟨hout.frozen, hout.ext⟩
    · subst hp
      obtain ⟨s, hs⟩ := hv.str rfl
      refine ⟨s, hs, hok.atom p t s rfl hs fun ht => ?_⟩
      have hno := hv.noNum ht
      rw [Runtime.textOf_some hs] at hno
      exact not_small_of_noNum hno
    · subst hp
      exact hv.hashed
    · cases str with
      | none => rw [hv.hashed] at ht; cases ht
      | some p => exact hQ p t rfl ht hv.noNum
  | newAtomStr p a =>
    obtain ⟨s, hs⟩ := hv.str (t := .string) rfl
    have hout :=
      h.newAtomStr ⟨hok.low, hskip⟩ hs (fun hsm => hok.atom p .string s rfl hs fun _ => hsm)
      (hQ.not_small rfl hs) hr
    exact ⟨hout.frozen, hout.ext⟩
  | valueToAtom v a => exact h.valueToAtom hv hQ hok hskip hr
  | findAtom chars => exact hquiet (Runtime.findAtom_quiet h.arena hr)
  | dupAtom j => exact hquiet (Runtime.dupAtom_quiet h.arena hr)
  | freeAtom j =>
    obtain ⟨rt1, hr1, ⟨⟩⟩ := Option.map_eq_some_iff.1 hr
    exact hquiet (Runtime.freeAtom_quiet h.arena hr1)
  | freeze => simp [Runtime.exec, h.arena] at hr
  | request => exact absurd rfl hne

/-! ## Whole runs -/

/-- One call, of those `P` allows in the state. -/
def Step (P : Runtime → Op → Prop) (rt rt' : Runtime) : Prop :=
  ∃ op i, P rt op ∧ rt.exec op = some (i, rt')

/-- The states that runs of allowed calls reach. -/
def Reach (P : Runtime → Op → Prop) (rt : Runtime) : Prop :=
  Relation.ReflTransGen (Step P) Runtime.initial rt

/-- A run of calls, one after the other. -/
def runOps (rt : Runtime) : List Op → Option Runtime
  | [] => some rt
  | op :: ops => (rt.exec op).bind fun r => runOps r.2 ops

/-- The calls of a run meet `D`, each in its state. -/
def Meets (D : Runtime → Op → Prop) : Runtime → List Op → Prop
  | _, [] => True
  | rt, op :: ops => D rt op ∧ ∀ r ∈ rt.exec op, Meets D r.2 ops

/-- Whether they do is decided by running them. -/
def decMeets (D : Runtime → Op → Prop) [∀ rt op, Decidable (D rt op)] :
    ∀ rt ops, Decidable (Meets D rt ops)
  | _, [] => .isTrue trivial
  | rt, op :: ops =>
    have := fun r : Nat × Runtime => decMeets D r.2 ops
    inferInstanceAs (Decidable (D rt op ∧ ∀ r ∈ rt.exec op, Meets D r.2 ops))

instance (D : Runtime → Op → Prop) [∀ rt op, Decidable (D rt op)] (rt : Runtime) (ops : List Op) :
    Decidable (Meets D rt ops) := decMeets D rt ops

theorem Reach.runOps {P D : Runtime → Op → Prop} (hD : ∀ rt op, D rt op → P rt op) {ops : List Op}
    (h : Reach P rt) (hm : Meets D rt ops) (hr : runOps rt ops = some rt') : Reach P rt' := by
  induction ops generalizing rt with
  | nil => exact Option.some.inj hr ▸ h
  | cons op ops ih =>
    obtain ⟨⟨i, rt1⟩, hr1, hr⟩ := Option.bind_eq_some_iff.1 hr
    exact ih (h.tail ⟨op, i, hD rt op hm.1, hr1⟩) (hm.2 _ hr1) hr

/-- What a condition on calls has to say for the invariants to hold along a run. -/
structure Admits (P : Runtime → Op → Prop) (Q : TextPred) (skip : StrPtr → Prop) : Prop where
  valid : ∀ {rt op}, P rt op → op.Valid rt
  texts : ∀ {rt op}, P rt op → op.Texts Q rt
  ready : ∀ {rt op ids ids'}, Frozen Q rt ids ids' skip → P rt op → op.Ready rt ids ids'
  allocs : ∀ {rt op ids ids'}, Frozen Q rt ids ids' skip → P rt op →
    op.allocs.block = true ∧ op.allocs.slots = true ∧ op.allocs.hash = true ∨ ∀ q, skip q

variable {P : Runtime → Op → Prop}

/-- A step of a frozen runtime: the base is not written. -/
theorem Frozen.step (hP : Admits P Q skip) (h : Frozen Q rt ids ids' skip) (hst : Step P rt rt') :
    rt'.base = rt.base ∧ ∃ ids'', Frozen Q rt' ids ids'' skip := by
  obtain ⟨op, i, hp, hr⟩ := hst
  by_cases hreq : op = .request
  · subst hreq
    obtain ⟨hf, hb⟩ := h.request hr
    exact ⟨hb, _, hf⟩
  · obtain ⟨hf, hext⟩ := h.exec (hP.valid hp) (hP.texts hp) (hP.ready h hp) hreq (hP.allocs h hp) hr
    exact ⟨hext.base, hf⟩

/-- A run of a frozen runtime. -/
theorem Frozen.run (hP : Admits P Q skip) (h : Frozen Q rt ids ids' skip)
    (hrun : Relation.ReflTransGen (Step P) rt rt') :
    rt'.base = rt.base ∧ ∃ ids'', Frozen Q rt' ids ids'' skip := by
  induction hrun with
  | refl => exact ⟨rfl, ids', h⟩
  | tail _ hst ih =>
    obtain ⟨hb, ids1, h1⟩ := ih
    obtain ⟨hb2, hf⟩ := h1.step hP hst
    exact ⟨hb2.trans hb, hf⟩

/-- Every state a run reaches is one of before the freeze or one of after it. -/
theorem Reach.inv (hP : Admits P Q skip) (h : Reach P rt) :
    Prefrozen Q rt ∨ ∃ ids ids', Frozen Q rt ids ids' skip := by
  induction h with
  | refl => exact .inl .initial
  | tail _ hst ih =>
    rcases ih with hpre | ⟨ids, ids', hf⟩
    · obtain ⟨op, i, hp, hr⟩ := hst
      by_cases hfr : op = .freeze
      · subst hfr
        obtain ⟨ids, hf, -⟩ := hpre.freeze hr skip
        exact .inr ⟨ids, _, hf⟩
      · exact .inl (hpre.exec (hP.valid hp) (hP.texts hp) hfr hr)
    · obtain ⟨-, ids'', hf'⟩ := hf.step hP hst
      exact .inr ⟨ids, ids'', hf'⟩

theorem Reach.frozen (hP : Admits P Q skip) (h : Reach P rt) (harena : rt.isArena = true) :
    ∃ ids ids', Frozen Q rt ids ids' skip := by
  rcases h.inv hP with hpre | hf
  · rw [hpre.arena] at harena
    cases harena
  · exact hf

end

end ArenaJs.Atoms
