import ArenaJs.Atoms.Overlay

/-!
# Atoms after the freeze

`Frozen` is the invariant of a frozen runtime: the snapshot's table is the complete table of the
moment of the freeze, and the overlay is a table of its own above it. No function writes the base.
Most calls leave the atoms alone altogether (`Quiet`); `__JS_NewAtom` may add one to the overlay
(`Frozen.createAtom`).
-/

namespace ArenaJs.Atoms

open Function (update update_of_ne update_self)

/-- The invariant of a frozen runtime. `skip` are structs of the request with atom fields that are
in no slot: those being made, and those a failed allocation left behind. -/
structure Frozen (Q : TextPred) (rt : Runtime) (ids ids' : Nat → List Nat) (skip : StrPtr → Prop) :
    Prop where
  arena : rt.isArena = true
  ok : rt.Ok Q ids ids'
  complete : Complete rt.base.data rt.base.slot rt.base.atomHash ids fun _ => False
  overlay : Complete rt.req.data rt.req.slot rt.req.hashOverlay ids' skip
  first : rt.req.overlayBase = rt.base.atomArray.length
  len : rt.base.atomArray.length ≤ atomMax
  low : rt.req.overlayBase + rt.req.overlayCount < tagInt
  shape : OverlayOk rt.req

/-- A step that changes no atom, the struct `p` apart. -/
structure QuietBut (rt rt' : Runtime) (p : StrPtr → Prop) : Prop where
  arena : rt'.isArena = rt.isArena
  base : rt'.base = rt.base
  data : ∀ q, ¬ p q → rt'.req.data q = rt.req.data q
  overlay : rt'.req.overlay = rt.req.overlay
  overlayBase : rt'.req.overlayBase = rt.req.overlayBase
  free : rt'.req.overlayFreeIndex = rt.req.overlayFreeIndex
  count : rt'.req.overlayCount = rt.req.overlayCount
  hash : rt'.req.hashOverlay = rt.req.hashOverlay

/-- A step that changes no atom. -/
def Quiet (rt rt' : Runtime) : Prop := QuietBut rt rt' fun _ => False

section
variable {Q : TextPred} {rt rt' rt'' : Runtime} {ids ids' : Nat → List Nat} {skip : StrPtr → Prop}
  {p q : StrPtr} {s : JSString} {i n : Nat} {a : Allocs}

theorem QuietBut.refl (rt : Runtime) (P : StrPtr → Prop) : QuietBut rt rt P :=
  ⟨rfl, rfl, fun _ _ => rfl, rfl, rfl, rfl, rfl, rfl⟩

theorem QuietBut.trans {P : StrPtr → Prop} (h : QuietBut rt rt' P) (h' : QuietBut rt' rt'' P) :
    QuietBut rt rt'' P :=
  ⟨h'.arena.trans h.arena, h'.base.trans h.base, fun q hq => (h'.data q hq).trans (h.data q hq),
    h'.overlay.trans h.overlay, h'.overlayBase.trans h.overlayBase, h'.free.trans h.free,
    h'.count.trans h.count, h'.hash.trans h.hash⟩

theorem QuietBut.slot {P : StrPtr → Prop} (h : QuietBut rt rt' P) : rt'.req.slot = rt.req.slot := by
  funext i
  simp [Request.slot, h.overlay, h.overlayBase]

theorem Quiet.refl (rt : Runtime) : Quiet rt rt := QuietBut.refl rt _

theorem Quiet.but (h : Quiet rt rt') (P : StrPtr → Prop) : QuietBut rt rt' P :=
  { h with data := fun q _ => QuietBut.data h q id }

theorem Quiet.data_eq (h : Quiet rt rt') : rt'.req.data = rt.req.data :=
  funext fun q => QuietBut.data h q id

/-- The atoms in the slots of the overlay. -/
theorem QuietBut.atomIn_eq {P : StrPtr → Prop} (h : QuietBut rt rt' P)
    (hp : ∀ {j q}, rt.req.slot j = some q → ¬ P q) (j : Nat) :
    atomIn rt'.req.data rt'.req.slot j = atomIn rt.req.data rt.req.slot j := by
  rw [h.slot]
  exact Option.bind_congr fun q hs => h.data q (hp hs)

section
variable (h : Frozen Q rt ids ids' skip)
include h

/-- Only the overlay changes after the freeze. -/
theorem Frozen.transport {ids'' : Nat → List Nat} {skip' : StrPtr → Prop}
    (harena : rt'.isArena = rt.isArena) (hbase : rt'.base = rt.base)
    (hob : rt'.req.overlayBase = rt.req.overlayBase)
    (hlow : rt'.req.overlayBase + rt'.req.overlayCount < tagInt) (hshape : OverlayOk rt'.req)
    (hover : TableOk Q rt'.req.data rt'.req.slot rt'.req.hashOverlay ids'')
    (hcomp : Complete rt'.req.data rt'.req.slot rt'.req.hashOverlay ids'' skip')
    (hcross : ∀ {j k d e}, HashIndex.Mem rt.base.atomHash ids j →
      HashIndex.Mem rt'.req.hashOverlay ids'' k → atomIn rt.base.data rt.base.slot j = some d →
      atomIn rt'.req.data rt'.req.slot k = some e → d.key ≠ e.key) :
        Frozen Q rt' ids ids'' skip' := by
  obtain ⟨arena, base, req⟩ := rt'
  obtain rfl := hbase
  exact ⟨harena.trans h.arena, ⟨h.ok.base, hover, h.ok.hash_ne, hob ▸ h.ok.bound, hcross⟩,
    h.complete,
    hcomp, hob.trans h.first, h.len, hlow, hshape⟩

/-- Writing structs that are in no slot. -/
theorem Frozen.write {P : StrPtr → Prop} (hq : QuietBut rt rt' P)
    (hp : ∀ {j q}, rt.req.slot j = some q → ¬ P q) :
    Frozen Q rt' ids ids' fun q => skip q ∨ P q := by
  have hatom := hq.atomIn_eq hp
  have hslot := hq.slot
  obtain ⟨harena, hbase, hdata, hov, hob, hfree, hcount, hhash⟩ := id hq
  refine h.transport harena hbase hob (by rw [hob, hcount]; exact h.low)
    (h.shape.congr hov hcount hfree) ?_ ?_ fun hi hj hd he => ?_
  · rw [hslot, hhash]; exact h.ok.overlay.write fun hj => hdata _ (hp hj)
  · rw [hslot, hhash]; exact h.overlay.write hdata
  · rw [hatom] at he
    exact h.ok.cross hi (hhash ▸ hj) hd he

/-- The invariant only depends on the atoms and the tables. -/
theorem Frozen.quiet (hq : Quiet rt rt') : Frozen Q rt' ids ids' skip :=
  have h' := h.write hq fun _ => id
  { h' with overlay := h'.overlay.mono fun _ hq => hq.resolve_right id }

end

/-! ## Strings -/

/-- Writing a struct of the request. -/
theorem Request.str_set {r : Request} (hn : n < r.strs.length) (o : Option JSString) :
    Request.str { r with strs := r.strs.set n o } = update r.str (.req n) o := by
  funext q
  cases q with
  | base m => rw [update_of_ne (by nofun)]; rfl
  | req m =>
    by_cases h : m = n
    · subst h
      simp [Request.str, hn]
    · rw [update_of_ne (by simpa using h)]
      simp [Request.str, Ne.symm h]

theorem Runtime.lt_of_str_req (hs : rt.str (.req n) = some s) : n < rt.req.strs.length :=
  (List.getElem?_eq_some_iff.1 (Option.join_eq_some_iff.1 hs)).1

theorem Runtime.setStr_req_str (hs : rt.str (.req n) = some s) (o : Option JSString) :
    (rt.setStr (.req n) o).req.str = update rt.req.str (.req n) o :=
  Request.str_set (lt_of_str_req hs) o

theorem Request.data_eq_of_str {r r' : Request} {o : Option JSString}
    (h : r'.str = update r.str p o) :
    r'.data = update r.data p (o.bind JSString.data?) := data_update h

theorem Runtime.data_req (hs : rt.str (.req n) = some s) : rt.req.data (.req n) = s.data? := by
  have hs' : rt.req.str (.req n) = some s := hs
  rw [Request.data, hs', Option.bind_some]

/-- Writing a struct of the request touches no other atom. -/
theorem Runtime.setStr_req (hs : rt.str (.req n) = some s) (o : Option JSString) :
    QuietBut rt (rt.setStr (.req n) o) (· = .req n) := by
  refine ⟨rfl, rfl, fun q hq => ?_, rfl, rfl, rfl, rfl, rfl⟩
  rw [Request.data_eq_of_str (setStr_req_str hs o), update_of_ne hq]

/-- Writes that leave the atom fields alone. -/
theorem Runtime.setStr_quiet (hs : rt.str (.req n) = some s) {o : Option JSString}
    (ho : o.bind JSString.data? = s.data?) : Quiet rt (rt.setStr (.req n) o) := by
  refine { setStr_req hs o with data := fun q _ => ?_ }
  by_cases hq : q = .req n
  · subst hq
    rw [Request.data_eq_of_str (setStr_req_str hs o), update_self, ho, data_req hs]
  · exact (setStr_req hs o).data q hq

theorem Runtime.modStr_quiet {f : JSString → JSString} (hf : ∀ s, (f s).data? = s.data?) :
    Quiet rt (rt.modStr (.req n) f) := by
  cases hs : rt.str (.req n) with
  | none =>
    rw [Runtime.modStr, hs, Option.map_none, Runtime.setStr_none hs]
    exact .refl rt
  | some s =>
    rw [Runtime.modStr, hs, Option.map_some]
    exact setStr_quiet hs (by rw [Option.bind_some, hf])

theorem Runtime.rcInc_quiet (harena : rt.isArena = true) (p : StrPtr) : Quiet rt (rt.rcInc p) := by
  cases p with
  | base n =>
    rw [Runtime.rcInc, if_pos (by simp [Runtime.ptrIsBase, harena, StrPtr.isBase])]; exact .refl rt
  | req n =>
    rw [Runtime.rcInc, if_neg (by simp [Runtime.ptrIsBase, StrPtr.isBase])]
    exact modStr_quiet fun _ => rfl

theorem Runtime.rcDec_base (harena : rt.isArena = true) (n : Nat) :
    rt.rcDec (.base n) = (1, rt) := by
  rw [Runtime.rcDec, if_pos (by simp [Runtime.ptrIsBase, harena, StrPtr.isBase])]

theorem Runtime.rcDec_req (hs : rt.str (.req n) = some s) : rt.rcDec (.req n) =
    (s.refCount - 1, rt.setStr (.req n) (some { s with refCount := s.refCount - 1 })) := by
  rw [Runtime.rcDec, if_neg (by simp [Runtime.ptrIsBase, StrPtr.isBase]), Runtime.modStr, hs]
  rfl

theorem Runtime.rcDec_quiet (harena : rt.isArena = true) (p : StrPtr) :
    Quiet rt (rt.rcDec p).2 := by
  cases p with
  | base n => rw [rcDec_base harena]; exact .refl rt
  | req n =>
    rw [Runtime.rcDec, if_neg (by simp [Runtime.ptrIsBase, StrPtr.isBase])]
    exact modStr_quiet fun _ => rfl

/-- Freeing a struct that is not an atom. -/
theorem Runtime.setStr_none_quiet (hp : rt.req.data (.req n) = none) :
    Quiet rt (rt.setStr (.req n) none) := by
  cases hs : rt.str (.req n) with
  | none => rw [Runtime.setStr_none hs]; exact .refl rt
  | some s => exact setStr_quiet hs (by rw [← data_req hs, hp]; rfl)

section
variable (harena : rt.isArena = true)
include harena

theorem Runtime.freeAtomStruct_arena (p : StrPtr) :
    rt.freeAtomStruct p = some rt := by
  rw [Runtime.freeAtomStruct, if_pos harena]

theorem Runtime.freeBy_quiet {f : Runtime → JSString → Option Runtime}
    (hrel : ∀ {rt1 s rt2}, rt1.isArena = true → f rt1 s = some rt2 → Quiet rt1 rt2)
    (hr : rt.freeBy p f = some rt') : Quiet rt rt' := by
  have h1 := rcDec_quiet harena p
  have ha1 := h1.arena.trans harena
  rcases freeBy_cases hr with rfl | ⟨hc, s, hs, ⟨-, hr⟩ | ⟨hd, rt2, hr2, rfl⟩⟩
  · exact h1
  · rw [freeAtomStruct_arena ha1] at hr
    exact Option.some.inj hr ▸ h1
  · cases p with
    | base n =>
      rw [rcDec_base harena] at hc
      cases hc
    | req n =>
      have h2 := hrel ha1 hr2
      refine QuietBut.trans h1 (QuietBut.trans h2 (setStr_none_quiet ?_))
      rw [h2.data_eq, data_req hs, hd]

/-- After the freeze `js_free_string` changes no atom. -/
theorem Runtime.freeString_quiet (hr : rt.freeString p = some rt') :
    Quiet rt rt' := by
  refine freeBy_quiet harena (fun {rt1 s rt2} ha hr2 => ?_) hr
  unfold Runtime.releaseParent at hr2
  split at hr2
  · exact freeBy_quiet ha (fun _ h => Option.some.inj h ▸ .refl _) hr2
  · exact Option.some.inj hr2 ▸ .refl _

/-- `js_free_string` of an atom only counts. -/
theorem Runtime.freeString_atom (hs : rt.str p = some s)
    (hat : s.atomType ≠ none) : ∃ rt', rt.freeString p = some rt' ∧
      (∃ s', rt'.str p = some s' ∧ s'.atomType = s.atomType) ∧
      ∀ q, q ≠ p → rt'.str q = rt.str q := by
  cases p with
  | base n =>
    refine ⟨rt, ?_, ⟨s, hs, rfl⟩, fun _ _ => rfl⟩
    simp only [Runtime.freeString, rcDec_base harena]
    rw [if_neg (by decide)]
  | req n =>
    have hstr := setStr_req_str hs (some { s with refCount := s.refCount - 1 })
    have hself : (rt.setStr (.req n) (some { s with refCount := s.refCount - 1 })).str (.req n) =
        some { s with refCount := s.refCount - 1 } :=
      (congrFun hstr _).trans (update_self ..)
    refine ⟨_, ?_, ⟨_, hself, rfl⟩, fun q hq => ?_⟩
    · simp only [Runtime.freeString, rcDec_req hs]
      split
      · rw [hself, Option.bind_some, if_pos (Option.isSome_iff_ne_none.2 hat)]
        exact freeAtomStruct_arena (by exact harena) _
      · rfl
    · cases q with
      | base m => rfl
      | req m => exact (congrFun hstr _).trans (update_of_ne hq ..)

/-- A new string of the request. -/
theorem Runtime.allocStr_arena (s : JSString) :
    ∃ n rt', rt.allocStr s = (.req n, rt') ∧ QuietBut rt rt' (· = .req n) ∧
      rt'.str (.req n) = some s ∧ rt.str (.req n) = none ∧ rt.req.data (.req n) = none ∧
      ∀ q t, rt.str q = some t → rt'.str q = some t := by
  refine ⟨rt.req.strs.length, { rt with req := { rt.req with strs := rt.req.strs ++ [some s] } },
    by rw [Runtime.allocStr, if_pos harena],
    ⟨rfl, rfl, fun q hq => ?_, rfl, rfl, rfl, rfl, rfl⟩, by simp [Runtime.str],
    by simp [Runtime.str], by simp [Request.data, Request.str], fun q t hq => ?_⟩
  · cases q with
    | base m => rfl
    | req m =>
      have hm : m ≠ rt.req.strs.length := fun h => hq (by rw [h])
      simp only [Request.data, Request.str]
      rcases Nat.lt_or_ge m rt.req.strs.length with hlt | hge
      · rw [List.getElem?_append_left hlt]
      · rw [List.getElem?_eq_none (by simp; omega), List.getElem?_eq_none hge]
  · cases q with
    | base m => exact hq
    | req m =>
      simp only [Runtime.str] at hq ⊢
      rw [List.getElem?_append_left (lt_of_str_req hq), hq]

end

/-! ## The struct of a new atom -/

/-- A struct `p` of the request, in no slot, that is about to be numbered. -/
structure Ready (Q : TextPred) (rt : Runtime) (ids ids' : Nat → List Nat) (skip : StrPtr → Prop)
    (n : Nat) (wide : Bool) (chars : List Nat) : Prop where
  frozen : Frozen Q rt ids ids' fun q => skip q ∨ q = .req n
  unslotted : ∀ j, rt.req.slot j ≠ some (.req n)
  struct : ∃ s, rt.str (.req n) = some s ∧ s.isWide = wide ∧ s.chars = chars

/-- A struct of the request that is not an atom is in no slot. -/
theorem Frozen.unslotted (h : Frozen Q rt ids ids' skip) (hp : rt.req.data p = none) (j : Nat) :
    rt.req.slot j ≠ some p := h.ok.overlay.unslotted hp j

/-- Writing a struct that is not an atom makes it ready. -/
theorem Frozen.ready {wide : Bool} {chars : List Nat} (h : Frozen Q rt ids ids' skip)
    (hq : QuietBut rt rt' (· = .req n)) (hnone : rt.req.data (.req n) = none)
    (hs : ∃ s, rt'.str (.req n) = some s ∧ s.isWide = wide ∧ s.chars = chars) :
    Ready Q rt' ids ids' skip n wide chars :=
  ⟨h.write hq fun hj he =>
    h.unslotted hnone _ (he ▸ hj), by rw [hq.slot]; exact h.unslotted hnone, hs⟩

/-- What `__JS_NewAtom` may make an atom of: not a string of the snapshot that is not one. -/
def Makeable (rt : Runtime) (str : Option StrPtr) : Prop :=
  ∀ p, str = some p → ∃ s, rt.str p = some s ∧ (p.isBase = true → s.atomType ≠ none)

/-- The struct of a new atom, after the freeze: fresh, the string itself, or a copy of it. Releasing
the string afterwards returns. -/
theorem Frozen.atomBlock (h : Frozen Q rt ids ids' skip) {str : Option StrPtr} {t : AtomType}
    (hstr : Makeable rt str) :
    rt.atomBlock str t a = some (.error rt) ∧ a.block = false ∧
        (∀ p, str = some p → ∃ s, rt.str p = some s ∧ s.atomType ≠ none) ∨
      ∃ n rt', rt.atomBlock str t a = some (.ok (.req n, rt')) ∧
        Ready Q rt' ids ids' skip n (rt.wideOf str) (rt.textOf str) ∧
        QuietBut rt rt' (· = .req n) ∧ rt.req.data (.req n) = none ∧
        ∀ p, str = some p → ∃ s, rt'.str p = some s ∧ s.atomType ≠ none := by
  cases str with
  | none =>
    by_cases ha : a.block = true
    · obtain ⟨n, rt', hal, hq, hnew, -, hnone, -⟩ :=
        Runtime.allocStr_arena h.arena ⟨true, [], 0, none, 0, 1, none⟩
      exact .inr ⟨n, rt', by simp only [Runtime.atomBlock, if_pos ha, hal],
        h.ready hq hnone ⟨_, hnew, rfl, rfl⟩, hq, hnone, by simp⟩
    · exact .inl ⟨by simp only [Runtime.atomBlock, if_neg ha], by simpa using ha, by simp⟩
  | some p =>
    obtain ⟨s, hs, hb⟩ := hstr p rfl
    rw [Runtime.textOf_some hs, Runtime.wideOf_some hs]
    by_cases hat : s.atomType = none
    · -- in place
      obtain ⟨n, rfl⟩ : ∃ n, p = .req n := by
        cases p with
        | base n => exact absurd hat (hb rfl)
        | req n => exact ⟨n, rfl⟩
      have hnone : rt.req.data (.req n) = none := by
        rw [Runtime.data_req hs, JSString.data?, hat, Option.map_none]
      have hq := Runtime.setStr_req hs (some { s with atomType := some t })
      have hnew : (rt.setStr (.req n) (some { s with atomType := some t })).str (.req n) =
          some { s with atomType := some t } :=
        (congrFun (Runtime.setStr_req_str hs _) _).trans (update_self ..)
      refine .inr ⟨n, rt.setStr (.req n) (some { s with atomType := some t }), ?_,
        h.ready hq hnone ⟨_, hnew, rfl, rfl⟩, hq, hnone, fun p hp => ?_⟩
      · simp [Runtime.atomBlock, hs, if_pos hat, Runtime.modStr]
      · cases hp
        exact ⟨_, hnew, by simp⟩
    by_cases ha : a.block = true
    · -- a copy
      obtain ⟨n, rt1, hal, hq, hnew, hold, hnone, hkeep⟩ :=
        Runtime.allocStr_arena h.arena ⟨s.isWide, s.chars, 0, none, 0, 1, none⟩
      have harena1 := hq.arena.trans h.arena
      obtain ⟨rt2, hfree, ⟨s', hs', hat'⟩, hother⟩ :=
        Runtime.freeString_atom harena1 (hkeep p s hs) hat
      have hq2 := Runtime.freeString_quiet harena1 hfree
      have hne : StrPtr.req n ≠ p := fun he => by rw [he, hs] at hold; cases hold
      have hq' := hq.trans (hq2.but _)
      refine .inr ⟨n, rt2, ?_, h.ready hq' hnone ⟨_, (hother _ hne).trans hnew, rfl, rfl⟩, hq',
        hnone, fun p' hp' => ?_⟩
      · simp [Runtime.atomBlock, hs, if_neg hat, ha, hal, hfree]
      · cases hp'
        exact ⟨s', hs', hat' ▸ hat⟩
    · refine .inl ⟨?_, by simpa using ha, fun p' hp' => ?_⟩
      · simp only [Runtime.atomBlock, hs, Option.bind_some, if_neg hat]
        rw [if_pos (by simpa using ha)]
      · cases hp'
        exact ⟨s, hs, hat⟩

/-! ## Numbering it -/

/-- The state after the struct `n` got the number `i` and the fields `s'`; `heads` are the overlay's
chain heads. -/
structure Entered (rt rt' : Runtime) (n i : Nat) (s' : JSString) (heads : List Nat) : Prop where
  arena : rt'.isArena = rt.isArena
  base : rt'.base = rt.base
  str : rt'.req.str = update rt.req.str (.req n) (some s')
  slot : rt'.req.slot = update rt.req.slot i (some (.req n))
  overlayBase : rt'.req.overlayBase = rt.req.overlayBase
  count : rt'.req.overlayCount = rt.req.overlayCount + 1
  hash : rt'.req.hashOverlay = heads
  shape : OverlayOk rt'.req

/-- The number of the next atom is above those in use. -/
theorem Frozen.next_none (h : Frozen Q rt ids ids' skip) :
    rt.req.slot (rt.req.overlayBase + (rt.req.overlayCount + 1)) = none := by
  rw [Request.slot, if_neg (by omega), Nat.add_sub_cancel_left]
  rcases Nat.lt_or_ge (rt.req.overlayCount + 1) rt.req.overlay.length with hlt | hge
  · rw [h.shape.free (by omega) hlt]
    rfl
  · rw [List.getElem?_eq_none hge]
    rfl

section
variable {wide : Bool} {chars heads : List Nat} {s' : JSString} {t : AtomType} {head : Nat}

/-- The atoms of the overlay keep their data. -/
theorem Ready.atomIn_old (h : Ready Q rt ids ids' skip n wide chars) (hi : rt.req.slot i = none)
    (he : Entered rt rt' n i s' heads) {j : Nat} {d : AtomData}
    (hd : atomIn rt.req.data rt.req.slot j = some d) :
    atomIn rt'.req.data rt'.req.slot j = some d := by
  have hj : j ≠ i := fun hj => by simp [atomIn, hj, hi] at hd
  rw [Request.data_eq_of_str he.str, he.slot]
  exact (atomIn_update_of_ne h.unslotted hj _ _).trans hd

/-- A numbered struct leaves the invariant, if the overlay's table stays one. -/
theorem Ready.numbered {ids'' : Nat → List Nat} (h : Ready Q rt ids ids' skip n wide chars)
    (he : Entered rt rt' n i s' heads)
    (hlow : rt.req.overlayBase + (rt.req.overlayCount + 1) < tagInt)
    (hover : TableOk Q rt'.req.data rt'.req.slot heads ids'')
    (hcomp : Complete rt'.req.data rt'.req.slot heads ids'' skip)
    (hcross : ∀ {j k d e}, HashIndex.Mem rt.base.atomHash ids j → HashIndex.Mem heads ids'' k →
      atomIn rt.base.data rt.base.slot j = some d → atomIn rt'.req.data rt'.req.slot k = some e →
      d.key ≠ e.key) : Frozen Q rt' ids ids'' skip := by
  refine h.frozen.transport he.arena he.base he.overlayBase ?_ he.shape (he.hash ▸ hover)
    (he.hash ▸ hcomp) (he.hash ▸ hcross)
  rw [he.overlayBase, he.count]
  exact hlow

/-- The texts on the overlay's old chains are not in the base. -/
theorem Ready.cross_old (h : Ready Q rt ids ids' skip n wide chars) (hi : rt.req.slot i = none)
    (he : Entered rt rt' n i s' heads) {j k : Nat} {d e : AtomData}
    (hj : HashIndex.Mem rt.base.atomHash ids j) (hk : HashIndex.Mem rt.req.hashOverlay ids' k)
    (hd : atomIn rt.base.data rt.base.slot j = some d)
    (hke : atomIn rt'.req.data rt'.req.slot k = some e) : d.key ≠ e.key := by
  obtain ⟨e', hke', -⟩ := h.frozen.ok.overlay.entry hk
  cases (h.atomIn_old hi he hke').symm.trans hke
  exact h.frozen.ok.cross hj hk hd hke'

/-- The atom fields of a struct that was entered. -/
theorem Entered.data (he : Entered rt rt' n i s' heads) (ht : s'.atomType = some t) :
    rt'.req.data = update rt.req.data (.req n)
      (some ⟨t, s'.isWide, s'.chars, s'.hash, s'.hashNext⟩) := by
  rw [Request.data_eq_of_str he.str]
  simp [JSString.data?, ht]

/-- A numbered struct that is on no chain: a symbol, or an atom whose chains could not be made. -/
theorem Ready.occupied (h : Ready Q rt ids ids' skip n wide chars)
    (hlow : rt.req.overlayBase + (rt.req.overlayCount + 1) < tagInt) (hi : rt.req.slot i = none)
    (he : Entered rt rt' n i s' rt.req.hashOverlay) (ht : s'.atomType = some t)
    (hskip : t = .symbol ∧ s'.hashNext = i ∨ ∀ q, skip q) : Frozen Q rt' ids ids' skip := by
  have hdata := he.data ht
  refine h.numbered he hlow ?_ ?_ (h.cross_old hi he)
  · rw [hdata, he.slot]
    exact h.frozen.ok.overlay.occupy hi h.unslotted
  · rcases hskip with ⟨rfl, hnext⟩ | hall
    · rw [hdata, he.slot]
      exact (h.frozen.overlay.occupy hi rfl hnext).mono fun q hq => hq.1.resolve_right hq.2
    · exact fun p d _ hp => absurd (hall p) hp

/-- A numbered struct in front of its chain. -/
theorem Ready.linked (h : Ready Q rt ids ids' skip n wide chars) (hi0 : i ≠ 0)
    (hlow : rt.req.overlayBase + (rt.req.overlayCount + 1) < tagInt) (hi : rt.req.slot i = none)
    (hhead : rt.req.hashOverlay[s'.hash % rt.req.hashOverlay.length]? = some s'.hashNext)
    (he : Entered rt rt' n i s'
      (rt.req.hashOverlay.set (s'.hash % rt.req.hashOverlay.length) i)) (ht : s'.atomType = some t)
    (hth : t.hashed = true) (hhash : s'.hash = atomHashOf t s'.chars)
    (hfresh : ∀ j e, rt.Entry ids ids' j e → e.key ≠ (t, s'.chars))
    (hgood : Q t s'.isWide s'.chars) : ∃ ids'', Frozen Q rt' ids ids'' skip := by
  have hdata := he.data ht
  obtain ⟨hlt, -⟩ := List.getElem?_eq_some_iff.1 hhead
  refine ⟨HashIndex.pushed ids' (s'.hash % rt.req.hashOverlay.length) i, h.numbered he hlow ?_ ?_
    fun {j k d e} hj hk hd hke hkde => ?_⟩
  · rw [hdata, he.slot]
    exact h.frozen.ok.overlay.link (d := ⟨t, s'.isWide, s'.chars, s'.hash, s'.hashNext⟩) hi0 hi
      h.unslotted hth hhash hhead (fun j e hj hje => hfresh j e (.inr ⟨hj, hje⟩)) hgood
  · rw [hdata, he.slot]
    exact (h.frozen.overlay.link (d := ⟨t, s'.isWide, s'.chars, s'.hash, s'.hashNext⟩) hi hlt
      hth).mono fun q hq => hq.1.resolve_right hq.2
  · by_cases hki : k = i
    · -- the new atom
      rw [hki, hdata, he.slot, atomIn_update_self] at hke
      cases hke
      exact hfresh j d (.inl ⟨hj, hd⟩) hkde
    · exact h.cross_old hi he hj (((HashIndex.mem_pushed hlt).1 hk).resolve_left hki) hd hke hkde

/-- The chain heads of the overlay are made on demand. -/
theorem Ready.withHeads (h : Ready Q rt ids ids' skip n wide chars)
    (hnil : rt.req.hashOverlay = []) : Ready Q { rt with req := { rt.req with
      hashOverlay := List.replicate hashOverlayInitial 0 } } ids (fun _ => []) skip n
        wide chars := by
  have hover : TableOk Q rt.req.data rt.req.slot [] ids' := hnil ▸ h.frozen.ok.overlay
  have hcomp : Complete rt.req.data rt.req.slot [] ids' fun q => skip q ∨ q = .req n :=
    hnil ▸ h.frozen.overlay
  refine ⟨⟨h.frozen.arena,
    ⟨h.frozen.ok.base, .unchained hover.live hover.inj rfl (.inr ⟨6, rfl⟩), h.frozen.ok.hash_ne,
    h.frozen.ok.bound, fun _ hj => ?_⟩, h.frozen.complete, hcomp.withHeads _ _, h.frozen.first,
    h.frozen.len, h.frozen.low, h.frozen.shape.congr rfl rfl rfl⟩, h.unslotted, h.struct⟩
  obtain ⟨b, -, hj⟩ := hj
  cases hj

/-- The number of the next slot, with the struct's fields written. -/
theorem Taken.entered {r : Request} (h : Taken rt.req r (.req n)) (hs : rt.str (.req n) = some s)
    (s' : JSString) (heads : List Nat) : Entered rt { rt with req := { r with
      strs := r.strs.set n (some s'), hashOverlay := heads } } n
      (rt.req.overlayBase + (rt.req.overlayCount + 1)) s' heads := by
  refine ⟨rfl, rfl, ?_, h.slot, h.overlayBase, h.count, rfl, h.shape.congr rfl rfl rfl⟩
  rw [← Request.str_set (Runtime.lt_of_str_req hs), h.strs]
  funext q
  cases q <;> rfl

/-- The other atoms stay atoms. -/
theorem Entered.isAtom (he : Entered rt rt' n i s' heads) (ht : s'.atomType ≠ none)
    (hp : ∃ s, rt.str p = some s ∧ s.atomType ≠ none) :
    ∃ s, rt'.str p = some s ∧ s.atomType ≠ none := by
  obtain ⟨s, hs, hat⟩ := hp
  cases p with
  | base m => exact ⟨s, by rw [Runtime.str, he.base]; exact hs, hat⟩
  | req m =>
    have hreq : rt'.str (.req m) = update rt.req.str (.req n) (some s') (.req m) :=
      congrFun he.str (.req m)
    by_cases hm : StrPtr.req m = .req n
    · exact ⟨s', by rw [hreq, hm, update_self], ht⟩
    · exact ⟨s, by rw [hreq, update_of_ne hm]; exact hs, hat⟩

/-- The failure exit of `__JS_NewAtom` returns. -/
theorem Runtime.newAtomFail_atom (harena : rt.isArena = true) {str : Option StrPtr}
    (hstr : ∀ p, str = some p → ∃ s, rt.str p = some s ∧ s.atomType ≠ none) :
    ∃ rt', rt.newAtomFail str = some (0, rt') ∧ Quiet rt rt' := by
  cases str with
  | none => exact ⟨rt, rfl, .refl rt⟩
  | some p =>
    obtain ⟨s, hs, hat⟩ := hstr p rfl
    obtain ⟨rt', hfree, -⟩ := freeString_atom harena hs hat
    exact ⟨rt', by simp only [Runtime.newAtomFail, hfree, Option.map_some],
      freeString_quiet harena hfree⟩

/-- What `__JS_NewAtom` needs to know of a new atom of a type: symbols are never looked up, the
others are hashed and have a new text. -/
def NewText (Q : TextPred) (rt : Runtime) (ids ids' : Nat → List Nat) (t : AtomType) (v : Nat)
    (wide : Bool) (chars : List Nat) : Prop :=
  t = .symbol ∨ t.hashed = true ∧ v = atomHashOf t chars ∧
    (∀ j e, rt.Entry ids ids' j e → e.key ≠ (t, chars)) ∧ Q t wide chars

/-- After a step that keeps the atoms there were. -/
structure Extends (rt rt' : Runtime) : Prop where
  arena : rt'.isArena = rt.isArena
  base : rt'.base = rt.base
  overlayBase : rt'.req.overlayBase = rt.req.overlayBase
  atom : ∀ {i d}, atomIn rt.req.data rt.req.slot i = some d →
    atomIn rt'.req.data rt'.req.slot i = some d

theorem Extends.trans (h : Extends rt rt') (h' : Extends rt' rt'') : Extends rt rt'' :=
  ⟨h'.arena.trans h.arena, h'.base.trans h.base, h'.overlayBase.trans h.overlayBase,
    fun hd => h'.atom (h.atom hd)⟩

theorem Quiet.extends (h : Quiet rt rt') : Extends rt rt' :=
  ⟨h.arena, h.base, h.overlayBase, fun hd =>
    (QuietBut.atomIn_eq h (fun _ => id) _).trans hd⟩

/-- The outcome of making an atom: 0 if memory ran out, or a new number for the text. -/
structure NewAtom (Q : TextPred) (rt rt' : Runtime) (ids ids' : Nat → List Nat)
    (skip : StrPtr → Prop) (a : Allocs) (t : AtomType) (chars : List Nat) (i : Nat) : Prop where
  frozen : ∃ ids'', Frozen Q rt' ids ids'' skip
  ext : Extends rt rt'
  zero : i = 0 → ¬ (a.block = true ∧ a.slots = true ∧ a.hash = true)
  atom : i ≠ 0 → i = rt.req.overlayBase + (rt.req.overlayCount + 1) ∧
    rt'.req.overlayCount = rt.req.overlayCount + 1 ∧
    ∃ d, atomIn rt'.req.data rt'.req.slot i = some d ∧ d.key = (t, chars)

/-- Entering a struct makes an atom of its text. -/
theorem Ready.newAtom (h : Ready Q rt ids ids' skip n wide chars)
    (he : Entered rt rt' n (rt.req.overlayBase + (rt.req.overlayCount + 1)) s' heads)
    (ht : s'.atomType = some t) (hc : s'.chars = chars)
    (hf : ∃ ids'', Frozen Q rt' ids ids'' skip) :
    NewAtom Q rt rt' ids ids' skip a t chars (rt.req.overlayBase + (rt.req.overlayCount + 1)) := by
  refine ⟨hf, ⟨he.arena, he.base, he.overlayBase, h.atomIn_old h.frozen.next_none he⟩,
    fun h0 => by
      omega, fun _ => ⟨rfl, he.count, ⟨t, s'.isWide, s'.chars, s'.hash, s'.hashNext⟩, ?_, ?_⟩⟩
  · rw [he.data ht, he.slot, atomIn_update_self]
  · rw [AtomData.key, hc]

/-- The struct that was entered is the atom of its number. -/
theorem Entered.atom (he : Entered rt rt' n i s' heads) : rt'.atom i = some s' := by
  have hslot : rt'.req.slot i = some (.req n) := by rw [he.slot, update_self]
  have hstr : rt'.str (.req n) = some s' := (congrFun he.str _).trans (update_self ..)
  rw [Runtime.atom, Runtime.atomStruct_req hslot, Option.bind_some, hstr]

/-- The chain heads with the atom `i` in front of the chain of the hash `v`, before `next`; the
heads are those there were, or the first. -/
def Linked (old : List Nat) (v i next : Nat) (heads : List Nat) : Prop :=
  ∃ hs, (hs = old ∧ old ≠ [] ∨ old = [] ∧ hs = List.replicate hashOverlayInitial 0) ∧
    hs[v % hs.length]? = some next ∧ heads = hs.set (v % hs.length) i

/-- The three ways to go on with a struct: no slot, a slot but no chain heads, or an atom. -/
theorem Ready.installAtom_cases (h : Ready Q rt ids ids' skip n wide chars) (str : Option StrPtr)
    (t : AtomType) (v : Nat) (a : Allocs)
    (hlt : rt.req.overlayBase + (rt.req.overlayCount + 1) < tagInt) :
    (rt.req.overlayFreeIndex = 0 ∧ a.slots = false) ∧
        rt.installAtom str (.req n) t v a = rt.newAtomFail str ∨
      ¬ (rt.req.overlayFreeIndex = 0 ∧ a.slots = false) ∧ ∃ rt1 s' heads,
        Entered rt rt1 n (rt.req.overlayBase + (rt.req.overlayCount + 1)) s' heads ∧
        s'.hash = v ∧ s'.atomType = some t ∧ s'.isWide = wide ∧ s'.chars = chars ∧
        ((t ≠ .symbol ∧ rt.req.hashOverlay = [] ∧ a.hash = false) ∧ heads = rt.req.hashOverlay ∧
            rt.installAtom str (.req n) t v a = rt1.newAtomFail str ∨
          ¬ (t ≠ .symbol ∧ rt.req.hashOverlay = [] ∧ a.hash = false) ∧
            rt.installAtom str (.req n) t v a =
              some (rt.req.overlayBase + (rt.req.overlayCount + 1), rt1) ∧
            (t = .symbol → heads = rt.req.hashOverlay ∧
              s'.hashNext = rt.req.overlayBase + (rt.req.overlayCount + 1)) ∧
            (t ≠ .symbol → Linked rt.req.hashOverlay v
              (rt.req.overlayBase + (rt.req.overlayCount + 1)) s'.hashNext heads ∧
              heads[v &&& (heads.length - 1)]? =
                some (rt.req.overlayBase + (rt.req.overlayCount + 1)))) := by
  obtain ⟨arena, base, req⟩ := rt
  obtain rfl : arena = true := h.frozen.arena
  obtain ⟨s, hs, hsw, hsc⟩ := h.struct
  have hlow : req.overlayBase + (req.overlayCount + 1) < 2 ^ 31 := hlt
  unfold Runtime.installAtom
  rcases h.frozen.shape.takeSlot (p := .req n) (a := a) rfl (by simp only; omega)
      (by simp only; omega) with ⟨hfull, herr⟩ | ⟨hroom, r, hok, htaken⟩
  · exact .inl ⟨hfull, by rw [herr]; rfl⟩
  refine .inr ⟨hroom, ?_⟩
  have hstrs : r.strs[n]?.join = some s := by rw [htaken.strs]; exact hs
  have hn : n < r.strs.length := by rw [htaken.strs]; exact Runtime.lt_of_str_req hs
  rw [hok]
  simp only [Option.bind_some, Runtime.modStr, Runtime.setStr, Runtime.str, hstrs, Option.map_some,
    if_true]
  obtain ⟨s1, hs1⟩ : ∃ s1 : JSString, s1 = { s with
    hash := v, hashNext := req.overlayBase + (req.overlayCount + 1), atomType := some t } :=
      ⟨_, rfl⟩
  have hent : Entered ⟨true, base, req⟩ ⟨true, base, { r with strs := r.strs.set n (some s1) }⟩ n
      (req.overlayBase + (req.overlayCount + 1)) s1 req.hashOverlay :=
    { htaken.entered hs s1 r.hashOverlay with hash := htaken.hash }
  have hhash : s1.hash = v := by rw [hs1]
  have ht1 : s1.atomType = some t := by rw [hs1]
  have hwide : s1.isWide = wide := by rw [hs1, hsw]
  have hchars : s1.chars = chars := by rw [hs1, hsc]
  rw [← hs1]
  by_cases hsym : t = .symbol
  · rw [if_pos hsym]
    exact ⟨_, s1, _, hent, hhash, ht1, hwide, hchars, .inr ⟨fun hc => hc.1 hsym, rfl,
      fun _ => ⟨rfl, by rw [hs1]⟩, fun hne => absurd hsym hne⟩⟩
  rw [if_neg hsym]
  have hset : (r.strs.set n (some s1))[n]?.join = some s1 := by simp [hn]
  simp only [Runtime.linkAtom, Runtime.hashOverlayEnsure, if_true, htaken.hash]
  by_cases hnil : req.hashOverlay = []
  · rw [if_neg (by simpa using hnil)]
    by_cases hah : a.hash = false
    · -- no chains
      rw [if_pos (by simp [hah])]
      refine ⟨_, s1, _, hent, hhash, ht1, hwide, hchars, .inl ⟨⟨hsym, hnil, hah⟩, rfl, ?_⟩⟩
      rw [Option.bind_some, ← htaken.hash]
    · -- the first chains
      rw [if_neg (by simpa using hah)]
      have hb : v % hashOverlayInitial < hashOverlayInitial := Nat.mod_lt _ (by decide)
      have hget : (List.replicate hashOverlayInitial 0)[v % hashOverlayInitial]? = some 0 := by
        rw [List.getElem?_replicate, if_pos hb]
      have hmask : ∀ w, w &&& (hashOverlayInitial - 1) = w % hashOverlayInitial := fun w =>
        Nat.and_two_pow_sub_one_eq_mod w 6
      simp only [List.length_replicate, hmask, hget, Option.map_some, Option.bind_some,
        Runtime.modStr, Runtime.setStr, Runtime.str, hset, List.set_set]
      refine ⟨_, _, _, htaken.entered hs { s1 with hashNext := 0 } _, hhash, ht1, hwide,
        hchars, .inr ⟨fun hc => hah hc.2.2, rfl, fun he => absurd he hsym,
        fun _ => ⟨⟨_, .inr ⟨hnil, rfl⟩, hget, rfl⟩, ?_⟩⟩⟩
      rw [List.length_set, List.length_replicate, hmask, List.getElem?_set_self (by simpa using hb)]
  · rw [if_pos hnil]
    have hb := Nat.mod_lt v (List.length_pos_iff.2 hnil)
    obtain ⟨head, hget⟩ : ∃ head, req.hashOverlay[v % req.hashOverlay.length]? = some head :=
      ⟨_, List.getElem?_eq_getElem hb⟩
    have hmask := h.frozen.ok.overlay.and_eq_mod hnil
    simp only [hmask, hget, Option.map_some, Option.bind_some,
      Runtime.modStr, Runtime.setStr, Runtime.str, hset, List.set_set]
    refine ⟨_, _, _, htaken.entered hs { s1 with hashNext := head } _, hhash, ht1, hwide,
      hchars, .inr ⟨fun hc => hnil hc.2.1, rfl, fun he => absurd he hsym,
      fun _ => ⟨⟨_, .inl ⟨rfl, hnil⟩, hget, rfl⟩, ?_⟩⟩⟩
    rw [List.length_set, hmask, List.getElem?_set_self hb]

/-- Room for one more atom: its number has no tag, and if an allocation fails the structs left
behind are those to skip. -/
structure Room (rt : Runtime) (a : Allocs) (skip : StrPtr → Prop) : Prop where
  low : rt.req.overlayBase + (rt.req.overlayCount + 1) < tagInt
  skip : a.block = true ∧ a.slots = true ∧ a.hash = true ∨ ∀ q, skip q

theorem Room.quiet {P : StrPtr → Prop} (h : Room rt a skip) (hq : QuietBut rt rt' P) :
    Room rt' a skip :=
  ⟨by rw [hq.overlayBase, hq.count]; exact h.low, h.skip⟩

/-- The end of `__JS_NewAtom` after the freeze. -/
theorem Ready.installAtom (h : Ready Q rt ids ids' skip n wide chars)
    (str : Option StrPtr) {v : Nat}
    (hroom : Room rt a skip)
    (hstr : ∀ p, str = some p → ∃ s, rt.str p = some s ∧ s.atomType ≠ none)
    (ht : NewText Q rt ids ids' t v wide chars) :
    ∃ i rt', rt.installAtom str (.req n) t v a = some (i, rt') ∧
      NewAtom Q rt rt' ids ids' skip a t chars i := by
  have hi := h.frozen.next_none
  rcases h.installAtom_cases str t v a hroom.low with ⟨hfull, hdone⟩ |
    ⟨-, rt1, s', heads, hent, hv, ht1, rfl, rfl, ⟨hno, rfl, hdone⟩ | ⟨-, hdone, hsymb, hlink⟩⟩
  · -- no slot
    obtain ⟨rt', hfail, hq⟩ := Runtime.newAtomFail_atom h.frozen.arena hstr
    have hno : ¬ (a.block = true ∧ a.slots = true ∧ a.hash = true) := by simp [hfull.2]
    have hall := hroom.skip.resolve_left hno
    refine ⟨0, rt', hdone.trans hfail, ⟨ids', Frozen.quiet ?_ hq⟩, hq.extends,
      fun _ => hno, fun h0 => absurd rfl h0⟩
    exact { h.frozen with overlay := h.frozen.overlay.mono fun q _ => hall q }
  · -- no chains
    obtain ⟨rt', hfail, hq⟩ := Runtime.newAtomFail_atom (hent.arena.trans h.frozen.arena)
      fun p hp => hent.isAtom (by rw [ht1]; nofun) (hstr p hp)
    have hno : ¬ (a.block = true ∧ a.slots = true ∧ a.hash = true) := by simp [hno.2.2]
    have hf := h.occupied hroom.low hi hent ht1 (.inr (hroom.skip.resolve_left hno))
    refine ⟨0, rt', hdone.trans hfail, ⟨ids', hf.quiet hq⟩, ?_, fun _ => hno,
      fun h0 => absurd rfl h0⟩
    exact Extends.trans ⟨hent.arena, hent.base, hent.overlayBase, h.atomIn_old hi hent⟩ hq.extends
  refine ⟨_, _, hdone, h.newAtom hent ht1 rfl ?_⟩
  by_cases hsym : t = .symbol
  · obtain ⟨rfl, hnext⟩ := hsymb hsym
    exact ⟨ids', h.occupied hroom.low hi hent ht1 (.inl ⟨hsym, hnext⟩)⟩
  obtain ⟨hth, hhash, hfresh, hgood⟩ := ht.resolve_left hsym
  obtain ⟨⟨hs, ⟨rfl, -⟩ | ⟨hnil, rfl⟩, hget, rfl⟩, -⟩ := hlink hsym
  · subst hv
    exact h.linked (by omega) hroom.low hi hget hent ht1 hth hhash hfresh hgood
  · -- the first chains
    subst hv
    refine (h.withHeads hnil).linked (by omega) hroom.low
      (h.withHeads hnil).frozen.next_none hget ?_ ht1
      hth hhash (fun j e hj => hfresh j e (hj.imp_right fun ⟨⟨_, _, hmem⟩, _⟩ => ?_)) hgood
    · exact { hent with }
    · cases hmem

/-- The entries of the chains before and after the struct was made. -/
theorem Frozen.entry_of_quietBut (h : Frozen Q rt ids ids' skip) (hq : QuietBut rt rt' (· = .req n))
    (hnone : rt.req.data (.req n) = none) {j : Nat} {e : AtomData}
    (hj : rt'.Entry ids ids' j e) : rt.Entry ids ids' j e := by
  rcases hj with ⟨hj, hd⟩ | ⟨hj, hd⟩
  · rw [hq.base] at hj hd
    exact .inl ⟨hj, hd⟩
  · rw [hq.hash] at hj
    rw [hq.atomIn_eq fun hs he => h.unslotted hnone _ (he ▸ hs)] at hd
    exact .inr ⟨hj, hd⟩

/-- Making an atom after the freeze. -/
theorem Frozen.createAtom (h : Frozen Q rt ids ids' skip) (str : Option StrPtr) {v : Nat}
    (hroom : Room rt a skip)
    (hstr : Makeable rt str) (ht : NewText Q rt ids ids' t v (rt.wideOf str) (rt.textOf str)) :
    ∃ i rt', rt.createAtom str t v a = some (i, rt') ∧
      NewAtom Q rt rt' ids ids' skip a t (rt.textOf str) i := by
  have hgrow : rt.growAtomArray a = .ok rt := by simp [Runtime.growAtomArray, h.arena]
  unfold Runtime.createAtom
  simp only [hgrow]
  rcases h.atomBlock (t := t) (a := a) hstr with ⟨herr, ha, hatom⟩
    | ⟨n, rt1, hok, hready, hq, hnone, hatom⟩
  · obtain ⟨rt', hfail, hq⟩ := Runtime.newAtomFail_atom h.arena hatom
    have hno : ¬ (a.block = true ∧ a.slots = true ∧ a.hash = true) := by simp [ha]
    exact ⟨0, rt', by rw [herr]; exact hfail, ⟨ids', h.quiet hq⟩, hq.extends, fun _ => hno,
      fun h0 => absurd rfl h0⟩
  · have hext : Extends rt rt1 := ⟨hq.arena, hq.base, hq.overlayBase, fun hd =>
      (hq.atomIn_eq (fun hs he => h.unslotted hnone _ (he ▸ hs)) _).trans hd⟩
    obtain ⟨i, rt', hr, hnew⟩ := hready.installAtom str (v := v) (t := t) (a := a)
      (hroom.quiet hq) hatom
      (ht.imp_right (.imp_right (.imp_right (.imp_left fun hfresh j e hj =>
        hfresh j e (h.entry_of_quietBut hq hnone hj)))))
    refine ⟨i,
      rt', by rw [hok]; exact hr, hnew.frozen, hext.trans hnew.ext, hnew.zero, fun h0 => ?_⟩
    obtain ⟨hi, hcount, hd⟩ := hnew.atom h0
    exact ⟨by rw [hi, hq.overlayBase, hq.count], by rw [hcount, hq.count], hd⟩

end

end

end ArenaJs.Atoms
