import ArenaJs.Atoms.Lookup

/-!
# The atom table before the freeze

Before `JS_FreezeRuntime` atoms are made and freed in the base. `Pre` is the invariant of that time:
the table is well formed, every atom struct is found from its own fields, and the free list consists
of free entries. Every function keeps it; freeing never adds an atom (`Shrinks`).
-/

namespace ArenaJs.Atoms

open Function (update update_of_ne update_self update_eq_self_iff)

/-- The request state of a runtime that is not frozen. -/
def Request.initial : Request := ⟨[], [], 2 ^ 32 - 1, 0, 0, []⟩

/-- The link of a free entry. -/
def Snapshot.freeNext (b : Snapshot) (i : Nat) : Option Nat := b.atomArray[i]?.bind Slot.next?

/-- The invariant before the freeze. `skip` are structs that are being made. -/
structure Pre (Q : TextPred) (rt : Runtime) (ids : Nat → List Nat) (free : List Nat)
    (skip : StrPtr → Prop) : Prop where
  arena : rt.isArena = false
  req : rt.req = Request.initial
  table : TableOk Q rt.base.data rt.base.slot rt.base.atomHash ids
  complete : Complete rt.base.data rt.base.slot rt.base.atomHash ids skip
  hash_ne : rt.base.atomHash ≠ []
  freeList : Chain rt.base.freeNext rt.base.atomFreeIndex free
  len : rt.base.atomArray.length ≤ atomMax

/-- After a step the chains hold no atoms but old ones. -/
def NoNew (rt rt' : Runtime) (ids ids' : Nat → List Nat) : Prop :=
  ∀ i d', HashIndex.Mem rt'.base.atomHash ids' i →
    atomIn rt'.base.data rt'.base.slot i = some d' →
    ∃ d, HashIndex.Mem rt.base.atomHash ids i ∧ atomIn rt.base.data rt.base.slot i = some d ∧
      d'.key = d.key

/-- After a step there are no atoms but old ones. -/
structure Shrinks (rt rt' : Runtime) (ids ids' : Nat → List Nat) : Prop where
  data : ∀ {p d'}, rt'.base.data p = some d' → ∃ d, rt.base.data p = some d ∧ d'.key = d.key
  mem : NoNew rt rt' ids ids'

section
variable {Q : TextPred} {rt rt' rt'' : Runtime} {ids ids' ids'' : Nat → List Nat} {free : List Nat}
  {skip : StrPtr → Prop} {p q : StrPtr} {s : JSString} {i : Nat} {d : AtomData}
variable {b b' : Snapshot} {n : Nat} {o : Option JSString}

theorem NoNew.trans (h : NoNew rt rt' ids ids') (h' : NoNew rt' rt'' ids' ids'') :
    NoNew rt rt'' ids ids'' := by
  intro i d hi hd
  obtain ⟨e, hie, he, hke⟩ := h' i d hi hd
  obtain ⟨f, hif, hf, hkf⟩ := h i e hie he
  exact ⟨f, hif, hf, hke.trans hkf⟩

theorem Shrinks.trans (h : Shrinks rt rt' ids ids') (h' : Shrinks rt' rt'' ids' ids'') :
    Shrinks rt rt'' ids ids'' where
  data hd := by
    obtain ⟨e, he, hke⟩ := h'.data hd
    obtain ⟨f, hf, hkf⟩ := h.data he
    exact ⟨f, hf, hke.trans hkf⟩
  mem := h.mem.trans h'.mem

/-- What a runtime keeps while its chains are being moved. -/
structure Moving (rt : Runtime) : Prop where
  arena : rt.isArena = false
  req : rt.req = Request.initial
  live : ∀ {i p}, rt.base.slot i = some p → ∃ d, rt.base.data p = some d
  inj : ∀ {i j p}, rt.base.slot i = some p → rt.base.slot j = some p → i = j
  len : rt.base.atomArray.length ≤ atomMax

theorem Pre.moving (h : Pre Q rt ids free skip) : Moving rt :=
  ⟨h.arena, h.req, h.table.live, h.table.inj, h.len⟩

/-! ## Strings -/

theorem Moving.str_eq (h : Moving rt) (p : StrPtr) : rt.str p = rt.base.str p := by
  cases p with
  | base n => rfl
  | req n => simp [Runtime.str, Snapshot.str, h.req, Request.initial]

theorem Pre.str_eq (h : Pre Q rt ids free skip) (p : StrPtr) : rt.str p = rt.base.str p :=
  h.moving.str_eq p

theorem Snapshot.exists_base {b : Snapshot} (h : b.str p = some s) :
    ∃ n, p = .base n ∧ n < b.strs.length := by
  cases p with
  | base n => exact ⟨n, rfl, (List.getElem?_eq_some_iff.1 (Option.join_eq_some_iff.1 h)).1⟩
  | req n => cases h

/-- Writing a struct of the base. -/
theorem Snapshot.str_set {b : Snapshot} (hn : n < b.strs.length) (o : Option JSString) :
    Snapshot.str { b with strs := b.strs.set n o } = update b.str (.base n) o := by
  funext q
  cases q with
  | req m => rw [update_of_ne (by nofun)]; rfl
  | base m =>
    by_cases h : m = n
    · subst h
      simp [Snapshot.str, hn]
    · rw [update_of_ne (by simpa using h)]
      simp [Snapshot.str, Ne.symm h]

/-- A new struct of the base. -/
theorem Snapshot.str_append (b : Snapshot) (o : Option JSString) :
    Snapshot.str { b with strs := b.strs ++ [o] } =
      update b.str (.base b.strs.length) o := by
  funext q
  cases q with
  | req m => rw [update_of_ne (by nofun)]; rfl
  | base m =>
    rcases Nat.lt_trichotomy m b.strs.length with hm | rfl | hm
    · rw [update_of_ne (by simp; omega)]
      simp [Snapshot.str, List.getElem?_append_left hm]
    · simp [Snapshot.str]
    · rw [update_of_ne (by simp; omega), Snapshot.str, Snapshot.str,
        List.getElem?_eq_none (by simp; omega), List.getElem?_eq_none (by omega)]

/-- The atoms after one struct was written. -/
theorem data_update {str str' : StrPtr → Option JSString}
    (h : str' = update str p o) : (fun q => (str' q).bind JSString.data?) =
      update (fun q => (str q).bind JSString.data?) p (o.bind JSString.data?) := by
  funext q
  by_cases hq : q = p
  · subst hq
    simp [h]
  · simp [h, update_of_ne hq]

theorem Snapshot.data_eq_of_str
    (h : b'.str = update b.str p o) :
    b'.data = update b.data p (o.bind JSString.data?) := data_update h

/-- Writing the struct at `p` before the freeze. -/
theorem Pre.setStr (h : Pre Q rt ids free skip) (hs : rt.str p = some s) (o : Option JSString) :
    (rt.setStr p o).isArena = rt.isArena ∧ (rt.setStr p o).req = rt.req ∧
      (rt.setStr p o).base.str = update rt.base.str p o ∧
      (rt.setStr p o).base.atomArray = rt.base.atomArray ∧
      (rt.setStr p o).base.atomHash = rt.base.atomHash ∧
      (rt.setStr p o).base.atomFreeIndex = rt.base.atomFreeIndex := by
  rw [h.str_eq] at hs
  obtain ⟨n, rfl, hn⟩ := Snapshot.exists_base hs
  exact ⟨rfl, rfl, Snapshot.str_set hn o, rfl, rfl, rfl⟩

theorem Snapshot.slot_congr (h : b'.atomArray = b.atomArray) : b'.slot = b.slot := by
  funext i
  simp only [Snapshot.slot, h]

theorem Snapshot.freeNext_congr (h : b'.atomArray = b.atomArray) :
    b'.freeNext = b.freeNext := by
  funext i
  simp [Snapshot.freeNext, h]

/-- The invariant only depends on the atoms and the table. -/
theorem Pre.congr (h : Pre Q rt ids free skip) (harena : rt'.isArena = rt.isArena)
    (hreq : rt'.req = rt.req) (hdata : rt'.base.data = rt.base.data)
    (harr : rt'.base.atomArray = rt.base.atomArray) (hhash : rt'.base.atomHash = rt.base.atomHash)
    (hfree : rt'.base.atomFreeIndex = rt.base.atomFreeIndex) : Pre Q rt' ids free skip := by
  have hslot := Snapshot.slot_congr harr
  have hnext := Snapshot.freeNext_congr harr
  refine ⟨harena.trans h.arena, hreq.trans h.req, ?_, ?_, ?_, ?_, ?_⟩
  · rw [hdata, hslot, hhash]; exact h.table
  · rw [hdata, hslot, hhash]; exact h.complete
  · rw [hhash]; exact h.hash_ne
  · rw [hnext, hfree]; exact h.freeList
  · rw [harr]; exact h.len

theorem Shrinks.of_data (hdata : rt'.base.data = rt.base.data)
    (harr : rt'.base.atomArray = rt.base.atomArray) (hhash : rt'.base.atomHash = rt.base.atomHash) :
    Shrinks rt rt' ids ids where
  data hd := ⟨_, hdata ▸ hd, rfl⟩
  mem i d hi hd := by
    rw [hdata, Snapshot.slot_congr harr] at hd
    exact ⟨d, hhash ▸ hi, hd, rfl⟩

/-- Writes that leave the atom fields alone. -/
theorem Pre.setStr_same (h : Pre Q rt ids free skip) (hs : rt.str p = some s)
    (ho : o.bind JSString.data? = s.data?) :
    Pre Q (rt.setStr p o) ids free skip ∧ Shrinks rt (rt.setStr p o) ids ids := by
  obtain ⟨ha, hr, hstr, harr, hhash, hfree⟩ := h.setStr hs o
  have hdata : (rt.setStr p o).base.data = rt.base.data := by
    rw [Snapshot.data_eq_of_str hstr, ho]
    refine update_eq_self_iff.2 ?_
    rw [Snapshot.data, ← h.str_eq, hs, Option.bind_some]
  exact ⟨h.congr ha hr hdata harr hhash hfree, .of_data hdata harr hhash⟩

/-- Freeing what is not there. -/
theorem set_none_of_join {l : List (Option JSString)} (h : l[n]?.join = none) :
    l.set n none = l := by
  refine List.ext_getElem? fun m => ?_
  rw [List.getElem?_set]
  split
  · next hm =>
    subst hm
    split
    · next hlt =>
      rw [List.getElem?_eq_getElem hlt] at h ⊢
      exact congrArg some h.symm
    · next hlt => exact (List.getElem?_eq_none (by omega)).symm
  · rfl

/-- A struct that is not there is not written. -/
theorem Runtime.setStr_none (hs : rt.str p = none) : rt.setStr p none = rt := by
  cases p with
  | base n => simp [Runtime.setStr, set_none_of_join hs]
  | req n => simp [Runtime.setStr, set_none_of_join hs]

section
variable (h : Pre Q rt ids free skip)
include h

/-- A change of the fields that are not the atom's. -/
theorem Pre.modStr_same (p : StrPtr) {f : JSString → JSString}
    (hf : ∀ s, (f s).data? = s.data?) :
    Pre Q (rt.modStr p f) ids free skip ∧ Shrinks rt (rt.modStr p f) ids ids := by
  cases hs : rt.str p with
  | none =>
    rw [Runtime.modStr, hs, Option.map_none, Runtime.setStr_none hs]
    exact ⟨h, .of_data rfl rfl rfl⟩
  | some s =>
    rw [Runtime.modStr, hs, Option.map_some]
    exact h.setStr_same hs (by rw [Option.bind_some, hf])

theorem Pre.rcInc (p : StrPtr) :
    Pre Q (rt.rcInc p) ids free skip ∧ Shrinks rt (rt.rcInc p) ids ids := by
  unfold Runtime.rcInc
  split
  · exact ⟨h, .of_data rfl rfl rfl⟩
  · exact h.modStr_same p fun _ => rfl

theorem Pre.rcDec (p : StrPtr) :
    Pre Q (rt.rcDec p).2 ids free skip ∧ Shrinks rt (rt.rcDec p).2 ids ids := by
  unfold Runtime.rcDec
  split
  · exact ⟨h, .of_data rfl rfl rfl⟩
  · exact h.modStr_same p fun _ => rfl

/-- A new string: its pointer is new, and nothing else changes. -/
theorem Pre.allocStr_str :
    (rt.allocStr s).2.base.atomArray = rt.base.atomArray ∧
      (rt.allocStr s).2.base.atomFreeIndex = rt.base.atomFreeIndex ∧
      (rt.allocStr s).2.str (rt.allocStr s).1 = some s ∧
      ∀ q t, rt.str q = some t → q ≠ (rt.allocStr s).1 ∧ (rt.allocStr s).2.str q = some t := by
  simp only [Runtime.allocStr, h.arena, Bool.false_eq_true, if_false]
  refine ⟨trivial, trivial, by simp [Runtime.str], fun q t hq => ?_⟩
  cases q with
  | req n => exact ⟨nofun, hq⟩
  | base n =>
    have hne : StrPtr.base n ≠ .base rt.base.strs.length := by
      rintro ⟨⟩
      simp [Runtime.str] at hq
    refine ⟨hne, ?_⟩
    show Snapshot.str { rt.base with strs := rt.base.strs ++ [some s] } (.base n) = some t
    rw [Snapshot.str_append, update_of_ne hne]
    exact hq

/-- A new string that is not an atom. -/
theorem Pre.allocStr (hs : s.atomType = none) :
    Pre Q (rt.allocStr s).2 ids free skip ∧ Shrinks rt (rt.allocStr s).2 ids ids := by
  simp only [Runtime.allocStr, h.arena, Bool.false_eq_true, if_false]
  have hdata : Snapshot.data { rt.base with strs := rt.base.strs ++ [some s] } = rt.base.data := by
    rw [Snapshot.data_eq_of_str (Snapshot.str_append _ _)]
    refine update_eq_self_iff.2 ?_
    simp [Snapshot.data, Snapshot.str, JSString.data?, hs]
  exact ⟨h.congr h.arena.symm rfl hdata rfl rfl rfl, .of_data hdata rfl rfl⟩

/-! ## Freeing an atom -/

theorem Pre.bound :
    rt.base.atomArray.length ≤ rt.req.overlayBase := by
  have := h.len
  rw [h.req]
  simp only [Request.initial, atomMax] at this ⊢
  omega

/-- The two tables of a runtime that is not frozen: the overlay is empty. -/
theorem Pre.ok : rt.Ok Q ids fun _ => [] where
  base := h.table
  overlay := by
    refine TableOk.empty 0 (by rw [h.req]; rfl) (.inl (by rw [h.req]; rfl)) fun i => ?_
    rw [h.req]
    simp [Request.slot, Request.initial]
  hash_ne := h.hash_ne
  bound := h.bound
  cross _ hj := by
    obtain ⟨b, hb, -⟩ := hj
    simp [h.req, Request.initial] at hb

end

theorem Moving.atomStruct_eq (h : Moving rt) (i : Nat) : rt.atomStruct i = rt.base.slot i := by
  rw [Runtime.atomStruct]
  split
  · rfl
  · next hi =>
    have hlen := h.len
    rw [h.req] at hi
    simp only [Request.initial, atomMax] at hi hlen
    have hnone : rt.base.atomArray[i]? = none := List.getElem?_eq_none (by omega)
    rw [Snapshot.slot, hnone, h.req]
    rfl

theorem Pre.atomStruct_eq (h : Pre Q rt ids free skip) (i : Nat) :
    rt.atomStruct i = rt.base.slot i :=
  h.moving.atomStruct_eq i

/-- The steps of a resize: only chain links change. -/
structure Moved (rt rt' : Runtime) : Prop where
  arena : rt'.isArena = rt.isArena
  req : rt'.req = rt.req
  array : rt'.base.atomArray = rt.base.atomArray
  hash : rt'.base.atomHash = rt.base.atomHash
  freeIndex : rt'.base.atomFreeIndex = rt.base.atomFreeIndex
  relinked : Relinked rt.base.data rt'.base.data

theorem Moved.refl (rt : Runtime) : Moved rt rt := ⟨rfl, rfl, rfl, rfl, rfl, Relinked.refl _⟩

theorem Moved.trans (h : Moved rt rt') (h' : Moved rt' rt'') : Moved rt rt'' :=
  ⟨h'.arena.trans h.arena, h'.req.trans h.req, h'.array.trans h.array, h'.hash.trans h.hash,
    h'.freeIndex.trans h.freeIndex, h.relinked.trans h'.relinked⟩

theorem Moved.slot (h : Moved rt rt') : rt'.base.slot = rt.base.slot := Snapshot.slot_congr h.array

theorem Moved.moving (h : Moved rt rt') (hm : Moving rt) : Moving rt' where
  arena := h.arena.trans hm.arena
  req := h.req.trans hm.req
  live hi := by
    rw [h.slot] at hi
    obtain ⟨d, hd⟩ := hm.live hi
    obtain ⟨n, hn, -⟩ := h.relinked.to_some hd
    exact ⟨_, hn⟩
  inj hi hj := by
    rw [h.slot] at hi hj
    exact hm.inj hi hj
  len := by rw [h.array]; exact hm.len

/-- Writing the link of one hashed atom. -/
theorem Moving.setNext (h : Moving rt) (hi : rt.base.slot i = some p) (hd : rt.base.data p = some d)
    (ht : d.type.hashed = true) (hs : rt.str p = some s) (n : Nat) :
    Moved rt (rt.setStr p (some { s with hashNext := n })) ∧
      (∀ q, q ≠ p → (rt.setStr p (some { s with hashNext := n })).base.str q = rt.base.str q) ∧
      atomIn (rt.setStr p (some { s with hashNext := n })).base.data rt.base.slot i =
        some { d with hashNext := n } ∧
      ∀ j, j ≠ i → atomIn (rt.setStr p (some { s with hashNext := n })).base.data rt.base.slot j =
        atomIn rt.base.data rt.base.slot j := by
  have hsb : rt.base.str p = some s := h.str_eq p ▸ hs
  obtain ⟨m, rfl, hm⟩ := Snapshot.exists_base hsb
  have hsd : s.data? = some d := by rwa [Snapshot.data, hsb, Option.bind_some] at hd
  have hstr : (rt.setStr (.base m) (some { s with hashNext := n })).base.str =
      update rt.base.str (.base m) (some { s with hashNext := n }) := Snapshot.str_set hm _
  have hdata : (rt.setStr (.base m) (some { s with hashNext := n })).base.data =
      update rt.base.data (.base m) (some { d with hashNext := n }) := by
    rw [Snapshot.data_eq_of_str hstr, Option.bind_some]
    congr 1
    obtain ⟨t, hst, rfl⟩ := Option.map_eq_some_iff.1 hsd
    simp [JSString.data?, hst]
  refine ⟨⟨rfl, rfl, rfl, rfl, rfl, hdata ▸ Relinked.update hd ht n⟩,
    fun q hq => by rw [hstr, update_of_ne hq], ?_, fun j hj => ?_⟩
  · simp [atomIn, hdata, hi]
  · cases hsj : rt.base.slot j with
    | none => simp [atomIn, hsj]
    | some q =>
      have hq : q ≠ .base m := fun hq => hj (h.inj (hq ▸ hsj) hi)
      simp [atomIn, hdata, hsj, update_of_ne hq]

/-- What taking the struct `p` off its chain leaves. -/
structure Unlinked (rt rt1 : Runtime) (ids ids1 : Nat → List Nat) (p : StrPtr) (i : Nat) :
    Prop where
  arena : rt1.isArena = rt.isArena
  req : rt1.req = rt.req
  array : rt1.base.atomArray = rt.base.atomArray
  freeIndex : rt1.base.atomFreeIndex = rt.base.atomFreeIndex
  length : rt1.base.atomHash.length = rt.base.atomHash.length
  index : HashIndex (nextIn rt1.base.data rt.base.slot) (hashIn rt1.base.data rt.base.slot)
    rt1.base.atomHash ids1
  mem : ∀ {j}, HashIndex.Mem rt1.base.atomHash ids1 j ↔ j ≠ i ∧ HashIndex.Mem rt.base.atomHash ids j
  relinked : Relinked rt.base.data rt1.base.data
  others : ∀ {q}, q = p ∨ rt.base.data q = none → rt1.base.str q = rt.base.str q

/-- The inner loop of `JS_FreeAtomStruct` finds the node before the struct. -/
theorem Runtime.unlinkAfter_spec (hs : rt.str p = some s) {l1 l2 : List Nat} {a j fuel : Nat}
    (hc : Chain rt.nextOf j (l1 ++ a :: i :: l2)) (hi : rt.atomStruct i = some p)
    (hno : ∀ c ∈ l1 ++ [a], rt.atomStruct c ≠ some p) {pa : StrPtr} {sa : JSString}
    (hpa : rt.atomStruct a = some pa) (hsa : rt.str pa = some sa) (hf : l1.length < fuel) :
    rt.unlinkAfter p fuel j =
      some (i, rt.setStr pa (some { sa with hashNext := s.hashNext })) := by
  induction l1 generalizing j fuel with
  | nil =>
    obtain ⟨n, rfl⟩ := Nat.exists_eq_succ_of_ne_zero (Nat.ne_zero_of_lt hf)
    obtain ⟨rfl, hne, k, hk, hrest⟩ := Chain.cons_iff.1 hc
    obtain ⟨rfl, -⟩ := Chain.cons_iff.1 hrest
    have hnext : sa.hashNext = k := by
      simpa [Runtime.nextOf, Runtime.atom, hpa, hsa] using hk
    simp [Runtime.unlinkAfter, hne, hpa, hsa, hnext, hi, hs]
  | cons c l1 ih =>
    obtain ⟨n, rfl⟩ := Nat.exists_eq_succ_of_ne_zero (Nat.ne_zero_of_lt hf)
    obtain ⟨rfl, hne, k, hk, hrest⟩ := Chain.cons_iff.1 hc
    simp only [List.length_cons] at hf
    obtain ⟨t, ht, htk⟩ := Option.map_eq_some_iff.1 hk
    obtain ⟨pc, hpc, hsc⟩ := Option.bind_eq_some_iff.1 ht
    have hkno : rt.atomStruct k ≠ some p := by
      cases l1 with
      | nil => exact (Chain.cons_iff.1 hrest).1 ▸ hno a (by simp)
      | cons e l1 => exact (Chain.cons_iff.1 hrest).1 ▸ hno e (by simp)
    simp only [Runtime.unlinkAfter, hne, hpc, hsc, htk, hkno, if_false, Option.bind_some]
    exact ih hrest (fun d hd => hno d (.tail _ hd)) (by omega)

/-- Taking a hashed atom off its chain. -/
theorem Pre.unlinkAtom_hashed (h : Pre Q rt ids free skip) (hs : rt.str p = some s)
    (hd : s.data? = some d) (ht : d.type.hashed = true) (hi : rt.base.slot i = some p)
    (hmem : HashIndex.Mem rt.base.atomHash ids i) :
    ∃ rt1 ids1, rt.unlinkAtom p s = some (i, rt1) ∧ Unlinked rt rt1 ids ids1 p i := by
  obtain ⟨hst, -, hsh, hsn, -⟩ := JSString.data?_eq hd
  have hstr : rt.base.str p = some s := (h.str_eq p) ▸ hs
  have hatom : rt.atom i = some s := by rw [Runtime.atom, h.atomStruct_eq, hi, Option.bind_some, hs]
  have hnsym : ¬ s.atomType = some .symbol := by
    rw [hst]
    intro hsym
    simp [Option.some.inj hsym, AtomType.hashed] at ht
  have hidx := h.ok.tableBase.index
  -- the chain the struct is on
  obtain ⟨b, hb, hib⟩ := hmem
  obtain ⟨v, hv, hvb⟩ := hidx.bucket hb hib
  obtain rfl : d.hash = v := by
    rw [Runtime.hashOf_eq hatom hd] at hv
    exact Option.some.inj hv
  have hbucket : s.hash &&& (rt.base.atomHash.length - 1) = b := by
    rw [hsh, h.table.and_eq_mod h.hash_ne, hvb]
  have hchain := hidx.chain (List.getElem?_eq_getElem hb)
  have hi0 := hchain.ne_zero i hib
  have hstruct : ∀ {j}, rt.atomStruct j = some p → j = i := fun hj =>
    h.table.inj (h.atomStruct_eq _ ▸ hj) hi
  have hnexti : nextIn rt.base.data rt.base.slot i = some s.hashNext := by
    simp [nextIn, atomIn, hi, Snapshot.data, hstr, hd, hsn]
  simp only [Runtime.unlinkAtom, hnsym, if_false, hbucket, List.getElem?_eq_getElem hb,
    Option.bind_some]
  by_cases hhead : rt.base.atomHash[b] = i
  · -- the first of its chain
    refine ⟨_, HashIndex.erased ids b i, by
      rw [if_pos (by rw [hhead, h.atomStruct_eq, hi]), hhead], ?_⟩
    have hbi : rt.base.atomHash[b]? = some i := by rw [List.getElem?_eq_getElem hb, hhead]
    refine ⟨rfl, rfl, rfl, rfl, List.length_set, h.table.index.unlink_head hbi hi0 hnexti,
      fun {j} => ?_, Relinked.refl _, fun _ => rfl⟩
    rw [← h.table.index.mem_erased hb hib]
    simp [HashIndex.Mem]
  · -- an inner node of its chain
    obtain ⟨l, l2, hl⟩ := List.append_of_mem hib
    rcases List.eq_nil_or_concat l with rfl | ⟨l1, a, rfl⟩
    · rw [hl] at hchain
      exact absurd (Chain.cons_iff.1 hchain).1 hhead
    have hl' : ids b = l1 ++ a :: i :: l2 := by simpa using hl
    rw [hl'] at hchain
    have hnd := hchain.nodup
    have ham : a ∈ ids b := by simp [hl']
    obtain ⟨da, hda, hta, -⟩ := h.table.entry ⟨b, hb, ham⟩
    obtain ⟨pa, hpa, hpda⟩ := atomIn_eq_some.1 hda
    obtain ⟨sa, hsa, hsda⟩ := Option.bind_eq_some_iff.1 hpda
    have hpne : pa ≠ p := by
      rintro rfl
      have hai : a = i := h.table.inj hpa hi
      simp [hai, List.nodup_append] at hnd
    have hno : ∀ c ∈ l1 ++ [a], rt.atomStruct c ≠ some p := by
      intro c hc hcp
      obtain rfl := hstruct hcp
      simp only [List.nodup_append, List.nodup_cons, List.mem_cons] at hnd
      rcases List.mem_append.1 hc with hc | hc
      · exact hnd.2.2 c hc c (by simp) rfl
      · exact hnd.2.1.1 (.inl (List.mem_singleton.1 hc).symm)
    have hfuel : l1.length < rt.walkFuel := by
      have := h.ok.length_base hb
      rw [hl', List.length_append] at this
      omega
    have hafter := Runtime.unlinkAfter_spec hs hchain (by rw [h.atomStruct_eq, hi]) hno
      (by rw [h.atomStruct_eq, hpa]) (by rw [h.str_eq, hsa]) hfuel
    refine ⟨_, HashIndex.erased ids b i, by
      rw [if_neg fun hp => hhead (hstruct hp), hafter], ?_⟩
    obtain ⟨hmv, hstr1, hself, hother⟩ := h.moving.setNext hpa hpda hta
      (by rw [h.str_eq, hsa]) s.hashNext
    refine ⟨hmv.arena, hmv.req, hmv.array, hmv.freeIndex, by rw [hmv.hash], ?_, fun {j} => ?_,
      hmv.relinked, fun {q} hq => hstr1 q ?_⟩
    · have hunl := h.table.index.unlink_after
        (nextIn (rt.setStr pa (some { sa with hashNext := s.hashNext })).base.data rt.base.slot) hb
        hl' (by rw [hnexti, nextIn, hself, Option.map_some])
        fun j hj => by rw [nextIn, hother j hj, nextIn]
      rw [hmv.hash]
      refine hunl.congr (fun j _ => rfl) fun j hj => ?_
      by_cases hja : j = a
      · rw [hja, hashIn, hself, hashIn, hda, Option.map_some, Option.map_some]
      · rw [hashIn, hother j hja, hashIn]
    · rw [hmv.hash, h.table.index.mem_erased hb hib]
    · rintro rfl
      exact hq.elim hpne fun hnone => by simp [hnone] at hpda

/-- Taking any atom off its chain: a symbol is on none. -/
theorem Pre.unlinkAtom (h : Pre Q rt ids free skip) (hs : rt.str p = some s) (hd : s.data? = some d)
    (hskip : ¬ skip p) : ∃ i rt1 ids1, rt.base.slot i = some p ∧
      rt.unlinkAtom p s = some (i, rt1) ∧ Unlinked rt rt1 ids ids1 p i := by
  have hdata : rt.base.data p =
    some d := by rw [Snapshot.data, ← h.str_eq, hs, Option.bind_some, hd]
  obtain ⟨i, hi, hmem, hlink⟩ := h.complete p d hdata hskip
  cases ht : d.type.hashed with
  | true =>
    obtain ⟨rt1, ids1, hun⟩ := h.unlinkAtom_hashed hs hd ht hi (hmem ht)
    exact ⟨i, rt1, ids1, hi, hun⟩
  | false =>
    obtain ⟨hsym, hnext⟩ := hlink ht
    obtain ⟨hst, -, -, hsn, -⟩ := JSString.data?_eq hd
    refine ⟨i, rt, ids, hi, by rw [Runtime.unlinkAtom, if_pos (by rw [hst, hsym]), hsn, hnext],
      ⟨rfl, rfl, rfl, rfl, rfl, h.table.index, fun {j} => ?_, Relinked.refl _, fun _ => rfl⟩⟩
    refine ⟨fun hj => ⟨?_, hj⟩, fun hj => hj.2⟩
    rintro rfl
    obtain ⟨e, he, hte, -⟩ := h.table.entry hj
    simp only [atomIn, hi, Option.bind_some, hdata, Option.some.injEq] at he
    rw [← he, ht] at hte
    cases hte

/-- An occupied entry is not free. -/
theorem Snapshot.freeNext_none {b : Snapshot} (h : b.slot i = some p) (k : Nat) :
    b.freeNext i ≠ some k := by
  intro hk
  obtain ⟨o, ho, hop⟩ := Option.bind_eq_some_iff.1 h
  obtain ⟨o', ho', hok⟩ := Option.bind_eq_some_iff.1 hk
  cases ho.symm.trans ho'
  cases o <;> simp [Slot.ptr?, Slot.next?] at hop hok

/-- What is read of an array after one of its entries was written. -/
theorem bind_set {α β : Type} {l : List α} (hi : i < l.length) (o : α) (f : α → Option β) :
    (fun j => (l.set i o)[j]?.bind f) = update (fun j => l[j]?.bind f) i (f o) := by
  funext j
  rw [List.getElem?_set]
  by_cases hj : j = i
  · subst hj
    rw [update_self, if_pos rfl, if_pos hi, Option.bind_some]
  · rw [update_of_ne hj, if_neg (Ne.symm hj)]

theorem Snapshot.slot_set {o : Slot} (hi : i < b.atomArray.length)
    (h : b'.atomArray = b.atomArray.set i o) : b'.slot = update b.slot i o.ptr? := by
  refine Eq.trans (funext fun j => ?_) (bind_set hi o Slot.ptr?)
  rw [Snapshot.slot, h]

theorem Snapshot.freeNext_set {o : Slot} (hi : i < b.atomArray.length)
    (h : b'.atomArray = b.atomArray.set i o) :
    b'.freeNext = update b.freeNext i o.next? := by
  refine Eq.trans (funext fun j => ?_) (bind_set hi o Slot.next?)
  rw [Snapshot.freeNext, h]

/-- `JS_FreeAtomStruct` before the freeze. -/
theorem Pre.freeAtomStruct (h : Pre Q rt ids free skip) (hs : rt.str p = some s)
    (hd : s.data? = some d) (hskip : ¬ skip p) : ∃ rt' ids' free',
      rt.freeAtomStruct p = some rt' ∧ Pre Q rt' ids' free' skip ∧ Shrinks rt rt' ids ids' ∧
      (rt.base.slot 0 ≠ some p → rt'.base.atomFreeIndex ≠ 0) ∧
      ∀ q, q ≠ p → rt.base.data q = none → rt'.str q = rt.str q := by
  obtain ⟨i, rt1, ids1, hi, hun, u⟩ := h.unlinkAtom hs hd hskip
  have hstr1 : rt1.base.str p = some s := by rw [u.others (.inl rfl), ← h.str_eq, hs]
  obtain ⟨n, rfl, hn⟩ := Snapshot.exists_base hstr1
  have hilt := Snapshot.slot_lt hi
  refine ⟨_, ids1, if i = 0 then [] else i :: free, by
    rw [Runtime.freeAtomStruct, h.arena, if_neg (by simp), hs, Option.bind_some, hun,
      Option.map_some],
    ?_⟩
  simp only [Runtime.setStr]
  generalize hrt' : ({ rt1 with base := { rt1.base with
    strs := rt1.base.strs.set n none
    atomArray := rt1.base.atomArray.set i (.free rt1.base.atomFreeIndex)
    atomFreeIndex := i
    atomCount := rt1.base.atomCount - 1 } } : Runtime) = rt'
  have hstr' : rt'.base.str = update rt1.base.str (.base n) none := by
    rw [← hrt']
    exact Snapshot.str_set hn none
  have hdata' : rt'.base.data = update rt1.base.data (.base n) none := by
    rw [Snapshot.data_eq_of_str hstr', Option.bind_none]
  have harr' : rt'.base.atomArray = rt.base.atomArray.set i (.free rt.base.atomFreeIndex) := by
    rw [← hrt', ← u.array, ← u.freeIndex]
  have hhash' : rt'.base.atomHash = rt1.base.atomHash := by rw [← hrt']
  have hindex' : rt'.base.atomFreeIndex = i := by rw [← hrt']
  have hslot' := Snapshot.slot_set hilt harr'
  have hnext' := Snapshot.freeNext_set hilt harr'
  have hsize : rt1.base.atomHash = [] ∨ ∃ k, rt1.base.atomHash.length = 2 ^ k := by
    rw [u.length]
    exact .inr (h.table.size.resolve_left h.hash_ne)
  have hfree : i ∉ free := fun hmem => by
    obtain ⟨l1, l2, rfl⟩ := List.append_of_mem hmem
    obtain ⟨-, -, k, hk, -⟩ := Chain.cons_iff.1 h.freeList.suffix
    exact Snapshot.freeNext_none hi k hk
  refine ⟨⟨?_, ?_, ?_, ?_, ?_, ?_, ?_⟩, ⟨fun {q d'} hq => ?_, fun j d' hj hd' => ?_⟩,
    fun h0 hz => ?_, fun q hq hnone => ?_⟩
  · rw [← hrt']; exact u.arena.trans h.arena
  · rw [← hrt']; exact u.req.trans h.req
  · rw [hdata', hslot', hhash']
    exact h.table.remove hi u.relinked hsize u.index u.mem.1
  · rw [hdata', hslot', hhash']
    exact h.complete.remove hi u.relinked fun hji hj => u.mem.2 ⟨hji, hj⟩
  · rw [hhash', ← List.length_pos_iff, u.length, List.length_pos_iff]
    exact h.hash_ne
  · rw [hnext', hindex']
    split
    · next hi0 => exact Chain.nil_iff.2 hi0
    · next hi0 =>
      refine Chain.cons_iff.2 ⟨rfl, hi0, _, update_self .., ?_⟩
      refine h.freeList.congr fun a ha => update_of_ne (fun hai : a = i => ?_) ..
      exact hfree (hai ▸ ha)
  · rw [harr', List.length_set]
    exact h.len
  · rw [hdata'] at hq
    by_cases hqp : q = .base n
    · simp [hqp] at hq
    · rw [update_of_ne hqp] at hq
      obtain ⟨e, he, hkey, -⟩ := u.relinked.of_some hq
      exact ⟨e, he, hkey⟩
  · rw [hhash'] at hj
    obtain ⟨hji, hj⟩ := u.mem.1 hj
    obtain ⟨q, hq, hqd⟩ := atomIn_eq_some.1 hd'
    rw [hslot', update_of_ne hji] at hq
    have hqp : q ≠ .base n := fun hqp => hji (h.table.inj (hqp ▸ hq) hi)
    rw [hdata', update_of_ne hqp] at hqd
    obtain ⟨e, he, hkey, -⟩ := u.relinked.of_some hqd
    exact ⟨e, hj, atomIn_eq_some.2 ⟨q, hq, he⟩, hkey⟩
  · subst hz
    exact h0 hi
  · cases q with
    | req m => simp [Runtime.str, h.req, ← hrt', u.req]
    | base m =>
      show rt'.base.str (.base m) = rt.base.str (.base m)
      rw [hstr', update_of_ne hq, u.others (.inr hnone)]

/-- Freeing the struct of a string that is not an atom. -/
theorem Pre.setStr_free (h : Pre Q rt ids free skip) (hp : rt.base.data p = none) :
    Pre Q (rt.setStr p none) ids free skip ∧ Shrinks rt (rt.setStr p none) ids ids := by
  cases hs : rt.str p with
  | none =>
    rw [Runtime.setStr_none hs]
    exact ⟨h, .of_data rfl rfl rfl⟩
  | some s =>
    rw [Snapshot.data, ← h.str_eq, hs, Option.bind_some] at hp
    exact h.setStr_same hs hp.symm

theorem JSString.data?_of_isSome {s : JSString} (h : s.atomType.isSome = true) :
    ∃ d, s.data? = some d := by
  obtain ⟨t, ht⟩ := Option.isSome_iff_exists.1 h
  exact ⟨_, by rw [JSString.data?, ht, Option.map_some]⟩

theorem JSString.data?_of_not_isSome {s : JSString} (h : ¬ s.atomType.isSome = true) :
    s.data? = none := by
  rw [JSString.data?, Option.not_isSome_iff_eq_none.1 h, Option.map_none]

/-- `js_free_string`, over what it does to the parent of a slice. -/
def Runtime.freeBy (rt : Runtime) (p : StrPtr) (release : Runtime → JSString → Option Runtime) :
    Option Runtime :=
  let (count, rt) := rt.rcDec p
  if count ≤ 0 then
    (rt.str p).bind fun s =>
      if s.atomType.isSome then rt.freeAtomStruct p
      else (release rt s).map fun rt => rt.setStr p none
  else some rt

section
variable {f : Runtime → JSString → Option Runtime}

/-- A string that is freed was counted down, and is an atom or not. -/
theorem Runtime.freeBy_cases (hr : rt.freeBy p f = some rt') :
    rt' = (rt.rcDec p).2 ∨ (rt.rcDec p).1 ≤ 0 ∧ ∃ s, (rt.rcDec p).2.str p = some s ∧
      (s.atomType.isSome = true ∧ (rt.rcDec p).2.freeAtomStruct p = some rt' ∨
        s.data? = none ∧ ∃ rt2, f (rt.rcDec p).2 s = some rt2 ∧ rt' = rt2.setStr p none) := by
  simp only [Runtime.freeBy] at hr
  split at hr
  · next hc =>
    obtain ⟨s, hs, hr⟩ := Option.bind_eq_some_iff.1 hr
    refine .inr ⟨hc, s, hs, ?_⟩
    split at hr
    · next hat => exact .inl ⟨hat, hr⟩
    · next hat =>
      obtain ⟨rt2, hr2, rfl⟩ := Option.map_eq_some_iff.1 hr
      exact .inr ⟨JSString.data?_of_not_isSome hat, rt2, hr2, rfl⟩
  · exact .inl (Option.some.inj hr).symm

theorem Pre.freeBy (h : Pre Q rt ids free skip) (hskip : ¬ skip p)
    (hrel : ∀ {rt1 s rt2}, Pre Q rt1 ids free skip → f rt1 s = some rt2 →
      ∃ ids' free', Pre Q rt2 ids' free' skip ∧ Shrinks rt1 rt2 ids ids')
    (hr : rt.freeBy p f = some rt') :
    ∃ ids' free', Pre Q rt' ids' free' skip ∧ Shrinks rt rt' ids ids' := by
  obtain ⟨h1, hsh1⟩ := h.rcDec p
  rcases Runtime.freeBy_cases hr with rfl | ⟨-, s, hs, ⟨hat, hr⟩ | ⟨hd, rt2, hr2, rfl⟩⟩
  · exact ⟨ids, free, h1, hsh1⟩
  · obtain ⟨d, hd⟩ := JSString.data?_of_isSome hat
    obtain ⟨rt2, ids2, free2, hr2, h2, hsh2, -⟩ := h1.freeAtomStruct hs hd hskip
    cases hr2.symm.trans hr
    exact ⟨ids2, free2, h2, hsh1.trans hsh2⟩
  · obtain ⟨ids2, free2, h2, hsh2⟩ := hrel h1 hr2
    -- the string is no atom after its parent is released either
    have hnone : rt2.base.data p = none := by
      by_contra hne
      obtain ⟨d', hd'⟩ := Option.ne_none_iff_exists'.1 hne
      obtain ⟨d, hd2, -⟩ := hsh2.data hd'
      rw [Snapshot.data, ← h1.str_eq, hs, Option.bind_some, hd] at hd2
      cases hd2
    obtain ⟨h3, hsh3⟩ := h2.setStr_free hnone
    exact ⟨ids2, free2, h3, hsh1.trans (hsh2.trans hsh3)⟩

end

/-- The parent of a slice is released. -/
theorem Pre.freeParent (h : Pre Q rt ids free skip) (hskip : ¬ skip p)
    (hr : rt.freeParent p = some rt') :
    ∃ ids' free', Pre Q rt' ids' free' skip ∧ Shrinks rt rt' ids ids' :=
  h.freeBy (f := fun rt _ => some rt) hskip
    (fun h1 hr2 => by cases hr2; exact ⟨ids, free, h1, .of_data rfl rfl rfl⟩) hr

/-- `js_free_string` before the freeze. -/
theorem Pre.freeString (h : Pre Q rt ids free skip) (hskip : ∀ q, ¬ skip q)
    (hr : rt.freeString p = some rt') :
    ∃ ids' free', Pre Q rt' ids' free' skip ∧ Shrinks rt rt' ids ids' := by
  refine h.freeBy (hskip p) (fun h1 hr2 => ?_) hr
  unfold Runtime.releaseParent at hr2
  split at hr2
  · exact h1.freeParent (hskip _) hr2
  · cases hr2
    exact ⟨ids, free, h1, .of_data rfl rfl rfl⟩

/-- The copied string of `__JS_NewAtom` is an atom of another type: only its own entry can go. -/
theorem Pre.freeString_atom (h : Pre Q rt ids free skip) (hs : rt.str p = some s)
    (hat : s.atomType ≠ none) (hskip : ¬ skip p) (h0 : rt.base.slot 0 ≠ some p)
    (hr : rt.freeString p = some rt') : ∃ ids' free', Pre Q rt' ids' free' skip ∧
      Shrinks rt rt' ids ids' ∧
      (rt.base.atomFreeIndex ≠ 0 → rt'.base.atomFreeIndex ≠ 0) ∧
      ∀ q, q ≠ p → rt.base.data q = none → rt'.str q = rt.str q := by
  have hnotb : rt.ptrIsBase p = false := by simp [Runtime.ptrIsBase, h.arena]
  obtain ⟨ha, hreq, hstr, harr, hhash, hfree⟩ :=
    h.setStr hs (some { s with refCount := s.refCount - 1 })
  obtain ⟨h1, hsh1⟩ := h.setStr_same hs (o := some { s with refCount := s.refCount - 1 }) rfl
  have hdec : rt.rcDec p =
      (s.refCount - 1, rt.setStr p (some { s with refCount := s.refCount - 1 })) := by
    simp [Runtime.rcDec, hnotb, Runtime.modStr, hs]
  simp only [Runtime.freeString, hdec] at hr
  generalize rt.setStr p (some { s with refCount := s.refCount - 1 }) = rt1 at *
  have hkeep : ∀ q, q ≠ p → rt1.str q = rt.str q := fun q hq => by
    rw [h1.str_eq, h.str_eq, hstr, update_of_ne hq]
  have hslot : rt1.base.slot = rt.base.slot := Snapshot.slot_congr harr
  have hp1 : rt1.str p = some { s with refCount := s.refCount - 1 } := by
    rw [h1.str_eq, hstr, update_self]
  have hsome : s.atomType.isSome = true := Option.isSome_iff_ne_none.2 hat
  split at hr
  · rw [hp1, Option.bind_some, if_pos hsome] at hr
    obtain ⟨d, hd⟩ := JSString.data?_of_isSome (s := { s with refCount := s.refCount - 1 }) hsome
    obtain ⟨rt2, ids2, free2, hr2, h2, hsh2, hidx, hoth⟩ := h1.freeAtomStruct hp1 hd hskip
    cases hr2.symm.trans hr
    refine ⟨ids2, free2, h2, hsh1.trans hsh2, fun _ => hidx (hslot ▸ h0), fun q hq hn => ?_⟩
    rw [hoth q hq, hkeep q hq]
    rw [Snapshot.data, ← h1.str_eq, hkeep q hq, h.str_eq]
    exact hn
  · cases hr
    exact ⟨ids, free, h1, hsh1, fun hne => hfree ▸ hne, fun q hq _ => hkeep q hq⟩

end

end ArenaJs.Atoms
