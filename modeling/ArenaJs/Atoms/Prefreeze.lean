import ArenaJs.Lib.Rehash
import ArenaJs.Atoms.Snapshot

/-!
# Making atoms before the freeze

`__JS_NewAtom` in the base: the growth of `atom_array`, the choice of the struct, its number, the
chain and its growth. Each part keeps `Pre`; `Prefrozen.newAtom` puts them
together.
-/

namespace ArenaJs.Atoms

open Function (update update_of_ne update_self)

section
variable {Q : TextPred} {rt rt' : Runtime} {ids ids' : Nat → List Nat} {free : List Nat}
  {skip : StrPtr → Prop} {p q : StrPtr} {s : JSString} {i : Nat} {d : AtomData}
variable {a : Allocs} {t : AtomType} {str : Option StrPtr} {size : Nat} {wide : Bool}
  {b b' : Snapshot} {chars : List Nat}

/-! ## The array of atoms -/

theorem freeSlots_getElem? {start size : Nat} (i : Nat) :
    (freeSlots start size)[i]? = if i < size - start then
      some (.free (if start + i = size - 1 then 0 else start + i + 1)) else none := by
  simp only [freeSlots, List.getElem?_map]
  split
  · next h =>
    rw [List.getElem?_eq_getElem (by simpa using h)]
    simp
  · next h =>
    rw [List.getElem?_eq_none (by simp; omega)]
    rfl

/-- A grown array: the old entries, then the linked new ones. -/
theorem grown_getElem? (old : List Slot) (hsize : old.length < size) (i : Nat) :
    (old ++ freeSlots old.length size)[i]? = if i < old.length then old[i]?
      else if i < size then some (.free (if i = size - 1 then 0 else i + 1)) else none := by
  by_cases hi : i < old.length
  · rw [List.getElem?_append_left hi, if_pos hi]
  · rw [List.getElem?_append_right (by omega), if_neg hi, freeSlots_getElem?]
    rw [show old.length + (i - old.length) = i by omega]
    by_cases h : i < size
    · rw [if_pos h, if_pos (by omega)]
    · rw [if_neg h, if_neg (by omega)]

/-- The new entries are linked in order. -/
theorem grown_chain (old : List Slot) (hsize : old.length < size) (h0 : old ≠ []) :
    Chain (fun i => (old ++ freeSlots old.length size)[i]?.bind Slot.next?) old.length
      (List.range' old.length (size - old.length)) := by
  have hlink : ∀ k, old.length ≤ k → k < size →
      (old ++ freeSlots old.length size)[k]?.bind Slot.next? =
        some (if k = size - 1 then 0 else k + 1) := fun k hk hks => by
    rw [grown_getElem? _ hsize, if_neg (by omega), if_pos hks]
    rfl
  have hchain := Chain.range (fun i => (old ++ freeSlots old.length size)[i]?.bind Slot.next?)
    (List.length_pos_iff.2 h0) hlink
  rwa [if_pos hsize] at hchain

/-- An array that only grew by free entries. -/
theorem Snapshot.slot_grown (hsize : b.atomArray.length < size)
    (h : b'.atomArray = b.atomArray ++ freeSlots b.atomArray.length size) : b'.slot = b.slot := by
  funext i
  simp only [Snapshot.slot, h, grown_getElem? _ hsize]
  split
  · rfl
  · next hi =>
    rw [List.getElem?_eq_none (l := b.atomArray) (by omega)]
    split <;> rfl

/-- The growth of `atom_array` leaves the atoms alone and ends with a free entry. -/
structure Grown (rt rt' : Runtime) (ids : Nat → List Nat) : Prop where
  noNew : NoNew rt rt' ids ids
  index : rt'.base.atomFreeIndex ≠ 0
  strs : ∀ q t, rt.str q = some t → rt'.str q = some t
  slot0 : ∀ q t, rt.str q = some t → rt.base.slot 0 ≠ some q → rt'.base.slot 0 ≠ some q

/-- A string is not an atom. -/
theorem Pre.data_none (h : Pre Q rt ids free skip) (hs : rt.str p = some s)
    (ht : s.atomType = none) :
    rt.base.data p = none := by
  rw [Snapshot.data, ← h.str_eq, hs, Option.bind_some, JSString.data?, ht, Option.map_none]

/-- Growing an array that has entries. -/
theorem Pre.growTail (h : Pre Q rt ids free skip) (hne : rt.base.atomArray ≠ [])
    (hsize : rt.base.atomArray.length < size) (hmax : size ≤ atomMax) :
    let rt' : Runtime := { rt with base := { rt.base with
      atomArray := rt.base.atomArray ++ freeSlots rt.base.atomArray.length size
      atomFreeIndex := rt.base.atomArray.length } }
    Pre Q rt' ids (List.range' rt.base.atomArray.length (size - rt.base.atomArray.length)) skip ∧
      Grown rt rt' ids := by
  intro rt'
  have hslot : rt'.base.slot = rt.base.slot := Snapshot.slot_grown hsize rfl
  have hdata : rt'.base.data = rt.base.data := rfl
  have hpos := List.length_pos_iff.2 hne
  refine ⟨⟨h.arena, h.req, ?_, ?_, h.hash_ne, grown_chain _ hsize hne, ?_⟩,
    ⟨fun i d hi hd => ⟨d, hi, by rwa [hdata, hslot] at hd, rfl⟩, ?_, fun q t hq => hq, ?_⟩⟩
  · rw [hdata, hslot]; exact h.table
  · rw [hdata, hslot]; exact h.complete
  · show (rt.base.atomArray ++ freeSlots _ size).length ≤ atomMax
    simp only [freeSlots, List.length_append, List.length_map, List.length_range']
    omega
  · show rt.base.atomArray.length ≠ 0
    omega
  · intro q t _ h0
    rwa [hslot]

/-- The first growth also makes the struct of `JS_ATOM_NULL`. -/
theorem Pre.growFirst (h : Pre Q rt ids free skip) (hnil : rt.base.atomArray = []) (size : Nat)
    (hsize : 1 < size) (hmax : size ≤ atomMax) :
    let p : StrPtr := .base rt.base.strs.length
    let rt' : Runtime := { rt with base := { rt.base with
      strs := rt.base.strs ++ [some ⟨false, [], 0, some .symbol, 0, 1, none⟩]
      atomArray := .atom p :: freeSlots 1 size
      atomFreeIndex := 1
      atomCount := rt.base.atomCount + 1 } }
    Pre Q rt' ids (List.range' 1 (size - 1)) skip ∧ Grown rt rt' ids := by
  intro p rt'
  have hstr : rt'.base.str = update rt.base.str p
      (some ⟨false, [], 0, some .symbol, 0, 1, none⟩) := Snapshot.str_append rt.base _
  have hdata : rt'.base.data = update rt.base.data p (some ⟨.symbol, false, [], 0, 0⟩) :=
    Snapshot.data_eq_of_str hstr
  have hold : ∀ i, rt.base.slot i = none := fun i => by simp [Snapshot.slot, hnil]
  have hslot : rt'.base.slot = update rt.base.slot 0 (some p) := by
    funext i
    have hg := grown_getElem? [.atom p] (show [Slot.atom p].length < size by simpa using hsize) i
    simp only [List.singleton_append, List.length_singleton] at hg
    show (Slot.atom p :: freeSlots 1 size)[i]?.bind Slot.ptr? = _
    rw [hg]
    by_cases hi : i = 0
    · subst hi
      rw [update_self]; rfl
    · rw [update_of_ne hi, hold, if_neg (by omega)]
      split <;> rfl
  have hlive : ∀ q t, rt.str q = some t → q ≠ p := by
    rintro q t hq rfl
    simp [p, Runtime.str] at hq
  refine ⟨⟨h.arena, h.req, ?_, ?_, h.hash_ne, ?_, ?_⟩,
    ⟨fun i d hi hd => ?_, Nat.one_ne_zero, fun q t hq => ?_, fun q t hq h0 => ?_⟩⟩
  · rw [hdata, hslot]
    exact h.table.occupy (hold 0) fun j => by simp [hold j]
  · rw [hdata, hslot]
    exact (h.complete.occupy (hold 0) rfl rfl).mono fun q hq => hq.1
  · exact grown_chain [.atom p] (by simpa using hsize) (by simp)
  · show (Slot.atom p :: freeSlots 1 size).length ≤ atomMax
    simp only [freeSlots, List.length_cons, List.length_map, List.length_range']
    omega
  · obtain ⟨e, he, -⟩ := h.table.entry hi
    simp [atomIn, hold] at he
  · cases q with
    | req n => exact hq
    | base n =>
      show rt'.base.str (.base n) = some t
      rw [hstr, update_of_ne (hlive _ t hq)]
      exact hq
  · rw [hslot, update_self]
    exact fun hp => hlive q t hq (Option.some.inj hp).symm

theorem Pre.growAtomArray (h : Pre Q rt ids free skip)
    (hr : rt.growAtomArray a = .ok rt') :
    ∃ free', Pre Q rt' ids free' skip ∧ Grown rt rt' ids := by
  simp only [Runtime.growAtomArray, h.arena, Bool.not_false, Bool.true_and, beq_iff_eq] at hr
  split at hr
  · have hmax : rt.base.atomArray.length < max 711 (rt.base.atomArray.length * 3 / 2) := by omega
    split at hr
    · cases hr
    · next hsize =>
      split at hr
      · cases hr
      split at hr
      · next hz =>
        split at hr
        · cases hr
        have hnil := List.length_eq_zero_iff.1 hz
        simp only [Runtime.allocStr, h.arena, Bool.false_eq_true, if_false] at hr
        cases hr
        have := h.growFirst hnil (max 711 (rt.base.atomArray.length * 3 / 2)) (by omega) (by omega)
        rw [h.arena] at this
        exact ⟨_, this⟩
      · next hz =>
        cases hr
        have := h.growTail (fun hnil => hz (by simp [hnil])) hmax (by omega)
        rw [h.arena] at this
        exact ⟨_, this⟩
  · next hidx =>
    cases hr
    exact ⟨free, h, ⟨fun i d hi hd => ⟨d, hi, hd, rfl⟩, hidx, fun q t hq => hq,
      fun q t _ h0 => h0⟩⟩

/-! ## Growing the hash array -/

/-- Moving an atom to the new heads. -/
theorem Moving.moveChain (h : Moving rt) {k : Nat} (hsize : size = 2 ^ k) :
    Rehash (fun rt : Runtime => atomIn rt.base.data rt.base.slot) AtomData.hashNext AtomData.hash
      (·.type.hashed = true) (Moved rt) size fun new rt => rt.moveChain new where
  done _ _ _ := rfl
  step {new rt1 i d} hmv hi hd ht hlen := by
    have h1 := hmv.moving h
    obtain ⟨p, hp, hpd⟩ := atomIn_eq_some.1 hd
    obtain ⟨s, hs, hsd⟩ := Option.bind_eq_some_iff.1 hpd
    obtain ⟨-, -, hsh, hsn, -⟩ := JSString.data?_eq hsd
    have hstr : rt1.str p = some s := h1.str_eq p ▸ hs
    have hbucket : s.hash &&& (new.length - 1) = d.hash % size := by
      rw [hlen, hsize, Nat.and_two_pow_sub_one_eq_mod, hsh]
    have hlt : d.hash % size < new.length := by
      rw [hlen]
      exact Nat.mod_lt _ (hsize ▸ Nat.two_pow_pos k)
    obtain ⟨hmv1, -, hself, hother⟩ := h1.setNext hp hpd ht hstr new[d.hash % size]
    refine ⟨_, { d with hashNext := new[d.hash % size] }, List.getElem?_eq_getElem hlt,
      hmv.trans hmv1, ?_, rfl, ?_, fun fuel => ?_⟩
    · rw [hmv1.slot, hself]
    · rwa [hmv1.slot]
    · rw [Runtime.moveChain, if_neg hi, h1.atomStruct_eq, hp, Option.bind_some, hstr,
        Option.bind_some]
      simp [hbucket, List.getElem?_eq_getElem hlt, hsn]

/-- `JS_ResizeAtomHash` before the freeze. -/
theorem Pre.resizeAtomHash (h : Pre Q rt ids free skip)
    (hsize : ∃ k, size = 2 ^ k) (hr : rt.resizeAtomHash size a = some rt') :
    ∃ ids', Pre Q rt' ids' free skip := by
  unfold Runtime.resizeAtomHash at hr
  split at hr
  · cases hr
    exact ⟨ids, h⟩
  obtain ⟨⟨new, rt1⟩, hmove, rfl⟩ := Option.map_eq_some_iff.1 hr
  obtain ⟨k, rfl⟩ := hsize
  obtain ⟨new', rt2, ids', hr', hmv, hlen, hidx, hmem'⟩ := (h.moving.moveChain rfl).index
    (fun new rt => rt.moveChains new) (fun _ _ => rfl) (fun _ _ _ _ => rfl) (.refl rt)
    h.table.index
    (fun c hc => by
      obtain ⟨d, hd, ht, -⟩ := h.table.entry hc
      exact ⟨d, hd, ht⟩)
    fun rt' hmv b hb => by
      rw [Runtime.walkFuel, hmv.array, hmv.req]
      exact h.ok.length_base hb
  cases hr'.symm.trans hmove
  have hnew : new = [] ∨ ∃ k, new.length = 2 ^ k := .inr ⟨k, hlen⟩
  simp only [NodeIndex, hmv.slot] at hidx
  have hslot : Snapshot.slot { rt1.base with atomHash := new, atomCountResize := 2 ^ k * 2 } =
    rt.base.slot := hmv.slot
  have hfree : Snapshot.freeNext { rt1.base with atomHash := new, atomCountResize := 2 ^ k * 2 } =
    rt.base.freeNext := Snapshot.freeNext_congr hmv.array
  refine ⟨ids', hmv.arena.trans h.arena, hmv.req.trans h.req, ?_, ?_, ?_, ?_, ?_⟩
  · show TableOk Q rt1.base.data _ new ids'
    rw [hslot]
    refine h.table.transport (fun hi => ?_) h.table.inj hnew hidx fun {j} hj => ?_
    · obtain ⟨d, hd⟩ := h.table.live hi
      obtain ⟨n, hn, -⟩ := hmv.relinked.to_some hd
      exact ⟨_, hn⟩
    · refine ⟨(hmem' j).1 hj, fun d hd => ?_⟩
      obtain ⟨p, hp, hpd⟩ := atomIn_eq_some.1 hd
      obtain ⟨n, hn, -⟩ := hmv.relinked.to_some hpd
      exact ⟨n, atomIn_eq_some.2 ⟨p, hp, hn⟩⟩
  · show Complete rt1.base.data _ new ids' skip
    rw [hslot]
    exact h.complete.relinked hmv.relinked fun hj => (hmem' _).2 hj
  · show new ≠ []
    rw [← List.length_pos_iff, hlen]
    exact Nat.two_pow_pos k
  · show Chain _ rt1.base.atomFreeIndex free
    rw [hfree, hmv.freeIndex]
    exact h.freeList
  · show rt1.base.atomArray.length ≤ atomMax
    rw [hmv.array]
    exact h.len

/-! ## The new atom -/

/-- A struct `p` with the text `chars`, of the given width, that is about to be numbered. -/
structure Made (Q : TextPred) (rt : Runtime) (ids : Nat → List Nat) (free : List Nat) (p : StrPtr)
    (wide : Bool) (chars : List Nat) : Prop where
  pre : Pre Q rt ids free (· = p)
  unslotted : ∀ j, rt.base.slot j ≠ some p
  struct : ∃ s, rt.str p = some s ∧ s.isWide = wide ∧ s.chars = chars
  index : rt.base.atomFreeIndex ≠ 0

/-- A struct that is not an atom is in no slot. -/
theorem TableOk.unslotted {data : StrPtr → Option AtomData} {slot : Nat → Option StrPtr}
    {heads : List Nat} (h : TableOk Q data slot heads ids) (hp : data p = none) (j : Nat) :
    slot j ≠ some p := fun hj => by
  obtain ⟨d, hd⟩ := h.live hj
  rw [hp] at hd
  cases hd

/-- Writing the atom fields of a struct that is in no slot. -/
theorem Pre.write (h : Pre Q rt ids free skip) (hp : ∀ j, rt.base.slot j ≠ some p)
    (hs : rt.str p = some s) (s' : JSString) :
    Pre Q (rt.setStr p (some s')) ids free (fun q => skip q ∨ q = p) ∧
      NoNew rt (rt.setStr p (some s')) ids ids ∧
      (rt.setStr p (some s')).base.atomFreeIndex = rt.base.atomFreeIndex ∧
      (rt.setStr p (some s')).base.slot = rt.base.slot ∧
      (rt.setStr p (some s')).str p = some s' := by
  obtain ⟨ha, hreq, hstr, harr, hhash, hfree⟩ := h.setStr hs (some s')
  have hdata := Snapshot.data_eq_of_str hstr
  have hslot := Snapshot.slot_congr harr
  have hnext := Snapshot.freeNext_congr harr
  have hpre : Pre Q (rt.setStr p (some s')) ids free (fun q => skip q ∨ q = p) := by
    refine ⟨ha.trans h.arena, hreq.trans h.req, ?_, ?_, ?_, ?_, ?_⟩
    · rw [hdata, hslot, hhash]; exact h.table.write fun {j q} hj =>
        update_of_ne (fun hqp : q = p => hp j (hqp ▸ hj)) ..
    · rw [hdata, hslot, hhash]; exact h.complete.write fun q hq => update_of_ne hq ..
    · rw [hhash]; exact h.hash_ne
    · rw [hnext, hfree]; exact h.freeList
    · rw [harr]; exact h.len
  refine ⟨hpre, fun i d hi hd => ?_, hfree, hslot, ?_⟩
  · rw [hhash] at hi
    obtain ⟨q, hq, hqd⟩ := atomIn_eq_some.1 hd
    rw [hslot] at hq
    rw [hdata, update_of_ne fun hqp : q = p => hp i (hqp ▸ hq)] at hqd
    exact ⟨d, hi, atomIn_eq_some.2 ⟨q, hq, hqd⟩, rfl⟩
  · rw [hpre.str_eq, hstr, update_self]

theorem Pre.allocStr_none (h : Pre Q rt ids free skip) (hs : s.atomType = none) :
    (rt.allocStr s).2.base.data (rt.allocStr s).1 = none := by
  obtain ⟨-, -, hstr, -⟩ := h.allocStr_str (s := s)
  exact (h.allocStr hs).1.data_none hstr hs

/-- A fresh struct. -/
theorem Pre.allocStr_made (h : Pre Q rt ids free fun _ => False) (hidx : rt.base.atomFreeIndex ≠ 0)
    (hs : s.atomType = none) :
      Made Q (rt.allocStr s).2 ids free (rt.allocStr s).1 s.isWide s.chars ∧
      NoNew rt (rt.allocStr s).2 ids ids := by
  obtain ⟨hpre, hsh⟩ := h.allocStr hs
  obtain ⟨-, hfree, hstr, -⟩ := h.allocStr_str (s := s)
  refine ⟨⟨?_, hpre.table.unslotted (h.allocStr_none hs), ⟨s, hstr, rfl, rfl⟩, by rwa [hfree]⟩,
    hsh.mem⟩
  exact { hpre with complete := hpre.complete.mono fun _ hf => hf.elim }

/-- The text a new atom of `str` gets. -/
def Runtime.textOf (rt : Runtime) (str : Option StrPtr) : List Nat :=
  ((str.bind rt.str).map (·.chars)).getD []

/-- The width a new atom of `str` gets. -/
def Runtime.wideOf (rt : Runtime) (str : Option StrPtr) : Bool :=
  ((str.bind rt.str).map (·.isWide)).getD true

theorem Runtime.textOf_some (hs : rt.str p = some s) : rt.textOf (some p) = s.chars := by
  simp [Runtime.textOf, hs]

theorem Runtime.wideOf_some (hs : rt.str p = some s) : rt.wideOf (some p) = s.isWide := by
  simp [Runtime.wideOf, hs]

/-- The struct of a new atom: the string itself, or a copy. -/
theorem Pre.atomBlock (h : Pre Q rt ids free fun _ => False) (hidx : rt.base.atomFreeIndex ≠ 0)
    (h0 : ∀ p, str = some p → rt.base.slot 0 ≠ some p)
    (hr : rt.atomBlock str t a = some (.ok (p, rt'))) :
    ∃ ids' free', Made Q rt' ids' free' p (rt.wideOf str) (rt.textOf str) ∧
      NoNew rt rt' ids ids' := by
  cases str with
  | none =>
    simp only [Runtime.atomBlock] at hr
    split at hr
    · obtain ⟨rfl, rfl⟩ := Prod.mk.injEq _ _ _ _ ▸ Except.ok.inj (Option.some.inj hr)
      exact ⟨ids, free, h.allocStr_made hidx rfl⟩
    · cases hr
  | some q =>
    obtain ⟨s, hs, hr⟩ := Option.bind_eq_some_iff.1 hr
    rw [Runtime.textOf_some hs, Runtime.wideOf_some hs]
    split at hr
    · next hat =>
      -- in place
      obtain ⟨rfl, rfl⟩ := Prod.mk.injEq _ _ _ _ ▸ Except.ok.inj (Option.some.inj hr)
      have hnone := h.data_none hs hat
      rw [Runtime.modStr, hs, Option.map_some]
      obtain ⟨hpre, hnew, hfree, hslot, hstr⟩ := h.write (h.table.unslotted hnone) hs
        { s with atomType := some t }
      refine ⟨ids, free, ⟨?_, fun j => by rw [hslot]; exact h.table.unslotted hnone j,
        ⟨_, hstr, rfl, rfl⟩, by rw [hfree]; exact hidx⟩, hnew⟩
      exact { hpre with complete := hpre.complete.mono fun _ hf => hf.elim False.elim id }
    · next hat =>
      split at hr
      · cases hr
      · obtain ⟨rt2, hfree, hr⟩ := Option.map_eq_some_iff.1 hr
        obtain ⟨rfl, rfl⟩ := Prod.mk.injEq _ _ _ _ ▸ Except.ok.inj hr
        -- the copy, then the release of the string
        obtain ⟨hpre, hsh⟩ := h.allocStr (s := ⟨s.isWide, s.chars, 0, none, 0, 1, none⟩) rfl
        obtain ⟨harr, hindex, hstr, hold⟩ :=
          h.allocStr_str (s := ⟨s.isWide, s.chars, 0, none, 0, 1, none⟩)
        obtain ⟨hne, hs1⟩ := hold q s hs
        have hnone := h.allocStr_none (s := ⟨s.isWide, s.chars, 0, none, 0, 1, none⟩) rfl
        obtain ⟨ids2, free2, h2, hsh2, hindex2, hkeep⟩ := hpre.freeString_atom hs1 hat id
          (by rw [Snapshot.slot_congr harr]; exact h0 q rfl) hfree
        have hstr2 := (hkeep _ hne.symm hnone).trans hstr
        refine ⟨ids2, free2, ⟨?_, h2.table.unslotted (h2.data_none hstr2 rfl), ⟨_, hstr2, rfl, rfl⟩,
          hindex2 (by rwa [hindex])⟩, (hsh.trans hsh2).mem⟩
        exact { h2 with complete := h2.complete.mono fun _ hf => hf.elim }

/-- The state after the first free entry was given to `p` and its fields written; `hashes` are the
chain heads. -/
structure Numbered (rt rt' : Runtime) (p : StrPtr) (i : Nat) (free hashes : List Nat)
    (s' : JSString) : Prop where
  arena : rt'.isArena = rt.isArena
  req : rt'.req = rt.req
  str : rt'.base.str = update rt.base.str p (some s')
  slot : rt'.base.slot = update rt.base.slot i (some p)
  hash : rt'.base.atomHash = hashes
  freeList : Chain rt'.base.freeNext rt'.base.atomFreeIndex free
  length : rt'.base.atomArray.length = rt.base.atomArray.length

/-- The first free entry. -/
theorem Made.next (h : Made Q rt ids free p wide chars) : ∃ next free',
    free = rt.base.atomFreeIndex :: free' ∧ rt.base.slot rt.base.atomFreeIndex = none ∧
      rt.base.atomFreeIndex < rt.base.atomArray.length ∧
      rt.base.atomArray[rt.base.atomFreeIndex]?.bind Slot.next? = some next ∧
      Chain rt.base.freeNext next free' := by
  have hc := h.pre.freeList
  cases hfree : free with
  | nil => exact absurd (Chain.nil_iff.1 (hfree ▸ hc)) h.index
  | cons i free' =>
    rw [hfree] at hc
    obtain ⟨rfl, -, next, hnext, hrest⟩ := Chain.cons_iff.1 hc
    obtain ⟨o, ho, hon⟩ := Option.bind_eq_some_iff.1 hnext
    refine ⟨next, free', rfl, ?_, (List.getElem?_eq_some_iff.1 ho).1, hnext, hrest⟩
    rw [Snapshot.slot, ho, Option.bind_some]
    cases o <;> simp [Slot.ptr?, Slot.next?] at hon ⊢

/-- Numbering the struct. -/
theorem Made.numbered (h : Made Q rt ids free p wide chars)
    {s : JSString} (hs : rt.str p = some s) (s' : JSString) {next : Nat} {free' : List Nat}
    (hfree : free = rt.base.atomFreeIndex :: free')
    (hlt : rt.base.atomFreeIndex < rt.base.atomArray.length)
    (hnext : Chain rt.base.freeNext next free') (count : Nat) (hashes : List Nat) {n : Nat}
    (hp : p = .base n) :
    Numbered rt { rt with base := { rt.base with
      strs := rt.base.strs.set n (some s')
      atomArray := rt.base.atomArray.set rt.base.atomFreeIndex (.atom p)
      atomHash := hashes
      atomFreeIndex := next
      atomCount := count } } p rt.base.atomFreeIndex free' hashes s' := by
  subst hp
  have hn : n < rt.base.strs.length := by
    obtain ⟨m, hm, hlt⟩ := Snapshot.exists_base (h.pre.str_eq _ ▸ hs)
    cases hm
    exact hlt
  refine ⟨rfl, rfl, Snapshot.str_set hn _, Snapshot.slot_set (o := .atom (.base n)) hlt rfl, rfl,
    ?_, by simp⟩
  have hnd := (hfree ▸ h.pre.freeList).nodup
  rw [Snapshot.freeNext_set (b := rt.base) hlt rfl]
  refine hnext.congr fun a ha => update_of_ne (fun he : a = rt.base.atomFreeIndex => ?_) ..
  exact (List.nodup_cons.1 hnd).1 (he ▸ ha)

/-- The table with the new entry in it. -/
theorem Numbered.pre {hashes free' : List Nat} {s' : JSString}
    (hn : Numbered rt rt' p i free' hashes s') (h : Made Q rt ids free p wide chars)
    (hd : s'.data? = some d)
    (htable : TableOk Q (update rt.base.data p (some d))
      (update rt.base.slot i (some p)) hashes ids')
    (hcomplete : Complete (update rt.base.data p (some d))
      (update rt.base.slot i (some p)) hashes ids' fun q => q = p ∧ q ≠ p)
    (hne : hashes ≠ []) : Pre Q rt' ids' free' fun _ => False := by
  have hdata := Snapshot.data_eq_of_str hn.str
  rw [Option.bind_some, hd] at hdata
  refine ⟨hn.arena.trans h.pre.arena, hn.req.trans h.pre.req, ?_, ?_, hn.hash ▸ hne, hn.freeList,
    hn.length ▸ h.pre.len⟩
  · rw [hdata, hn.slot, hn.hash]; exact htable
  · rw [hdata, hn.slot, hn.hash]; exact hcomplete.mono fun q hq => hq.2 hq.1

/-- The end of `__JS_NewAtom` before the freeze. -/
theorem Made.installAtom
    (h : Made Q rt ids free p wide chars) {v : Nat}
    (ht : t = .symbol ∨ t.hashed = true ∧ v = atomHashOf t chars ∧
      (∀ j e, HashIndex.Mem rt.base.atomHash ids j →
        atomIn rt.base.data rt.base.slot j = some e → e.key ≠ (t, chars)) ∧ Q t wide chars)
    (hr : rt.installAtom str p t v a = some (i, rt')) :
    ∃ ids' free', Pre Q rt' ids' free' fun _ => False := by
  obtain ⟨s, hs, hsw, hsc⟩ := h.struct
  obtain ⟨next, free', hfree, hslot, hlt, hbind, hnext⟩ := h.next
  obtain ⟨n, rfl, hn⟩ := Snapshot.exists_base (h.pre.str_eq p ▸ hs)
  have harena := h.pre.arena
  have hstrs : rt.base.strs[n]?.join = some s := hs
  simp only [Runtime.installAtom, Runtime.takeSlot, harena, Bool.false_eq_true, if_false, hbind,
    Option.map_some, Option.bind_some, Runtime.modStr, Runtime.setStr, Runtime.str, hstrs] at hr
  split at hr
  · next hsym =>
    cases hr
    have hnum := h.numbered hs
      { s with hash := v, hashNext := rt.base.atomFreeIndex, atomType := some t } hfree hlt hnext
      (rt.base.atomCount + 1) rt.base.atomHash rfl
    rw [harena] at hnum
    exact ⟨ids, free', hnum.pre h (by rw [JSString.data?, Option.map_some])
      (h.pre.table.occupy hslot h.unslotted) (h.pre.complete.occupy hslot hsym rfl) h.pre.hash_ne⟩
  · next hsym =>
    obtain ⟨hth, rfl, hfresh, hgood⟩ := ht.resolve_left hsym
    have hb := Nat.mod_lt (atomHashOf t chars) (List.length_pos_iff.2 h.pre.hash_ne)
    have hnum := h.numbered hs { s with
        hash := atomHashOf t chars, atomType := some t
        hashNext := rt.base.atomHash[atomHashOf t chars % rt.base.atomHash.length] }
      hfree hlt hnext (rt.base.atomCount + 1)
      (rt.base.atomHash.set (atomHashOf t chars % rt.base.atomHash.length) rt.base.atomFreeIndex)
        rfl
    rw [harena] at hnum
    have h1 := hnum.pre h (d := ⟨t, wide, chars, atomHashOf t chars, _⟩)
      (by rw [JSString.data?, Option.map_some, hsw, hsc])
      (h.pre.table.link h.index hslot h.unslotted hth rfl (List.getElem?_eq_getElem hb)
        hfresh hgood)
      (h.pre.complete.link hslot hb hth) (by simpa using h.pre.hash_ne)
    simp only [Runtime.linkAtom, Bool.false_eq_true, if_false,
      h.pre.table.and_eq_mod h.pre.hash_ne, List.getElem?_eq_getElem hb, Option.bind_some,
      Runtime.modStr, Runtime.setStr, Runtime.str, List.getElem?_set_self hn, Option.join_some,
      Option.map_some, List.set_set] at hr
    split at hr
    · rw [Option.bind_map] at hr
      obtain ⟨rt2, hr2, hr⟩ := Option.bind_eq_some_iff.1 hr
      cases hr
      obtain ⟨k, hk⟩ := h.pre.table.size.resolve_left h.pre.hash_ne
      obtain ⟨ids2, h2⟩ := h1.resizeAtomHash ⟨k + 1, by
        rw [List.length_set, hk, Nat.pow_succ]⟩ hr2
      exact ⟨ids2, free', h2⟩
    · cases hr
      exact ⟨_, free', h1⟩

/-! ## The entry points -/

/-- The invariant, without its parameters. -/
def Prefrozen (Q : TextPred) (rt : Runtime) : Prop := ∃ ids free, Pre Q rt ids free fun _ => False

theorem Prefrozen.freeString (h : Prefrozen Q rt) (hr : rt.freeString p = some rt') :
    Prefrozen Q rt' := by
  obtain ⟨ids, free, h⟩ := h
  obtain ⟨ids', free', h', -⟩ := h.freeString (fun _ => id) hr
  exact ⟨ids', free', h'⟩

theorem Prefrozen.rcInc (h : Prefrozen Q rt) (p : StrPtr) : Prefrozen Q (rt.rcInc p) := by
  obtain ⟨ids, free, h⟩ := h
  exact ⟨ids, free, (h.rcInc p).1⟩

theorem Prefrozen.rcDec (h : Prefrozen Q rt) (p : StrPtr) : Prefrozen Q (rt.rcDec p).2 := by
  obtain ⟨ids, free, h⟩ := h
  exact ⟨ids, free, (h.rcDec p).1⟩

theorem Prefrozen.newAtomFail (h : Prefrozen Q rt)
    (hr : rt.newAtomFail str = some (i, rt')) : Prefrozen Q rt' := by
  unfold Runtime.newAtomFail at hr
  split at hr
  · obtain ⟨rt1, hr1, ⟨⟩⟩ := Option.map_eq_some_iff.1 hr
    exact h.freeString hr1
  · cases hr
    exact h

/-- Failed allocations leave the runtime as it was. -/
theorem Runtime.growAtomArray_error (hr : rt.growAtomArray a = .error rt') : rt' = rt := by
  simp only [Runtime.growAtomArray] at hr
  split at hr
  · split at hr
    · exact (Except.error.inj hr).symm
    split at hr
    · exact (Except.error.inj hr).symm
    split at hr
    · split at hr
      · exact (Except.error.inj hr).symm
      · cases hr
    · cases hr
  · cases hr

theorem Runtime.atomBlock_error
    (hr : rt.atomBlock str t a = some (.error rt')) : rt' = rt := by
  unfold Runtime.atomBlock at hr
  split at hr
  · split at hr
    · cases hr
    · exact (Except.error.inj (Option.some.inj hr)).symm
  · obtain ⟨s, -, hr⟩ := Option.bind_eq_some_iff.1 hr
    split at hr
    · cases hr
    · split at hr
      · exact (Except.error.inj (Option.some.inj hr)).symm
      · obtain ⟨rt1, -, hr⟩ := Option.map_eq_some_iff.1 hr
        cases hr

/-- Making an atom of a text that no atom of the type has. -/
theorem Pre.createAtom (h : Pre Q rt ids free fun _ => False)
    {v : Nat} (h0 : ∀ p, str = some p → rt.base.slot 0 ≠ some p)
    (ht : t = .symbol ∨ t.hashed = true ∧ v = atomHashOf t (rt.textOf str) ∧
      (∀ j e, HashIndex.Mem rt.base.atomHash ids j →
        atomIn rt.base.data rt.base.slot j = some e → e.key ≠ (t, rt.textOf str)) ∧
      Q t (rt.wideOf str) (rt.textOf str))
    (hstr : ∀ p, str = some p → ∃ s, rt.str p = some s)
    (hr : rt.createAtom str t v a = some (i, rt')) : Prefrozen Q rt' := by
  unfold Runtime.createAtom at hr
  split at hr
  · next rt1 hg =>
    rw [Runtime.growAtomArray_error hg] at hr
    exact Prefrozen.newAtomFail ⟨ids, free, h⟩ hr
  · next rt1 hg =>
    obtain ⟨free1, h1, g⟩ := h.growAtomArray hg
    -- the string is still there
    have htext : rt1.textOf str = rt.textOf str ∧ rt1.wideOf str = rt.wideOf str := by
      cases str with
      | none => exact ⟨rfl, rfl⟩
      | some p =>
        obtain ⟨s, hs⟩ := hstr p rfl
        simp [Runtime.textOf, Runtime.wideOf, hs, g.strs p s hs]
    obtain ⟨r, hb, hr⟩ := Option.bind_eq_some_iff.1 hr
    cases r with
    | error rt2 =>
      simp only [Runtime.atomBlock_error hb] at hr
      exact Prefrozen.newAtomFail ⟨ids, free1, h1⟩ hr
    | ok r =>
      obtain ⟨p, rt2⟩ := r
      obtain ⟨ids2, free2, hm, hnew⟩ := h1.atomBlock g.index (fun q hq => by
        obtain ⟨s, hs⟩ := hstr q hq
        exact g.slot0 q s hs (h0 q hq)) hb
      rw [htext.1, htext.2] at hm
      refine hm.installAtom (ht.imp_right fun ⟨hth, hv, hfresh, hgood⟩ =>
        ⟨hth, hv, fun j e hj he => ?_, hgood⟩) hr
      obtain ⟨e', hj', he', hkey⟩ := (g.noNew.trans hnew) j e hj he
      rw [hkey]
      exact hfresh j e' hj' he'

/-- The callers of `__JS_NewAtom`: the string is there and is not the struct of `JS_ATOM_NULL`, and
its text is one they intern. -/
structure NewAtomOk (Q : TextPred) (rt : Runtime) (str : Option StrPtr) (t : AtomType) : Prop where
  live : ∀ p, str = some p → ∃ s, rt.str p = some s
  null : ∀ p, str = some p → rt.base.slot 0 ≠ some p
  good : t.hashed = true → Q t (rt.wideOf str) (rt.textOf str)

theorem Pre.newHashed (h : Pre Q rt ids free fun _ => False)
    (hs : rt.str p = some s) (ht : t.hashed = true) (hok : NewAtomOk Q rt (some p) t)
    (hr : rt.newHashed p s t a = some (i, rt')) : Prefrozen Q rt' := by
  rcases Runtime.newHashed_cases hr with ⟨-, -, rfl⟩ | ⟨-, j, hj, ⟨-, -, q, hfree⟩ | ⟨hj0, hr⟩⟩
  · split
    · exact Prefrozen.rcDec ⟨ids, free, h⟩ p
    · exact ⟨ids, free, h⟩
  · refine Prefrozen.freeString ?_ hfree
    split
    · exact ⟨ids, free, h⟩
    · exact Prefrozen.rcInc ⟨ids, free, h⟩ q
  · obtain ⟨k, hk, -, hnone⟩ := h.ok.findHashed_same (t := t) s.chars
    cases hj.symm.trans hk
    have htext := Runtime.textOf_some hs
    refine h.createAtom hok.null (.inr ⟨ht, by rw [htext], ?_, hok.good ht⟩) hok.live hr
    intro k e hke he hkey
    obtain ⟨s', hs', hse⟩ := Runtime.atom_base h.bound he
    obtain ⟨h1, h2, -⟩ := JSString.data?_eq hse
    obtain ⟨h3, h4⟩ := Prod.mk.injEq _ _ _ _ ▸ hkey
    exact hnone hj0 k s' (.inl hke) hs' (by rw [h1, h3]) (by rw [h2, h4, htext])

/-- `__JS_NewAtom` before the freeze. -/
theorem Prefrozen.newAtom (h : Prefrozen Q rt)
    (hok : NewAtomOk Q rt str t) (hr : rt.newAtom str t a = some (i, rt')) : Prefrozen Q rt' := by
  obtain ⟨ids, free, h⟩ := h
  unfold Runtime.newAtom at hr
  split at hr
  · exact h.createAtom hok.null (.inl rfl) hok.live hr
  · exact h.createAtom hok.null (.inl rfl) hok.live hr
  · next hns hnp =>
    obtain ⟨p, rfl, hp⟩ := Option.bind_eq_some_iff.1 hr
    obtain ⟨s, hs, hnew⟩ := Option.bind_eq_some_iff.1 hp
    exact h.newHashed hs (by cases t <;> simp_all [AtomType.hashed]) hok hnew

/-- What `JS_NewAtomStr` sees to: no string atom is made of the text of a small integer. -/
theorem Prefrozen.newAtomStr (h : Prefrozen Q rt) (h0 : rt.base.slot 0 ≠ some p)
    (hgood : (∀ m, isNumString (rt.textOf (some p)) = some m → maxInt < m) →
      Q .string (rt.wideOf (some p)) (rt.textOf (some p)))
    (hr : rt.newAtomStr p a = some (i, rt')) : Prefrozen Q rt' := by
  obtain ⟨s, hs, hr⟩ := Option.bind_eq_some_iff.1 hr
  rw [Runtime.textOf_some hs] at hgood
  have hok : (∀ m, isNumString s.chars = some m → maxInt < m) → NewAtomOk Q rt (some p) .string :=
    fun hnum => ⟨fun q hq => ⟨s, Option.some.inj hq ▸ hs⟩, fun q hq => Option.some.inj hq ▸ h0,
      fun _ => Runtime.textOf_some hs ▸ hgood hnum⟩
  split at hr
  · next n hn =>
    split at hr
    · obtain ⟨rt1, hr1, ⟨⟩⟩ := Option.map_eq_some_iff.1 hr
      exact h.freeString hr1
    · exact h.newAtom (hok fun m hm => by rw [hn] at hm; cases hm; omega) hr
  · next hn => exact h.newAtom (hok fun m hm => by rw [hn] at hm; cases hm) hr

end

end ArenaJs.Atoms
