import ArenaJs.Lib.Rehash
import ArenaJs.Shapes.Model

/-!
# The chains of the shape hash

`Chains` is the invariant of the two tables: the chains of `shape_hash` and of the overlay end,
every shape on them is live, hashed and in the bucket of its hash, and after the freeze the first
hold only shapes of the snapshot and the others only shapes of the request. Before the freeze every
hashed shape is linked; after it, a shape of a request may be hashed and on no chain, if there was
no memory for the overlay. A function that takes a shape off its chain to change it leaves it in
`skip`.

The lemmas follow the primitive steps: writing a shape, allocating one, linking
(`Good.shapeHashLink`), unlinking (`Good.shapeHashUnlink`) and the growth of `shape_hash`
(`Good.resizeShapeHash`).
-/

namespace ArenaJs.Shapes

open HashIndex renaming Mem → Chained

variable {V : Type}

namespace Runtime

variable (rt : Runtime V) (n : Nat)

/-- The shape is hashed. -/
def Hashed : Prop := ∃ sh, rt.shape n = some sh ∧ sh.isHashed = true

/-- The bucket of a shape in `shape_hash`. -/
def baseBucket : Option Nat :=
  (rt.shape n).map fun sh => getShapeHash sh.hash rt.shapeHashBits

/-- The bucket of a shape in the overlay. -/
def overBucket : Option Nat :=
  (rt.shape n).map fun sh => overlayBucket sh.hash rt.overlay.length

/-- What the tables depend on in a shape. -/
def link : Option (Nat × UInt32 × Bool) :=
  (rt.shape n).map fun sh => (sh.shapeHashNext, sh.hash, sh.isHashed)

end Runtime

/-- The invariant of the tables; `ids` and `ids'` are the shapes in each bucket, and the shapes in
`skip` are on no chain. -/
structure Chains (rt : Runtime V) (ids ids' : Nat → List Nat) (skip : Nat → Prop) : Prop where
  null : rt.shapes[0]? = some none
  base : HashIndex rt.nextOf rt.baseBucket rt.shapeHash ids
  overIdx : HashIndex rt.nextOf rt.overBucket rt.overlay ids'
  baseNode : ∀ {n}, Chained rt.shapeHash ids n →
    rt.Hashed n ∧ ¬ skip n ∧ (rt.isArena = true → n < rt.baseShapes)
  overNode : ∀ {n}, Chained rt.overlay ids' n →
    rt.Hashed n ∧ ¬ skip n ∧ rt.isArena = true ∧ rt.baseShapes ≤ n
  complete : rt.isArena = false → ∀ {n}, rt.Hashed n → ¬ skip n → Chained rt.shapeHash ids n
  size : rt.shapeHash.length = 2 ^ rt.shapeHashBits
  overlay : rt.overlay = [] ∨ rt.overlay.length = shapeOverlayInitial
  bound : rt.isArena = true → rt.baseShapes ≤ rt.shapes.length ∧ 0 < rt.baseShapes

/-- The tables are in order. -/
def Good (rt : Runtime V) (skip : Nat → Prop) : Prop := ∃ ids ids', Chains rt ids ids' skip

section
variable {rt rt' rt'' : Runtime V} {ids ids' : Nat → List Nat} {skip skip' : Nat → Prop} {n m : Nat}
  {sh sh' : JSShape} {o : Option JSShape}

/-! ## Memory -/

theorem Runtime.shape_lt (h : rt.shape n = some sh) : n < rt.shapes.length :=
  (List.getElem?_eq_some_iff.1 (Option.join_eq_some_iff.1 h)).1

theorem Runtime.shape_setShape (n : Nat) (o : Option JSShape) (m : Nat) :
    (rt.setShape n o).shape m = if m = n ∧ n < rt.shapes.length then o else rt.shape m := by
  simp only [Runtime.shape, Runtime.setShape, List.getElem?_set]
  by_cases hm : n = m
  · subst hm
    by_cases hlt : n < rt.shapes.length
    · simp [hlt]
    · simp [hlt]
  · rw [if_neg hm, if_neg fun h => hm h.1.symm]

theorem Runtime.shape_setShape_self (h : rt.shape n = some sh) (o : Option JSShape) :
    (rt.setShape n o).shape n = o := by
  rw [shape_setShape, if_pos ⟨rfl, shape_lt h⟩]

theorem Runtime.shape_setShape_ne (h : m ≠ n) (o : Option JSShape) :
    (rt.setShape n o).shape m = rt.shape m := by
  rw [shape_setShape, if_neg fun hm => h hm.1]

theorem Runtime.shape_modShape (n : Nat) (f : JSShape → JSShape) (m : Nat) :
    (rt.modShape n f).shape m = if m = n then (rt.shape m).map f else rt.shape m := by
  rw [Runtime.modShape, shape_setShape]
  by_cases hm : m = n
  · subst hm
    rw [if_pos rfl]
    by_cases hlt : m < rt.shapes.length
    · rw [if_pos ⟨rfl, hlt⟩]
    · rw [if_neg fun h => hlt h.2]
      have : rt.shape m =
        none := by simp [Runtime.shape, List.getElem?_eq_none (Nat.le_of_not_lt hlt)]
      rw [this, Option.map_none]
  · rw [if_neg hm, if_neg fun h => hm h.1]

theorem Runtime.shape_alloc (sh : JSShape) (m : Nat) :
    (rt.allocShape sh).2.shape m = if m = rt.shapes.length then some sh else rt.shape m := by
  simp only [Runtime.allocShape, Runtime.shape]
  rcases Nat.lt_trichotomy m rt.shapes.length with hlt | rfl | hgt
  · rw [if_neg (by omega), List.getElem?_append_left hlt]
  · rw [if_pos rfl, List.getElem?_concat_length]
    rfl
  · rw [if_neg (by omega), List.getElem?_eq_none (by simp; omega), List.getElem?_eq_none (by omega)]

theorem Runtime.Hashed.of_link (h : rt'.link n = rt.link n) (hh : rt.Hashed n) : rt'.Hashed n := by
  obtain ⟨sh, hsh, hhash⟩ := hh
  rw [Runtime.link, Runtime.link, hsh, Option.map_some] at h
  obtain ⟨sh', hsh', heq⟩ := Option.map_eq_some_iff.1 h
  exact ⟨sh', hsh', (congrArg (·.2.2) heq).trans hhash⟩

theorem getShapeHash_lt (h : UInt32) (bits : Nat) : getShapeHash h bits < 2 ^ bits := by
  rw [getShapeHash, Nat.shiftRight_eq_div_pow, Nat.div_lt_iff_lt_mul (Nat.two_pow_pos _),
    ← Nat.pow_add]
  exact Nat.lt_of_lt_of_le h.toNat_lt (Nat.pow_le_pow_right (by decide) (by omega))

theorem overlayBucket_lt (h : UInt32) {size : Nat} (hs : 0 < size) : overlayBucket h size < size :=
  PropTable.bucket_lt hs h.toNat

theorem head_of_lt {heads : List Nat} {b : Nat} (hb : b < heads.length) :
    heads[b]? = some (heads.getD b 0) := by
  rw [List.getD_eq_getElem?_getD, List.getElem?_eq_getElem hb, Option.getD_some]

/-! ## Writes that leave the chains alone -/

/-- An index only depends on the links of its own shapes. -/
theorem index_of_link {heads : List Nat} (f : UInt32 → Nat)
    (hidx : HashIndex rt.nextOf (fun m => (rt.shape m).map fun s => f s.hash) heads ids)
    (hlink : ∀ n, Chained heads ids n → rt'.link n = rt.link n) :
    HashIndex rt'.nextOf (fun m => (rt'.shape m).map fun s => f s.hash) heads ids := by
  refine hidx.congr (fun n hn => ?_) fun n hn => ?_
  · have := congrArg (Option.map Prod.fst) (hlink n hn)
    simpa [Runtime.link, Runtime.nextOf, Option.map_map, Function.comp_def] using this
  · have := congrArg (Option.map fun l => f l.2.1) (hlink n hn)
    simpa [Runtime.link, Option.map_map, Function.comp_def] using this

theorem Chains.not_skip (h : Chains rt ids ids' skip)
    (hn : Chained rt.shapeHash ids n ∨ Chained rt.overlay ids' n) : ¬ skip n :=
  hn.elim (fun hb => (h.baseNode hb).2.1) fun ho => (h.overNode ho).2.1

/-- The tables only depend on the links of the shapes on chains. -/
theorem Chains.transfer (h : Chains rt ids ids' skip) (hnull : rt'.shapes[0]? = some none)
    (harena : rt'.isArena = rt.isArena) (hbase : rt'.baseShapes = rt.baseShapes)
    (hheads : rt'.shapeHash = rt.shapeHash) (hbits : rt'.shapeHashBits = rt.shapeHashBits)
    (hover : rt'.overlay = rt.overlay) (hlen : rt.shapes.length ≤ rt'.shapes.length)
    (hlink : ∀ n, Chained rt.shapeHash ids n ∨ Chained rt.overlay ids' n → rt'.link n =
    rt.link n ∧ ¬ skip' n)
    (hcomplete : rt.isArena = false → ∀ n, rt'.Hashed n → ¬ skip' n → rt.Hashed n ∧ ¬ skip n) :
    Chains rt' ids ids' skip' := by
  refine ⟨hnull, ?_, ?_, fun {n} hn => ?_, fun {n} hn => ?_, fun ha {n} hh hs => ?_, ?_, ?_, ?_⟩
  · have := index_of_link (getShapeHash · rt.shapeHashBits) h.base fun n hn => (hlink n (.inl hn)).1
    rwa [hheads, show rt'.baseBucket = _ from funext fun n => by rw [Runtime.baseBucket, hbits]]
  · have := index_of_link (overlayBucket · rt.overlay.length) h.overIdx fun n hn =>
      (hlink n (.inr hn)).1
    rwa [hover, show rt'.overBucket = _ from funext fun n => by rw [Runtime.overBucket, hover]]
  · rw [hheads] at hn
    obtain ⟨hl, hs⟩ := hlink n (.inl hn)
    obtain ⟨hh, -, hb⟩ := h.baseNode hn
    exact ⟨hh.of_link hl, hs, by rwa [harena, hbase]⟩
  · rw [hover] at hn
    obtain ⟨hl, hs⟩ := hlink n (.inr hn)
    obtain ⟨hh, -, hb⟩ := h.overNode hn
    exact ⟨hh.of_link hl, hs, by rwa [harena, hbase]⟩
  · rw [harena] at ha
    obtain ⟨hh', hs'⟩ := hcomplete ha n hh hs
    rw [hheads]
    exact h.complete ha hh' hs'
  · rw [hheads, hbits]; exact h.size
  · rw [hover]; exact h.overlay
  · rw [harena, hbase]
    exact fun ha => ⟨Nat.le_trans (h.bound ha).1 hlen, (h.bound ha).2⟩

/-- The shapes in `skip` only have to be on no chain, and the others on one. -/
theorem Chains.skips (h : Chains rt ids ids' skip)
    (hno : ∀ n, Chained rt.shapeHash ids n ∨ Chained rt.overlay ids' n → ¬ skip' n)
    (hcomplete : rt.isArena = false → ∀ n, rt.Hashed n → ¬ skip' n → ¬ skip n) : Good rt skip' :=
  ⟨ids, ids', h.transfer h.null rfl rfl rfl rfl rfl (Nat.le_refl _) (fun n hn => ⟨rfl, hno n hn⟩)
    fun ha n hh hs => ⟨hh, hcomplete ha n hh hs⟩⟩

/-- Writes to objects. -/
theorem Good.objects (h : Good rt skip) (objects : List (Option (JSObject V))) (ctx : List Nat) :
    Good { rt with objects := objects, ctxShapes := ctx } skip := by
  obtain ⟨ids, ids', h⟩ := h
  exact ⟨ids, ids', h.transfer h.null rfl rfl rfl rfl rfl (Nat.le_refl _)
    (fun n hn => ⟨rfl, h.not_skip hn⟩) fun _ n hh hs => ⟨hh, hs⟩⟩

theorem Good.modObject (h : Good rt skip) (p : Nat) (f : JSObject V → JSObject V) :
    Good (rt.modObject p f) skip := h.objects _ rt.ctxShapes

theorem Chains.ne_zero (h : Chains rt ids ids' skip) (hsh : rt.shape n = some sh) : n ≠ 0 := by
  rintro rfl
  rw [Runtime.shape, h.null] at hsh
  cases hsh

theorem Good.ne_zero (h : Good rt skip) (hsh : rt.shape n = some sh) : n ≠ 0 := by
  obtain ⟨ids, ids', h⟩ := h
  exact h.ne_zero hsh

theorem Chains.null_setShape (h : Chains rt ids ids' skip) (hn : n ≠ 0) (o : Option JSShape) :
    (rt.setShape n o).shapes[0]? = some none := by
  rw [Runtime.setShape, List.getElem?_set_ne hn]
  exact h.null

/-- Writing a shape that is on no chain. -/
theorem Good.setShape_off (h : Good rt (· = n)) (hn : n ≠ 0) (o : Option JSShape) :
    Good (rt.setShape n o) (· = n) := by
  obtain ⟨ids, ids', h⟩ := h
  refine ⟨ids, ids', h.transfer (h.null_setShape hn o) rfl rfl rfl rfl rfl
    (by simp [Runtime.setShape])
    (fun m hm => ?_) fun _ m hh hs => ?_⟩
  · have hne : m ≠ n := h.not_skip hm
    exact ⟨by rw [Runtime.link, Runtime.shape_setShape_ne hne, Runtime.link], hne⟩
  · obtain ⟨sh, hsh, hhash⟩ := hh
    rw [Runtime.shape_setShape_ne hs] at hsh
    exact ⟨⟨sh, hsh, hhash⟩, hs⟩

/-- Writing fields of a shape that the tables do not depend on. -/
theorem Good.setShape_keep (h : Good rt skip) (hsh : rt.shape n = some sh)
    (hnext : sh'.shapeHashNext = sh.shapeHashNext) (hhash : sh'.hash = sh.hash)
    (hh : sh'.isHashed = sh.isHashed) : Good (rt.setShape n (some sh')) skip := by
  obtain ⟨ids, ids', h⟩ := h
  have hlink : ∀ m, (rt.setShape n (some sh')).link m = rt.link m := fun m => by
    by_cases hm : m = n
    · subst hm
      rw [Runtime.link, Runtime.shape_setShape_self hsh, Runtime.link, hsh, Option.map_some,
        Option.map_some, hnext, hhash, hh]
    · rw [Runtime.link, Runtime.shape_setShape_ne hm, Runtime.link]
  exact ⟨ids, ids', h.transfer (h.null_setShape (h.ne_zero hsh) _) rfl rfl rfl rfl rfl
    (by simp [Runtime.setShape]) (fun m hm => ⟨hlink m, h.not_skip hm⟩)
    fun _ m hm hs => ⟨hm.of_link (hlink m).symm, hs⟩⟩

/-- Writing fields of a shape that the tables do not depend on, by a function. -/
theorem Good.modShape_keep (h : Good rt skip) (n : Nat) {f : JSShape → JSShape}
    (hf : ∀ sh, (f sh).shapeHashNext = sh.shapeHashNext ∧ (f sh).hash = sh.hash ∧
      (f sh).isHashed = sh.isHashed) : Good (rt.modShape n f) skip := by
  cases hsh : rt.shape n with
  | some sh =>
    rw [Runtime.modShape, hsh, Option.map_some]
    exact h.setShape_keep hsh (hf sh).1 (hf sh).2.1 (hf sh).2.2
  | none =>
    have hset : rt.modShape n f = { rt with shapes := rt.shapes.set n none } := by
      rw [Runtime.modShape, hsh]
      rfl
    have hsame : rt.shapes.set n none = rt.shapes := by
      refine List.ext_getElem? fun i => ?_
      rw [List.getElem?_set]
      split
      · next hi =>
        subst hi
        split
        · next hlt =>
          rw [Runtime.shape, List.getElem?_eq_getElem hlt, Option.join_some] at hsh
          rw [List.getElem?_eq_getElem hlt, hsh]
        · next hlt => rw [List.getElem?_eq_none (by omega)]
      · rfl
    rw [hset, hsame]
    exact h

/-- A shape that is not hashed is on no chain. -/
theorem Good.off_of_not_hashed (h : Good rt fun _ => False) (hn : ¬ rt.Hashed n) :
    Good rt (· = n) := by
  obtain ⟨ids, ids', h⟩ := h
  refine h.skips (fun m hm => ?_) fun _ _ _ _ => id
  rintro rfl
  exact hn (hm.elim (fun hb => (h.baseNode hb).1) fun ho => (h.overNode ho).1)

/-- A shape that is not hashed need not be on a chain. -/
theorem Good.done (h : Good rt (· = n)) (hn : ¬ rt.Hashed n) : Good rt fun _ => False := by
  obtain ⟨ids, ids', h⟩ := h
  exact h.skips (fun _ _ => id) fun _ m hh _ he => hn (he ▸ hh)

/-- A new shape is on no chain. -/
theorem Good.alloc (h : Good rt fun _ => False) (sh : JSShape) :
    Good (rt.allocShape sh).2 (· = rt.shapes.length) := by
  have hnone : ¬ rt.Hashed rt.shapes.length := by
    rintro ⟨sh, hsh, -⟩
    exact Nat.lt_irrefl _ (Runtime.shape_lt hsh)
  obtain ⟨ids, ids', h⟩ := h.off_of_not_hashed hnone
  have hpos : 0 < rt.shapes.length := (List.getElem?_eq_some_iff.1 h.null).1
  refine ⟨ids, ids', h.transfer ?_ rfl rfl rfl rfl rfl (by simp [Runtime.allocShape])
    (fun m hm => ?_)
    fun _ m hh hs => ?_⟩
  · rw [Runtime.allocShape, List.getElem?_append_left hpos]
    exact h.null
  · have hne : m ≠ rt.shapes.length := h.not_skip hm
    exact ⟨by rw [Runtime.link, Runtime.shape_alloc, if_neg hne, Runtime.link], hne⟩
  · obtain ⟨sh', hsh', hhash⟩ := hh
    rw [Runtime.shape_alloc, if_neg hs] at hsh'
    exact ⟨⟨sh', hsh', hhash⟩, hs⟩

/-! ## Linking -/

/-- Two states that differ in how the shapes are linked, and in nothing else but the tables. -/
structure Relinked (rt rt' : Runtime V) : Prop where
  shape : ∀ n, (rt'.shape n).map (fun sh => { sh with shapeHashNext := 0 }) =
    (rt.shape n).map fun sh => { sh with shapeHashNext := 0 }
  length : rt'.shapes.length = rt.shapes.length
  objects : rt'.objects = rt.objects
  ctxShapes : rt'.ctxShapes = rt.ctxShapes
  isArena : rt'.isArena = rt.isArena
  baseShapes : rt'.baseShapes = rt.baseShapes
  baseObjects : rt'.baseObjects = rt.baseObjects

/-- From the freeze on the snapshot's shapes and chains stay as they are. -/
structure SameBase (rt rt' : Runtime V) : Prop where
  shapeHash : rt.isArena = true → rt'.shapeHash = rt.shapeHash
  shapes : rt.isArena = true → ∀ n < rt.baseShapes, rt'.shapes[n]? = rt.shapes[n]?
  isArena : rt'.isArena = rt.isArena
  baseShapes : rt'.baseShapes = rt.baseShapes

theorem Relinked.refl (rt : Runtime V) :
    Relinked rt rt := ⟨fun _ => rfl, rfl, rfl, rfl, rfl, rfl, rfl⟩

theorem SameBase.refl (rt : Runtime V) :
    SameBase rt rt := ⟨fun _ => rfl, fun _ _ _ => rfl, rfl, rfl⟩

theorem SameBase.trans (h : SameBase rt rt') (h' : SameBase rt' rt'') : SameBase rt rt'' :=
  ⟨fun ha => (h'.shapeHash (h.isArena ▸ ha)).trans (h.shapeHash ha),
    fun ha n hn => (h'.shapes (h.isArena ▸ ha) n (h.baseShapes ▸ hn)).trans (h.shapes ha n hn),
    h'.isArena.trans h.isArena, h'.baseShapes.trans h.baseShapes⟩

theorem SameBase.of_not_arena (h : rt.isArena = false) (harena : rt'.isArena = rt.isArena)
    (hbase : rt'.baseShapes = rt.baseShapes) : SameBase rt rt' :=
  have hno : rt.isArena ≠ true := by simp [h]
  ⟨fun ha => absurd ha hno, fun ha => absurd ha hno, harena, hbase⟩

/-- The shape at an address after relinking. -/
theorem Relinked.shape_some (h : Relinked rt rt') (hsh : rt.shape n = some sh) :
    ∃ next, rt'.shape n = some { sh with shapeHashNext := next } := by
  have hn := h.shape n
  rw [hsh, Option.map_some] at hn
  obtain ⟨sh', hsh', heq⟩ := Option.map_eq_some_iff.1 hn
  refine ⟨sh'.shapeHashNext, hsh'.trans (congrArg _ ?_)⟩
  have := congrArg (fun s : JSShape => { s with shapeHashNext := sh'.shapeHashNext }) heq
  exact this

theorem Relinked.hashed_iff (h : Relinked rt rt') : rt'.Hashed n ↔ rt.Hashed n := by
  have := congrArg (Option.any JSShape.isHashed) (h.shape n)
  rw [Option.any_map, Option.any_map] at this
  rw [Runtime.Hashed, Runtime.Hashed, ← Option.any_eq_true, ← Option.any_eq_true]
  exact iff_of_eq (congrArg (· = true) this)

theorem Relinked.hashed (h : Relinked rt rt') (hn : rt.Hashed n) : rt'.Hashed n := h.hashed_iff.2 hn

/-- The buckets stay. -/
theorem Relinked.bucket (h : Relinked rt rt') (f : UInt32 → Nat) (n : Nat) :
    (rt'.shape n).map (fun sh => f sh.hash) = (rt.shape n).map fun sh => f sh.hash := by
  have := congrArg (Option.map fun sh : JSShape => f sh.hash) (h.shape n)
  simpa only [Option.map_map, Function.comp_def] using this

theorem Relinked.null (h : Relinked rt rt') (hnull : rt.shapes[0]? = some none) :
    rt'.shapes[0]? = some none := by
  have hlen : 0 < rt'.shapes.length := by
    rw [h.length]; exact (List.getElem?_eq_some_iff.1 hnull).1
  have h0 := h.shape 0
  rw [show rt.shape 0 = none by rw [Runtime.shape, hnull]; rfl, Option.map_none,
    Option.map_eq_none_iff, Runtime.shape, List.getElem?_eq_getElem hlen, Option.join_some] at h0
  rw [List.getElem?_eq_getElem hlen, h0]

/-- Relinking the shapes of a request, if the overlay's table stays one. -/
theorem Chains.relink_over {ids'' : Nat → List Nat} (h : Chains rt ids ids' skip)
    (hrel : Relinked rt rt') (harena : rt.isArena = true) (hheads : rt'.shapeHash = rt.shapeHash)
    (hbits : rt'.shapeHashBits = rt.shapeHashBits)
    (hbase : ∀ n, Chained rt.shapeHash ids n → rt'.nextOf n = rt.nextOf n ∧ ¬ skip' n)
    (hidx : HashIndex rt'.nextOf rt'.overBucket rt'.overlay ids'')
    (hnode : ∀ {n}, Chained rt'.overlay ids'' n → rt.Hashed n ∧ ¬ skip' n ∧ rt.baseShapes ≤ n)
    (hov : rt'.overlay.length = shapeOverlayInitial) : Chains rt' ids ids'' skip' := by
  refine ⟨hrel.null h.null, ?_, hidx, fun {n} hn => ?_, fun {n} hn => ?_, fun ha =>
    ?_, ?_, .inr hov,
    fun _ => ?_⟩
  · rw [hheads]
    refine h.base.congr (fun n hn => (hbase n hn).1) fun n _ => ?_
    rw [Runtime.baseBucket, hbits]
    exact hrel.bucket (fun v => getShapeHash v _) n
  · rw [hheads] at hn
    obtain ⟨hh, -, hb⟩ := h.baseNode hn
    exact ⟨hrel.hashed hh, (hbase n hn).2, by rwa [hrel.isArena, hrel.baseShapes]⟩
  · obtain ⟨hh, hs, hb⟩ := hnode hn
    exact ⟨hrel.hashed hh, hs, hrel.isArena.trans harena, hrel.baseShapes ▸ hb⟩
  · rw [hrel.isArena, harena] at ha
    cases ha
  · rw [hheads, hbits]; exact h.size
  · rw [hrel.baseShapes, hrel.length]; exact h.bound harena

/-- Before the freeze the shapes on chains are the hashed ones. -/
theorem Chains.mem_iff (h : Chains rt ids ids' skip) (harena : rt.isArena = false) :
    Chained rt.shapeHash ids n ↔ rt.Hashed n ∧ ¬ skip n :=
  ⟨fun hn => ⟨(h.baseNode hn).1, (h.baseNode hn).2.1⟩, fun hn => h.complete harena hn.1 hn.2⟩

/-- Relinking the shapes before the freeze, if their table stays one. -/
theorem Chains.relink_base {ids'' : Nat → List Nat} (h : Chains rt ids ids' skip)
    (hrel : Relinked rt rt') (harena : rt.isArena = false) (hover : rt'.overlay = rt.overlay)
    (hidx : HashIndex rt'.nextOf rt'.baseBucket rt'.shapeHash ids'')
    (hnode : ∀ {n}, Chained rt'.shapeHash ids'' n ↔ rt.Hashed n ∧ ¬ skip' n)
    (hsize : rt'.shapeHash.length = 2 ^ rt'.shapeHashBits) : Chains rt' ids'' ids' skip' := by
  have hno : ∀ n, ¬ Chained rt.overlay ids' n := fun n hn => by
    rw [(h.overNode hn).2.2.1] at harena
    cases harena
  have harena' : ¬ rt'.isArena = true := by rw [hrel.isArena, harena]; decide
  refine ⟨hrel.null h.null, hidx, ?_, fun {n} hn => ?_, fun {n} hn => ?_,
    fun _ {n} hn hs => ?_, hsize,
    hover ▸ h.overlay, fun ha => absurd ha harena'⟩
  · rw [hover]
    exact h.overIdx.congr (fun n hn => absurd hn (hno n)) fun n hn => absurd hn (hno n)
  · obtain ⟨hh, hs⟩ := hnode.1 hn
    exact ⟨hrel.hashed hh, hs, fun ha => absurd ha harena'⟩
  · exact absurd (hover ▸ hn) (hno n)
  · exact hnode.2 ⟨hrel.hashed_iff.1 hn, hs⟩

/-- Writing the link of a shape. -/
theorem Relinked.setNext (hsh : rt.shape n = some sh) (next : Nat) :
    Relinked rt (rt.setShape n (some { sh with shapeHashNext := next })) := by
  refine ⟨fun m => ?_, List.length_set, rfl, rfl, rfl, rfl, rfl⟩
  by_cases hm : m = n
  · subst hm
    rw [Runtime.shape_setShape_self hsh, hsh]
    rfl
  · rw [Runtime.shape_setShape_ne hm]

/-- A write to a shape of the request leaves the snapshot alone. -/
theorem SameBase.setShape (hn : rt.isArena = true → rt.baseShapes ≤ n) (o : Option JSShape) :
    SameBase rt (rt.setShape n o) := by
  refine ⟨fun _ => rfl, fun ha m hm => ?_, rfl, rfl⟩
  have := hn ha
  rw [Runtime.setShape, List.getElem?_set_ne (by omega)]

/-- `js_shape_overlay_ensure`. -/
theorem Chains.shapeOverlayEnsure (h : Chains rt ids ids' skip) {granted : Bool}
    (hr : rt.shapeOverlayEnsure granted = some rt') :
    (∃ ids'', Chains rt' ids ids'' skip) ∧ rt'.overlay ≠ [] ∧
      ∃ overlay, rt' = { rt with overlay := overlay } := by
  unfold Runtime.shapeOverlayEnsure at hr
  split_ifs at hr with hov hg
  · cases hr
    exact ⟨⟨ids', h⟩, hov, _, rfl⟩
  · cases hr
    have hnil : rt.overlay = [] := not_not.1 hov
    refine ⟨⟨fun _ => [], ⟨h.null, h.base, ?_, h.baseNode, ?_, h.complete, h.size, ?_, h.bound⟩⟩,
      ?_,
      _, rfl⟩
    · exact .empty _ _ fun v hv => List.eq_of_mem_replicate hv
    · exact fun hn => absurd hn (HashIndex.not_mem_empty _ _)
    · exact .inr (List.length_replicate ..)
    · simp [shapeOverlayInitial]

/-- Putting a shape in front of the chain that `f` selects. -/
theorem pushShape_index {heads : List Nat} {f : UInt32 → Nat}
    (hidx : HashIndex rt.nextOf (fun m => (rt.shape m).map fun s => f s.hash) heads ids)
    (hsh : rt.shape n = some sh) (hn : n ≠ 0) (hmem : ¬ Chained heads ids n)
    (hb : f sh.hash < heads.length) :
    HashIndex
      (rt.setShape n (some { sh with shapeHashNext := heads.getD (f sh.hash) 0 })).nextOf
      (fun m => ((rt.setShape n (some { sh with
        shapeHashNext := heads.getD (f sh.hash) 0 })).shape m).map fun s => f s.hash)
      (heads.set (f sh.hash) n) (HashIndex.pushed ids (f sh.hash) n) := by
  have hself := Runtime.shape_setShape_self hsh
    (some { sh with shapeHashNext := heads.getD (f sh.hash) 0 })
  refine hidx.push _ _ hn hmem (head_of_lt hb) ?_ ?_ (Nat.mod_eq_of_lt hb) (fun m hm => ?_)
    fun m hm => ?_
  · rw [Runtime.nextOf, hself, Option.map_some]
  · rw [hself, Option.map_some]
  · rw [Runtime.nextOf, Runtime.shape_setShape_ne hm, Runtime.nextOf]
  · rw [Runtime.shape_setShape_ne hm]

/-- Putting a shape of the request in front of its chain. -/
theorem Chains.push_over (h : Chains rt ids ids' (· = n)) (hsh : rt.shape n = some sh)
    (hh : sh.isHashed = true) (hov : rt.overlay ≠ []) (harena : rt.isArena = true)
    (hreq : rt.baseShapes ≤ n) (count : Nat) :
    Good { rt.setShape n (some { sh with
        shapeHashNext := rt.overlay.getD (overlayBucket sh.hash rt.overlay.length) 0 }) with
      overlay := rt.overlay.set (overlayBucket sh.hash rt.overlay.length) n
      overlayCount := count } fun _ => False := by
  have hb := overlayBucket_lt sh.hash (List.length_pos_iff.2 hov)
  refine ⟨ids, HashIndex.pushed ids' (overlayBucket sh.hash rt.overlay.length) n, h.relink_over
    { Relinked.setNext hsh _ with } harena rfl rfl (fun m hm => ⟨?_, id⟩) ?_ (fun {m} hm => ?_) ?_⟩
  · exact congrArg (Option.map _) (Runtime.shape_setShape_ne (fun he => (h.baseNode hm).2.1 he) _)
  · refine (pushShape_index (f := fun v => overlayBucket v rt.overlay.length) h.overIdx hsh
      (h.ne_zero hsh) (fun hm => (h.overNode hm).2.1 rfl) hb).congr (fun _ _ => rfl) fun m _ => ?_
    simp only [Runtime.overBucket, List.length_set]
    rfl
  · rcases (HashIndex.mem_pushed hb).1 hm with rfl | hm
    · exact ⟨⟨sh, hsh, hh⟩, id, hreq⟩
    · obtain ⟨hh', -, -, hb'⟩ := h.overNode hm
      exact ⟨hh', id, hb'⟩
  · rw [List.length_set]; exact h.overlay.resolve_left hov

/-- Putting a shape in front of its chain before the freeze. -/
theorem Chains.push_base (h : Chains rt ids ids' (· = n)) (hsh : rt.shape n = some sh)
    (hh : sh.isHashed = true) (harena : rt.isArena = false) (count : Nat) :
    Good { rt.setShape n (some { sh with
        shapeHashNext := rt.shapeHash.getD (getShapeHash sh.hash rt.shapeHashBits) 0 }) with
      shapeHash := rt.shapeHash.set (getShapeHash sh.hash rt.shapeHashBits) n
      shapeHashCount := count } fun _ => False := by
  have hb : getShapeHash sh.hash rt.shapeHashBits < rt.shapeHash.length := by
    rw [h.size]; exact getShapeHash_lt ..
  refine ⟨_, ids', h.relink_base { Relinked.setNext hsh _ with } harena rfl
    (pushShape_index (f := fun v => getShapeHash v rt.shapeHashBits) h.base hsh (h.ne_zero hsh)
      (fun hm => (h.baseNode hm).2.1 rfl) hb) (fun {m} => ?_)
        (by rw [List.length_set]; exact h.size)⟩
  rw [HashIndex.mem_pushed hb, h.mem_iff harena]
  constructor
  · rintro (rfl | ⟨hm, -⟩)
    · exact ⟨⟨sh, hsh, hh⟩, id⟩
    · exact ⟨hm, id⟩
  · rintro ⟨hm, -⟩
    by_cases hmn : m = n
    · exact .inl hmn
    · exact .inr ⟨hm, hmn⟩

/-- `js_shape_hash_link` of a hashed shape that is on no chain. -/
theorem Good.shapeHashLink (h : Good rt (· = n)) (hh : rt.Hashed n)
    (hreq : rt.isArena = true → rt.baseShapes ≤ n) {granted : Bool}
    (hr : rt.shapeHashLink n granted = some rt') :
    Good rt' (fun _ => False) ∧ Relinked rt rt' ∧ SameBase rt rt' := by
  obtain ⟨ids, ids', h⟩ := h
  obtain ⟨sh, hsh, hhash⟩ := hh
  simp only [Runtime.shapeHashLink, hsh, Option.map_some, Option.some.injEq] at hr
  by_cases harena : rt.isArena = true
  · have hbase : rt.ptrIsBase n = false := by
      have := hreq harena
      simp [Runtime.ptrIsBase, harena]
      omega
    simp only [harena, hbase, Bool.not_false, Bool.and_self, if_true] at hr
    split at hr
    · -- no memory for the overlay
      subst hr
      exact ⟨h.skips (fun _ _ => id) fun ha => absurd (harena.symm.trans ha) (by decide), .refl _,
        .refl _⟩
    · next rt1 hens =>
      obtain ⟨⟨ids'', h1⟩, hov, overlay, rfl⟩ := h.shapeOverlayEnsure hens
      subst hr
      refine ⟨h1.push_over hsh hhash hov harena (hreq harena) _, ?_, ?_⟩
      · exact { Relinked.setNext hsh _ with }
      · exact { SameBase.setShape hreq _ with }
  · have harena' : rt.isArena = false := by simpa using harena
    simp only [harena', Bool.false_and, Bool.false_eq_true, if_false] at hr
    subst hr
    refine ⟨h.push_base hsh hhash harena' _, ?_, ?_⟩
    · exact { Relinked.setNext hsh _ with }
    · exact .of_not_arena harena' rfl rfl

/-! ## Unlinking -/

/-- The walks have enough fuel. -/
theorem Chains.length_lt {heads : List Nat} {ids : Nat → List Nat} {bucket : Nat → Option Nat}
    (hidx : HashIndex rt.nextOf bucket heads ids) (hnode : ∀ {n}, Chained heads ids n → rt.Hashed n)
    {b : Nat} (hb : b < heads.length) : (ids b).length < rt.walkFuel := by
  have hnd := (hidx.chain (List.getElem?_eq_getElem hb)).nodup
  have := length_le_of_interval hnd (a := 0) (n := rt.shapes.length) fun n hn => by
    obtain ⟨sh, hsh, -⟩ := hnode ⟨b, hb, hn⟩
    exact ⟨Nat.zero_le _, Runtime.shape_lt hsh⟩
  exact Nat.lt_succ_of_le this

/-- The state after the shape before `n` took over its link; before the first one there is none. -/
def Runtime.bypass (rt : Runtime V) (prev next : Nat) : Runtime V :=
  if prev = 0 then rt else rt.modShape prev fun s => { s with shapeHashNext := next }

theorem Runtime.shape_bypass (prev next m : Nat) : (rt.bypass prev next).shape m =
    if prev ≠ 0 ∧ m = prev then (rt.shape m).map fun s => { s with shapeHashNext := next }
    else rt.shape m := by
  unfold Runtime.bypass
  split
  · next h0 => rw [if_neg fun h => h.1 h0]
  · next h0 =>
    rw [Runtime.shape_modShape]
    simp [h0]

theorem Relinked.bypass (rt : Runtime V) (prev next : Nat) : Relinked rt (rt.bypass prev next) := by
  unfold Runtime.bypass
  split
  · exact .refl rt
  · refine ⟨fun m => ?_, List.length_set, rfl, rfl, rfl, rfl, rfl⟩
    rw [Runtime.shape_modShape]
    split
    · cases rt.shape m <;> rfl
    · rfl

theorem Runtime.bypass_tables (rt : Runtime V) (prev next : Nat) :
    (rt.bypass prev next).shapeHash = rt.shapeHash ∧
    (rt.bypass prev next).shapeHashBits = rt.shapeHashBits ∧
    (rt.bypass prev next).overlay = rt.overlay := by
  unfold Runtime.bypass
  split <;> exact ⟨rfl, rfl, rfl⟩

/-- The links after a bypass. -/
theorem Runtime.nextOf_bypass (prev next m : Nat) (hm : m ≠ prev) :
    (rt.bypass prev next).nextOf m = rt.nextOf m := by
  rw [Runtime.nextOf, shape_bypass, if_neg fun h => hm h.2, Runtime.nextOf]

theorem Runtime.nextOf_bypass_self {prev : Nat} (hp : prev ≠ 0) (hsh : rt.shape prev = some sh)
    (next : Nat) : (rt.bypass prev next).nextOf prev = some next := by
  rw [Runtime.nextOf, shape_bypass, if_pos ⟨hp, rfl⟩, hsh]
  rfl

/-- Taking a shape off a chain, by the link of the shape before it or by the head. -/
theorem bypassShape_index {heads : List Nat} {f : UInt32 → Nat}
    (hidx : HashIndex rt.nextOf (fun m => (rt.shape m).map fun s => f s.hash) heads ids)
    (hnode : ∀ {m}, Chained heads ids m → rt.Hashed m) (hsh : rt.shape n = some sh)
    {b prev head : Nat}
    (hb : heads[b]? = some head) (hn : n ∈ ids b)
    (hprev : prev = 0 ∧ head = n ∨ prev ≠ 0 ∧ ∃ l1 l2, ids b = l1 ++ prev :: n :: l2) :
    HashIndex (rt.bypass prev sh.shapeHashNext).nextOf
        (fun m => ((rt.bypass prev sh.shapeHashNext).shape m).map fun s => f s.hash)
        (if prev = 0 then heads.set b sh.shapeHashNext else heads) (HashIndex.erased ids b n) ∧
      (prev ≠ 0 → Chained heads ids prev) ∧
      (if prev = 0 then heads.set b sh.shapeHashNext else heads).length = heads.length ∧
      ∀ {m}, Chained (if prev = 0 then heads.set b sh.shapeHashNext else heads)
        (HashIndex.erased ids b n) m ↔ m ≠ n ∧ Chained heads ids m := by
  obtain ⟨hlt, -⟩ := List.getElem?_eq_some_iff.1 hb
  have hpmem : prev ≠ 0 → Chained heads ids prev := fun h0 => by
    obtain ⟨-, l1, l2, hl⟩ := hprev.resolve_left fun h => h0 h.1
    exact ⟨b, hlt, by rw [hl]; simp⟩
  have hlen : (if prev = 0 then heads.set b sh.shapeHashNext else heads).length = heads.length := by
    split <;> simp
  refine ⟨?_, hpmem, hlen, fun {m} => ?_⟩
  · have hunlink := hidx.unlink (rt.bypass prev sh.shapeHashNext).nextOf hb hn
      (by rw [Runtime.nextOf, hsh, Option.map_some]) hprev (fun h0 => ?_)
      fun m hm => Runtime.nextOf_bypass _ _ _ hm
    · exact hunlink.congr (fun _ _ => rfl) fun m _ => (Relinked.bypass rt prev _).bucket f m
    · obtain ⟨sp, hsp, -⟩ := hnode (hpmem h0)
      exact Runtime.nextOf_bypass_self h0 hsp _
  · rw [← hidx.mem_erased hlt hn, HashIndex.Mem, hlen]
    rfl

/-- Taking a shape of the request off its chain. -/
theorem Chains.erase_over (h : Chains rt ids ids' fun _ => False) (hsh : rt.shape n = some sh)
    {b prev head : Nat} (hb : rt.overlay[b]? = some head) (hn : n ∈ ids' b)
    (hprev : prev = 0 ∧ head = n ∨ prev ≠ 0 ∧ ∃ l1 l2, ids' b = l1 ++ prev :: n :: l2)
    (count : Nat) :
    Chains { rt.bypass prev sh.shapeHashNext with
      overlay := if prev = 0 then rt.overlay.set b sh.shapeHashNext else rt.overlay
      overlayCount := count } ids (HashIndex.erased ids' b n) (· = n) := by
  obtain ⟨hidx, hpmem, hlen, herased⟩ := bypassShape_index
    (f := fun v => overlayBucket v rt.overlay.length) h.overIdx (fun hm => (h.overNode hm).1)
      hsh hb hn hprev
  obtain ⟨hheads, hbits, -⟩ := Runtime.bypass_tables rt prev sh.shapeHashNext
  obtain ⟨-, -, harena, hreq⟩ := h.overNode ⟨b, (List.getElem?_eq_some_iff.1 hb).1, hn⟩
  refine h.relink_over { Relinked.bypass rt prev sh.shapeHashNext with } harena hheads hbits
    (fun m hm => ⟨Runtime.nextOf_bypass _ _ _ fun he => ?_, ?_⟩) ?_ (fun {m} hm => ?_) ?_
  · -- shapes of the snapshot are not on these chains
    by_cases h0 : prev = 0
    · exact h.base.ne_zero hm (he.trans h0)
    · have h1 := (h.overNode (hpmem h0)).2.2.2
      have h2 := (h.baseNode hm).2.2 harena
      omega
  · rintro rfl
    have := (h.baseNode hm).2.2 harena
    omega
  · refine hidx.congr (fun _ _ => rfl) fun m _ => ?_
    simp only [Runtime.overBucket, hlen]
    rfl
  · obtain ⟨hne, hm⟩ := herased.1 hm
    obtain ⟨hh, -, -, hb⟩ := h.overNode hm
    exact ⟨hh, hne, hb⟩
  · exact hlen.trans (h.overlay.resolve_left fun hnil => by simp [hnil] at hb)

/-- Taking a shape off its chain before the freeze. -/
theorem Chains.erase_base (h : Chains rt ids ids' fun _ => False) (hsh : rt.shape n = some sh)
    (harena : rt.isArena = false) {b prev head : Nat} (hb : rt.shapeHash[b]? = some head)
    (hn : n ∈ ids b)
    (hprev : prev = 0 ∧ head = n ∨ prev ≠ 0 ∧ ∃ l1 l2, ids b = l1 ++ prev :: n :: l2)
    (count : Nat) :
    Chains { rt.bypass prev sh.shapeHashNext with
      shapeHash := if prev = 0 then rt.shapeHash.set b sh.shapeHashNext else rt.shapeHash
      shapeHashCount := count } (HashIndex.erased ids b n) ids' (· = n) := by
  obtain ⟨hidx, -, hlen, herased⟩ := bypassShape_index
    (f := fun v => getShapeHash v rt.shapeHashBits) h.base (fun hm => (h.baseNode hm).1)
      hsh hb hn hprev
  obtain ⟨-, hbits, hover⟩ := Runtime.bypass_tables rt prev sh.shapeHashNext
  refine h.relink_base { Relinked.bypass rt prev sh.shapeHashNext with } harena hover ?_
    (fun {m} => ?_) (by simpa only [hlen, hbits] using h.size)
  · refine hidx.congr (fun _ _ => rfl) fun m _ => ?_
    simp only [Runtime.baseBucket, hbits]
    rfl
  · rw [herased, h.mem_iff harena]
    exact ⟨fun ⟨hne, hm, _⟩ => ⟨hm, hne⟩, fun ⟨hm, hne⟩ => ⟨hne, hm, id⟩⟩

theorem Chains.base_head (h : Chains rt ids ids' skip) (v : UInt32) :
    rt.shapeHash[getShapeHash v rt.shapeHashBits]? =
      some (rt.shapeHash.getD (getShapeHash v rt.shapeHashBits) 0) :=
  head_of_lt (by rw [h.size]; exact getShapeHash_lt ..)

/-- A shape is only on the chain of its hash. -/
theorem Chains.mem_over (h : Chains rt ids ids' skip) (hov : rt.overlay ≠ [])
    (hsh : rt.shape n = some sh) (hm : Chained rt.overlay ids' n) :
    n ∈ ids' (overlayBucket sh.hash rt.overlay.length) := by
  have := h.overIdx.mem_bucket hm (show rt.overBucket n =
    some (overlayBucket sh.hash rt.overlay.length) by rw [Runtime.overBucket, hsh, Option.map_some])
  rwa [Nat.mod_eq_of_lt (overlayBucket_lt _ (List.length_pos_iff.2 hov))] at this

theorem Chains.mem_base (h : Chains rt ids ids' skip) (hsh : rt.shape n = some sh)
    (hm : Chained rt.shapeHash ids n) : n ∈ ids (getShapeHash sh.hash rt.shapeHashBits) := by
  have := h.base.mem_bucket hm (show rt.baseBucket n =
    some (getShapeHash sh.hash rt.shapeHashBits) by rw [Runtime.baseBucket, hsh, Option.map_some])
  rwa [Nat.mod_eq_of_lt (by rw [h.size]; exact getShapeHash_lt ..)] at this

section
variable (h : Chains rt ids ids' fun _ => False) (hsh : rt.shape n = some sh)
include h hsh

/-- `js_shape_hash_unlink` in a request that has its overlay. -/
theorem Chains.shapeHashUnlink_over
    (harena : rt.isArena = true) (hreq : rt.baseShapes ≤ n)
    (hov : rt.overlay ≠ []) : ∃ rt', rt.shapeHashUnlink n = some rt' ∧
      Good rt' (· = n) ∧ Relinked rt rt' ∧ SameBase rt rt' := by
  have hbase : rt.ptrIsBase n = false := by simp [Runtime.ptrIsBase, harena]; omega
  have hb := overlayBucket_lt sh.hash (List.length_pos_iff.2 hov)
  have hhead := head_of_lt hb
  have hfuel := Chains.length_lt h.overIdx (fun hm => (h.overNode hm).1) hb
  rw [Runtime.shapeHashUnlink, hsh, Option.bind_some, if_neg (by simp [hbase]),
    if_pos (by simp [harena, hov])]
  by_cases hm : Chained rt.overlay ids' n
  · have hn := h.mem_over hov hsh hm
    obtain ⟨prev, hfind, hprev⟩ := h.overIdx.findPrev (· == n) hhead hn (by simp)
      (fun j _ hj => by simpa using hj) hfuel
    have hn0 : n ≠ 0 := h.ne_zero hsh
    have herase := h.erase_over hsh hhead hn hprev (rt.overlayCount - 1)
    have hsame : SameBase rt (rt.bypass prev sh.shapeHashNext) := by
      unfold Runtime.bypass
      split
      · exact .refl rt
      · next h0 =>
        refine .setShape (fun _ => ?_) _
        obtain ⟨-, l1, l2, hl⟩ := hprev.resolve_left fun h => h0 h.1
        exact (h.overNode (n := prev) ⟨_, hb, by rw [hl]; simp⟩).2.2.2
    refine ⟨{ rt.bypass prev sh.shapeHashNext with
      overlay := if prev = 0 then rt.overlay.set (overlayBucket sh.hash rt.overlay.length)
        sh.shapeHashNext else rt.overlay
      overlayCount := rt.overlayCount - 1 }, ?_, ⟨_, _, herase⟩,
      { Relinked.bypass rt prev sh.shapeHashNext with }, { hsame with }⟩
    simp only [hfind, Option.map_some, if_neg hn0, Runtime.bypass]
    split <;> rfl
  · -- it was never linked
    obtain ⟨prev, hfind⟩ := chainFindPrev_absent (h.overIdx.chain hhead) (· == n)
      (fun m hml => Bool.eq_false_iff.2 fun he =>
        hm ⟨_, hb, by simpa using (by simpa using he : m = n) ▸ hml⟩)
      hfuel 0
    refine ⟨rt, by simp only [hfind, Option.map_some, if_true],
      h.skips (fun m hmm => ?_) fun _ _ _ _ => id, .refl rt, .refl rt⟩
    rintro rfl
    rcases hmm with hmb | hmo
    · have := (h.baseNode hmb).2.2 harena
      omega
    · exact hm hmo

/-- `js_shape_hash_unlink` before the freeze. -/
theorem Chains.shapeHashUnlink_base
    (hh : sh.isHashed = true) (harena : rt.isArena = false) :
    ∃ rt', rt.shapeHashUnlink n = some rt' ∧
      Good rt' (· = n) ∧ Relinked rt rt' ∧ SameBase rt rt' := by
  have hbase : rt.ptrIsBase n = false := by simp [Runtime.ptrIsBase, harena]
  have hhead := h.base_head sh.hash
  have hb := (List.getElem?_eq_some_iff.1 hhead).1
  have hfuel := Chains.length_lt h.base (fun hm => (h.baseNode hm).1) hb
  have hn := h.mem_base hsh (h.complete harena ⟨sh, hsh, hh⟩ id)
  obtain ⟨prev, hfind, hprev⟩ := h.base.findPrev (· == n) hhead hn (by simp)
    (fun j _ hj => by simpa using hj) hfuel
  have hn0 : n ≠ 0 := h.ne_zero hsh
  have herase := h.erase_base hsh harena hhead hn hprev (rt.shapeHashCount - 1)
  rw [Runtime.shapeHashUnlink, hsh, Option.bind_some, if_neg (by simp [hbase]),
    if_neg (by simp [harena])]
  refine ⟨{ rt.bypass prev sh.shapeHashNext with
      shapeHash := if prev = 0 then rt.shapeHash.set (getShapeHash sh.hash rt.shapeHashBits)
        sh.shapeHashNext else rt.shapeHash
      shapeHashCount := rt.shapeHashCount - 1 }, ?_, ⟨_, _, herase⟩,
      { Relinked.bypass rt prev sh.shapeHashNext with }, ?_⟩
  · simp only [hfind, Option.bind_some, if_neg hn0, Runtime.bypass,
      if_neg (show ¬ rt.isArena = true by simp [harena])]
    split <;> rfl
  · have hrel := Relinked.bypass rt prev sh.shapeHashNext
    exact .of_not_arena harena hrel.isArena hrel.baseShapes

/-- Without an overlay `js_shape_hash_unlink` looks for a shape of the request where it is not. -/
theorem Chains.shapeHashUnlink_none
    (harena : rt.isArena = true) (hreq : rt.baseShapes ≤ n)
    (hov : rt.overlay = []) : rt.shapeHashUnlink n = none := by
  have hbase : rt.ptrIsBase n = false := by simp [Runtime.ptrIsBase, harena]; omega
  have hhead := h.base_head sh.hash
  have hb := (List.getElem?_eq_some_iff.1 hhead).1
  obtain ⟨prev, hfind⟩ := chainFindPrev_absent (h.base.chain hhead) (· == n)
    (fun m hm => Bool.eq_false_iff.2 fun he => by
      have := (h.baseNode ⟨_, hb, hm⟩).2.2 harena
      have hmn : m = n := by simpa using he
      omega) (Chains.length_lt h.base (fun hm => (h.baseNode hm).1) hb) 0
  rw [Runtime.shapeHashUnlink, hsh, Option.bind_some, if_neg (by simp [hbase]),
    if_neg (by simp [hov])]
  simp only [hfind, Option.bind_some, if_true]

end

/-- `js_shape_hash_unlink` of a hashed shape, when it returns. -/
theorem Good.shapeHashUnlink (h : Good rt fun _ => False) (hh : rt.Hashed n)
    (hreq : rt.isArena = true → rt.baseShapes ≤ n) (hr : rt.shapeHashUnlink n = some rt') :
    Good rt' (· = n) ∧ Relinked rt rt' ∧ SameBase rt rt' := by
  obtain ⟨ids, ids', h⟩ := h
  obtain ⟨sh, hsh, hhash⟩ := hh
  cases harena : rt.isArena with
  | true =>
    by_cases hov : rt.overlay = []
    · rw [h.shapeHashUnlink_none hsh harena (hreq harena) hov] at hr
      cases hr
    · obtain ⟨rt1, hr1, hpost⟩ := h.shapeHashUnlink_over hsh harena (hreq harena) hov
      exact Option.some.inj (hr1.symm.trans hr) ▸ hpost
  | false =>
    obtain ⟨rt1, hr1, hpost⟩ := h.shapeHashUnlink_base hsh hhash harena
    exact Option.some.inj (hr1.symm.trans hr) ▸ hpost

/-! ## The growth of `shape_hash` -/

theorem Relinked.trans (h : Relinked rt rt') (h' : Relinked rt' rt'') : Relinked rt rt'' :=
  ⟨fun n => (h'.shape n).trans (h.shape n), h'.length.trans h.length, h'.objects.trans h.objects,
    h'.ctxShapes.trans h.ctxShapes, h'.isArena.trans h.isArena, h'.baseShapes.trans h.baseShapes,
    h'.baseObjects.trans h.baseObjects⟩

/-- Moving a shape to the new heads. -/
theorem moveChain_rehash (rt : Runtime V) (bits : Nat) :
    Rehash Runtime.shape JSShape.shapeHashNext (fun sh => getShapeHash sh.hash bits) (fun _ => True)
      (fun rt' : Runtime V => Relinked rt rt' ∧ rt' = { rt with shapes := rt'.shapes }) (2 ^ bits)
      fun new rt => rt.moveChain bits new where
  done _ _ _ := rfl
  step {new rt' i sh} hrt hi hsh _ hsize := by
    have hlt := getShapeHash_lt sh.hash bits
    rw [Nat.mod_eq_of_lt hlt]
    refine ⟨rt'.setShape i (some { sh with
      shapeHashNext := new.getD (getShapeHash sh.hash bits) 0 }), _, ?_,
      ⟨hrt.1.trans (.setNext hsh _), ?_⟩, Runtime.shape_setShape_self hsh _, rfl,
      fun j hj => Runtime.shape_setShape_ne hj _, fun fuel => ?_⟩
    · exact head_of_lt (by rwa [hsize])
    · rw [hrt.2]
      rfl
    · rw [Runtime.moveChain, if_neg hi, hsh]
      rfl

/-- `resize_shape_hash`, which runs before the freeze. -/
theorem Good.resizeShapeHash (h : Good rt fun _ => False) (harena : rt.isArena = false) (bits : Nat)
    (granted : Bool) : ∃ rt', rt.resizeShapeHash bits granted = some rt' ∧
      Good rt' (fun _ => False) ∧ Relinked rt rt' ∧ SameBase rt rt' := by
  obtain ⟨ids, ids', h⟩ := h
  unfold Runtime.resizeShapeHash
  split
  · exact ⟨rt, rfl, ⟨ids, ids', h⟩, .refl rt, .refl rt⟩
  obtain ⟨new, rt', ids'', hr, ⟨hrel, hframe⟩, hlen, hidx, hmem⟩ :=
    (moveChain_rehash rt bits).index (fun new rt => rt.moveChains bits new)
      (fun _ _ => rfl) (fun _ _ _ _ => rfl) ⟨.refl rt, rfl⟩ h.base
      (fun n hn => by
        obtain ⟨⟨sh, hsh, -⟩, -⟩ := h.baseNode hn
        exact ⟨sh, hsh, trivial⟩)
      fun rt' hrt' b hb => by
        rw [Runtime.walkFuel, hrt'.1.length]
        exact Chains.length_lt h.base (fun hm => (h.baseNode hm).1) hb
  refine ⟨{ rt' with shapeHash := new, shapeHashBits := bits }, by rw [hr]; rfl, ⟨ids'', ids', ?_⟩,
    { hrel with }, .of_not_arena harena hrel.isArena hrel.baseShapes⟩
  refine h.relink_base { hrel with } harena (show rt'.overlay = rt.overlay by rw [hframe]) hidx
    (fun {n} => ?_) hlen
  rw [hmem, h.mem_iff harena]

end

end ArenaJs.Shapes
