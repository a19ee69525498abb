import ArenaJs.Shapes.Chains
import ArenaJs.Lib.Yields

/-!
# Every operation keeps the tables of shapes

One lemma for each function of the model: if it returns, the tables are in order again and the
snapshot's shapes and chains are as they were. The functions that change a shape take it off its
chain first, so between the two the invariant leaves that shape out. A shape that is written is
never one of the snapshot, because each of them is reached through a copy (`Keep.unshare`,
`Keep.shapePrepareUpdate`).
-/

namespace ArenaJs.Shapes

variable {V : Type}

/-- The shape is not one of the snapshot. -/
def Runtime.Own (rt : Runtime V) (n : Nat) : Prop := rt.isArena = true → rt.baseShapes ≤ n

/-- The tables are in order, and the snapshot is as before. -/
structure Keep (rt rt' : Runtime V) : Prop where
  good : Good rt' fun _ => False
  base : SameBase rt rt'

/-- The tables are in order but for the shape `n`, which is on no chain. -/
structure KeepOff (rt rt' : Runtime V) (n : Nat) : Prop where
  good : Good rt' (· = n)
  base : SameBase rt rt'
  own : rt'.Own n
  live : ∃ sh, rt'.shape n = some sh

/-- If the call returns, the tables are in order, and the snapshot is as before. -/
def Keeps {α : Type} (rt : Runtime V) (x : Option (α × Runtime V)) : Prop :=
  Yields x (fun r => Keep rt r.2) True

section
variable {rt0 rt rt' : Runtime V} {skip : Nat → Prop} {n m p : Nat} {sh sh' : JSShape} {a : Allocs}

theorem Keep.refl (h : Good rt fun _ => False) : Keep rt rt := ⟨h, .refl rt⟩

theorem SameBase.own_iff (h : SameBase rt rt') : rt'.Own n ↔ rt.Own n := by
  rw [Runtime.Own, h.isArena, h.baseShapes, Runtime.Own]

/-- That a shape is not one of the snapshot does not change. -/
theorem KeepOff.own_of (h : KeepOff rt0 rt n) (h' : Keep rt0 rt') : rt'.Own n :=
  h'.base.own_iff.2 (h.base.own_iff.1 h.own)

theorem Runtime.own_of_not_base (h : ¬ rt.ptrIsBase n = true) : rt.Own n := by
  intro ha
  simpa [Runtime.ptrIsBase, ha] using h

theorem Good.own_length (h : Good rt skip) : rt.Own rt.shapes.length := by
  obtain ⟨ids, ids', h⟩ := h
  exact fun ha => (h.bound ha).1

/-! ## Writes -/

theorem SameBase.modObject (p : Nat) (f : JSObject V → JSObject V) :
    SameBase rt (rt.modObject p f) :=
  ⟨fun _ => rfl, fun _ _ _ => rfl, rfl, rfl⟩

theorem SameBase.modShape (hn : rt.Own n) (f : JSShape → JSShape) : SameBase rt (rt.modShape n f) :=
  .setShape hn _

theorem SameBase.alloc (h : rt.Own rt.shapes.length) (sh : JSShape) :
    SameBase rt (rt.allocShape sh).2 := by
  refine ⟨fun _ => rfl, fun ha m hm => ?_, rfl, rfl⟩
  rw [Runtime.allocShape, List.getElem?_append_left (Nat.lt_of_lt_of_le hm (h ha))]

/-- A shape at a new address was freed and made again. -/
theorem Runtime.moveShape_true (n : Nat) (sh : JSShape) :
    rt.moveShape n sh true = (rt.setShape n none).allocShape sh := by
  simp [Runtime.moveShape, Runtime.allocShape, Runtime.setShape]

theorem Keep.modObject (h : Keep rt0 rt) (p : Nat) (f : JSObject V → JSObject V) :
    Keep rt0 (rt.modObject p f) := ⟨h.good.modObject p f, h.base.trans (.modObject p f)⟩

/-- Writing fields of a shape that the tables do not depend on. -/
theorem Keep.modShape (h : Keep rt0 rt) (hn : rt.Own n) {f : JSShape → JSShape}
    (hf : ∀ sh, (f sh).shapeHashNext = sh.shapeHashNext ∧ (f sh).hash = sh.hash ∧
      (f sh).isHashed = sh.isHashed) : Keep rt0 (rt.modShape n f) :=
  ⟨h.good.modShape_keep n hf, h.base.trans (.modShape hn f)⟩

/-- `js_dup_shape`. -/
theorem Keep.dupShape (h : Keep rt0 rt) (n : Nat) : Keep rt0 (rt.dupShape n) := by
  unfold Runtime.dupShape
  split
  · exact h
  · next hb => exact h.modShape (Runtime.own_of_not_base hb) fun _ => ⟨rfl, rfl, rfl⟩

/-! ## A shape off its chain -/

theorem Runtime.hashed_modShape (hsh : rt.shape n = some sh) {f : JSShape → JSShape}
    (hf : (f sh).isHashed = true) : (rt.modShape n f).Hashed n :=
  ⟨f sh, by rw [Runtime.shape_modShape, if_pos rfl, hsh, Option.map_some], hf⟩

theorem Runtime.not_hashed (hsh : rt.shape n = some sh) (hh : ¬ sh.isHashed = true) :
    ¬ rt.Hashed n := by
  rintro ⟨sh', hsh', hh'⟩
  exact hh (Option.some.inj (hsh.symm.trans hsh') ▸ hh')

theorem Runtime.shape_alloc_self (rt : Runtime V) (sh : JSShape) :
    (rt.allocShape sh).2.shape rt.shapes.length = some sh := by
  rw [Runtime.shape_alloc, if_pos rfl]

theorem Runtime.shape_moveShape (hsh : rt.shape n = some sh') (sh : JSShape) (moved : Bool) :
    (rt.moveShape n sh moved).2.shape (rt.moveShape n sh moved).1 = some sh := by
  cases moved with
  | true =>
    rw [Runtime.moveShape_true]
    exact Runtime.shape_alloc_self _ sh
  | false => exact Runtime.shape_setShape_self hsh _

theorem KeepOff.alloc (h : Keep rt0 rt) (sh : JSShape) :
    KeepOff rt0 (rt.allocShape sh).2 rt.shapes.length := by
  have hb := SameBase.alloc h.good.own_length sh
  exact ⟨h.good.alloc sh, h.base.trans hb, hb.own_iff.2 h.good.own_length, sh,
    rt.shape_alloc_self sh⟩

section
variable (h : KeepOff rt0 rt n)
include h

theorem KeepOff.done (hn : ¬ rt.Hashed n) : Keep rt0 rt := ⟨h.good.done hn, h.base⟩

theorem KeepOff.free : Keep rt0 (rt.setShape n none) := by
  obtain ⟨sh, hsh⟩ := h.live
  refine ⟨(h.good.setShape_off (h.good.ne_zero hsh) none).done ?_,
    h.base.trans (.setShape h.own none)⟩
  rintro ⟨sh', hsh', -⟩
  rw [Runtime.shape_setShape_self hsh] at hsh'
  cases hsh'

theorem KeepOff.setShape (sh : JSShape) : KeepOff rt0 (rt.setShape n (some sh)) n := by
  obtain ⟨sh', hsh⟩ := h.live
  have hb := SameBase.setShape h.own (some sh)
  exact ⟨h.good.setShape_off (h.good.ne_zero hsh) _, h.base.trans hb, hb.own_iff.2 h.own, sh,
    Runtime.shape_setShape_self hsh _⟩

theorem KeepOff.modShape (f : JSShape → JSShape) : KeepOff rt0 (rt.modShape n f) n := by
  obtain ⟨sh, hsh⟩ := h.live
  rw [Runtime.modShape, hsh]
  exact h.setShape (f sh)

theorem KeepOff.moveShape (sh : JSShape) (moved : Bool) :
    KeepOff rt0 (rt.moveShape n sh moved).2 (rt.moveShape n sh moved).1 := by
  cases moved with
  | true =>
    rw [Runtime.moveShape_true]
    exact .alloc h.free sh
  | false => exact h.setShape sh

theorem KeepOff.modObject (p : Nat) (f : JSObject V → JSObject V) :
    KeepOff rt0 (rt.modObject p f) n :=
  ⟨h.good.modObject p f, h.base.trans (.modObject p f), h.own, h.live⟩

/-- `js_shape_hash_link`. -/
theorem KeepOff.shapeHashLink (hh : rt.Hashed n) (granted : Bool) :
    Yields (rt.shapeHashLink n granted) (Keep rt0) True := by
  refine (Yields.read _).mono (fun r hr => ?_) id
  obtain ⟨hg, -, hb⟩ := h.good.shapeHashLink hh h.own hr
  exact ⟨hg, h.base.trans hb⟩

/-- The shape goes back on its chain, if it is hashed. -/
theorem KeepOff.linkHashed (hsh : rt.shape n = some sh) (granted : Bool) :
    Yields (if sh.isHashed then rt.shapeHashLink n granted else some rt) (Keep rt0) True := by
  split
  · next hh => exact h.shapeHashLink ⟨sh, hsh, hh⟩ granted
  · next hh => exact .ret (h.done (Runtime.not_hashed hsh hh))

end

section
variable (h : Keep rt0 rt)
include h

/-- A shape that is not hashed is on no chain. -/
theorem Keep.off (hsh : rt.shape n = some sh) (hh : ¬ sh.isHashed = true) (hn : rt.Own n) :
    KeepOff rt0 rt n :=
  ⟨h.good.off_of_not_hashed (Runtime.not_hashed hsh hh), h.base, hn, sh, hsh⟩

/-- `js_shape_hash_unlink` of a shape, if it is hashed. -/
theorem Keep.unlinkHashed (hsh : rt.shape n = some sh) (hn : rt.Own n) :
    Yields (if sh.isHashed then rt.shapeHashUnlink n else some rt)
      (fun r => KeepOff rt0 r n ∧ Relinked rt r) True := by
  split
  · next hh =>
    refine (Yields.read _).mono (fun r hr => ?_) id
    obtain ⟨hg, hrel, hb⟩ := h.good.shapeHashUnlink ⟨sh, hsh, hh⟩ hn hr
    obtain ⟨next, hsh'⟩ := hrel.shape_some hsh
    exact ⟨⟨hg, h.base.trans hb, hb.own_iff.2 hn, _, hsh'⟩, hrel⟩
  · next hh => exact .ret ⟨h.off hsh hh hn, .refl rt⟩

/-! ## Making and freeing shapes -/

/-- `js_new_shape2`. -/
theorem Keep.newShape2 (proto hashSize propSize : Nat) (a : Allocs) :
    Yields (rt.newShape2 proto hashSize propSize a)
      (fun r => Keep rt0 r.2 ∧ (r.1 ≠ 0 → r.2.Own r.1)) True := by
  unfold Runtime.newShape2
  refine Yields.bind (Q := Keep rt0) ?_ fun rt1 h1 => ?_
  · split
    · next hc =>
      obtain ⟨rt1, hr, hg, -, hb⟩ := h.good.resizeShapeHash (by simp at hc; exact hc.1)
        (rt.shapeHashBits + 1) a.hash
      exact yields_of_eq hr ⟨hg, h.base.trans hb⟩
    · exact .ret h
  unfold Runtime.newShapeNohash
  split
  · exact .ret ⟨h1, fun h0 => absurd rfl h0⟩
  · next n rt2 hc =>
    split at hc
    · obtain ⟨rfl, rfl⟩ := Prod.mk.inj (Option.some.inj hc)
      have hoff := KeepOff.alloc h1
        ⟨⟨List.replicate hashSize 0, []⟩, 1, false, 0, propSize, 0, 0, proto⟩
      refine .map
        ((hoff.modShape fun sh => { sh with hash := shapeInitialHash proto, isHashed := true
        }).shapeHashLink (Runtime.hashed_modShape (rt1.shape_alloc_self _) rfl) a.overlay)
        fun rt3 h3 => ⟨h3, fun _ => hoff.own_of h3⟩
    · cases hc

/-- `js_clone_shape`. -/
theorem Keep.cloneShape (n : Nat) (granted : Bool) :
    Yields (rt.cloneShape n granted) (fun r => Keep rt0 r.2 ∧ (r.1 ≠ 0 → KeepOff rt0 r.2 r.1 ∧
      r.1 ≠ n ∧ ∃ sh, r.2.shape r.1 = some sh ∧ sh.isHashed = false)) True := by
  unfold Runtime.cloneShape
  refine .map (.read _) fun sh hsh => ?_
  split
  · have hoff := KeepOff.alloc h { sh with refCount := 1, isHashed := false }
    have hsh' := rt.shape_alloc_self { sh with refCount := 1, isHashed := false }
    exact ⟨hoff.done (Runtime.not_hashed hsh' (by simp)),
      fun _ => ⟨hoff, (Nat.ne_of_lt (Runtime.shape_lt hsh)).symm, _, hsh', rfl⟩⟩
  · exact ⟨h, fun h0 => absurd rfl h0⟩

end

/-- The shapes other than `n` are as before but for their links. -/
def Carries (rt rt' : Runtime V) (n : Nat) : Prop :=
  ∀ m sh, m ≠ n → rt.shape m = some sh → ∃ next, rt'.shape m =
    some { sh with shapeHashNext := next }

theorem Carries.trans {rt'' : Runtime V} (h : Carries rt rt' n) (h' : Carries rt' rt'' n) :
    Carries rt rt'' n := by
  intro m sh hm hsh
  obtain ⟨next, hsh'⟩ := h m sh hm hsh
  obtain ⟨next', hsh''⟩ := h' m _ hm hsh'
  exact ⟨next', hsh''⟩

theorem Relinked.carries (h : Relinked rt rt') (n : Nat) : Carries rt rt' n :=
  fun _ _ _ hsh => h.shape_some hsh

theorem Carries.setShape (n : Nat) (o : Option JSShape) : Carries rt (rt.setShape n o) n :=
  fun _ sh hm hsh => ⟨sh.shapeHashNext, (Runtime.shape_setShape_ne hm o).trans hsh⟩

/-- `js_free_shape0`. -/
theorem Keep.freeShape0 (h : Keep rt0 rt) (hn : rt.Own n) :
    Yields (rt.freeShape0 n) (fun r => Keep rt0 r ∧ Carries rt r n) True := by
  unfold Runtime.freeShape0
  exact .bind (.read _) fun sh hsh => .map (h.unlinkHashed hsh hn) fun rt1 h1 =>
    ⟨h1.1.free, (h1.2.carries n).trans (.setShape n none)⟩

/-- `js_free_shape`. -/
theorem Keep.freeShape (h : Keep rt0 rt) (n : Nat) :
    Yields (rt.freeShape n) (fun r => Keep rt0 r ∧ Carries rt r n) True := by
  unfold Runtime.freeShape
  refine .bind (.read _) fun sh hsh => ?_
  split
  · exact .ret ⟨h, (Relinked.refl rt).carries n⟩
  · next hb =>
    have hn := Runtime.own_of_not_base hb
    have h1 := h.modShape hn (f := fun sh => { sh with refCount := sh.refCount - 1 })
      fun _ => ⟨rfl, rfl, rfl⟩
    simp only
    split
    · exact (h1.freeShape0 hn).mono (fun _ h2 => ⟨h2.1, (Carries.setShape n _).trans h2.2⟩) id
    · exact .ret ⟨h1, .setShape n _⟩

/-! ## Properties -/

section
variable (h : KeepOff rt0 rt n)
include h

/-- The second half of `resize_properties`, which keeps whether the shape is hashed. -/
theorem KeepOff.resizeShape (hsh : rt.shape n = some sh) (newSize : Nat) (a : Allocs) :
    Yields (rt.resizeShape n newSize a) (fun r => (r.1 = 0 → r.2 = rt) ∧ (r.1 ≠ 0 →
      KeepOff rt0 r.2 r.1 ∧ ∃ sh', r.2.shape r.1 = some sh' ∧ sh'.isHashed = sh.isHashed))
        True := by
  unfold Runtime.resizeShape
  rw [hsh, Option.map_some]
  refine .ret ?_
  have hmove : ∀ sh' moved, sh'.isHashed = sh.isHashed →
      KeepOff rt0 (rt.moveShape n sh' moved).2 (rt.moveShape n sh' moved).1 ∧
        ∃ sh1, (rt.moveShape n sh' moved).2.shape (rt.moveShape n sh' moved).1 = some sh1 ∧
          sh1.isHashed = sh.isHashed := fun sh' moved he =>
    ⟨h.moveShape sh' moved, sh', Runtime.shape_moveShape hsh sh' moved, he⟩
  have hne : ∀ sh' moved, (rt.moveShape n sh' moved).1 ≠ 0 := fun sh' moved =>
    (h.moveShape sh' moved).good.ne_zero (Runtime.shape_moveShape hsh sh' moved)
  simp only
  split_ifs
  · exact ⟨fun _ => rfl, fun h0 => absurd rfl h0⟩
  · exact ⟨fun h0 => absurd h0 (hne _ _), fun _ => hmove _ _ rfl⟩
  · exact ⟨fun h0 => absurd h0 (hne _ _), fun _ => hmove _ _ rfl⟩

/-- `resize_properties`. -/
theorem KeepOff.resizeProperties (hsh : rt.shape n = some sh) (p : Option Nat) (count : Nat)
    (a : Allocs) : Yields (rt.resizeProperties n p count a)
      (fun r => (r.1 = 0 → KeepOff rt0 r.2 n ∧ r.2.shape n = some sh) ∧ (r.1 ≠ 0 →
        KeepOff rt0 r.2 r.1 ∧ ∃ sh', r.2.shape r.1 = some sh' ∧ sh'.isHashed = sh.isHashed))
          True := by
  unfold Runtime.resizeProperties
  rw [hsh, Option.bind_some]
  cases p with
  | none =>
    refine (h.resizeShape hsh _ a).mono (fun r hr => ⟨fun h0 => ?_, hr.2⟩) id
    rw [hr.1 h0]
    exact ⟨h, hsh⟩
  | some p =>
    simp only
    split
    · exact .ret ⟨fun _ => ⟨h, hsh⟩, fun h0 => absurd rfl h0⟩
    · refine .map ((h.modObject p _).resizeShape hsh _ a) fun r hr => ⟨fun h0 => ?_, fun h0 => ?_⟩
      · simp only at h0 ⊢
        rw [if_pos h0, hr.1 h0]
        exact ⟨h.modObject p _, hsh⟩
      · simp only at h0 ⊢
        rw [if_neg h0]
        obtain ⟨hoff, sh', hsh', he⟩ := hr.2 h0
        exact ⟨hoff.modObject p _, sh', hsh', he⟩

/-- The end of `add_shape_property`. -/
theorem KeepOff.finishAdd (hash : UInt32) (atom : Nat) (flags : Flags) (a : Allocs) :
    Yields (rt.finishAdd n hash atom flags a)
      (fun r => Keep rt0 r.2 ∧ (r.1 ≠ 0 → r.2.Own r.1)) True := by
  unfold Runtime.finishAdd
  obtain ⟨sh, hsh⟩ := h.live
  rw [hsh, Option.bind_some]
  refine .map (Q := Keep rt0) ?_ fun rt1 h1 => ?_
  · split
    · next hh => exact (h.modShape _).shapeHashLink (Runtime.hashed_modShape hsh hh) _
    · next hh => exact .ret (h.done (Runtime.not_hashed hsh hh))
  · have h2 :=
      h1.modShape (h.own_of h1) (f := fun sh => { sh with toPropTable := sh.add atom flags })
      fun _ => ⟨rfl, rfl, rfl⟩
    exact ⟨h2, fun _ => h.own_of h2⟩

end

/-- `add_shape_property`. -/
theorem Keep.addShapeProperty (h : Keep rt0 rt) (hn : rt.Own n) (p : Option Nat) (atom : Nat)
    (flags : Flags) (a : Allocs) : Yields (rt.addShapeProperty n p atom flags a)
      (fun r => Keep rt0 r.2 ∧ (r.1 ≠ 0 → r.2.Own r.1)) True := by
  unfold Runtime.addShapeProperty
  refine .bind (.read _) fun sh hsh => .bind (h.unlinkHashed hsh hn) fun rt1 h1 => ?_
  obtain ⟨next, hsh1⟩ := h1.2.shape_some hsh
  split
  · refine .bind (h1.1.resizeProperties hsh1 p _ a) fun r hr => ?_
    simp only
    split
    · next h0 =>
      obtain ⟨hoff, hsh2⟩ := hr.1 h0
      exact .map (hoff.linkHashed hsh2 a.overlay) fun rt2 h2 => ⟨h2, fun h0 => absurd rfl h0⟩
    · next h0 => exact (hr.2 h0).1.finishAdd _ atom flags a
  · exact h1.1.finishAdd _ atom flags a

/-! ## The shape of an object -/

theorem Runtime.object_modObject (p : Nat) (f : JSObject V → JSObject V) (q : Nat) :
    (rt.modObject p f).object q = if q = p then (rt.object q).map f else rt.object q := by
  simp only [Runtime.object, Runtime.modObject, List.getElem?_set]
  by_cases hq : p = q
  · subst hq
    by_cases hlt : p < rt.objects.length
    · simp [hlt]
    · simp [hlt]
  · rw [if_neg hq, if_neg fun h => hq h.symm]

/-- The shape of the object, if it is there, is not one of the snapshot. -/
def Runtime.OwnShape (rt : Runtime V) (p : Nat) : Prop :=
  ∀ o, rt.object p = some o → rt.Own o.shape

/-- The shape of the object, if it is there, is its own and not hashed, so that it may be
written. -/
def Runtime.Writable (rt : Runtime V) (p : Nat) : Prop :=
  ∀ o, rt.object p = some o → rt.Own o.shape ∧ ¬ rt.Hashed o.shape

theorem Runtime.shape_setObjShape {o : JSObject V} (h : (rt.setObjShape p n).object p = some o) :
    o.shape = n := by
  rw [Runtime.setObjShape, Runtime.object_modObject, if_pos rfl] at h
  obtain ⟨o', -, rfl⟩ := Option.map_eq_some_iff.1 h
  rfl

section
variable (h : Keep rt0 rt)
include h

/-- The copy of a shared shape. -/
theorem Keep.unshare (p n : Nat) (hashed : Bool) (a : Allocs) :
    Yields (rt.unshare p n hashed a) (fun r => Keep rt0 r.2 ∧ (r.1 = true → r.2.OwnShape p ∧
      (hashed = false → r.2.Writable p))) True := by
  unfold Runtime.unshare
  refine .bind (h.cloneShape n a.block) fun r hr => ?_
  obtain ⟨m, rt1⟩ := r
  simp only at hr ⊢
  split
  · exact .ret ⟨hr.1, fun h0 => by cases h0⟩
  next h0 =>
  obtain ⟨hoff, hne, sh, hsh, hh⟩ := hr.2 h0
  refine .bind (Q := fun rt2 => Keep rt0 rt2 ∧
    (hashed = false → ∃ sh, rt2.shape m = some sh ∧ sh.isHashed = false)) ?_ fun rt2 h2 => ?_
  · split
    · next hc =>
      exact ((hoff.modShape _).shapeHashLink (Runtime.hashed_modShape hsh rfl) _).mono
        (fun rt2 h2 =>
        ⟨h2, fun hf => by simp [hf] at hc⟩) id
    · exact .ret ⟨hr.1, fun _ => ⟨sh, hsh, hh⟩⟩
  · refine .map (h2.1.freeShape n) fun rt3 h3 => ?_
    have hown : rt3.Own m := hoff.own_of h3.1
    refine ⟨h3.1.modObject p _, fun _ => ⟨fun o ho => ?_, fun hf o ho => ?_⟩⟩
    · rw [Runtime.shape_setObjShape ho]
      exact hown
    · obtain ⟨sh', hsh', hh'⟩ := h2.2 hf
      obtain ⟨next, hsh3⟩ := h3.2 m sh' hne hsh'
      rw [Runtime.shape_setObjShape ho]
      exact ⟨hown, show ¬ rt3.Hashed m from Runtime.not_hashed hsh3 (by simp [hh'])⟩

/-- `js_shape_prepare_update`: afterwards the object's shape may be written. -/
theorem Keep.shapePrepareUpdate (p : Nat) (a : Allocs) : Yields (rt.shapePrepareUpdate p a)
    (fun r => Keep rt0 r.2 ∧ (r.1 = true → r.2.Writable p)) True := by
  unfold Runtime.shapePrepareUpdate
  refine .bind (.read _) fun o ho => .bind (.read _) fun sh hsh => ?_
  have hunshare : Yields (rt.unshare p o.shape false a)
      (fun r => Keep rt0 r.2 ∧ (r.1 = true → r.2.Writable p)) True :=
    (h.unshare p o.shape false a).mono (fun r hr => ⟨hr.1, fun h1 => (hr.2 h1).2 rfl⟩) id
  split_ifs with h1 h2 h3
  · exact hunshare
  · exact hunshare
  · -- taken off its chain and no longer hashed
    have hu := h.unlinkHashed hsh (Runtime.own_of_not_base fun hb => h3 (.inr hb))
    rw [if_pos h2] at hu
    refine .map hu fun rt1 h1 => ?_
    obtain ⟨next, hsh1⟩ := h1.2.shape_some hsh
    have hoff := h1.1.modShape fun sh => { sh with isHashed := false }
    have hnot : ¬ (rt1.modShape o.shape fun sh => { sh with isHashed := false }).Hashed
      o.shape := by
      rintro ⟨sh2, hsh2, hh⟩
      rw [Runtime.shape_modShape, if_pos rfl, hsh1] at hsh2
      cases hsh2
      cases hh
    refine ⟨hoff.done hnot, fun _ o' ho' => ?_⟩
    have : rt.object p = some o' := by
      rw [← ho', Runtime.object, Runtime.object, ← h1.2.objects]
      rfl
    cases ho.symm.trans this
    exact ⟨hoff.own, hnot⟩
  · refine .ret ⟨h, fun _ o' ho' => ?_⟩
    cases ho.symm.trans ho'
    exact ⟨Runtime.own_of_not_base (by simpa [h2] using h1), Runtime.not_hashed hsh h2⟩

/-- What follows `js_shape_prepare_update`, without memory and with it. -/
theorem Keep.prepared {α : Type} {f : Bool × Runtime V → Option (α × Runtime V)}
    (hno : ∀ {rt1}, Keep rt0 rt1 → Keeps rt0 (f (false, rt1)))
    (hf : ∀ {rt1}, Keep rt0 rt1 → rt1.Writable p → Keeps rt0 (f (true, rt1))) :
    Keeps rt0 ((rt.shapePrepareUpdate p a).bind f) := by
  refine .bind (h.shapePrepareUpdate p a) fun r hr => ?_
  obtain ⟨_ | _, rt1⟩ := r
  · exact hno hr.1
  · exact hf hr.1 (hr.2 rfl)

end

/-! ## Objects -/

variable {atom : Nat} {flags : Flags} {v : V}

section
variable (h : Keep rt0 rt)
include h

/-- The end of `add_property`. -/
theorem Keep.addOwn (hp : rt.OwnShape p) : Keeps rt0 (rt.addOwn p atom flags v a) := by
  unfold Runtime.addOwn
  refine .bind (.read _) fun o ho => .bind (.read _) fun sh hsh => ?_
  split
  · exact .stuck trivial
  · refine .map (h.addShapeProperty (hp o ho) (some p) atom flags a) fun r hr => ?_
    simp only
    split
    · exact hr.1
    · exact hr.1.modObject p _

/-- `add_property`. -/
theorem Keep.addProperty (p atom : Nat) (flags : Flags) (v : V) (a : Allocs) :
    Keeps rt0 (rt.addProperty p atom flags v a) := by
  unfold Runtime.addProperty
  refine .bind (.read _) fun o ho => .bind (.read _) fun sh hsh => ?_
  have hunshare : ∀ hashed, Keeps rt0 ((rt.unshare p o.shape hashed a).bind fun r =>
      if r.1 then r.2.addOwn p atom flags v a else some (false, r.2)) := by
    refine fun hashed => .bind (h.unshare p o.shape hashed a) fun r hr => ?_
    split
    · next hok => exact hr.1.addOwn (hr.2 hok).1
    · exact .ret hr.1
  have hown : ¬ rt.ptrIsBase o.shape = true → rt.OwnShape p := fun hb o' ho' => by
    cases ho.symm.trans ho'
    exact Runtime.own_of_not_base hb
  split
  · refine .bind (.read _) fun m hm => ?_
    split
    · refine .bind (.read _) fun sh1 hsh1 => ?_
      split
      · exact .ret h
      · have h1 : Keep rt0
          (if sh1.propSize ≠ sh.propSize then rt.resizeProp p sh1.propSize else rt) := by
          split
          · exact h.modObject p _
          · exact h
        exact .map (((h1.dupShape m).modObject p _).freeShape o.shape) fun rt3 h3 =>
          h3.1.modObject p _
    · split
      · exact hunshare true
      · next hc => exact h.addOwn (hown fun hb => hc (.inr hb))
  · split
    · exact hunshare false
    · next hb => exact h.addOwn (hown hb)

/-- `compact_properties`. -/
theorem Keep.compactProperties (hp : rt.OwnShape p) :
    Yields (rt.compactProperties p a) (Keep rt0) True := by
  unfold Runtime.compactProperties
  refine .bind (.read _) fun o ho => .bind (.read _) fun sh hsh => ?_
  simp only
  split_ifs with h1 h2 h3 h4
  · exact .stuck trivial
  · exact .ret h
  · exact .stuck trivial
  all_goals
    have hh : ¬ sh.isHashed = true := fun hh => h1 (.inl hh)
    have hkeep := ((h.off hsh hh (hp o ho)).moveShape _ true).done
      (Runtime.not_hashed (Runtime.shape_moveShape hsh { sh with
        toPropTable := .relink (shrinkHash 32 sh.hashTable.length
            (max propInitialSize (sh.prop.length - sh.deletedPropCount)))
          (sh.prop.filter (·.atom ≠ 0))
        propSize := max propInitialSize (sh.prop.length - sh.deletedPropCount)
        deletedPropCount := 0 } true) hh)
  · exact .ret ((hkeep.modObject p _).modObject p _)
  · exact .ret (hkeep.modObject p _)

/-- The elements of a fast array, added one by one. -/
theorem Keep.addElements (i : Nat) (vs : List V) :
    Yields (rt.addElements p flags a i vs) (Keep rt0) True := by
  induction vs generalizing rt i with
  | nil => exact .ret h
  | cons v vs ih =>
    unfold Runtime.addElements
    refine .bind (h.addProperty p _ flags v a) fun r hr => ?_
    simp only
    split
    · exact ih hr (i + 1)
    · exact .stuck trivial

/-- `convert_fast_array_to_array`. -/
theorem Keep.convertFastArrayToArray (p : Nat) (a : Allocs) :
    Keeps rt0 (rt.convertFastArrayToArray p a) := by
  unfold Runtime.convertFastArrayToArray
  refine .bind (.read _) fun o0 ho0 => h.prepared id fun {rt1} h1 hw => ?_
  refine .bind (.read _) fun o ho => .bind (.read _) fun sh hsh => ?_
  obtain ⟨hown, hnot⟩ := hw o ho
  have hh : ¬ sh.isHashed = true := fun hh => hnot ⟨sh, hsh, hh⟩
  refine .bind (Q := fun r => Keep rt0 r.2) ?_ fun r2 h2 => ?_
  · split
    · refine ((h1.off hsh hh hown).resizeProperties hsh (some p) _ a).mono (fun r2 h2 => ?_) id
      by_cases h0 : r2.1 = 0
      · obtain ⟨hoff2, hsh2⟩ := h2.1 h0
        exact hoff2.done (Runtime.not_hashed hsh2 hh)
      · obtain ⟨hoff2, sh', hsh2, he⟩ := h2.2 h0
        exact hoff2.done (Runtime.not_hashed hsh2 fun hh' => hh (he ▸ hh'))
    · exact .ret h1
  · simp only
    split
    · exact .ret h2
    · exact .map (h2.addElements 0 _) fun rt3 h3 => h3.modObject p _

/-- `delete_property` of a property that is there. -/
theorem Keep.deleteFound (p atom lpr i : Nat) (a : Allocs) :
    Keeps rt0 (rt.deleteFound p atom lpr i a) := by
  refine h.prepared id fun {rt1} h1 hw => ?_
  refine .bind (.read _) fun o ho => .bind (.read _) fun sh hsh => ?_
  obtain ⟨hown, hnot⟩ := hw o ho
  have hset : Keep rt0 (rt1.setShape o.shape (some { sh with
      toPropTable := sh.remove atom lpr i, deletedPropCount := sh.deletedPropCount + 1 })) :=
    ⟨h1.good.setShape_keep hsh rfl rfl rfl, h1.base.trans (.setShape hown _)⟩
  have hslot := hset.modObject p fun o => { o with prop := o.prop.set (i - 1) none }
  refine .map (Q := Keep rt0) ?_ fun rt2 h2 => h2
  split
  · refine hslot.compactProperties fun o' ho' => ?_
    rw [Runtime.object_modObject, if_pos rfl] at ho'
    obtain ⟨o'', ho'', rfl⟩ := Option.map_eq_some_iff.1 ho'
    cases ho.symm.trans ho''
    exact hown
  · exact .ret hslot

/-- The walk of `delete_property`. -/
theorem Keep.deleteOwn (p atom : Nat) (a : Allocs) : Keeps rt0 (rt.deleteOwn p atom a) := by
  unfold Runtime.deleteOwn
  refine .bind (.read _) fun o ho => .bind (.read _) fun sh hsh => .bind (.read _) fun r _ => ?_
  simp only
  split
  · exact .ret h
  · refine .bind (.read _) fun pr _ => ?_
    split
    · exact .ret h
    · exact .map (h.deleteFound p atom r.1 r.2 a) fun r h2 => h2

/-- `delete_property`. -/
theorem Keep.deleteProperty (p atom : Nat) (a : Allocs) :
    Keeps rt0 (rt.deleteProperty p atom a) := by
  unfold Runtime.deleteProperty
  refine .bind (h.deleteOwn p atom a) fun r hr => ?_
  obtain ⟨_ | r, rt1⟩ := r
  · refine .bind (.read _) fun o ho => ?_
    split
    · refine .bind (hr.convertFastArrayToArray p a) fun r h2 => ?_
      obtain ⟨ok, rt2⟩ := r
      cases ok with
      | false => exact .ret h2
      | true => exact .map (h2.deleteOwn p atom a) fun r h3 => h3
    · exact .ret hr
  · exact .ret hr

/-- `js_update_property_flags`. -/
theorem Keep.updatePropertyFlags (p atom : Nat) (flags : Flags) (a : Allocs) :
    Keeps rt0 (rt.updatePropertyFlags p atom flags a) := by
  unfold Runtime.updatePropertyFlags
  refine .bind (.read _) fun o ho => .bind (.read _) fun sh hsh => .bind (.read _) fun i _ => ?_
  split
  · exact .ret h
  · refine .bind (.read _) fun pr _ => ?_
    split
    · exact .ret h
    · exact h.prepared id fun h1 hw => .map (.read _) fun o ho =>
        h1.modShape (hw o ho).1 fun _ => ⟨rfl, rfl, rfl⟩

/-- The change of a prototype. -/
theorem Keep.setPrototype (p proto : Nat) (a : Allocs) : Keeps rt0 (rt.setPrototype p proto a) :=
  h.prepared id fun h1 hw => .map (.read _) fun o ho =>
    h1.modShape (hw o ho).1 fun _ => ⟨rfl, rfl, rfl⟩

theorem Keep.objects (objects : List (Option (JSObject V))) (ctx : List Nat) :
    Keep rt0 { rt with objects := objects, ctxShapes := ctx } :=
  ⟨h.good.objects objects ctx, { h.base with }⟩

/-- `JS_NewObjectFromShape`. -/
theorem Keep.newObjectFromShape (n : Nat) (props : List V) (values : Option (List V))
    (mapped : Bool) (a : Allocs) : Keeps rt0 (rt.newObjectFromShape n props values mapped a) := by
  unfold Runtime.newObjectFromShape
  refine .bind (.read _) fun sh hsh => ?_
  split
  · exact .map (h.freeShape n) fun r hr => hr.1
  · exact .ret (h.objects _ rt.ctxShapes)

/-- `JS_NewObjectProtoClass`. -/
theorem Keep.newObjectProtoClass (proto : Nat) (a : Allocs) :
    Keeps rt0 (rt.newObjectProtoClass proto a) := by
  unfold Runtime.newObjectProtoClass
  refine .bind (.read _) fun n _ => ?_
  split
  · exact (h.dupShape n).newObjectFromShape n [] none false a
  · refine .bind (h.newShape2 ..) fun r hr => ?_
    simp only
    split
    · exact .ret hr.1
    · exact hr.1.newObjectFromShape r.1 [] none false a

/-- `JS_NewObjectProtoClassAlloc`. -/
theorem Keep.newObjectProtoClassAlloc (proto nAllocProps : Nat) (a : Allocs) :
    Keeps rt0 (rt.newObjectProtoClassAlloc proto nAllocProps a) := by
  unfold Runtime.newObjectProtoClassAlloc Runtime.newShapeNohash
  simp only
  split
  · exact .ret h
  · next n rt1 hc =>
    split at hc
    · obtain ⟨rfl, rfl⟩ := Prod.mk.inj (Option.some.inj hc)
      exact ((KeepOff.alloc h _).done (Runtime.not_hashed (Runtime.shape_alloc_self _ _)
        Bool.false_ne_true)).newObjectFromShape _ [] none false a
    · cases hc

/-- The loop of `js_new_shape_with2`. -/
theorem Keep.addShapeProperties (hn : rt.Own n) (props : List (Nat × Flags × Allocs)) :
    Keeps rt0 (rt.addShapeProperties n props) := by
  induction props generalizing rt n with
  | nil => exact .ret h
  | cons x props ih =>
    obtain ⟨atom, flags, a⟩ := x
    unfold Runtime.addShapeProperties
    refine .bind (h.addShapeProperty hn none atom flags a) fun r hr => ?_
    simp only
    split
    · exact .map (hr.1.freeShape n) fun _ h2 => h2.1
    · next h0 => exact ih hr.1 (hr.2 h0)

/-- `js_new_shape_with`. -/
theorem Keep.newShapeWith (proto : Nat) (props : List (Nat × Flags × Allocs)) (a : Allocs) :
    Keeps rt0 (rt.newShapeWith proto props a) := by
  unfold Runtime.newShapeWith
  refine .bind (h.newShape2 ..) fun r hr => ?_
  simp only
  split
  · exact .ret hr.1
  · next h0 =>
    refine .map (hr.1.addShapeProperties (hr.2 h0) props) fun r2 h2 => ?_
    simp only
    split
    · exact h2
    · exact h2.objects r2.2.objects _

/-- An object of a shape that a context holds. -/
theorem Keep.newObjectOfContext (k : Nat) (props : List V) (values : Option (List V))
    (mapped : Bool) (a : Allocs) : Keeps rt0 (rt.newObjectOfContext k props values mapped a) :=
  .bind (.read _) fun n _ => (h.dupShape n).newObjectFromShape n props values mapped a

/-- `js_clone_jsobject_for_write`. -/
theorem Keep.cloneForWrite (p : Nat) (a : Allocs) : Keeps rt0 (rt.cloneForWrite p a) := by
  unfold Runtime.cloneForWrite
  refine .bind (.read _) fun o _ => .map (.read _) fun sh _ => ?_
  split
  · exact h
  · exact h.objects _ rt.ctxShapes

/-- `free_object`. -/
theorem Keep.freeObject (p : Nat) : Yields (rt.freeObject p) (Keep rt0) True :=
  .bind (.read _) fun o _ => .map (h.freeShape o.shape) fun r hr => hr.1.objects _ r.ctxShapes

end

end

end ArenaJs.Shapes
