import ArenaJs.Engine.Owned

/-!
# The object to write

`js_object_for_write` as a step on views: it returns an object that is not snapshot memory, all
objects look as before, and a shadow made on the way looks like the snapshot object it stands for,
but for the storage of its elements and the block of its internal state (`objectForWrite_ends`). If
memory runs out on the way there is no shadow.
-/

namespace ArenaJs.Heap

/-- The states differ in what no view shows: the counters, the blocks of internal state and the size
of the table of shadows. -/
structure Aside (s s' : State) : Prop where
  eq : ∃ allocs structs nextStruct size, s' = { s with
    allocs := allocs, req := { s.req with structs := structs }, nextStruct := nextStruct
    shadowTabSize := size }

section
variable {env : Env} {s s' s'' : State}

theorem Aside.refl (s : State) : Aside s s :=
  ⟨s.allocs, s.req.structs, s.nextStruct, s.shadowTabSize, rfl⟩

theorem Aside.trans (h : Aside s s') (h' : Aside s' s'') : Aside s s'' := by
  obtain ⟨_, _, _, _, rfl⟩ := h.eq
  obtain ⟨a, st, n, z, rfl⟩ := h'.eq
  exact ⟨a, st, n, z, rfl⟩

theorem Aside.still (h : Aside s s') : Still s s' := by
  obtain ⟨_, _, _, _, rfl⟩ := h.eq
  exact ⟨rfl, rfl, rfl, id, fun q _ => by cases q <;> rfl⟩

theorem Aside.owned (h : Aside s s') (ho : Owned s) : Owned s' := by
  obtain ⟨_, _, _, _, rfl⟩ := h.eq
  exact { ho with }

theorem Aside.obj (h : Aside s s') (p : Ptr) : s'.obj p = s.obj p := by
  obtain ⟨_, _, _, _, rfl⟩ := h.eq
  cases p <;> rfl

/-- How a function fails that has only prepared something. -/
def Aborts (s : State) : Stop → State → Prop
  | .throw _, s' => Aside s s'
  | _, _ => False

theorem Aborts.of_aside {s1 : State} (h : Aside s s1) {e : Stop} (hf : Aborts s1 e s') :
    Aborts s e s' := by
  cases e with
  | throw x => exact h.trans hf
  | crash | timeout | excluded => exact hf

/-- The program only prepares something, and returns a value in `Q`. -/
def Prepares {α : Type} (s : State) (x : M α) (Q : α → Prop) : Prop :=
  Ends s x (fun a s' => Aside s s' ∧ Q a) (Aborts s)

theorem Prepares.bind {α β : Type} {x : M α} {f : α → M β} {Q : α → Prop} {R : β → Prop}
    (hx : Prepares s x Q) (hf : ∀ a s', Aside s s' → Q a → Prepares s' (f a) R) :
    Prepares s (x >>= f) R := by
  refine Ends.bind hx fun a s' ⟨ha, hq⟩ => (hf a s' ha hq).mono ?_ ?_
  · exact fun b s'' ⟨hb, hr⟩ => ⟨ha.trans hb, hr⟩
  · exact fun e s'' => .of_aside ha

theorem jsMalloc_aside : Prepares s (jsMalloc env) fun _ => True := by
  have haside : Aside s { s with allocs := s.allocs + 1 } := ⟨_, s.req.structs, _, _, rfl⟩
  cases ha : env.alloc s.allocs with
  | true => exact ends_of_ok (a := ()) (by simp [jsMalloc, allocate, ha]) ⟨haside, trivial⟩
  | false =>
    exact ends_of_error (e := .throw .outOfMemory) (by simp [jsMalloc, allocate, ha]) haside

theorem jsMallocRt_aside : Prepares s (jsMallocRt env) fun _ => True := by
  have haside : Aside s { s with allocs := s.allocs + 1 } := ⟨_, s.req.structs, _, _, rfl⟩
  cases ha : env.alloc s.allocs with
  | true => exact ends_of_ok (a := ()) (by simp [jsMallocRt, allocate, ha]) ⟨haside, trivial⟩
  | false =>
    exact ends_of_error (e := .throw .unset) (by simp [jsMallocRt, allocate, ha]) haside

theorem when_aside {x : M Unit} (c : Bool)
    (hx : Prepares s x fun _ => True) :
    Prepares s (when c x) fun _ => True := by
  cases c with
  | true => exact hx
  | false => exact ⟨.refl s, trivial⟩

theorem getStruct_aside (p : Ptr) :
    Prepares s (getStruct p) fun _ => True := ⟨.refl s, trivial⟩

theorem freshStruct_aside (o : Opaque) :
    Prepares s (freshStruct o) fun _ => True := ⟨⟨_, _, _, _, rfl⟩, trivial⟩

/-! ## The copy -/

/-- The copy of an object: its shape, its slots and its elements are those of the object. -/
structure Copied (o' o : JSObject) : Prop where
  eq : ∃ u, o' = { o with u := u }
  values : o'.u.values = o.u.values

theorem Copied.refl (o : JSObject) : Copied o o := ⟨⟨o.u, rfl⟩, rfl⟩

theorem Copied.trans {o2 o1 o : JSObject} (h : Copied o2 o1) (h' : Copied o1 o) : Copied o2 o := by
  obtain ⟨u, rfl⟩ := h.eq
  obtain ⟨u', rfl⟩ := h'.eq
  exact ⟨⟨u, rfl⟩, h.values.trans h'.values⟩

theorem arenaCloneIterState_aside (o : JSObject) :
    Prepares s (arenaCloneIterState env o) (Copied · o) := by
  unfold arenaCloneIterState
  split
  · rename_i st hu
    split
    · refine jsMalloc_aside.bind fun _ s1 _ _ => (getStruct_aside st).bind fun _ s2 _ _ =>
        (freshStruct_aside _).bind fun dst s3 _ _ => ?_
      exact ⟨.refl s3, ⟨.state dst, rfl⟩, by rw [hu]; rfl⟩
    · exact ⟨.refl s, .refl o⟩
  · exact ⟨.refl s, .refl o⟩

theorem arenaCloneDisposableState_aside (o : JSObject) :
    Prepares s (arenaCloneDisposableState env o) (Copied · o) := by
  unfold arenaCloneDisposableState
  split
  · rename_i st hu
    split
    · refine jsMalloc_aside.bind fun _ s1 _ _ => (getStruct_aside st).bind fun _ s2 _ _ =>
        (when_aside _ jsMalloc_aside).bind fun _ s3 _ _ =>
        (freshStruct_aside _).bind fun dst s4 _ _ => ?_
      exact ⟨.refl s4, ⟨.state dst, rfl⟩, by rw [hu]; rfl⟩
    · exact ⟨.refl s, .refl o⟩
  · exact ⟨.refl s, .refl o⟩

theorem cloneElements_aside (o : JSObject) :
    Prepares s (cloneElements env o) (Copied · o) := by
  unfold cloneElements
  split
  · refine (when_aside _ jsMalloc_aside).bind fun _ s1 _ _ => ?_
    exact ⟨.refl s1, ⟨_, rfl⟩, rfl⟩
  · exact ⟨.refl s, .refl o⟩

/-- `js_clone_jsobject_for_write`. -/
theorem cloneJSObjectForWrite_aside (p : Ptr) :
    Prepares s (cloneJSObjectForWrite env p) (Copied · (s.obj p)) := by
  refine jsMalloc_aside.bind fun _ s1 h1 _ => ?_
  refine Prepares.bind (Q := (· = s1.obj p)) ⟨.refl s1, rfl⟩ ?_
  rintro _ s2 h2 rfl
  refine Prepares.bind (Q := fun _ => True) ⟨.refl s2, trivial⟩ fun _ s3 _ _ => ?_
  refine (when_aside _ jsMalloc_aside).bind fun _ s4 _ _ =>
    (arenaCloneIterState_aside _).bind fun o1 s5 _ ho1 =>
    (arenaCloneDisposableState_aside o1).bind fun o2 s6 _ ho2 => ?_
  refine (cloneElements_aside o2).mono (fun o3 s7 ⟨ha, ho3⟩ => ⟨ha, ?_⟩) fun _ _ => id
  rw [← h1.obj p]
  exact ho3.trans (ho2.trans ho1)

theorem shadowTabReserve_aside :
    Prepares s (shadowTabReserve env) fun _ => True := by
  unfold shadowTabReserve
  refine Ends.bind_ok (a := s) (t := s) rfl ?_
  split
  · exact ⟨.refl s, trivial⟩
  · refine jsMallocRt_aside.bind fun _ s1 _ _ => ?_
    exact ⟨⟨_, s1.req.structs, _, _, rfl⟩, trivial⟩

/-! ## The table -/

/-- Snapshot object `m` has got a shadow, a copy of it. -/
structure Shadows (m : Nat) (s s' : State) : Prop where
  base : s'.base = s.base
  nextObj : s'.nextObj = s.nextObj
  tab : s'.shadowTab = m :: s.shadowTab
  dirty : s'.stdArrayPrototypeDirty = s.stdArrayPrototypeDirty
  view : ∀ q, s.Present q → s'.view q = s.view q
  copy : ∃ u, s'.view (.shadow m) = { s.view (.base m) with u := u }
  values : (s'.view (.shadow m)).u.values = (s.view (.base m)).u.values

/-- What `js_object_for_write` does with `p`: it returns `q`. -/
inductive Resolves (s : State) : Ptr → Ptr → State → Prop
  | same {p : Ptr} (hp : p.isBase = false) : Resolves s p p s
  | known {m : Nat} (hm : m ∈ s.shadowTab) : Resolves s (.base m) (.shadow m) s
  | made {m : Nat} {s' : State} (hm : m ∉ s.shadowTab) (hs : Shadows m s s') (ho : Owned s') :
    Resolves s (.base m) (.shadow m) s'

/-- The state with a shadow of `m`. -/
def State.withShadow (s : State) (m : Nat) (o : JSObject) : State :=
  { s with
    shadow := { s.shadow with objs := Function.update s.shadow.objs m o }
    shadowTab := m :: s.shadowTab }

theorem obj_withShadow (m : Nat) (o : JSObject) (q : Ptr) :
    (s.withShadow m o).obj q = if q = .shadow m then o else s.obj q := by
  cases q <;> simp [State.withShadow, State.obj, Function.update_apply]

theorem shape_withShadow (m : Nat) (o : JSObject) (q : Ptr) :
    (s.withShadow m o).shape q = s.shape q := by
  cases q <;> rfl

theorem present_withShadow (m : Nat) (o : JSObject) (q : Ptr) :
    (s.withShadow m o).Present q ↔ q = .shadow m ∨ s.Present q := by
  cases q <;> simp [State.withShadow, State.Present]

/-- A new shadow shares the shape of its object, which is not counted. -/
theorem Owned.withShadow (h : Owned s) {m : Nat} {o : JSObject}
    (ho : Copied o (s.obj (.base m))) : Owned (s.withShadow m o) := by
  obtain ⟨u, rfl⟩ := ho.eq
  have hshape : (s.obj (.base m)).shape.isBase := h.baseShape m
  refine ⟨h.baseShape, fun q hq => ?_, fun n hn => ?_, fun n hn => ?_, fun sh hsh => ?_, h.nodup,
    h.baseHash⟩
  · rw [obj_withShadow]
    split
    · exact .inl hshape
    · exact h.shape q (((present_withShadow m _ q).1 hq).resolve_left ‹_›)
  · rw [shape_withShadow]
    refine (Set.encard_le_encard ?_).trans (h.refs n hn)
    rintro q ⟨hq, hs⟩
    rw [obj_withShadow] at hs
    split at hs
    · rw [hs] at hshape
      cases hshape
    · exact ⟨((present_withShadow m _ q).1 hq).resolve_left ‹_›, hs⟩
  · rw [shape_withShadow]
    exact h.single n hn
  · obtain ⟨n, hn, rfl, hh⟩ := h.overlay sh hsh
    exact ⟨n, hn, rfl, by rwa [shape_withShadow]⟩

theorem Shadows.withShadow {m : Nat} {o : JSObject} (hm : m ∉ s.shadowTab)
    (ho : Copied o (s.obj (.base m))) : Shadows m s (s.withShadow m o) := by
  have hview : (s.withShadow m o).view (.shadow m) = JSObject.view o (s.shape o.shape) := by
    rw [State.view, obj_withShadow, if_pos rfl, shape_withShadow]
  refine ⟨rfl, rfl, rfl, rfl, fun q hq => ?_, ?_, ?_⟩
  · have hne : q ≠ .shadow m := by
      rintro rfl
      exact hm hq
    rw [State.view, obj_withShadow, if_neg hne, shape_withShadow, State.view]
  · obtain ⟨u, rfl⟩ := ho.eq
    exact ⟨u, hview⟩
  · rw [hview]
    exact ho.values

/-- `js_object_for_write`. -/
theorem objectForWrite_ends [env.Arena] (h : Owned s) (p : Ptr) :
    Ends s (objectForWrite env p) (fun q s' => Resolves s p q s') (Fails s) := by
  cases p with
  | req n => exact Resolves.same rfl
  | shadow n => exact Resolves.same rfl
  | base m =>
    simp only [objectForWrite, Env.Arena.isArena, Bool.not_true, Bool.false_eq_true, if_false]
    refine Ends.bind_ok (a := s) (t := s) rfl ?_
    by_cases hm : m ∈ s.shadowTab
    · simp only [List.contains_eq_mem, hm, decide_true, if_true]
      exact Resolves.known hm
    · simp only [List.contains_eq_mem, hm, decide_false, Bool.false_eq_true, if_false]
      -- everything before the entry in the table only prepares it
      have hprep : Prepares s (do shadowTabReserve env; cloneJSObjectForWrite env (.base m))
          (Copied · (s.obj (.base m))) :=
        shadowTabReserve_aside.bind fun _ s1 h1 _ => by
          rw [← h1.obj]
          exact cloneJSObjectForWrite_aside (.base m)
      have hfails : ∀ e s', Aborts s e s' → Fails s e s' := by
        intro e s' he
        cases e with
        | throw x => exact ⟨he.owned h, he.still⟩
        | crash | timeout | excluded => trivial
      have hput :=
        (hprep.mono (fun _ _ => id) hfails).bind (P := fun q s' => Resolves s (.base m) q s')
        (f := fun o => do shadowTabPut m o; return .shadow m) fun o s1 h1 => by
          obtain ⟨ha, ho⟩ := h1
          have hm1 : m ∉ s1.shadowTab := by
            rw [ha.still.tab]
            exact hm
          have ho1 : Copied o (s1.obj (.base m)) := by
            rw [ha.obj]
            exact ho
          have hs := Shadows.withShadow hm1 ho1
          show Resolves s (.base m) (.shadow m) (s1.withShadow m o)
          refine Resolves.made hm ⟨hs.base.trans ha.still.base,
            hs.nextObj.trans ha.still.nextObj, ?_, ?_, fun q hq => ?_, ?_, ?_⟩
            ((ha.owned h).withShadow ho1)
          · rw [hs.tab, ha.still.tab]
          · obtain ⟨_, _, _, _, rfl⟩ := ha.eq
            rfl
          · exact (hs.view q (ha.still.present.2 hq)).trans (ha.still.view q hq)
          · rw [← ha.still.view (.base m) trivial]
            exact hs.copy
          · rw [← ha.still.view (.base m) trivial]
            exact hs.values
      rw [bind_assoc] at hput
      exact hput

end

end ArenaJs.Heap
