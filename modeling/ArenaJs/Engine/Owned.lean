import ArenaJs.Engine.View

/-!
# What the functions of the property layer do to views

One contract for each function that works on the shape or the record of one object: it keeps
`Owned`, leaves the views of the other objects alone, and does to the view of its object what the
contract says. If the function throws, all views are as before. The contracts are for a request
(`Env.Arena`), where snapshot memory is not written.
-/

namespace ArenaJs.Heap

/-- The runtime has an arena. -/
class Env.Arena (env : Env) : Prop where
  isArena : env.isArena = true

section
variable {env : Env}

@[simp] theorem Env.ptrIsBase_eq [env.Arena] (p : Ptr) : env.ptrIsBase p = p.isBase := by
  simp [Env.ptrIsBase, Env.Arena.isArena]

end

/-! ## Writes -/

section
variable {s : State} {p q : Ptr}

@[simp] theorem obj_mapObj (f : JSObject → JSObject) (p q : Ptr) :
    (s.update (Arena.mapObj f) p).obj q = if q = p then f (s.obj p) else s.obj q := by
  cases p <;> cases q <;>
    simp [State.update, State.obj, Arena.mapObj, Function.update_apply]

@[simp] theorem shape_mapObj (f : JSObject → JSObject) (p q : Ptr) :
    (s.update (Arena.mapObj f) p).shape q = s.shape q := by
  cases p <;> cases q <;> rfl

@[simp] theorem obj_mapShape (f : JSShape → JSShape) (p q : Ptr) :
    (s.update (Arena.mapShape f) p).obj q = s.obj q := by
  cases p <;> cases q <;> rfl

@[simp] theorem shape_mapShape (f : JSShape → JSShape) (p q : Ptr) :
    (s.update (Arena.mapShape f) p).shape q = if q = p then f (s.shape p) else s.shape q := by
  cases p <;> cases q <;>
    simp [State.update, State.shape, Arena.mapShape, Function.update_apply]

variable (f : Arena → Nat → Arena)

@[simp] theorem nextObj_update : (s.update f p).nextObj = s.nextObj := by cases p <;> rfl

@[simp] theorem nextShape_update : (s.update f p).nextShape = s.nextShape := by cases p <;> rfl

@[simp] theorem shadowTab_update : (s.update f p).shadowTab = s.shadowTab := by cases p <;> rfl

@[simp] theorem shapeOverlay_update : (s.update f p).shapeOverlay = s.shapeOverlay := by
  cases p <;> rfl

@[simp] theorem dirty_update :
    (s.update f p).stdArrayPrototypeDirty = s.stdArrayPrototypeDirty := by
  cases p <;> rfl

theorem base_update (hp : p.isBase = false) : (s.update f p).base = s.base := by
  cases p with
  | base => cases hp
  | req | shadow => rfl

@[simp] theorem present_update : (s.update f p).Present q ↔ s.Present q := by
  cases q <;> simp [State.Present]

end

/-! ## Users -/

theorem encard_sdiff_le {α : Type} {S : Set α} {a : α} {r : Nat} (ha : a ∈ S)
    (h : S.encard ≤ r) : (S \ {a}).encard ≤ (r - 1 : Nat) := by
  have hadd := Set.encard_sdiff_singleton_add_one ha
  have hle : (S \ {a}).encard ≤ r := (Set.encard_le_encard Set.sdiff_subset).trans h
  obtain ⟨n, hn⟩ := ENat.ne_top_iff_exists.1 (ne_top_of_le_ne_top (ENat.natCast_ne_top r) hle)
  rw [← hn] at hadd ⊢
  rw [← hadd] at h
  norm_cast at h ⊢
  omega

section
variable {s : State} {p : Ptr}

theorem users_mapObj {f : JSObject → JSObject} (hf : (f (s.obj p)).shape = (s.obj p).shape)
    (sh : Ptr) : (s.update (Arena.mapObj f) p).users sh = s.users sh := by
  ext q
  by_cases hq : q = p
  · subst hq
    simp [State.users, hf]
  · simp [State.users, hq]

@[simp] theorem users_mapShape (f : JSShape → JSShape) (q sh : Ptr) :
    (s.update (Arena.mapShape f) q).users sh = s.users sh := by
  ext
  simp [State.users]

/-- A write to the record of an object that keeps its shape. -/
theorem Owned.mapObj (h : Owned s) (hb : p.isBase = false) {f : JSObject → JSObject}
    (hf : (f (s.obj p)).shape = (s.obj p).shape) : Owned (s.update (Arena.mapObj f) p) where
  baseShape := by
    rw [base_update _ hb]
    exact h.baseShape
  shape q hq := by
    have hs : ((s.update (Arena.mapObj f) p).obj q).shape = (s.obj q).shape := by
      by_cases hqp : q = p
      · subst hqp
        simp [hf]
      · simp [hqp]
    rw [hs, nextShape_update]
    exact h.shape q ((present_update _).1 hq)
  refs m hm := by
    rw [users_mapObj hf, shape_mapObj]
    exact h.refs m (by simpa using hm)
  single m hm := by
    rw [shape_mapObj]
    exact h.single m (by simpa using hm)
  overlay sh hsh := by
    simp only [State.overlay, shapeOverlay_update, nextShape_update, shape_mapObj] at hsh ⊢
    exact h.overlay sh hsh
  nodup := by
    simp only [State.overlay, shapeOverlay_update]
    exact h.nodup
  baseHash := by
    rw [base_update _ hb]
    exact h.baseHash

/-- A write to a request shape that keeps its count and its place in the table. -/
theorem Owned.mapShape (h : Owned s) {n : Nat} {f : JSShape → JSShape}
    (hr : (f (s.shape (.req n))).refCount = (s.shape (.req n)).refCount)
    (hh : (f (s.shape (.req n))).isHashed = (s.shape (.req n)).isHashed) :
    Owned (s.update (Arena.mapShape f) (.req n)) where
  baseShape := h.baseShape
  shape q hq := by
    rw [obj_mapShape]
    exact h.shape q ((present_update _).1 hq)
  refs m hm := by
    rw [users_mapShape, shape_mapShape]
    split
    · rename_i e
      cases e
      rw [hr]
      exact h.refs n hm
    · exact h.refs m hm
  single m hm := by
    rw [shape_mapShape]
    split
    · rename_i e
      cases e
      rw [hr, hh]
      exact h.single n hm
    · exact h.single m hm
  overlay sh hsh := by
    obtain ⟨m, hm, rfl, hhash⟩ := h.overlay sh hsh
    refine ⟨m, hm, rfl, ?_⟩
    rw [shape_mapShape]
    split
    · rename_i e
      cases e
      rw [hh]
      exact hhash
    · exact hhash
  nodup := h.nodup
  baseHash := h.baseHash

end

/-! ## Failing -/

/-- How a function fails that has done nothing by then. -/
def Fails (s : State) : Stop → State → Prop
  | .throw _, s' => Owned s' ∧ Still s s'
  | _, _ => True

section
variable {env : Env} {s : State} {p : Ptr}
variable (sh : Ptr) {m : Nat}

/-- The count of allocations is not part of any view. -/
theorem Owned.allocs (h : Owned s) (n : Nat) : Owned { s with allocs := n } :=
  { h with }

theorem Still.allocs (s : State) (n : Nat) : Still s { s with allocs := n } :=
  ⟨rfl, rfl, rfl, id, fun q _ => by cases q <;> rfl⟩

/-- An allocation was refused. -/
def Refused (s : State) (e : Stop) (s' : State) : Prop :=
  e = .throw .outOfMemory ∧ s' = { s with allocs := s.allocs + 1 }

theorem Refused.fails (h : Owned s) {e : Stop} {s' : State} (hr : Refused s e s') :
    Fails s e s' := by
  obtain ⟨rfl, rfl⟩ := hr
  exact ⟨h.allocs _, .allocs s _⟩

theorem jsMalloc_ends :
    Ends s (jsMalloc env) (fun _ s' => s' = { s with allocs := s.allocs + 1 }) (Refused s) := by
  cases ha : env.alloc s.allocs with
  | true => exact ends_of_ok (a := ()) (by simp [jsMalloc, allocate, ha]) rfl
  | false =>
    exact ends_of_error (e := .throw .outOfMemory) (t := { s with allocs := s.allocs + 1 })
      (by simp [jsMalloc, allocate, ha]) ⟨rfl, rfl⟩

/-! ## Shapes of one object -/

/-- `sh` is a request shape that only `p` has and that is in no table. -/
structure Mine (s : State) (p sh : Ptr) : Prop where
  shape : (s.obj p).shape = sh
  req : ∃ m < s.nextShape, sh = .req m
  unhashed : (s.shape sh).isHashed = false

theorem Owned.sole (h : Owned s) {sh q : Ptr} (hm : Mine s p sh) (hp : s.Present p)
    (hq : s.Present q) (hqs : (s.obj q).shape = sh) : q = p := by
  obtain ⟨m, hlt, rfl⟩ := hm.req
  exact h.eq_of_refCount_le_one hlt (h.single m hlt hm.unhashed) ⟨hq, hqs⟩ ⟨hp, hm.shape⟩

/-- The state after a request shape has been made. -/
def State.withShape (s : State) (sh : JSShape) : State :=
  { s with
    req := { s.req with shapes := Function.update s.req.shapes s.nextShape sh }
    nextShape := s.nextShape + 1
    allocs := s.allocs + 1 }

theorem cloneShape_ends (sh : Ptr) :
    Ends s (cloneShape env sh)
      (fun sh' s' => sh' = .req s.nextShape ∧
        s' = s.withShape { s.shape sh with refCount := 1, isHashed := false })
      (Refused s) := by
  refine jsMalloc_ends.bind ?_
  rintro _ _ rfl
  exact ⟨rfl, by cases sh <;> rfl⟩

theorem shape_withShape (sh : JSShape) (q : Ptr) :
    (s.withShape sh).shape q = if q = .req s.nextShape then sh else s.shape q := by
  cases q <;> simp [State.withShape, State.shape, Function.update_apply]

/-- A shape nobody has yet. -/
theorem Owned.users_fresh (h : Owned s) : s.users (.req s.nextShape) = ∅ := by
  ext q
  simp only [State.users, Set.mem_ofPred_eq, Set.mem_empty_iff_false, iff_false, not_and]
  intro hq hs
  rcases h.shape q hq with hb | ⟨m, hm, he⟩
  · rw [hs] at hb
    cases hb
  · rw [hs] at he
    cases he
    exact absurd hm (lt_irrefl _)

/-- The counts are right after `p` has moved to the shape `new`, if the count of `new` has gone up
by one and that of the shape `p` had has gone down by at most one. -/
theorem refs_move {s' : State} (hp : s.Present p) {new : Ptr}
    (hpres : ∀ q, s'.Present q ↔ s.Present q) (hobj : ∀ q, q ≠ p → s'.obj q = s.obj q)
    (hnew : (s'.obj p).shape = new) {r : Nat}
    (hr : ((s.users (.req m)).encard ≤ r)) {r' : Nat}
    (hr' : r + (if new = .req m then 1 else 0) ≤
      r' + if (s.obj p).shape = .req m then 1 else 0) :
    (s'.users (.req m)).encard ≤ r' := by
  have hsub : s'.users (.req m) ⊆ insert p (s.users (.req m)) := by
    rintro q ⟨hq, hqs⟩
    by_cases hqp : q = p
    · exact .inl hqp
    · rw [hobj q hqp] at hqs
      exact .inr ⟨(hpres q).1 hq, hqs⟩
  by_cases hold : (s.obj p).shape = .req m
  · have hmem : p ∈ s.users (.req m) := ⟨hp, hold⟩
    by_cases hn : new = .req m
    · rw [if_pos hn, if_pos hold] at hr'
      rw [Set.insert_eq_of_mem hmem] at hsub
      exact (Set.encard_le_encard hsub).trans (hr.trans (by exact_mod_cast (by omega : r ≤ r')))
    · rw [if_neg hn, if_pos hold] at hr'
      have hsub' : s'.users (.req m) ⊆ s.users (.req m) \ {p} := by
        intro q hq
        refine ⟨((hsub hq).resolve_left ?_), ?_⟩ <;>
        · rintro rfl
          exact hn (hnew ▸ hq.2)
      exact (Set.encard_le_encard hsub').trans
        ((encard_sdiff_le hmem hr).trans (by exact_mod_cast (by omega : r - 1 ≤ r')))
  · by_cases hn : new = .req m
    · rw [if_pos hn, if_neg hold] at hr'
      calc (s'.users (.req m)).encard
          ≤ (insert p (s.users (.req m))).encard := Set.encard_le_encard hsub
        _ ≤ (s.users (.req m)).encard + 1 := Set.encard_insert_le _ _
        _ ≤ r + 1 := by gcongr
        _ ≤ r' := by exact_mod_cast hr'
    · rw [if_neg hn, if_neg hold] at hr'
      have hsub' : s'.users (.req m) ⊆ s.users (.req m) := by
        intro q hq
        refine (hsub hq).resolve_left ?_
        rintro rfl
        exact hn (hnew ▸ hq.2)
      exact (Set.encard_le_encard hsub').trans (hr.trans (by exact_mod_cast (by omega : r ≤ r')))

/-- One reference less. -/
def State.dropRef (s : State) : Ptr → State
  | .req n => s.update (Arena.mapShape fun o => { o with refCount := o.refCount - 1 }) (.req n)
  | _ => s

/-- `js_free_shape` of a shape that others hold. -/
theorem freeShape_shared [env.Arena] {sh : Ptr}
    (hsh : sh.isBase ∨ ∃ n, sh = .req n ∧ 2 ≤ (s.shape (.req n)).refCount) :
    (freeShape env sh).run s = .ok () (s.dropRef sh) := by
  rcases hsh with hb | ⟨n, rfl, h2⟩
  · cases sh with
    | base n => simp [freeShape, Ptr.isBase, State.dropRef]
    | req | shadow => cases hb
  · have h0 : ¬ (s.shape (.req n)).refCount - 1 = 0 := by omega
    simp [freeShape, Ptr.isBase, State.dropRef, modifyShape, getShape, when, h0]

@[simp] theorem obj_dropRef (sh q : Ptr) : (s.dropRef sh).obj q = s.obj q := by
  cases sh <;> simp [State.dropRef]

theorem shape_dropRef (m : Nat) : (s.dropRef sh).shape (.req m) =
    if sh = .req m then { s.shape (.req m) with refCount := (s.shape (.req m)).refCount - 1 }
    else s.shape (.req m) := by
  cases sh with
  | base n | shadow n => simp [State.dropRef]
  | req n =>
    by_cases hn : n = m
    · subst hn
      simp [State.dropRef]
    · simp [State.dropRef, hn, Ne.symm hn]

theorem shape_dropRef_base (m : Nat) :
    (s.dropRef sh).shape (.base m) = s.shape (.base m) := by
  cases sh <;> rfl

@[simp] theorem base_dropRef : (s.dropRef sh).base = s.base := by
  cases sh <;> rfl

@[simp] theorem nextObj_dropRef : (s.dropRef sh).nextObj = s.nextObj := by
  cases sh <;> rfl

@[simp] theorem nextShape_dropRef : (s.dropRef sh).nextShape = s.nextShape := by
  cases sh <;> rfl

@[simp] theorem shadowTab_dropRef : (s.dropRef sh).shadowTab = s.shadowTab := by
  cases sh <;> rfl

@[simp] theorem shapeOverlay_dropRef : (s.dropRef sh).shapeOverlay = s.shapeOverlay := by
  cases sh <;> rfl

@[simp] theorem dirty_dropRef :
    (s.dropRef sh).stdArrayPrototypeDirty = s.stdArrayPrototypeDirty := by
  cases sh <;> rfl

@[simp] theorem present_dropRef (sh q : Ptr) : (s.dropRef sh).Present q ↔ s.Present q := by
  cases q <;> simp [State.Present]

/-- The state after `p` has left the shape it had for a copy of its own. -/
def State.unshared (s : State) (p : Ptr) (c : JSShape) : State :=
  ((s.withShape c).dropRef (s.obj p).shape).update
    (Arena.mapObj fun o => { o with shape := .req s.nextShape }) p

section
variable {c : JSShape}

theorem obj_unshared (q : Ptr) : (s.unshared p c).obj q =
    if q = p then { s.obj p with shape := .req s.nextShape } else s.obj q := by
  simp only [State.unshared, obj_mapObj, obj_dropRef]
  rfl

theorem shape_unshared_new (h : Owned s) (hp : s.Present p) :
    (s.unshared p c).shape (.req s.nextShape) = c := by
  have hne : (s.obj p).shape ≠ .req s.nextShape := by
    intro he
    have hmem : p ∈ s.users (.req s.nextShape) := ⟨hp, he⟩
    rw [h.users_fresh] at hmem
    exact hmem
  simp [State.unshared, shape_mapObj, shape_dropRef, shape_withShape, hne]

theorem shape_unshared_req {m : Nat} (hm : m < s.nextShape) :
    (s.unshared p c).shape (.req m) =
      if (s.obj p).shape = .req m then
        { s.shape (.req m) with refCount := (s.shape (.req m)).refCount - 1 }
      else s.shape (.req m) := by
  have hne : Ptr.req m ≠ .req s.nextShape := by
    intro e
    cases e
    exact lt_irrefl _ hm
  simp [State.unshared, shape_mapObj, shape_dropRef, shape_withShape, hne]

theorem shape_unshared_base (m : Nat) :
    (s.unshared p c).shape (.base m) = s.shape (.base m) := by
  simp only [State.unshared, shape_mapObj, shape_dropRef_base]
  rfl

theorem present_unshared (q : Ptr) : (s.unshared p c).Present q ↔ s.Present q := by
  simp only [State.unshared, present_update, present_dropRef]
  cases q <;> rfl

theorem base_unshared (hb : p.isBase = false) : (s.unshared p c).base = s.base := by
  rw [State.unshared, base_update _ hb, base_dropRef]
  rfl

theorem Owned.unshared (h : Owned s) (hp : s.Present p) (hb : p.isBase = false)
    (hc : c.refCount = 1) : Owned (s.unshared p c) := by
  have hnext : (s.unshared p c).nextShape = s.nextShape + 1 := by
    simp [State.unshared, State.withShape]
  have hover : (s.unshared p c).overlay = s.overlay := by
    simp [State.unshared, State.overlay, State.withShape]
  refine ⟨?_, fun q hq => ?_, fun m hm => ?_, fun m hm => ?_, fun sh hsh => ?_, ?_, ?_⟩
  · rw [base_unshared hb]
    exact h.baseShape
  · rw [obj_unshared, hnext]
    split
    · exact .inr ⟨s.nextShape, Nat.lt_succ_self _, rfl⟩
    · refine (h.shape q ((present_unshared q).1 hq)).imp_right ?_
      rintro ⟨m, hm, he⟩
      exact ⟨m, Nat.lt_succ_of_lt hm, he⟩
  · have hmove (r r' : Nat) (hr : (s.users (.req m)).encard ≤ r)
        (hr' : r + (if Ptr.req s.nextShape = .req m then 1 else 0) ≤
          r' + if (s.obj p).shape = .req m then 1 else 0) :
        ((s.unshared p c).users (.req m)).encard ≤ r' :=
      refs_move hp present_unshared (fun q hq => by rw [obj_unshared, if_neg hq])
        (by rw [obj_unshared, if_pos rfl]) hr hr'
    rw [hnext] at hm
    by_cases hmn : m = s.nextShape
    · subst hmn
      rw [shape_unshared_new h hp, hc]
      refine hmove 0 1 ?_ ?_
      · rw [h.users_fresh]
        simp
      · simp
    · have hlt : m < s.nextShape := by omega
      rw [shape_unshared_req hlt]
      refine hmove _ _ (h.refs m hlt) ?_
      have hne : Ptr.req s.nextShape ≠ .req m := fun e => hmn (by cases e; rfl)
      rw [if_neg hne]
      by_cases hold : (s.obj p).shape = .req m
      · have hpos := h.one_le_refCount hlt ⟨hp, hold⟩
        rw [if_pos hold, if_pos hold]
        simp only
        omega
      · rw [if_neg hold, if_neg hold]
  · rw [hnext] at hm
    by_cases hmn : m = s.nextShape
    · subst hmn
      rw [shape_unshared_new h hp, hc]
      exact fun _ => le_rfl
    · have hlt : m < s.nextShape := by omega
      rw [shape_unshared_req hlt]
      split
      · intro hh
        have := h.single m hlt hh
        simp only
        omega
      · exact h.single m hlt
  · rw [hover] at hsh
    obtain ⟨m, hm, rfl, hh⟩ := h.overlay sh hsh
    refine ⟨m, by omega, rfl, ?_⟩
    rw [shape_unshared_req hm]
    split <;> exact hh
  · rw [hover]
    exact h.nodup
  · rw [base_unshared hb]
    exact h.baseHash

/-- A copy of its shape does not show at any object. -/
theorem Still.unshared (h : Owned s) (hp : s.Present p) (hb : p.isBase = false)
    (hproto : c.proto = (s.view p).proto) (hprops : c.props = (s.view p).props) :
    Still s (s.unshared p c) := by
  refine ⟨base_unshared hb, ?_, ?_, ?_, fun q hq => ?_⟩
  · simp [State.unshared, State.withShape]
  · simp [State.unshared, State.withShape]
  · simp [State.unshared, State.withShape]
  · rw [State.view, obj_unshared]
    split
    · rename_i hqp
      subst hqp
      rw [shape_unshared_new h hp]
      simp only [JSObject.view, hproto, hprops]
      rfl
    · rcases h.shape q hq with hqb | ⟨m, hm, he⟩
      · cases hs : (s.obj q).shape with
        | base n => rw [shape_unshared_base, State.view, hs]
        | req n | shadow n => rw [hs] at hqb; cases hqb
      · rw [he, shape_unshared_req hm, State.view, he]
        split <;> rfl

end

/-- `unshareShape`, when `p` is not the only user of its shape. -/
theorem unshareShape_ends [env.Arena] (h : Owned s) (hp : s.Present p) (hb : p.isBase = false)
    {sh : Ptr} (hsh : (s.obj p).shape = sh)
    (hpre : sh.isBase ∨ ∃ n, sh = .req n ∧ 2 ≤ (s.shape (.req n)).refCount) :
    Ends s (unshareShape env p sh) (fun sh' s' => Owned s' ∧ Still s s' ∧ Mine s' p sh')
      (Fails s) := by
  refine ((cloneShape_ends sh).mono (fun _ _ => id) fun _ _ => Refused.fails h).bind ?_
  rintro _ _ ⟨rfl, rfl⟩
  set c : JSShape := { s.shape sh with refCount := 1, isHashed := false } with hcdef
  have hpre' : sh.isBase ∨ ∃ n, sh = .req n ∧ 2 ≤ ((s.withShape c).shape (.req n)).refCount := by
    refine hpre.imp_right ?_
    rintro ⟨n, rfl, h2⟩
    refine ⟨n, rfl, ?_⟩
    rw [shape_withShape, if_neg]
    · exact h2
    · intro e
      have hmem : p ∈ s.users (.req s.nextShape) := ⟨hp, hsh.trans e⟩
      rw [h.users_fresh] at hmem
      exact hmem
  refine Ends.bind_ok (freeShape_shared hpre') ?_
  refine Ends.bind_ok (a := ()) (t := s.unshared p c) ?_ ?_
  · rw [State.unshared, hsh]
    rfl
  · refine ⟨h.unshared hp hb rfl, .unshared h hp hb ?_ ?_, ?_⟩
    · simp only [hcdef, ← hsh]
      rfl
    · simp only [hcdef, ← hsh]
      rfl
    · refine ⟨by rw [obj_unshared, if_pos rfl], ⟨s.nextShape, ?_, rfl⟩, ?_⟩
      · simp [State.unshared, State.withShape]
      · rw [shape_unshared_new h hp]

/-! ## The table of shapes -/

/-- The overlay without `sh`. -/
def State.unlinked (s : State) (sh : Ptr) : State :=
  { s with shapeOverlay := s.shapeOverlay.map (·.erase sh) }

theorem overlay_unlinked : (s.unlinked sh).overlay = s.overlay.erase sh := by
  simp only [State.overlay, State.unlinked]
  cases s.shapeOverlay <;> rfl

theorem Owned.unlinked (h : Owned s) (sh : Ptr) : Owned (s.unlinked sh) := by
  refine ⟨h.baseShape, h.shape, h.refs, h.single, fun q hq => ?_, ?_, h.baseHash⟩
  · rw [overlay_unlinked] at hq
    exact h.overlay q (List.mem_of_mem_erase hq)
  · rw [overlay_unlinked]
    exact h.nodup.erase sh

theorem Still.unlinked (s : State) (sh : Ptr) : Still s (s.unlinked sh) :=
  ⟨rfl, rfl, rfl, id, fun q _ => by cases q <;> rfl⟩

/-- `js_shape_hash_unlink` of a request shape; without an overlay it runs past the end of a chain of
the snapshot. -/
theorem shapeHashUnlink_ends [env.Arena] (h : Owned s) (m : Nat) :
    Ends s (shapeHashUnlink env (.req m)) (fun _ s' => s' = s.unlinked (.req m)) (Fails s) := by
  have hnot : ¬ Ptr.req m ∈ s.base.shapeHash := fun hm => nomatch h.baseHash _ hm
  cases hov : s.shapeOverlay with
  | some l =>
    refine ends_of_ok (a := ()) ?_ rfl
    simp [shapeHashUnlink, Ptr.isBase, Env.Arena.isArena, hov, State.unlinked]
  | none =>
    refine ends_of_error (e := .crash) (t := s) ?_ trivial
    simp [shapeHashUnlink, Ptr.isBase, Env.Arena.isArena, hov, hnot]

/-- A shape with one reference that is in no table is not hashed any more. -/
theorem Owned.unhashed (h : Owned s) (hr : (s.shape (.req m)).refCount ≤ 1)
    (hm : Ptr.req m ∉ s.overlay) :
    Owned (s.update (Arena.mapShape fun o => { o with isHashed := false }) (.req m)) where
  baseShape := h.baseShape
  shape q hq := by
    rw [obj_mapShape]
    exact h.shape q ((present_update _).1 hq)
  refs n hn := by
    rw [users_mapShape, shape_mapShape]
    split
    · rename_i e
      cases e
      exact h.refs m hn
    · exact h.refs n hn
  single n hn := by
    rw [shape_mapShape]
    split
    · exact fun _ => hr
    · exact h.single n hn
  overlay sh hsh := by
    obtain ⟨n, hn, rfl, hh⟩ := h.overlay sh hsh
    refine ⟨n, hn, rfl, ?_⟩
    rw [shape_mapShape, if_neg]
    · exact hh
    · rintro e
      exact hm (e ▸ hsh)
  nodup := h.nodup
  baseHash := h.baseHash

/-- A write to a shape that views do not show. -/
theorem Still.mapShape {f : JSShape → JSShape}
    (hf : ∀ o, (f o).proto = o.proto ∧ (f o).props = o.props) :
    Still s (s.update (Arena.mapShape f) (.req m)) := by
  refine ⟨rfl, rfl, rfl, id, fun q _ => ?_⟩
  simp only [State.view, obj_mapShape, shape_mapShape]
  split
  · rename_i e
    simp [JSObject.view, (hf _).1, (hf _).2, e]
  · rfl

/-- `js_shape_prepare_update`: no object looks different, and the shape of `p` may be changed. -/
theorem shapePrepareUpdate_ends [env.Arena] (h : Owned s) (hp : s.Present p)
    (hb : p.isBase = false) :
    Ends s (shapePrepareUpdate env p) (fun sh s' => Owned s' ∧ Still s s' ∧ Mine s' p sh)
      (Fails s) := by
  unfold shapePrepareUpdate
  refine Ends.bind_ok (a := s.obj p) (t := s) rfl ?_
  refine Ends.bind_ok (a := s.shape (s.obj p).shape) (t := s) rfl ?_
  rcases h.shape p hp with hbase | ⟨m, hm, hsh⟩
  · have hun : Ends s (unshareShape env p (s.obj p).shape)
        (fun sh s' => Owned s' ∧ Still s s' ∧ Mine s' p sh) (Fails s) :=
      unshareShape_ends h hp hb rfl (.inl hbase)
    cases (s.shape (s.obj p).shape).isHashed <;>
      simp only [Env.ptrIsBase_eq, hbase, Bool.not_false, Bool.not_true, Bool.true_and,
        Bool.false_and, Bool.or_true, Bool.false_eq_true, if_true, if_false] <;>
      exact hun
  · rw [hsh]
    have hmem : p ∈ s.users (.req m) := ⟨hp, hsh⟩
    have hpos := h.one_le_refCount hm hmem
    cases hh : (s.shape (.req m)).isHashed with
    | false =>
      simp only [Env.ptrIsBase_eq, Ptr.isBase, Bool.and_false, Bool.false_eq_true, if_false]
      exact ⟨h, .refl s, hsh, ⟨m, hm, rfl⟩, hh⟩
    | true =>
      simp only [Env.ptrIsBase_eq, Ptr.isBase, Bool.not_true, Bool.and_false,
        Bool.false_eq_true, if_false, if_true, Bool.or_false, bne_iff_ne, ne_eq]
      by_cases hr : (s.shape (.req m)).refCount = 1
      · simp only [hr, not_true_eq_false, if_false]
        refine (shapeHashUnlink_ends h m).bind ?_
        rintro _ _ rfl
        have hnot : Ptr.req m ∉ (s.unlinked (.req m)).overlay := by
          rw [overlay_unlinked]
          exact h.nodup.not_mem_erase
        refine Ends.bind_ok (a := ()) rfl ⟨(h.unlinked _).unhashed (le_of_eq hr) hnot,
          (Still.unlinked s _).trans (.mapShape fun _ => ⟨rfl, rfl⟩), ?_, ⟨m, hm, rfl⟩, ?_⟩
        · rw [obj_mapShape]
          exact hsh
        · rw [shape_mapShape, if_pos rfl]
      · simp only [hr, not_false_eq_true, if_true]
        exact unshareShape_ends h hp hb hsh (.inr ⟨m, rfl, by omega⟩)

end

end ArenaJs.Heap
