import ArenaJs.Engine.Run
import ArenaJs.Lib.Ends
import Mathlib.Data.Set.Card

/-!
# Objects by themselves

Objects share shapes, so what one call does to a shape could show at another object. `Owned` is the
discipline that prevents it: a request shape counts its users, and one that is not hashed has a
single one. Under it an object is a record of its own, its `View`, with the prototype and the
entries of its shape; a function that only prepares an object leaves all views (`Still`).
-/

namespace ArenaJs.Heap

/-! ## Looking at a state -/

/-- What `find_own_property` finds. -/
def State.findOwn (s : State) (p : Ptr) (prop : Atom) : Option Found :=
  JSObject.findOwn (s.obj p) (s.shape (s.obj p).shape) prop

/-- What `js_object_active` returns. -/
def State.active (env : Env) (s : State) : Ptr → Ptr
  | .base n => if env.isArena && s.shadowTab.contains n then .shadow n else .base n
  | p => p

theorem findOwnProperty_run (p : Ptr) (prop : Atom) (s : State) :
    (findOwnProperty p prop).run s = .ok (s.findOwn p prop) s := rfl

theorem objectActive_run {env : Env} (p : Ptr) (s : State) :
    (objectActive env p).run s = .ok (s.active env p) s := by
  cases p with
  | base n =>
    simp only [objectActive, State.active, EStateM.run_bind, EStateM.run_get]
    split <;> rfl
  | req n => rfl
  | shadow n => rfl

/-! ## Views -/

/-- An object with the prototype and the entries of its shape. -/
structure View where
  classId : ClassId
  extensible : Bool
  isExotic : Bool
  fastArray : Bool
  isPrototype : Bool
  proto : Option Ptr
  props : List ShapeProp
  prop : List JSProperty
  u : ObjData
deriving DecidableEq, Repr

/-- An object that exists: a shadow does once it is in the table. -/
def State.Present (s : State) : Ptr → Prop
  | .base _ => True
  | .req n => n < s.nextObj
  | .shadow n => n ∈ s.shadowTab

/-- The view of an object by its two records. -/
def JSObject.view (o : JSObject) (sh : JSShape) : View where
  classId := o.classId
  extensible := o.extensible
  isExotic := o.isExotic
  fastArray := o.fastArray
  isPrototype := o.isPrototype
  proto := sh.proto
  props := sh.props
  prop := o.prop
  u := o.u

def State.view (s : State) (p : Ptr) : View := JSObject.view (s.obj p) (s.shape (s.obj p).shape)

/-! ## The discipline of shapes -/

/-- The objects that have the shape. -/
def State.users (s : State) (sh : Ptr) : Set Ptr := {p | s.Present p ∧ (s.obj p).shape = sh}

/-- The hashed shapes of the request. -/
def State.overlay (s : State) : List Ptr := s.shapeOverlay.getD []

/-- Who holds which shape. -/
structure Owned (s : State) : Prop where
  /-- Snapshot objects have snapshot shapes, which are never changed. -/
  baseShape : ∀ n, (s.base.objs n).shape.isBase
  shape : ∀ p, s.Present p → (s.obj p).shape.isBase ∨ ∃ m < s.nextShape, (s.obj p).shape = .req m
  refs : ∀ m < s.nextShape, (s.users (.req m)).encard ≤ (s.shape (.req m)).refCount
  single : ∀ m < s.nextShape, (s.shape (.req m)).isHashed = false → (s.shape (.req m)).refCount ≤ 1
  overlay : ∀ sh ∈ s.overlay, ∃ m < s.nextShape, sh = .req m ∧ (s.shape (.req m)).isHashed
  nodup : s.overlay.Nodup
  baseHash : ∀ sh ∈ s.base.shapeHash, sh.isBase

/-- Every object looks the same. -/
structure Still (s s' : State) : Prop where
  base : s'.base = s.base
  nextObj : s'.nextObj = s.nextObj
  tab : s'.shadowTab = s.shadowTab
  dirty : s.stdArrayPrototypeDirty → s'.stdArrayPrototypeDirty
  view : ∀ q, s.Present q → s'.view q = s.view q

section
variable {s s' s'' : State} {p q : Ptr}

theorem Still.refl (s : State) : Still s s := ⟨rfl, rfl, rfl, id, fun _ _ => rfl⟩

theorem State.present_congr (hn : s'.nextObj = s.nextObj) (ht : s'.shadowTab = s.shadowTab) :
    s'.Present q ↔ s.Present q := by
  cases q with
  | base => exact Iff.rfl
  | req n => rw [State.Present, State.Present, hn]
  | shadow n => rw [State.Present, State.Present, ht]

theorem Still.present (h : Still s s') : s'.Present q ↔ s.Present q :=
  State.present_congr h.nextObj h.tab

theorem Still.trans (h : Still s s') (h' : Still s' s'') : Still s s'' :=
  ⟨h'.base.trans h.base, h'.nextObj.trans h.nextObj, h'.tab.trans h.tab, h'.dirty ∘ h.dirty,
    fun q hq => (h'.view q (h.present.2 hq)).trans (h.view q hq)⟩

/-! ## Accounting -/

/-- A request shape with a user is not freed, and with a single reference it has no other. -/
theorem Owned.eq_of_refCount_le_one (h : Owned s) {m : Nat} (hm : m < s.nextShape)
    (hr : (s.shape (.req m)).refCount ≤ 1) (hp : p ∈ s.users (.req m)) (hq : q ∈ s.users (.req m)) :
    p = q := by
  have hle : (s.users (.req m)).encard ≤ 1 := (h.refs m hm).trans (by exact_mod_cast hr)
  exact Set.encard_le_one_iff.1 hle p q hp hq

theorem Owned.one_le_refCount (h : Owned s) {m : Nat} (hm : m < s.nextShape)
    (hp : p ∈ s.users (.req m)) : 1 ≤ (s.shape (.req m)).refCount := by
  have hle : 1 ≤ (s.users (.req m)).encard := Set.one_le_encard_iff_nonempty.2 ⟨p, hp⟩
  exact_mod_cast hle.trans (h.refs m hm)

end

end ArenaJs.Heap
