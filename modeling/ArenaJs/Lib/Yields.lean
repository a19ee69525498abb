import Mathlib.Tactic.Ring

/-!
# How a call ends

A call that may not return is an `Option`: `none` if it fails an assertion, follows a dangling
pointer or does not end. `Yields x Q R` says that the call returns a value in `Q`, unless `R` holds;
with `True` for `R` it is partial correctness, with `False` it is total. The rules follow the
program text.
-/

namespace ArenaJs

variable {α β : Type}

/-- The call returns a value as `Q` says, or `R` is why it does not return. -/
def Yields (x : Option α) (Q : α → Prop) (R : Prop) : Prop :=
  match x with
  | some a => Q a
  | none => R

variable {x : Option α} {Q Q' : α → Prop} {R R' : Prop}

theorem Yields.of_eq (h : Yields x Q R) {a : α} (hx : x = some a) : Q a := by
  subst hx
  exact h

theorem Yields.stuck (hr : R) : Yields (none : Option α) Q R := hr

theorem Yields.ret {a : α} (h : Q a) : Yields (some a) Q R := h

theorem yields_of_eq {a : α} (hx : x = some a) (h : Q a) : Yields x Q R := by
  rw [hx]
  exact h

theorem Yields.mono (h : Yields x Q R) (hq : ∀ a, Q a → Q' a) (hr : R → R') : Yields x Q' R' := by
  unfold Yields at h ⊢
  split at h
  · exact hq _ h
  · exact hr h

/-- What is read is what is there. -/
theorem Yields.read (x : Option α) : Yields x (x = some ·) True := by
  cases x with
  | none => trivial
  | some a => exact Eq.refl (a := some a)

theorem Yields.bind {f : α → Option β} {P : β → Prop} (h : Yields x Q R)
    (hf : ∀ a, Q a → Yields (f a) P R) : Yields (x.bind f) P R := by
  cases x with
  | none => exact h
  | some a => exact hf a h

theorem Yields.map {f : α → β} {P : β → Prop} (h : Yields x Q R) (hf : ∀ a, Q a → P (f a)) :
    Yields (x.map f) P R := by
  cases x with
  | none => exact h
  | some a => exact hf a h

end ArenaJs
