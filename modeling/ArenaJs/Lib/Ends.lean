import Mathlib.Tactic.Ring

/-!
# How a run ends

`Ends s x Q R` is partial correctness of a program `x : EStateM ε σ α` from one start state `s`: if
it returns, the value and the state are in `Q`, and if it stops with an exception, the exception and
the state are in `R`. Both conditions may mention `s`, so they are relations between the states
before and after. The rules follow the program text; `Ends.mono` weakens and `Ends.and` combines.
-/

namespace ArenaJs

variable {ε σ α β : Type}

/-- From `s` the program ends with a value as `Q` says or with an exception as `R` says. -/
def Ends (s : σ) (x : EStateM ε σ α) (Q : α → σ → Prop) (R : ε → σ → Prop) : Prop :=
  match x.run s with
  | .ok a s' => Q a s'
  | .error e s' => R e s'

/-- The state a run ends in. -/
def endState : EStateM.Result ε σ α → σ
  | .ok _ s => s
  | .error _ s => s

variable {s : σ} {x : EStateM ε σ α} {Q Q' : α → σ → Prop} {R R' : ε → σ → Prop}

theorem ends_of_ok {a : α} {t : σ} (h : x.run s = .ok a t) (hq : Q a t) : Ends s x Q R := by
  rw [Ends, h]
  exact hq

theorem ends_of_error {e : ε} {t : σ} (h : x.run s = .error e t) (hr : R e t) :
    Ends s x Q R := by
  rw [Ends, h]
  exact hr

theorem Ends.ok (h : Ends s x Q R) {a : α} {s' : σ} (hx : x.run s = .ok a s') : Q a s' := by
  rw [Ends, hx] at h
  exact h

theorem Ends.error (h : Ends s x Q R) {e : ε} {s' : σ} (hx : x.run s = .error e s') : R e s' := by
  rw [Ends, hx] at h
  exact h

theorem Ends.mono (h : Ends s x Q R) (hq : ∀ a s', Q a s' → Q' a s')
    (hr : ∀ e s', R e s' → R' e s') : Ends s x Q' R' := by
  unfold Ends at h ⊢
  split at h
  · exact hq _ _ h
  · exact hr _ _ h

theorem Ends.and (h : Ends s x Q R) (h' : Ends s x Q' R') :
    Ends s x (fun a s' => Q a s' ∧ Q' a s') fun e s' => R e s' ∧ R' e s' := by
  unfold Ends at h h' ⊢
  split <;> simp_all

theorem Ends.pure {a : α} (h : Q a s) : Ends s (pure a : EStateM ε σ α) Q R := h

theorem Ends.bind {f : α → EStateM ε σ β} {P : β → σ → Prop} (h : Ends s x Q R)
    (hf : ∀ a s', Q a s' → Ends s' (f a) P R) : Ends s (x >>= f) P R := by
  unfold Ends at h ⊢
  rw [EStateM.run_bind]
  cases hx : x.run s with
  | ok a s' =>
    rw [hx] at h
    exact hf a s' h
  | error e s' =>
    rw [hx] at h
    exact h

/-- The first program returns `a` in `t`. -/
theorem Ends.bind_ok {f : α → EStateM ε σ β} {P : β → σ → Prop} {a : α} {t : σ}
    (hx : x.run s = .ok a t) (hf : Ends t (f a) P R) : Ends s (x >>= f) P R := by
  unfold Ends at hf ⊢
  rw [EStateM.run_bind, hx]
  exact hf

theorem Ends.modify {f : σ → σ} {Q : PUnit → σ → Prop} (h : Q ⟨⟩ (f s)) :
    Ends s (modify f : EStateM ε σ PUnit) Q R := h

theorem Ends.tryCatch {h : ε → EStateM ε σ α} (hx : Ends s x Q R)
    (hh : ∀ e s', R e s' → Ends s' (h e) Q R') : Ends s (tryCatch x h) Q R' := by
  unfold Ends at hx ⊢
  have hrun : (tryCatchThe ε x h).run s = match x.run s with
      | .ok a s' => .ok a s'
      | .error e s' => (h e).run s' := by
    simp only [tryCatchThe, MonadExceptOf.tryCatch, EStateM.tryCatch, EStateM.run]
    cases x s <;> rfl
  show (match (tryCatchThe ε x h).run s with
    | .ok a s' => Q a s'
    | .error e s' => R' e s')
  rw [hrun]
  cases hxr : x.run s with
  | ok a s' =>
    rw [hxr] at hx
    exact hx
  | error e s' =>
    rw [hxr] at hx
    exact hh e s' hx

end ArenaJs
