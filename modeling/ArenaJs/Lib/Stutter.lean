import Mathlib.Tactic.Ring

/-!
# Simulation with stuttering

Two deterministic machines, `f` on `α` and `g` on `β`. A relation is a stuttering simulation when
every step of `f` is one step of `g`, or is none of `g` and makes a measure smaller. The steps of
`f` have to meet a condition `ok`. Then every state of the first run is related to one of the second
(`forth`), and, because `f` cannot stutter for ever, the other way round (`back`).
-/

namespace ArenaJs

/-- A simulation of the machine `f` by the machine `g`, in which steps of `f` can be steps of its
own. -/
structure StutterSim {α β : Type*} (f : α → α) (g : β → β) (ok : α → Prop) (rel : α → β → Prop)
    (left : α → Nat) : Prop where
  step : ∀ {a b}, rel a b → ok a → rel (f a) (g b) ∨ rel (f a) b ∧ left (f a) < left a

namespace StutterSim

variable {α β : Type*} {f : α → α} {g : β → β} {ok : α → Prop} {rel : α → β → Prop}
  {left : α → Nat}

/-- Every state of the first run has a partner. -/
theorem forth (h : StutterSim f g ok rel left) {a : α} {b : β} (hab : rel a b) (m : Nat)
    (hok : ∀ i < m, ok (f^[i] a)) : ∃ n, rel (f^[m] a) (g^[n] b) := by
  induction m with
  | zero => exact ⟨0, hab⟩
  | succ m ih =>
    obtain ⟨n, hn⟩ := ih fun i hi => hok i (by omega)
    rw [Function.iterate_succ_apply']
    rcases h.step hn (hok m (by omega)) with hs | ⟨hs, -⟩
    · exact ⟨n + 1, by rwa [Function.iterate_succ_apply']⟩
    · exact ⟨n, hs⟩

/-- The first machine reaches the next state of the second. -/
theorem catch_up (h : StutterSim f g ok rel left) {a : α} {b : β} (hab : rel a b)
    (hok : ∀ i, ok (f^[i] a)) : ∃ m, rel (f^[m] a) (g b) := by
  -- on the steps that `f` can still take alone
  induction hl : left a using Nat.strongRecOn generalizing a with
  | _ l ih =>
    rcases h.step hab (hok 0) with hs | ⟨hs, hlt⟩
    · exact ⟨1, hs⟩
    · obtain ⟨m, hm⟩ := ih _ (hl ▸ hlt) hs (fun i => hok (i + 1)) rfl
      exact ⟨m + 1, hm⟩

/-- Every state of the second run has a partner. -/
theorem back (h : StutterSim f g ok rel left) {a : α} {b : β} (hab : rel a b)
    (hok : ∀ i, ok (f^[i] a)) (n : Nat) : ∃ m, rel (f^[m] a) (g^[n] b) := by
  induction n with
  | zero => exact ⟨0, hab⟩
  | succ n ih =>
    obtain ⟨m, hm⟩ := ih
    obtain ⟨k, hk⟩ := h.catch_up hm fun i => by
      rw [← Function.iterate_add_apply]
      exact hok (i + m)
    refine ⟨k + m, ?_⟩
    rwa [Function.iterate_add_apply, Function.iterate_succ_apply']

end StutterSim

end ArenaJs
