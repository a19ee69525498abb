import Mathlib.Tactic.Ring

/-!
# Chains of parents

Every node has at most one parent. `Grounded` says that every chain of parents ends; then no node is
above itself. Giving a node a new parent keeps this when the node is not on the new parent's chain
(`Grounded.update`).
-/

namespace ArenaJs

variable {α : Type*} {next next' : α → Option α} {a b q : α}

/-- `b` is the parent of `a`. -/
def ParentOf (next : α → Option α) (a b : α) : Prop := next a = some b

/-- `b` is on the chain that starts at `a`. -/
def OnChain (next : α → Option α) (a b : α) : Prop := Relation.ReflTransGen (ParentOf next) a b

/-- Every chain ends. -/
def Grounded (next : α → Option α) : Prop := WellFounded fun b a => ParentOf next a b

/-- No node is above itself. -/
theorem Grounded.not_above (h : Grounded next) (a : α) :
    ¬ Relation.TransGen (ParentOf next) a a := by
  induction a using h.induction with
  | _ a ih =>
    intro hcycle
    obtain ⟨b, hab, hba⟩ := Relation.TransGen.head'_iff.1 hcycle
    -- the parent of a node on a cycle is on a cycle
    exact ih b hab (Relation.TransGen.tail' hba hab)

/-- A node whose chain does not meet `a` still has an end when the parent of `a` changes. -/
theorem Grounded.acc_of_not_onChain (h : Grounded next) (hne : ∀ x, x ≠ a → next' x = next x)
    (x : α) (hx : ¬ OnChain next x a) : Acc (fun b a => ParentOf next' a b) x := by
  induction x using h.induction with
  | _ x ih =>
    refine ⟨x, fun y hy => ?_⟩
    have hxa : x ≠ a := fun e => hx (e ▸ .refl)
    have hy' : ParentOf next x y := (hne x hxa).symm.trans hy
    exact ih y hy' fun hya => hx (.head hy' hya)

/-- The parent of one node changes to one whose chain does not lead back to it. -/
theorem Grounded.update (h : Grounded next) (hne : ∀ x, x ≠ a → next' x = next x)
    (ha : ∀ q, next' a = some q → ¬ OnChain next q a) : Grounded next' := by
  have hacc : Acc (fun b a => ParentOf next' a b) a :=
    ⟨a, fun q hq => h.acc_of_not_onChain hne q (ha q hq)⟩
  refine ⟨fun x => ?_⟩
  induction x using h.induction with
  | _ x ih =>
    by_cases hx : x = a
    · exact hx ▸ hacc
    · exact ⟨x, fun y hy => ih y ((hne x hx).symm.trans hy)⟩

theorem Grounded.congr (h : Grounded next) (he : ∀ x, next' x = next x) : Grounded next' := by
  rwa [show next' = next from funext he]

end ArenaJs
