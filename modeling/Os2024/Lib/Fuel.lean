import Mathlib.Algebra.Order.Ring.Nat

/-!
# Executions on fuel

A loop that may not end is a function of an amount of fuel. What it settles on for all large enough amounts is its
result: `Returns`. A result is unique (`Returns.unique`).
-/

namespace Fuel

variable {α : Type*} {f : Nat → α} {a b : α}

/-- For every large enough amount of fuel the result is `a`. -/
def Returns (f : Nat → α) (a : α) : Prop := ∃ enough, ∀ fuel ≥ enough, f fuel = a

theorem Returns.of_ge (enough : Nat) (h : ∀ fuel ≥ enough, f fuel = a) : Returns f a := ⟨enough, h⟩

theorem Returns.unique (ha : Returns f a) (hb : Returns f b) : a = b := by
  obtain ⟨m, hm⟩ := ha
  obtain ⟨n, hn⟩ := hb
  exact (hm (max m n) (le_max_left m n)).symm.trans (hn (max m n) (le_max_right m n))

end Fuel
