import Mathlib.Algebra.Order.Ring.Nat
import Mathlib.Logic.Function.Basic

/-!
# Runs of cells, replaced

`splice m off n d` is the array `m` with the run of `n` cells from `off` on replaced by the first `n` of `d`. Adjacent
runs make one run, so a loop that replaces cell by cell, or chunk by chunk, replaces one run: `foldl_update`,
`foldl_splice`.
-/

namespace Splice

variable {α : Type*} {m d d' : Nat → α} {off n k w a i : Nat}

/-- The array with a run of cells replaced. -/
def splice (m : Nat → α) (off n : Nat) (d : Nat → α) : Nat → α := fun a =>
  if off ≤ a ∧ a < off + n then d (a - off) else m a

theorem splice_add (h : i < n) : splice m off n d (off + i) = d i := by
  rw [splice, if_pos ⟨Nat.le_add_right off i, Nat.add_lt_add_left h off⟩, Nat.add_sub_cancel_left]

theorem splice_of_notMem (h : ¬ (off ≤ a ∧ a < off + n)) : splice m off n d a = m a := if_neg h

theorem splice_zero : splice m off 0 d = m := by
  funext a
  exact splice_of_notMem (by omega)

theorem splice_one : splice m off 1 d = Function.update m off (d 0) := by
  funext a
  by_cases ha : a = off
  · rw [ha, Function.update_self]
    exact splice_add Nat.zero_lt_one
  · rw [Function.update_of_ne ha]
    exact splice_of_notMem (by omega)

theorem splice_congr (h : ∀ i < n, d i = d' i) : splice m off n d = splice m off n d' := by
  funext a
  unfold splice
  split
  · exact h _ (by omega)
  · rfl

/-- Two runs, one behind the other. -/
theorem splice_append : splice (splice m off n d) (off + n) k (fun i => d (n + i)) = splice m off (n + k) d := by
  funext a
  by_cases hk : off + n ≤ a ∧ a < off + n + k
  · obtain ⟨i, rfl⟩ := Nat.exists_eq_add_of_le hk.1
    rw [splice_add (by omega), Nat.add_assoc, splice_add (by omega)]
  · rw [splice_of_notMem hk]
    by_cases hn : off ≤ a ∧ a < off + n
    · obtain ⟨i, rfl⟩ := Nat.exists_eq_add_of_le hn.1
      rw [splice_add (by omega), splice_add (by omega)]
    · rw [splice_of_notMem hn, splice_of_notMem (by omega)]

/-- A run, one cell longer. -/
theorem update_splice : Function.update (splice m off n d) (off + n) (d n) = splice m off (n + 1) d := by
  rw [← splice_append, splice_one]
  rfl

/-- **Chunks of one width**, one behind the other. -/
theorem foldl_splice (w n : Nat) :
    (List.range n).foldl (fun m i => splice m (off + w * i) w fun j => d (w * i + j)) m = splice m off (w * n) d := by
  induction n with
  | zero => exact splice_zero.symm
  | succ n ih =>
    rw [List.range_succ, List.foldl_append, ih, List.foldl_cons, List.foldl_nil, splice_append]
    rfl

/-- Cells, one behind the other. -/
theorem foldl_update (n : Nat) :
    (List.range n).foldl (fun m i => Function.update m (off + i) (d i)) m = splice m off n d := by
  have h : (List.range n).foldl (fun m i => splice m (off + 1 * i) 1 fun j => d (1 * i + j)) m =
      splice m off (1 * n) d := foldl_splice 1 n
  simp only [Nat.one_mul, splice_one, Nat.add_zero] at h
  exact h

end Splice
