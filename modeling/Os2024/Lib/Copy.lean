import Mathlib.Data.List.Basic
import Mathlib.Logic.Function.Basic

/-!
# Loops that copy cells within one memory

A loop copies cell `src i` to cell `dst i` for the indices of a list, in order, in a memory where the two may be the
same cells. If no cell is copied to before it has been copied from, and none is copied to twice, every cell copied to
ends with what its source held at the start: `copies_of_mem`.
-/

namespace Copy

variable {ι κ α : Type*} [DecidableEq κ] (dst src : ι → κ)

/-- One cell, copied. -/
def step (m : κ → α) (i : ι) : κ → α := Function.update m (dst i) (m (src i))

/-- Any cells, copied one after the other. -/
def copies (l : List ι) (m : κ → α) : κ → α := l.foldl (step dst src) m

/-- What is still to be copied is not overwritten, and nothing that was copied is. -/
def Ordered (l : List ι) : Prop := l.Pairwise fun i j => dst i ≠ src j ∧ dst i ≠ dst j

variable {dst src} {l l' : List ι} {m : κ → α} {a : κ} {i : ι}

theorem copies_cons : copies dst src (i :: l) m = copies dst src l (step dst src m i) := rfl

theorem copies_append : copies dst src (l ++ l') m = copies dst src l' (copies dst src l m) := List.foldl_append

theorem step_of_ne (h : dst i ≠ a) : step dst src m i a = m a := Function.update_of_ne h.symm _ _

/-- What is not copied to is left alone. -/
theorem copies_of_notMem (h : ∀ i ∈ l, dst i ≠ a) : copies dst src l m a = m a := by
  induction l generalizing m with
  | nil => rfl
  | cons i l ih =>
    rw [copies_cons, ih fun j hj => h j (List.mem_cons_of_mem i hj), step_of_ne (h i List.mem_cons_self)]

/-- **What is copied to** ends with what its source held at the start. -/
theorem copies_of_mem (h : Ordered dst src l) (hi : i ∈ l) : copies dst src l m (dst i) = m (src i) := by
  induction l generalizing m with
  | nil => cases hi
  | cons j l ih =>
    obtain ⟨hj, hl⟩ := List.pairwise_cons.mp h
    rw [copies_cons]
    rcases List.mem_cons.mp hi with rfl | hi
    · rw [copies_of_notMem fun k hk => (hj k hk).2.symm, step, Function.update_self]
    · rw [ih hl hi, step_of_ne (hj i hi).1]

end Copy
