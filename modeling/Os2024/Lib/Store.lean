import Mathlib.Data.List.Basic
import Mathlib.Logic.Function.Basic

/-!
# Loops of stores

A loop that stores `val i` at `key i` for the indices of a list, in order: what no index stores to is untouched, and a
key stored to once holds its value.
-/

namespace Store

variable {ι κ α : Type*} [DecidableEq κ] (key : ι → κ) (val : ι → α)

theorem foldl_update_of_notMem {a : κ} :
    ∀ (l : List ι) (d : κ → α), (∀ i ∈ l, key i ≠ a) →
      l.foldl (fun d i => Function.update d (key i) (val i)) d a = d a
  | [], _, _ => rfl
  | i :: l, d, h => by
    rw [List.foldl_cons, foldl_update_of_notMem l _ fun j hj => h j (List.mem_cons_of_mem _ hj),
      Function.update_of_ne (h i List.mem_cons_self).symm]

theorem foldl_update_of_mem {i : ι} :
    ∀ (l : List ι) (d : κ → α), (∀ j ∈ l, key j = key i → j = i) → i ∈ l →
      l.foldl (fun d i => Function.update d (key i) (val i)) d (key i) = val i
  | j :: l, d, hinj, hi => by
    by_cases hl : i ∈ l
    · rw [List.foldl_cons, foldl_update_of_mem l _ (fun k hk => hinj k (List.mem_cons_of_mem _ hk)) hl]
    · obtain rfl : i = j := (List.mem_cons.mp hi).resolve_right hl
      have hn : ∀ k ∈ l, key k ≠ key i := fun k hk e =>
        hl (hinj k (List.mem_cons_of_mem _ hk) e ▸ hk)
      rw [List.foldl_cons, foldl_update_of_notMem key val l _ hn, Function.update_self]

end Store
