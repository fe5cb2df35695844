import Mathlib.Data.List.Sort

/-!
# Upward scans over an array of indices

The loops `for (i = start; i < n; ++i) if (p(i)) …` of C: the first index that satisfies a test (`firstFrom`), and all
of them in order (`hits`). `hits` is strictly increasing, so what lies below one of its members is what comes before it
(`mem_take_hits`).
-/

namespace Scan

variable {n : Nat} {start m : Nat} {p q : Fin n → Bool} {i j : Fin n}

/-- The indices from `start` on that satisfy `p`, in increasing order. -/
def hits (start : Nat) (p : Fin n → Bool) : List (Fin n) :=
  (List.finRange n).filter fun i => decide (start ≤ i.val) && p i

/-- The first index from `start` on that satisfies `p`. -/
def firstFrom (start : Nat) (p : Fin n → Bool) : Option (Fin n) :=
  (List.finRange n).find? fun i => decide (start ≤ i.val) && p i

@[simp] theorem mem_hits : i ∈ hits start p ↔ start ≤ i.val ∧ p i = true := by
  simp [hits]

theorem hits_pairwise (start : Nat) (p : Fin n → Bool) : (hits start p).Pairwise (· < ·) :=
  (List.sortedLT_finRange n).pairwise.filter _

/-- A hit below the `m`-th one is among the first `m`. -/
theorem mem_take_hits (hi : i ∈ hits start p) (hm : m < (hits start p).length) (hlt : i < (hits start p)[m]) :
    i ∈ (hits start p).take m := by
  obtain ⟨k, hk, rfl⟩ := List.getElem_of_mem hi
  have hkm : k < m := by
    by_contra hge
    rcases Nat.eq_or_lt_of_le (Nat.le_of_not_lt hge) with rfl | hlt'
    · exact lt_irrefl _ hlt
    · exact lt_asymm hlt (List.pairwise_iff_getElem.mp (hits_pairwise start p) m k hm hk hlt')
  exact List.mem_take_iff_getElem.mpr ⟨k, by omega, rfl⟩

theorem firstFrom_eq_some : firstFrom start p = some i ↔
    start ≤ i.val ∧ p i = true ∧ ∀ j : Fin n, start ≤ j.val → j < i → p j = false := by
  unfold firstFrom
  rw [List.find?_eq_some_iff_getElem]
  constructor
  · rintro ⟨hi, k, hk, rfl, hb⟩
    simp only [Bool.and_eq_true, decide_eq_true_eq] at hi
    refine ⟨hi.1, hi.2, fun j hs hj => ?_⟩
    have := hb j.val (by simpa [Fin.lt_def] using hj)
    simpa [hs] using this
  · rintro ⟨hs, hp, hb⟩
    refine ⟨by simp [hs, hp], i.val, by simp, by simp, fun j hj => ?_⟩
    have hjn : j < n := hj.trans i.isLt
    by_cases hsj : start ≤ j
    · simp [hb ⟨j, hjn⟩ hsj hj]
    · simp [hsj]

theorem firstFrom_eq_none : firstFrom start p = none ↔ ∀ i : Fin n, start ≤ i.val → p i = false := by
  simp [firstFrom]

theorem firstFrom_isSome : (firstFrom start p).isSome ↔ ∃ i : Fin n, start ≤ i.val ∧ p i = true := by
  simp [firstFrom]

/-- A scan that skips its first index. -/
theorem firstFrom_succ (hi : i.val = m) (hp : p i = false) : firstFrom m p = firstFrom (m + 1) p := by
  cases h : firstFrom (m + 1) p with
  | none =>
    refine firstFrom_eq_none.mpr fun j hj => ?_
    rcases Nat.eq_or_lt_of_le hj with he | hlt
    · exact Fin.ext (hi.trans he) ▸ hp
    · exact firstFrom_eq_none.mp h j hlt
  | some k =>
    obtain ⟨hk, hpk, hfirst⟩ := firstFrom_eq_some.mp h
    refine firstFrom_eq_some.mpr ⟨by omega, hpk, fun j hj hlt => ?_⟩
    rcases Nat.eq_or_lt_of_le hj with he | hlt'
    · exact Fin.ext (hi.trans he) ▸ hp
    · exact hfirst j hlt' hlt

theorem hits_nodup (start : Nat) (p : Fin n → Bool) : (hits start p).Nodup := (hits_pairwise start p).nodup

/-- An index satisfies the test or does not. -/
theorem length_hits_add (start : Nat) (p : Fin n → Bool) :
    (hits start p).length + (hits start fun i => !p i).length = n - start := by
  have hrange : ∀ n, ((List.range n).filter fun i => decide (start ≤ i)).length = n - start := by
    intro n
    induction n with
    | zero => simp
    | succ n ih =>
      by_cases hs : start ≤ n <;> simp [List.range_succ, hs, ih] <;> omega
  have hcard : ((List.finRange n).filter fun i => decide (start ≤ i.val)).length = n - start := by
    rw [← hrange n, ← List.map_coe_finRange_eq_range, List.filter_map, List.length_map]
    rfl
  rw [← hcard, hits, hits]
  induction List.finRange n with
  | nil => rfl
  | cons i l ih =>
    by_cases hs : start ≤ i.val <;> cases hp : p i <;> simp [hs, hp] at ih ⊢ <;> omega

/-- The scan finds nothing if the indices that fail the test are all there are. -/
theorem firstFrom_not_eq_none : firstFrom start (fun i => !p i) = none ↔ n - start ≤ (hits start p).length := by
  have hadd := length_hits_add start p
  have hnil : firstFrom start (fun i => !p i) = none ↔ hits start (fun i => !p i) = [] := by
    rw [firstFrom, hits, List.find?_eq_none, List.filter_eq_nil_iff]
  rw [hnil, ← List.length_eq_zero_iff]
  omega

/-! Proofs use the lemmas above and never walk through the indices. -/

attribute [irreducible] hits firstFrom

end Scan
