import Mathlib.Data.Finset.Card
import Mathlib.Data.Fintype.Defs
import Mathlib.Logic.Function.Basic

/-!
# Leases

Slots hold resources, and a register says which resources are taken. A slot takes a resource that is free, whatever it
held before, or gives back the one it holds.

* `Sound.take`, `Sound.giveBack`: a resource that is held is taken, and by one slot only;
* `lost_take_iff`, `lost_giveBack_iff`: the only way to lose a resource, taken and held by no slot, is to take another
  one into the slot that holds it;
* `card_free_take`, `card_free_giveBack`: the number of free resources.
-/

namespace Lease

/-- Which resources are taken, and what each slot holds. -/
structure Register (σ ρ : Type*) where
  taken : ρ → Bool
  holds : σ → Option ρ

variable {σ ρ : Type*} {b : Register σ ρ} {k : σ} {r q : ρ}

namespace Register

/-- What a slot holds is taken, and no other slot holds it. -/
structure Sound (b : Register σ ρ) : Prop where
  taken : ∀ {k r}, b.holds k = some r → b.taken r = true
  unique : ∀ {k k' r}, b.holds k = some r → b.holds k' = some r → k = k'

/-- Taken, and held by no slot. -/
def Lost (b : Register σ ρ) (r : ρ) : Prop := b.taken r = true ∧ ∀ k, b.holds k ≠ some r

/-- A resource that is not lost is taken if and only if exactly one slot holds it. -/
theorem not_lost_iff (h : b.Sound) : ¬ b.Lost r ↔ (b.taken r = true ↔ ∃! k, b.holds k = some r) := by
  constructor
  · intro hn
    constructor
    · intro ht
      obtain ⟨k, hk⟩ : ∃ k, b.holds k = some r := by
        by_contra hne
        exact hn ⟨ht, not_exists.mp hne⟩
      exact ⟨k, hk, fun k' hk' => h.unique hk' hk⟩
    · rintro ⟨k, hk, -⟩
      exact h.taken hk
  · rintro hiff ⟨ht, hno⟩
    obtain ⟨k, hk, -⟩ := hiff.mp ht
    exact hno k hk

/-- The resources that are not taken. -/
def free [Fintype ρ] (b : Register σ ρ) : Finset ρ := Finset.univ.filter fun r => b.taken r = false

@[simp] theorem mem_free [Fintype ρ] : r ∈ b.free ↔ b.taken r = false := by simp [free]

variable [DecidableEq σ] [DecidableEq ρ]

/-- The slot `k` takes `r`. -/
def take (b : Register σ ρ) (k : σ) (r : ρ) : Register σ ρ where
  taken := Function.update b.taken r true
  holds := Function.update b.holds k (some r)

/-- The slot `k` gives `r` back. -/
def giveBack (b : Register σ ρ) (k : σ) (r : ρ) : Register σ ρ where
  taken := Function.update b.taken r false
  holds := Function.update b.holds k none

/-! ## Taking -/

/-- What a slot holds once `k` has taken `r`. -/
theorem holds_take {k' : σ} (hk : (b.take k r).holds k' = some q) :
    (k' = k ∧ q = r) ∨ (k' ≠ k ∧ b.holds k' = some q) := by
  by_cases hkk : k' = k
  · subst hkk
    exact .inl ⟨rfl, by simpa [take, eq_comm] using hk⟩
  · exact .inr ⟨hkk, by simpa [take, hkk] using hk⟩

theorem Sound.take (h : b.Sound) (hr : b.taken r = false) : (b.take k r).Sound := by
  -- a slot other than `k` holds something else than the free `r`
  have hne : ∀ {k' q}, b.holds k' = some q → q ≠ r := by
    rintro k' q hq rfl
    exact absurd (h.taken hq) (by simp [hr])
  constructor
  · intro k' q hq
    rcases holds_take hq with ⟨-, rfl⟩ | ⟨-, hq⟩
    · simp [Register.take]
    · simp [Register.take, hne hq, h.taken hq]
  · intro k₁ k₂ q h₁ h₂
    rcases holds_take h₁ with ⟨hk₁, hq⟩ | ⟨-, ho₁⟩
    · rcases holds_take h₂ with ⟨hk₂, -⟩ | ⟨-, ho₂⟩
      · exact hk₁.trans hk₂.symm
      · exact absurd hq (hne ho₂)
    · rcases holds_take h₂ with ⟨-, hq⟩ | ⟨-, ho₂⟩
      · exact absurd hq (hne ho₁)
      · exact h.unique ho₁ ho₂

/-- **Taking loses what the slot held before.** -/
theorem lost_take_iff (h : b.Sound) (hr : b.taken r = false) :
    (b.take k r).Lost q ↔ b.Lost q ∨ b.holds k = some q := by
  constructor
  · rintro ⟨ht, hno⟩
    have hqr : q ≠ r := by
      rintro rfl
      exact hno k (by simp [take])
    have hq : b.taken q = true := by simpa [take, hqr] using ht
    by_cases hk : b.holds k = some q
    · exact .inr hk
    · refine .inl ⟨hq, fun k' hk' => ?_⟩
      have hkk : k' ≠ k := by
        rintro rfl
        exact hk hk'
      exact hno k' (by simpa [take, hkk] using hk')
  · intro hq
    have ht : b.taken q = true := hq.elim (·.1) h.taken
    have hqr : q ≠ r := by
      rintro rfl
      simp [hr] at ht
    refine ⟨by simpa [take, hqr] using ht, fun k' hk' => ?_⟩
    rcases holds_take hk' with ⟨-, rfl⟩ | ⟨hkk, hk'⟩
    · exact hqr rfl
    · rcases hq with ⟨-, hno⟩ | hk
      · exact hno k' hk'
      · exact hkk (h.unique hk' hk)

/-! ## Giving back -/

theorem holds_giveBack {k' : σ} (hk : (b.giveBack k r).holds k' = some q) : k' ≠ k ∧ b.holds k' = some q := by
  by_cases hkk : k' = k
  · subst hkk
    simp [giveBack] at hk
  · exact ⟨hkk, by simpa [giveBack, hkk] using hk⟩

theorem Sound.giveBack (h : b.Sound) (hk : b.holds k = some r) : (b.giveBack k r).Sound := by
  constructor
  · intro k' q hq
    obtain ⟨hkk, ho⟩ := holds_giveBack hq
    have hqr : q ≠ r := by
      rintro rfl
      exact hkk (h.unique ho hk)
    simp [Register.giveBack, hqr, h.taken ho]
  · intro k₁ k₂ q h₁ h₂
    exact h.unique (holds_giveBack h₁).2 (holds_giveBack h₂).2

/-- Giving back loses nothing, and finds nothing. -/
theorem lost_giveBack_iff (hk : b.holds k = some r) : (b.giveBack k r).Lost q ↔ b.Lost q := by
  constructor
  · rintro ⟨ht, hno⟩
    have hqr : q ≠ r := by
      rintro rfl
      simp [giveBack] at ht
    refine ⟨by simpa [giveBack, hqr] using ht, fun k' hk' => ?_⟩
    have hkk : k' ≠ k := by
      rintro rfl
      exact hqr (Option.some.inj (hk'.symm.trans hk))
    exact hno k' (by simpa [giveBack, hkk] using hk')
  · rintro ⟨ht, hno⟩
    have hqr : q ≠ r := by
      rintro rfl
      exact hno k hk
    exact ⟨by simpa [giveBack, hqr] using ht, fun k' hk' => hno k' (holds_giveBack hk').2⟩

/-! ## How many are free -/

section Free

variable [Fintype ρ]

theorem card_free_take (hr : b.taken r = false) : (b.take k r).free.card = b.free.card - 1 := by
  have hfree : (b.take k r).free = b.free.erase r := by
    ext q
    by_cases hq : q = r <;> simp [take, hq]
  rw [hfree, Finset.card_erase_of_mem (mem_free.mpr hr)]

theorem card_free_giveBack (hr : b.taken r = true) : (b.giveBack k r).free.card = b.free.card + 1 := by
  have hfree : (b.giveBack k r).free = insert r b.free := by
    ext q
    by_cases hq : q = r <;> simp [giveBack, hq]
  rw [hfree, Finset.card_insert_of_notMem (by simp [hr])]

end Free

end Register

end Lease
