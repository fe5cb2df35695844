import Mathlib.Algebra.Order.Ring.Nat
import Mathlib.Logic.Equiv.Fin.Basic
import Mathlib.Tactic.Ring

/-!
# Packed little-endian layouts

Fixed-width numbers and arrays of fixed-width records as they lie in memory: `leBytes w x` are the `w` low bytes of
`x`, lowest first, and `ofLe` reads them back; `flatten` lays the records of an array one after the other and `chunk`
cuts them out again. Each pair is inverse on both sides.
-/

namespace Bytes

/-! ## Numbers -/

/-- The `w` low bytes of `x`, lowest first. -/
def leBytes (w : Nat) (x : Nat) : Fin w → UInt8 := fun k => UInt8.ofNat (x / 256 ^ k.val)

/-- The number whose bytes are `b`, lowest first. -/
def ofLe : {w : Nat} → (Fin w → UInt8) → Nat
  | 0, _ => 0
  | _ + 1, b => (b 0).toNat + 256 * ofLe (Fin.tail b)

theorem tail_leBytes (w x : Nat) : Fin.tail (leBytes (w + 1) x) = leBytes w (x / 256) := by
  funext k
  simp only [Fin.tail, leBytes, Fin.val_succ, Nat.pow_succ', Nat.div_div_eq_div_mul]

theorem ofLe_lt : ∀ {w : Nat} (b : Fin w → UInt8), ofLe b < 256 ^ w
  | 0, _ => by simp [ofLe]
  | w + 1, b => by
    have hb := (b 0).toNat_lt
    have ih := ofLe_lt (Fin.tail b)
    rw [ofLe, Nat.pow_succ']
    omega

/-- Reading what was laid out gives the number back, modulo the width. -/
theorem ofLe_leBytes : ∀ (w x : Nat), ofLe (leBytes w x) = x % 256 ^ w
  | 0, x => by simp [ofLe, Nat.mod_one]
  | w + 1, x => by
    have h0 : (leBytes (w + 1) x 0).toNat = x % 256 := by simp [leBytes]
    rw [ofLe, h0, tail_leBytes, ofLe_leBytes, Nat.pow_succ', Nat.mod_mul]

/-- A bit of the number is one of the byte that has it. -/
theorem testBit_ofLe : ∀ {w : Nat} (b : Fin w → UInt8) (m : Nat),
    (ofLe b).testBit m = if h : m / 8 < w then (b ⟨m / 8, h⟩).toNat.testBit (m % 8) else false
  | 0, _, m => by rw [ofLe, Nat.zero_testBit, dif_neg (Nat.not_lt_zero _)]
  | w + 1, b, m => by
    have hb := (b 0).toNat_lt
    have hsplit : ofLe b = 2 ^ 8 * ofLe (Fin.tail b) + (b 0).toNat := Nat.add_comm ..
    rw [hsplit, Nat.testBit_two_pow_mul_add _ hb]
    by_cases hm : m < 8
    · have hindex : (⟨m / 8, by omega⟩ : Fin (w + 1)) = 0 := Fin.ext (Nat.div_eq_of_lt hm)
      rw [if_pos hm, dif_pos (by omega), hindex, Nat.mod_eq_of_lt hm]
    · have hmod : (m - 8) % 8 = m % 8 := by omega
      rw [if_neg hm, testBit_ofLe (Fin.tail b) (m - 8), hmod]
      by_cases hw : m / 8 < w + 1
      · have hindex : Fin.succ (⟨(m - 8) / 8, by omega⟩ : Fin w) = ⟨m / 8, hw⟩ := Fin.ext (show (m - 8) / 8 + 1 = m / 8 by omega)
        rw [dif_pos hw, dif_pos (by omega), Fin.tail, hindex]
      · rw [dif_neg hw, dif_neg (by omega)]

/-- Laying out what was read gives the bytes back. -/
theorem leBytes_ofLe : ∀ {w : Nat} (b : Fin w → UInt8), leBytes w (ofLe b) = b
  | 0, b => funext fun k => k.elim0
  | w + 1, b => by
    have hb := (b 0).toNat_lt
    funext k
    cases k using Fin.cases with
    | zero =>
      apply UInt8.toNat_inj.mp
      simp only [leBytes, ofLe, Fin.val_zero, Nat.pow_zero, Nat.div_one, UInt8.toNat_ofNat']
      omega
    | succ k =>
      have hd : ofLe b / 256 = ofLe (Fin.tail b) := by rw [ofLe]; omega
      have ht := congrFun (tail_leBytes w (ofLe b)) k
      rw [hd, leBytes_ofLe (Fin.tail b)] at ht
      exact ht

/-! ## Arrays of records -/

section Arrays

variable {α : Type*} {n m : Nat}

/-- The records of `f`, one after the other. -/
def flatten (f : Fin n → Fin m → α) : Fin (n * m) → α := fun k => f k.divNat k.modNat

/-- The records that lie one after the other in `g`. -/
def chunk (g : Fin (n * m) → α) : Fin n → Fin m → α := fun i j => g (finProdFinEquiv (i, j))

@[simp] theorem chunk_flatten (f : Fin n → Fin m → α) : chunk (flatten f) = f := by
  funext i j
  have h := finProdFinEquiv.symm_apply_apply (i, j)
  simp only [finProdFinEquiv_symm_apply, Prod.mk.injEq] at h
  simp only [chunk, flatten, h.1, h.2]

@[simp] theorem flatten_chunk (g : Fin (n * m) → α) : flatten (chunk g) = g := by
  funext k
  have h := finProdFinEquiv.apply_symm_apply k
  rw [finProdFinEquiv_symm_apply] at h
  simp only [flatten, chunk, h]

theorem chunk_one (g : Fin (1 * m) → α) (i : Fin 1) (k : Fin m) : chunk g i k = g (k.cast (Nat.one_mul m).symm) := by
  obtain rfl := Subsingleton.elim i 0
  exact congrArg g (Fin.ext (by simp [finProdFinEquiv_apply_val]))

theorem flatten_one (f : Fin 1 → Fin m → α) (k : Fin (1 * m)) : flatten f k = f 0 (k.cast (Nat.one_mul m)) := by
  rw [flatten, Subsingleton.elim k.divNat 0]
  exact congrArg (f 0) (Fin.ext (Nat.mod_eq_of_lt (by omega)))

end Arrays

end Bytes
