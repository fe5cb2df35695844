import Mathlib.Algebra.Order.Ring.Nat
import Mathlib.Data.List.OfFn
import Mathlib.Logic.Function.Basic

/-!
# Byte memory and `string.c`

The 32-bit address space as a map from addresses to bytes, and the routines of `ch0/stdlib/string.c` the file system
uses. A pointer argument with a length is the bytes it points to; pointer arithmetic wraps modulo `2 ^ 32`.
-/

namespace Os2024

/-- The bytes of the 32-bit address space. -/
abbrev Memory := UInt32 → UInt8

namespace Memory

variable {n : Nat}

/-- The `n` bytes at `ptr`. -/
def load (mem : Memory) (ptr : UInt32) (n : Nat) : Fin n → UInt8 := fun k => mem (ptr + UInt32.ofNat k)

/-- `memcpy` of `n` bytes to `ptr`. -/
def store (mem : Memory) (ptr : UInt32) (bytes : Fin n → UInt8) : Memory :=
  fun a => if h : (a - ptr).toNat < n then bytes ⟨(a - ptr).toNat, h⟩ else mem a

theorem store_of_lt {mem : Memory} {ptr a : UInt32} {bytes : Fin n → UInt8} (h : (a - ptr).toNat < n) :
    mem.store ptr bytes a = bytes ⟨(a - ptr).toNat, h⟩ := dif_pos h

/-- What was copied to a place reads back from it. -/
@[simp] theorem load_store {mem : Memory} {ptr : UInt32} {bytes : Fin n → UInt8} (hn : n ≤ 2 ^ 32) :
    (mem.store ptr bytes).load ptr n = bytes := by
  funext k
  have hk : (ptr + UInt32.ofNat k - ptr).toNat = k.val := by
    have h : ptr + UInt32.ofNat k - ptr = UInt32.ofNat k := by rw [UInt32.add_comm, UInt32.add_sub_cancel]
    rw [h, UInt32.toNat_ofNat_of_lt' (lt_of_lt_of_le k.isLt hn)]
  rw [load, store_of_lt (by rw [hk]; exact k.isLt)]
  exact congrArg bytes (Fin.ext hk)

/-- A second store to the same place. -/
@[simp] theorem store_store (mem : Memory) (ptr : UInt32) (bytes bytes' : Fin n → UInt8) :
    (mem.store ptr bytes).store ptr bytes' = mem.store ptr bytes' := by
  funext a
  unfold store
  split <;> rfl

/-- What a byte is after a store, both at offsets from one address. -/
theorem store_add {mem : Memory} {base : UInt32} {k j : Nat} {bytes : Fin n → UInt8} (hk : k < 2 ^ 32)
    (hj : j + n ≤ 2 ^ 32) : mem.store (base + UInt32.ofNat j) bytes (base + UInt32.ofNat k) =
      if h : j ≤ k ∧ k < j + n then bytes ⟨k - j, by omega⟩ else mem (base + UInt32.ofNat k) := by
  have hsub : base + UInt32.ofNat k - (base + UInt32.ofNat j) = UInt32.ofNat k - UInt32.ofNat j := by
    simp only [UInt32.sub_eq_add_neg, UInt32.neg_add]
    rw [UInt32.add_comm base, UInt32.add_assoc, ← UInt32.add_assoc base, UInt32.add_right_neg, UInt32.zero_add]
  have hoff : (base + UInt32.ofNat k - (base + UInt32.ofNat j)).toNat = (2 ^ 32 - j % 2 ^ 32 + k) % 2 ^ 32 := by
    rw [hsub, UInt32.toNat_sub, UInt32.toNat_ofNat', UInt32.toNat_ofNat', Nat.mod_eq_of_lt (a := k) hk]
  unfold store
  by_cases h : j ≤ k ∧ k < j + n
  · have heq : (base + UInt32.ofNat k - (base + UInt32.ofNat j)).toNat = k - j := by rw [hoff]; omega
    rw [dif_pos h, dif_pos (by omega)]
    exact congrArg bytes (Fin.ext heq)
  · rw [dif_neg h, dif_neg (by rw [hoff]; omega)]

end Memory

/-- The sign of the first difference of two buffers of one length; `0` if there is none. -/
def memcmp : List UInt8 → List UInt8 → Int
  | b1 :: buf1, b2 :: buf2 => if b1 < b2 then -1 else if b1 > b2 then 1 else memcmp buf1 buf2
  | _, _ => 0

theorem memcmp_eq_zero : ∀ {s1 s2 : List UInt8}, s1.length = s2.length → (memcmp s1 s2 = 0 ↔ s1 = s2)
  | [], [], _ => by simp [memcmp]
  | b1 :: buf1, b2 :: buf2, h => by
    have ih : memcmp buf1 buf2 = 0 ↔ buf1 = buf2 := memcmp_eq_zero (by simpa using h)
    by_cases he : b1 = b2
    · subst he
      simpa [memcmp] using ih
    · rcases UInt8.lt_or_lt_of_ne he with hlt | hgt
      · simp [memcmp, hlt, he]
      · simp [memcmp, hgt, UInt8.lt_asymm hgt, he]

end Os2024
