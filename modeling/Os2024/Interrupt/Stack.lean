import Os2024.Lib.Bytes
import Os2024.Stdlib.String

/-!
# Words on a stack

The stack of a 32-bit machine in byte memory: little-endian words from the stack pointer upwards (`OnStack`). A push
puts a word in front (`OnStack.push`), and what happens below the stack pointer is not seen (`OnStack.store_below`).
-/

namespace Os2024

open Bytes

namespace Memory

/-- The word at `ptr`. -/
def loadWord (mem : Memory) (ptr : UInt32) : UInt32 := UInt32.ofNat (ofLe (mem.load ptr 4))

/-- A word, stored at `ptr`. -/
def storeWord (mem : Memory) (ptr word : UInt32) : Memory := mem.store ptr (leBytes 4 word.toNat)

variable {mem mem' : Memory} {base word : UInt32} {j k : Nat}

@[simp] theorem loadWord_storeWord : (mem.storeWord base word).loadWord base = word := by
  rw [loadWord, storeWord, load_store (by decide), ofLe_leBytes, Nat.mod_eq_of_lt (show word.toNat < 256 ^ 4 from word.toNat_lt),
    UInt32.ofNat_toNat]

/-- Bytes that are the same make the same word. -/
theorem loadWord_congr (h : ∀ i < 4, mem (base + UInt32.ofNat i) = mem' (base + UInt32.ofNat i)) :
    mem.loadWord base = mem'.loadWord base := by
  have hload : mem.load base 4 = mem'.load base 4 := funext fun i => h i.val i.isLt
  rw [loadWord, loadWord, hload]

/-- A word behind the one that is stored. -/
theorem loadWord_storeWord_add (hj : j + 4 ≤ k) (hk : k + 4 ≤ 2 ^ 32) :
    (mem.storeWord (base + UInt32.ofNat j) word).loadWord (base + UInt32.ofNat k) =
      mem.loadWord (base + UInt32.ofNat k) := by
  refine loadWord_congr fun i hi => ?_
  have haddr : base + UInt32.ofNat k + UInt32.ofNat i = base + UInt32.ofNat (k + i) := by
    rw [UInt32.ofNat_add, UInt32.add_assoc]
  rw [haddr, storeWord, store_add (by omega) (by omega), dif_neg (by omega)]

/-- A word from `base` upwards, when one is stored right below. -/
theorem loadWord_storeWord_below (hk : 4 * k + 8 ≤ 2 ^ 32) :
    (mem.storeWord (base - 4) word).loadWord (base + UInt32.ofNat (4 * k)) =
      mem.loadWord (base + UInt32.ofNat (4 * k)) := by
  have haddr : base + UInt32.ofNat (4 * k) = base - 4 + UInt32.ofNat (4 * k + 4) := by
    rw [UInt32.ofNat_add, UInt32.add_comm (UInt32.ofNat (4 * k)), ← UInt32.add_assoc]
    exact congrArg (· + UInt32.ofNat (4 * k)) (UInt32.sub_add_cancel base 4).symm
  have hzero : base - 4 = base - 4 + UInt32.ofNat 0 := (UInt32.add_zero _).symm
  rw [haddr]
  nth_rewrite 1 [hzero]
  exact loadWord_storeWord_add (by omega) (by omega)

end Memory

/-- The words from `sp` upwards. -/
def OnStack (mem : Memory) : (sp : UInt32) → List UInt32 → Prop
  | _, [] => True
  | sp, word :: words => mem.loadWord sp = word ∧ OnStack mem (sp + 4) words

section Stack

variable {mem mem' : Memory} {sp word : UInt32} {words : List UInt32}

theorem onStack_nil (mem : Memory) (sp : UInt32) : OnStack mem sp [] := trivial

theorem onStack_cons : OnStack mem sp (word :: words) ↔ mem.loadWord sp = word ∧ OnStack mem (sp + 4) words := Iff.rfl

theorem sub_ofNat_sub (sp : UInt32) (a b : Nat) : sp - UInt32.ofNat a - UInt32.ofNat b = sp - UInt32.ofNat (a + b) := by
  rw [UInt32.ofNat_add, UInt32.sub_eq_add_neg, UInt32.sub_eq_add_neg, UInt32.sub_eq_add_neg, UInt32.neg_add,
    UInt32.add_assoc, UInt32.sub_eq_add_neg]

theorem stack_add_succ (sp : UInt32) (i : Nat) : sp + UInt32.ofNat (4 * (i + 1)) = sp + 4 + UInt32.ofNat (4 * i) := by
  rw [Nat.mul_add, UInt32.ofNat_add, UInt32.add_assoc, UInt32.add_comm 4]
  rfl

/-- The words are what the memory has there. -/
theorem onStack_iff : OnStack mem sp words ↔
    ∀ i (h : i < words.length), mem.loadWord (sp + UInt32.ofNat (4 * i)) = words[i] := by
  induction words generalizing sp with
  | nil => simp [OnStack]
  | cons word words ih =>
    rw [onStack_cons, ih]
    constructor
    · rintro ⟨h0, hrest⟩ i hi
      cases i with
      | zero =>
        rw [Nat.mul_zero, show UInt32.ofNat 0 = 0 from rfl, UInt32.add_zero]
        exact h0
      | succ i =>
        rw [stack_add_succ]
        exact hrest i (Nat.lt_of_succ_lt_succ hi)
    · intro h
      refine ⟨?_, fun i hi => ?_⟩
      · have h0 := h 0 (Nat.zero_lt_succ _)
        rwa [Nat.mul_zero, show UInt32.ofNat 0 = 0 from rfl, UInt32.add_zero] at h0
      · rw [← stack_add_succ]
        exact h (i + 1) (Nat.succ_lt_succ hi)

/-- Words that are loaded alike are on the stack alike. -/
theorem OnStack.congr (h : OnStack mem sp words)
    (hload : ∀ i < words.length, mem'.loadWord (sp + UInt32.ofNat (4 * i)) = mem.loadWord (sp + UInt32.ofNat (4 * i))) :
    OnStack mem' sp words :=
  onStack_iff.mpr fun i hi => (hload i hi).trans (onStack_iff.mp h i hi)

/-- A word that is stored right below the stack pointer is not seen. -/
theorem OnStack.store_below (h : OnStack mem sp words) (hlen : 4 * words.length + 4 ≤ 2 ^ 32) :
    OnStack (mem.storeWord (sp - 4) word) sp words :=
  h.congr fun _ hi => Memory.loadWord_storeWord_below (by omega)

/-- **A push** puts a word in front. -/
theorem OnStack.push (h : OnStack mem sp words) (hlen : 4 * words.length + 4 ≤ 2 ^ 32) :
    OnStack (mem.storeWord (sp - 4) word) (sp - 4) (word :: words) := by
  refine ⟨Memory.loadWord_storeWord, ?_⟩
  rw [UInt32.sub_add_cancel]
  exact h.store_below hlen

end Stack

end Os2024
