import Mathlib.Data.List.FinRange
import Mathlib.Logic.Function.Basic

/-!
# The interrupt descriptor table

`set_interrupt_gate` and `initialize_idt` of `ch1/idt/idt.c`. Loading the IDTR and enabling interrupts have no effect
here. Bit fields are bit vectors of their width.
-/

namespace Os2024

/-- `struct IDTGate`. -/
structure IDTGate where
  offsetLow : UInt16
  segment : UInt16
  reserved : BitVec 5
  rBit1 : BitVec 3
  rBit2 : BitVec 3
  gate32 : BitVec 1
  rBit3 : BitVec 1
  dpl : BitVec 2
  validBit : BitVec 1
  offsetHigh : UInt16
  deriving DecidableEq

/-- `struct IDT`, of `IDT_MAX_ENTRY_COUNT` entries. -/
structure IDT where
  table : Fin 256 → IDTGate

/-- `GDT_KERNEL_CODE_SEGMENT_SELECTOR`. -/
def gdtKernelCodeSegmentSelector : UInt16 := 0x8

/-- What `set_interrupt_gate` sets in a gate. -/
def interruptGate (handlerAddress : UInt32) (gdtSegSelector : UInt16) (privilege : UInt8) : IDTGate where
  offsetLow := handlerAddress.toUInt16
  segment := gdtSegSelector
  reserved := 0
  rBit1 := 0b000
  rBit2 := 0b110
  gate32 := 1
  rBit3 := 0b0
  dpl := BitVec.ofNat 2 privilege.toNat
  validBit := 1
  offsetHigh := (handlerAddress >>> 16).toUInt16

/-- `set_interrupt_gate`. -/
def setInterruptGate (intVector : Fin 256) (handlerAddress : UInt32) (gdtSegSelector : UInt16) (privilege : UInt8)
    (idt : IDT) : IDT where
  table := Function.update idt.table intVector (interruptGate handlerAddress gdtSegSelector privilege)

/-- The privilege `initialize_idt` gives to a vector. -/
def gatePrivilege (i : Nat) : UInt8 := if i ≥ 0x30 ∧ i ≤ 0x3F then 3 else 0

/-- `ISR_STUB_TABLE_LIMIT` is within `IDT_MAX_ENTRY_COUNT`. -/
theorem isrStubTableLimit_le : 64 ≤ 256 := by decide

/-- `initialize_idt`. -/
def initializeIdt (isrStubTable : Fin 64 → UInt32) (idt : IDT) : IDT :=
  (List.finRange 64).foldl (fun idt i =>
    setInterruptGate (i.castLE isrStubTableLimit_le) (isrStubTable i) gdtKernelCodeSegmentSelector (gatePrivilege i.val) idt) idt

/-- The offset that the CPU reads from a gate. -/
def IDTGate.offset (gate : IDTGate) : UInt32 := (gate.offsetHigh.toUInt32 <<< 16) ||| gate.offsetLow.toUInt32

section Gates

variable {idt : IDT} {isrStubTable : Fin 64 → UInt32} {i : Fin 64}

theorem getLsbD_toUInt16 {x : UInt32} {k : Nat} (hk : k < 32) :
    x.toUInt16.toUInt32.toBitVec.getLsbD k = (decide (k < 16) && x.toBitVec.getLsbD k) := by
  rw [UInt16.toBitVec_toUInt32, UInt32.toBitVec_toUInt16, BitVec.getLsbD_setWidth, BitVec.getLsbD_setWidth,
    decide_eq_true hk, Bool.true_and]

theorem getLsbD_shiftLeft {x : UInt32} {k : Nat} (hk : k < 32) :
    (x <<< 16).toBitVec.getLsbD k = (!decide (k < 16) && x.toBitVec.getLsbD (k - 16)) := by
  have hshift : (x <<< 16).toBitVec = x.toBitVec <<< 16 := rfl
  rw [hshift, BitVec.getLsbD_shiftLeft, decide_eq_true hk, Bool.true_and]

/-- The two halves of an address are the address. -/
theorem interruptGate_offset (handlerAddress : UInt32) (gdtSegSelector : UInt16) (privilege : UInt8) :
    (interruptGate handlerAddress gdtSegSelector privilege).offset = handlerAddress := by
  apply UInt32.toBitVec_inj.mp
  apply BitVec.eq_of_getLsbD_eq
  intro k hk
  rw [IDTGate.offset, interruptGate, UInt32.toBitVec_or, BitVec.getLsbD_or, getLsbD_shiftLeft hk,
    getLsbD_toUInt16 (by omega), getLsbD_toUInt16 hk]
  have hshift : (handlerAddress >>> 16).toBitVec = handlerAddress.toBitVec >>> 16 := rfl
  rw [hshift, BitVec.getLsbD_ushiftRight, decide_eq_true (show k - 16 < 16 by omega)]
  by_cases h16 : k < 16
  · simp [h16]
  · simp [h16, Nat.add_sub_cancel' (Nat.not_lt.mp h16)]

/-- Every vector has the gate of its handler. -/
theorem initializeIdt_table (isrStubTable : Fin 64 → UInt32) (idt : IDT) (i : Fin 64) :
    (initializeIdt isrStubTable idt).table (i.castLE isrStubTableLimit_le) =
      interruptGate (isrStubTable i) gdtKernelCodeSegmentSelector (gatePrivilege i.val) := by
  have hfold : ∀ (l : List (Fin 64)) (idt : IDT), (l.foldl (fun idt i =>
      setInterruptGate (i.castLE isrStubTableLimit_le) (isrStubTable i) gdtKernelCodeSegmentSelector (gatePrivilege i.val) idt)
      idt).table (i.castLE isrStubTableLimit_le) =
      if i ∈ l then interruptGate (isrStubTable i) gdtKernelCodeSegmentSelector (gatePrivilege i.val)
      else idt.table (i.castLE isrStubTableLimit_le) := by
    intro l
    induction l with
    | nil => intro idt; rfl
    | cons j l ih =>
      intro idt
      rw [List.foldl_cons, ih]
      by_cases hl : i ∈ l
      · simp [hl]
      · by_cases hj : i = j
        · subst hj
          simp [setInterruptGate, hl]
        · simp [setInterruptGate, hl, hj]
  rw [initializeIdt, hfold, if_pos (List.mem_finRange i)]

/-- User mode may raise the vectors from `0x30` on, and no other. -/
theorem initializeIdt_dpl :
    ((initializeIdt isrStubTable idt).table (i.castLE isrStubTableLimit_le)).dpl = 3 ↔ 0x30 ≤ i.val := by
  have hprivilege : ∀ i : Fin 64, BitVec.ofNat 2 (gatePrivilege i.val).toNat = 3 ↔ 0x30 ≤ i.val := by decide
  rw [initializeIdt_table]
  exact hprivilege i

end Gates

end Os2024
