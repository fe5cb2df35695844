import Os2024.Protection.Gdt

/-!
# The tables that the CPU reads

Where the kernel has its descriptor tables and the state of its task, what the CPU makes of the bytes there, and its
checks on selectors, gates and ports. The CPU marks a descriptor as accessed when a segment register is loaded with it,
so a descriptor in memory is what the kernel has put there up to that bit (`Loaded`).
-/

namespace Os2024

open Bitfield Bytes

/-! ## Gates in memory -/

namespace IDTGate

def fields (gate : IDTGate) : List Field := [
  ⟨16, gate.offsetLow.toBitVec⟩, ⟨16, gate.segment.toBitVec⟩,
  ⟨5, gate.reserved⟩, ⟨3, gate.rBit1⟩, ⟨3, gate.rBit2⟩, ⟨1, gate.gate32⟩, ⟨1, gate.rBit3⟩, ⟨2, gate.dpl⟩,
  ⟨1, gate.validBit⟩,
  ⟨16, gate.offsetHigh.toBitVec⟩]

def ofNat (n : Nat) : IDTGate where
  offsetLow := ⟨field 0 16 n⟩
  segment := ⟨field 16 16 n⟩
  reserved := field 32 5 n
  rBit1 := field 37 3 n
  rBit2 := field 40 3 n
  gate32 := field 43 1 n
  rBit3 := field 44 1 n
  dpl := field 45 2 n
  validBit := field 47 1 n
  offsetHigh := ⟨field 48 16 n⟩

/-- The gate as it lies in memory. -/
def bytes (gate : IDTGate) : Fin 8 → UInt8 := leBytes 8 (pack gate.fields)

def ofBytes (b : Fin 8 → UInt8) : IDTGate := ofNat (ofLe b)

/-- A gate that was never set. -/
def zero : IDTGate := ⟨0, 0, 0, 0, 0, 0, 0, 0, 0, 0⟩

theorem ofNat_pack (gate : IDTGate) : ofNat (pack gate.fields) = gate := by
  have hfield := fun (i : Nat) (h : i < 10) => field_pack gate.fields i h
  rw [ofNat, show gate = ⟨gate.offsetLow, gate.segment, gate.reserved, gate.rBit1, gate.rBit2, gate.gate32, gate.rBit3,
    gate.dpl, gate.validBit, gate.offsetHigh⟩ from rfl, IDTGate.mk.injEq]
  exact ⟨congrArg UInt16.ofBitVec (hfield 0 (by decide)), congrArg UInt16.ofBitVec (hfield 1 (by decide)),
    hfield 2 (by decide), hfield 3 (by decide), hfield 4 (by decide), hfield 5 (by decide), hfield 6 (by decide),
    hfield 7 (by decide), hfield 8 (by decide), congrArg UInt16.ofBitVec (hfield 9 (by decide))⟩

theorem ofBytes_bytes (gate : IDTGate) : ofBytes gate.bytes = gate := by
  have hwidth : width gate.fields = 64 := rfl
  have hlt := pack_lt gate.fields
  rw [hwidth] at hlt
  rw [ofBytes, bytes, ofLe_leBytes, Nat.mod_eq_of_lt (lt_of_lt_of_eq hlt (by decide)), ofNat_pack]

end IDTGate

/-! ## What the checks of the CPU look at -/

namespace SegmentDescriptor

/-- The level of the segment. -/
def dpl (d : SegmentDescriptor) : Nat := d.privilege.toNat

/-- A present segment for code or data. -/
def usable (d : SegmentDescriptor) : Bool := d.nonSystem == 1 && d.validBit == 1

def isCode (d : SegmentDescriptor) : Bool := d.typeBit.getLsbD 3

/-- Of a code segment. -/
def conforming (d : SegmentDescriptor) : Bool := d.typeBit.getLsbD 2

/-- Code that can be read, or data that can be written. -/
def readWrite (d : SegmentDescriptor) : Bool := d.typeBit.getLsbD 1

/-- A data segment register can be loaded with the segment. -/
def loadsData (d : SegmentDescriptor) (cpl rpl : Nat) : Bool :=
  d.usable && (!d.isCode || d.readWrite) && (d.isCode && d.conforming || decide (cpl ≤ d.dpl) && decide (rpl ≤ d.dpl))

/-- The stack segment register can be loaded with it. -/
def loadsStack (d : SegmentDescriptor) (cpl rpl : Nat) : Bool :=
  d.usable && !d.isCode && d.readWrite && rpl == cpl && d.dpl == cpl

/-- It can be jumped to, or called. -/
def loadsCode (d : SegmentDescriptor) (cpl rpl : Nat) : Bool :=
  d.usable && d.isCode && if d.conforming then decide (d.dpl ≤ cpl) else decide (rpl ≤ cpl) && d.dpl == cpl

/-- It can be returned to. -/
def returnsTo (d : SegmentDescriptor) (cpl rpl : Nat) : Bool :=
  d.usable && d.isCode && decide (cpl ≤ rpl) && if d.conforming then decide (d.dpl ≤ rpl) else d.dpl == rpl

/-- The CPU has loaded a segment register with the descriptor. -/
def accessed (d : SegmentDescriptor) : SegmentDescriptor := { d with typeBit := d.typeBit ||| 0b0001 }

end SegmentDescriptor

/-! ## Where the tables are -/

/-- `struct TSSEntry` as it lies in memory; what the kernel does not set is zero. -/
def TSSEntry.bytes (tss : TSSEntry) : Fin 104 → UInt8 := fun k =>
  if k.val / 4 = 1 then UInt8.ofNat (tss.esp0.toNat / 256 ^ (k.val - 4))
  else if k.val / 4 = 2 then UInt8.ofNat (tss.ss0.toNat / 256 ^ (k.val - 8))
  else 0

/-- The addresses of `global_descriptor_table`, `interrupt_descriptor_table`, `_interrupt_tss_entry`,
`_paging_kernel_page_directory`, `keyboard_state` and `kernel_stack`. -/
structure KernelLayout where
  gdt : UInt32
  idt : UInt32
  tss : UInt32
  pageDirectory : UInt32
  keyboardState : UInt32
  kernelStack : UInt32
  keyboardFits : keyboardState.toNat + 3 ≤ 2 ^ 32

namespace KernelLayout

/-- `_gdt_gdtr.size`. -/
def gdtSize : Nat := 8 * 32 - 1

variable (l : KernelLayout) (mem : Memory)

def descriptor (i : Fin 32) : SegmentDescriptor := .ofBytes (mem.load (l.gdt + UInt32.ofNat (8 * i.val)) 8)

/-- The descriptor of a selector. There is no local table. -/
def lookup (selector : UInt16) : Option SegmentDescriptor :=
  let i := selector.toNat / 8
  if h : selector &&& 4 = 0 ∧ 8 * i + 7 ≤ gdtSize then
    some (l.descriptor mem ⟨i, by have := h.2; unfold gdtSize at this; omega⟩)
  else none

def idtAt : IDT where
  table n := .ofBytes (mem.load (l.idt + UInt32.ofNat (8 * n.val)) 8)

/-- The segment of the task, as `ltr` has read its descriptor. -/
def task : SegmentDescriptor := (setupGdt l.tss).table tssIndex

/-- The state of the task that the CPU reads. -/
def tssAt : TSSEntry where
  esp0 := mem.loadWord (l.task.base + 4)
  ss0 := mem.loadWord (l.task.base + 8)

/-- An access to `size` ports from a number on is let through: for the level of the instruction, or by the map of the
task, whose offset is the last word of its state. The CPU reads two bytes of the map. -/
def portAllowed (cpl level : Nat) (port : UInt16) (size : Nat) : Bool :=
  let map := ofLe (mem.load (l.task.base + 102) 2) + port.toNat / 8
  decide (cpl ≤ level) || decide (map + 1 ≤ l.task.limit) &&
    ofLe (mem.load (l.task.base + UInt32.ofNat map) 2) / 2 ^ (port.toNat % 8) % 2 ^ size == 0

/-- The tables are as the kernel has set them up. -/
structure Loaded (isrStubTable : Fin 64 → UInt32) (esp0 : UInt32) : Prop where
  gdt : ∀ i, (l.descriptor mem i).accessed = ((setupGdt l.tss).table i).accessed
  idt : l.idtAt mem = initializeIdt isrStubTable ⟨fun _ => .zero⟩
  tss : mem.load l.tss 104 = TSSEntry.bytes { esp0 := esp0, ss0 := 0x10 }

end KernelLayout

/-! ## Selectors of user programs -/

/-- What a data segment register can hold in ring 3: no segment, or one of the two of user programs. -/
def UserSelector (selector : UInt16) : Prop :=
  selector.toNat / 4 = 0 ∨ selector.toNat / 4 = 6 ∨ selector.toNat / 4 = 8

section Selectors

variable {l : KernelLayout} {mem : Memory} {isrStubTable : Fin 64 → UInt32} {esp0 : UInt32} {selector : UInt16}
  {d : SegmentDescriptor} {rule : SegmentDescriptor → Bool}

/-- That a descriptor was accessed makes no difference to a rule, and the rule refuses what is not usable. -/
structure SegmentRule (rule : SegmentDescriptor → Bool) : Prop where
  accessed : ∀ d, rule d.accessed = rule d
  usable : ∀ d, rule d = true → d.usable = true

theorem isCode_accessed (d : SegmentDescriptor) : d.accessed.isCode = d.isCode := by
  have hbit : ∀ t : BitVec 4, (t ||| 0b0001).getLsbD 3 = t.getLsbD 3 := by decide
  exact hbit d.typeBit

theorem conforming_accessed (d : SegmentDescriptor) : d.accessed.conforming = d.conforming := by
  have hbit : ∀ t : BitVec 4, (t ||| 0b0001).getLsbD 2 = t.getLsbD 2 := by decide
  exact hbit d.typeBit

theorem readWrite_accessed (d : SegmentDescriptor) : d.accessed.readWrite = d.readWrite := by
  have hbit : ∀ t : BitVec 4, (t ||| 0b0001).getLsbD 1 = t.getLsbD 1 := by decide
  exact hbit d.typeBit

theorem SegmentDescriptor.accessed_accessed (d : SegmentDescriptor) : d.accessed.accessed = d.accessed := by
  have htwice : ∀ t : BitVec 4, t ||| 0b0001 ||| 0b0001 = t ||| 0b0001 := by decide
  exact congrArg (fun t => { d with typeBit := t }) (htwice d.typeBit)

theorem segmentRule_loadsData (cpl rpl : Nat) : SegmentRule fun d => d.loadsData cpl rpl where
  accessed d := by
    simp only [SegmentDescriptor.loadsData, isCode_accessed, conforming_accessed, readWrite_accessed]
    rfl
  usable d h := by
    simp only [SegmentDescriptor.loadsData, Bool.and_eq_true] at h
    exact h.1.1

theorem segmentRule_loadsStack (cpl rpl : Nat) : SegmentRule fun d => d.loadsStack cpl rpl where
  accessed d := by
    simp only [SegmentDescriptor.loadsStack, isCode_accessed, readWrite_accessed]
    rfl
  usable d h := by
    simp only [SegmentDescriptor.loadsStack, Bool.and_eq_true] at h
    exact h.1.1.1.1

theorem segmentRule_loadsCode (cpl rpl : Nat) : SegmentRule fun d => d.loadsCode cpl rpl where
  accessed d := by
    simp only [SegmentDescriptor.loadsCode, isCode_accessed, conforming_accessed]
    rfl
  usable d h := by
    simp only [SegmentDescriptor.loadsCode, Bool.and_eq_true] at h
    exact h.1.1

theorem segmentRule_returnsTo (cpl rpl : Nat) : SegmentRule fun d => d.returnsTo cpl rpl where
  accessed d := by
    simp only [SegmentDescriptor.returnsTo, isCode_accessed, conforming_accessed]
    rfl
  usable d h := by
    simp only [SegmentDescriptor.returnsTo, Bool.and_eq_true] at h
    exact h.1.1.1

namespace KernelLayout

theorem task_base (l : KernelLayout) : l.task.base = l.tss := setupGdt_base

theorem task_limit (l : KernelLayout) : l.task.limit = 104 := setupGdt_limit

/-- The word of the task state at an offset. -/
theorem loadWord_tss {word : UInt32} {k : Nat} {b : Fin 104 → UInt8} (h : mem.load l.tss 104 = b) (hk : k + 4 ≤ 104)
    (hb : ∀ i (hi : i < 4), b ⟨k + i, by omega⟩ = UInt8.ofNat (word.toNat / 256 ^ i)) :
    mem.loadWord (l.tss + UInt32.ofNat k) = word := by
  have hload : mem.load (l.tss + UInt32.ofNat k) 4 = leBytes 4 word.toNat := by
    funext i
    have haddr : l.tss + UInt32.ofNat k + UInt32.ofNat i.val = l.tss + UInt32.ofNat (k + i.val) := by
      rw [UInt32.ofNat_add, UInt32.add_assoc]
    rw [Memory.load, haddr, leBytes, ← hb i.val i.isLt, ← h]
    rfl
  rw [Memory.loadWord, hload, ofLe_leBytes, Nat.mod_eq_of_lt (show word.toNat < 256 ^ 4 from word.toNat_lt),
    UInt32.ofNat_toNat]

/-- The stack of the kernel is the one that is set. -/
theorem Loaded.tssAt_eq (h : l.Loaded mem isrStubTable esp0) : l.tssAt mem = { esp0 := esp0, ss0 := 0x10 } := by
  have hesp0 : mem.loadWord (l.tss + UInt32.ofNat 4) = esp0 := loadWord_tss h.tss (by decide) fun i hi => by
    rw [TSSEntry.bytes, if_pos (show (4 + i) / 4 = 1 by omega), Nat.add_sub_cancel_left]
  have hss0 : mem.loadWord (l.tss + UInt32.ofNat 8) = 0x10 := loadWord_tss h.tss (by decide) fun i hi => by
    rw [TSSEntry.bytes, if_neg (show ¬ (8 + i) / 4 = 1 by omega), if_pos (show (8 + i) / 4 = 2 by omega),
      Nat.add_sub_cancel_left]
  rw [tssAt, task_base]
  exact congrArg₂ TSSEntry.mk hesp0 hss0

/-- The selector of the global table that has a descriptor. -/
theorem lookup_eq_some (hl : l.lookup mem selector = some d) :
    ∃ i : Fin 32, selector.toNat / 4 = 2 * i.val ∧ d = l.descriptor mem i := by
  unfold lookup at hl
  dsimp only at hl
  split at hl
  · next h =>
    have hlt : selector.toNat / 8 < 32 := by
      have hsize := h.2
      unfold gdtSize at hsize
      omega
    have hbit : selector.toNat.testBit 2 = false := by
      have hand : (selector.toNat &&& 4).testBit 2 = false := congrArg (fun x : UInt16 => x.toNat.testBit 2) h.1
      rwa [Nat.testBit_and, show Nat.testBit 4 2 = true from rfl, Bool.and_true] at hand
    rw [Nat.testBit_eq_decide_div_mod_eq, decide_eq_false_iff_not] at hbit
    exact ⟨⟨selector.toNat / 8, hlt⟩, by dsimp only; omega, (Option.some.inj hl).symm⟩
  · cases hl

/-- What a rule admits is in the table that is compiled in. -/
theorem Loaded.admits (h : l.Loaded mem isrStubTable esp0) (hrule : SegmentRule rule)
    (hl : l.lookup mem selector = some d) (hd : rule d = true) :
    ∃ i : Fin 32, selector.toNat / 4 = 2 * i.val ∧ rule (globalDescriptorTable.table i) = true := by
  obtain ⟨i, hi, rfl⟩ := lookup_eq_some hl
  have hsetup : rule ((setupGdt l.tss).table i) = true := by
    rw [← hrule.accessed, ← h.gdt i, hrule.accessed]
    exact hd
  refine ⟨i, hi, ?_⟩
  by_cases htss : i = tssIndex
  · have husable := hrule.usable _ hsetup
    rw [htss, setupGdt_tss] at husable
    cases husable
  · rwa [setupGdt_of_ne htss] at hsetup

theorem Loaded.loadsData (h : l.Loaded mem isrStubTable esp0) (hl : l.lookup mem selector = some d)
    (hd : d.loadsData 3 (selector.toNat % 4) = true) : UserSelector selector := by
  have htable : ∀ (rpl : Fin 4) (i : Fin 32), (globalDescriptorTable.table i).loadsData 3 rpl.val = true →
      i.val = 3 ∨ i.val = 4 := by decide
  obtain ⟨i, hi, hrule⟩ := h.admits (segmentRule_loadsData 3 (selector.toNat % 4)) hl hd
  rcases htable ⟨selector.toNat % 4, Nat.mod_lt _ (by decide)⟩ i hrule with h3 | h4
  · exact .inr (.inl (by omega))
  · exact .inr (.inr (by omega))

theorem Loaded.loadsStack (h : l.Loaded mem isrStubTable esp0) (hl : l.lookup mem selector = some d)
    (hd : d.loadsStack 3 (selector.toNat % 4) = true) : selector = 0x23 := by
  have htable : ∀ (rpl : Fin 4) (i : Fin 32), (globalDescriptorTable.table i).loadsStack 3 rpl.val = true →
      i.val = 4 ∧ rpl.val = 3 := by decide
  obtain ⟨i, hi, hrule⟩ := h.admits (segmentRule_loadsStack 3 (selector.toNat % 4)) hl hd
  obtain ⟨h4, hrpl⟩ := htable ⟨selector.toNat % 4, Nat.mod_lt _ (by decide)⟩ i hrule
  have hrpl : selector.toNat % 4 = 3 := hrpl
  exact UInt16.toNat_inj.mp (show selector.toNat = 35 by omega)

theorem Loaded.loadsCode (h : l.Loaded mem isrStubTable esp0) (hl : l.lookup mem selector = some d)
    (hd : d.loadsCode 3 (selector.toNat % 4) = true) : (selector &&& 0xFFFC) ||| 3 = 0x1B := by
  have htable : ∀ (rpl : Fin 4) (i : Fin 32), (globalDescriptorTable.table i).loadsCode 3 rpl.val = true →
      i.val = 3 := by decide
  obtain ⟨i, hi, hrule⟩ := h.admits (segmentRule_loadsCode 3 (selector.toNat % 4)) hl hd
  have h3 := htable ⟨selector.toNat % 4, Nat.mod_lt _ (by decide)⟩ i hrule
  have hcases : selector.toNat = 24 ∨ selector.toNat = 25 ∨ selector.toNat = 26 ∨ selector.toNat = 27 := by omega
  rcases hcases with hs | hs | hs | hs <;>
    · rw [← UInt16.ofNat_toNat (x := selector), hs]
      decide

theorem Loaded.returnsTo (h : l.Loaded mem isrStubTable esp0) (hl : l.lookup mem selector = some d)
    (hd : d.returnsTo 3 (selector.toNat % 4) = true) : selector = 0x1B := by
  have htable : ∀ (rpl : Fin 4) (i : Fin 32), (globalDescriptorTable.table i).returnsTo 3 rpl.val = true →
      i.val = 3 ∧ rpl.val = 3 := by decide
  obtain ⟨i, hi, hrule⟩ := h.admits (segmentRule_returnsTo 3 (selector.toNat % 4)) hl hd
  obtain ⟨h3, hrpl⟩ := htable ⟨selector.toNat % 4, Nat.mod_lt _ (by decide)⟩ i hrule
  have hrpl : selector.toNat % 4 = 3 := hrpl
  exact UInt16.toNat_inj.mp (show selector.toNat = 27 by omega)

end KernelLayout

end Selectors

end Os2024
