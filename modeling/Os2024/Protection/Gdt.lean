import Os2024.Interrupt.Cpu
import Os2024.Lib.Bitfield

/-!
# The global descriptor table

The table of `ch0/gdt/gdt.c`, its segment for the task state, which `gdt_install_tss` gives its address, and the two
descriptor tables as they lie in memory: the fields of a descriptor are packed from the lowest bit upwards.
-/

namespace Os2024

open Bitfield Bytes

/-! ## Descriptors -/

/-- `struct SegmentDescriptor`. -/
structure SegmentDescriptor where
  segmentLow : UInt16
  baseLow : UInt16
  baseMid : UInt8
  typeBit : BitVec 4
  nonSystem : BitVec 1
  privilege : BitVec 2
  validBit : BitVec 1
  segmentHigh : BitVec 4
  avl : BitVec 1
  longMode : BitVec 1
  opr32Bit : BitVec 1
  granularity : BitVec 1
  baseHigh : UInt8
  deriving DecidableEq

attribute [ext] SegmentDescriptor

namespace SegmentDescriptor

/-- `{0}`. -/
def zero : SegmentDescriptor := ⟨0, 0, 0, 0, 0, 0, 0, 0, 0, 0, 0, 0, 0⟩

/-- A flat segment of 4 GiB for code or data. -/
def flat (typeBit : BitVec 4) (privilege : BitVec 2) : SegmentDescriptor where
  segmentLow := 0xFFFF
  baseLow := 0
  baseMid := 0
  typeBit := typeBit
  nonSystem := 1
  privilege := privilege
  validBit := 1
  segmentHigh := 0xF
  avl := 0
  longMode := 0
  opr32Bit := 1
  granularity := 1
  baseHigh := 0

def fields (d : SegmentDescriptor) : List Field := [
  ⟨16, d.segmentLow.toBitVec⟩, ⟨16, d.baseLow.toBitVec⟩, ⟨8, d.baseMid.toBitVec⟩,
  ⟨4, d.typeBit⟩, ⟨1, d.nonSystem⟩, ⟨2, d.privilege⟩, ⟨1, d.validBit⟩,
  ⟨4, d.segmentHigh⟩, ⟨1, d.avl⟩, ⟨1, d.longMode⟩, ⟨1, d.opr32Bit⟩, ⟨1, d.granularity⟩,
  ⟨8, d.baseHigh.toBitVec⟩]

def ofNat (n : Nat) : SegmentDescriptor where
  segmentLow := ⟨field 0 16 n⟩
  baseLow := ⟨field 16 16 n⟩
  baseMid := ⟨field 32 8 n⟩
  typeBit := field 40 4 n
  nonSystem := field 44 1 n
  privilege := field 45 2 n
  validBit := field 47 1 n
  segmentHigh := field 48 4 n
  avl := field 52 1 n
  longMode := field 53 1 n
  opr32Bit := field 54 1 n
  granularity := field 55 1 n
  baseHigh := ⟨field 56 8 n⟩

/-- The descriptor as it lies in memory. -/
def bytes (d : SegmentDescriptor) : Fin 8 → UInt8 := leBytes 8 (pack d.fields)

def ofBytes (b : Fin 8 → UInt8) : SegmentDescriptor := ofNat (ofLe b)

/-- The address of the segment. -/
def base (d : SegmentDescriptor) : UInt32 :=
  UInt32.ofNat (d.baseHigh.toNat * 2 ^ 24 + d.baseMid.toNat * 2 ^ 16 + d.baseLow.toNat)

/-- The last offset in the segment. -/
def limit (d : SegmentDescriptor) : Nat :=
  let raw := d.segmentHigh.toNat * 2 ^ 16 + d.segmentLow.toNat
  if d.granularity = 1 then raw * 4096 + 4095 else raw

theorem ofNat_pack (d : SegmentDescriptor) : ofNat (pack d.fields) = d := by
  have hfield := fun (i : Nat) (h : i < 13) => field_pack d.fields i h
  exact SegmentDescriptor.ext (congrArg UInt16.ofBitVec (hfield 0 (by decide)))
    (congrArg UInt16.ofBitVec (hfield 1 (by decide))) (congrArg UInt8.ofBitVec (hfield 2 (by decide)))
    (hfield 3 (by decide)) (hfield 4 (by decide)) (hfield 5 (by decide)) (hfield 6 (by decide)) (hfield 7 (by decide))
    (hfield 8 (by decide)) (hfield 9 (by decide)) (hfield 10 (by decide)) (hfield 11 (by decide))
    (congrArg UInt8.ofBitVec (hfield 12 (by decide)))

theorem ofBytes_bytes (d : SegmentDescriptor) : ofBytes d.bytes = d := by
  have hwidth : width d.fields = 64 := rfl
  have hlt := pack_lt d.fields
  rw [hwidth] at hlt
  rw [ofBytes, bytes, ofLe_leBytes, Nat.mod_eq_of_lt (lt_of_lt_of_eq hlt (by decide)), ofNat_pack]

end SegmentDescriptor

/-! ## The table -/

/-- `struct GlobalDescriptorTable`, of `GDT_MAX_ENTRY_COUNT` entries. -/
structure GlobalDescriptorTable where
  table : Fin 32 → SegmentDescriptor

/-- `sizeof(struct TSSEntry)`. -/
def sizeofTSSEntry : UInt32 := 104

/-- The segment of the task state, before `gdt_install_tss`. -/
def tssDescriptor : SegmentDescriptor where
  segmentLow := sizeofTSSEntry.toUInt16
  baseLow := 0
  baseMid := 0
  typeBit := 0x9
  nonSystem := 0
  privilege := 0
  validBit := 1
  segmentHigh := BitVec.ofNat 4 ((sizeofTSSEntry &&& ((0xF : UInt32) <<< 16)) >>> 16).toNat
  avl := 0
  longMode := 0
  opr32Bit := 1
  granularity := 0
  baseHigh := 0

/-- `global_descriptor_table`. -/
def globalDescriptorTable : GlobalDescriptorTable where
  table i := [
    .zero,
    .flat 0b1010 0,
    .flat 0b0010 0,
    .flat 0b1010 3,
    .flat 0b0010 3,
    tssDescriptor].getD i .zero

/-- The entry of the task state segment. -/
abbrev tssIndex : Fin 32 := ⟨5, by decide⟩

/-- `gdt_install_tss`; the argument is the address of `_interrupt_tss_entry`. -/
def gdtInstallTss (base : UInt32) (gdt : GlobalDescriptorTable) : GlobalDescriptorTable where
  table := Function.update gdt.table tssIndex
    { gdt.table tssIndex with
      baseHigh := ((base &&& ((0xFF : UInt32) <<< 24)) >>> 24).toUInt8
      baseMid := ((base &&& ((0xFF : UInt32) <<< 16)) >>> 16).toUInt8
      baseLow := (base &&& 0xFFFF).toUInt16 }

/-- `ltr` marks the segment of the task as busy. -/
def GlobalDescriptorTable.loadTask (gdt : GlobalDescriptorTable) : GlobalDescriptorTable where
  table := Function.update gdt.table tssIndex
    { gdt.table tssIndex with typeBit := (gdt.table tssIndex).typeBit ||| 0b0010 }

/-- The table once `gdt_install_tss` and `set_tss_register` have run. -/
def setupGdt (base : UInt32) : GlobalDescriptorTable := (gdtInstallTss base globalDescriptorTable).loadTask

section Setup

variable {base : UInt32} {i : Fin 32}

/-- A byte of an address that is cut out with a mask. -/
theorem toNat_cut (x mask shift : UInt32) (k : Nat) (hshift : shift.toNat % 32 = k)
    (hmask : mask.toNat >>> k = 2 ^ 8 - 1) : ((x &&& mask) >>> shift).toUInt8.toNat = x.toNat / 2 ^ k % 256 := by
  rw [UInt32.toNat_toUInt8, UInt32.toNat_shiftRight, UInt32.toNat_and, hshift, Nat.shiftRight_and_distrib, hmask,
    Nat.and_two_pow_sub_one_eq_mod, Nat.shiftRight_eq_div_pow]
  exact Nat.mod_mod _ _

theorem gdtInstallTss_self (gdt : GlobalDescriptorTable) : (gdtInstallTss base gdt).table tssIndex =
    { gdt.table tssIndex with
      baseHigh := ((base &&& ((0xFF : UInt32) <<< 24)) >>> 24).toUInt8
      baseMid := ((base &&& ((0xFF : UInt32) <<< 16)) >>> 16).toUInt8
      baseLow := (base &&& 0xFFFF).toUInt16 } :=
  Function.update_self tssIndex _ gdt.table

theorem GlobalDescriptorTable.loadTask_self (gdt : GlobalDescriptorTable) : gdt.loadTask.table tssIndex =
    { gdt.table tssIndex with typeBit := (gdt.table tssIndex).typeBit ||| 0b0010 } :=
  Function.update_self tssIndex _ gdt.table

/-- The segment of the task state, after `ltr`. -/
theorem setupGdt_tss : (setupGdt base).table tssIndex =
    { tssDescriptor with
      typeBit := tssDescriptor.typeBit ||| 0b0010
      baseHigh := ((base &&& ((0xFF : UInt32) <<< 24)) >>> 24).toUInt8
      baseMid := ((base &&& ((0xFF : UInt32) <<< 16)) >>> 16).toUInt8
      baseLow := (base &&& 0xFFFF).toUInt16 } := by
  have hentry : globalDescriptorTable.table tssIndex = tssDescriptor := rfl
  rw [setupGdt, GlobalDescriptorTable.loadTask_self, gdtInstallTss_self, hentry]

/-- **`gdt_install_tss` installs the address it is given.** -/
theorem setupGdt_base : ((setupGdt base).table tssIndex).base = base := by
  have hhigh := toNat_cut base ((0xFF : UInt32) <<< 24) 24 24 rfl (by decide)
  have hmid := toNat_cut base ((0xFF : UInt32) <<< 16) 16 16 rfl (by decide)
  have hlow : (base &&& 0xFFFF).toUInt16.toNat = base.toNat % 2 ^ 16 := by
    have hand : base.toNat &&& (2 ^ 16 - 1) = base.toNat % 2 ^ 16 := Nat.and_two_pow_sub_one_eq_mod ..
    rw [UInt32.toNat_toUInt16, UInt32.toNat_and]
    exact (congrArg (· % 2 ^ 16) hand).trans (Nat.mod_mod _ _)
  have hlt := base.toNat_lt
  rw [setupGdt_tss, SegmentDescriptor.base, hhigh, hmid, hlow, ← UInt32.toNat_inj, UInt32.toNat_ofNat']
  omega

theorem setupGdt_limit : ((setupGdt base).table tssIndex).limit = 104 := by
  have hlimit : tssDescriptor.limit = 104 := by decide
  rw [setupGdt_tss]
  exact hlimit

theorem setupGdt_of_ne (hi : i ≠ tssIndex) : (setupGdt base).table i = globalDescriptorTable.table i :=
  (Function.update_of_ne hi _ _).trans (Function.update_of_ne hi _ _)

end Setup

end Os2024
