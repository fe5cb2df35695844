import Os2024.Lib.Bytes
import Os2024.Lib.Store

/-!
# The block device

What `ch1/disk/disk.h` offers: 512-byte blocks addressed by a 32-bit LBA, read and written in runs. A buffer of
`n` blocks is a byte array of length `n * 512`.

The main results say that a run of blocks is an array store: reading back what was written (`readBlocks_writeBlocks`)
and leaving every other block alone (`writeBlocks_of_notMem`).
-/

namespace Os2024

open Bytes

/-- `BLOCK_SIZE` bytes. -/
abbrev Block := Fin 512 → UInt8

/-- The blocks of the device, by LBA. -/
abbrev Disk := UInt32 → Block

/-- The bytes from a pointer on. -/
abbrev Buffer := Nat → UInt8

variable {n : Nat}

/-- `read_blocks`: block `i` of the buffer is the one at `logicalBlockAddress + i`. -/
def readBlocks (disk : Disk) (logicalBlockAddress : UInt32) (n : Nat) : Fin (n * 512) → UInt8 :=
  flatten fun i : Fin n => disk (logicalBlockAddress + UInt32.ofNat i)

/-- `write_blocks`: block `i` of the buffer goes to `logicalBlockAddress + i`, for `i` from `0` up. -/
def writeBlocks (ptr : Fin (n * 512) → UInt8) (logicalBlockAddress : UInt32) (disk : Disk) : Disk :=
  (List.finRange n).foldl
    (fun d (i : Fin n) => Function.update d (logicalBlockAddress + UInt32.ofNat i) (chunk ptr i)) disk

variable {ptr : Fin (n * 512) → UInt8} {logicalBlockAddress a : UInt32} {disk : Disk}

/-- A block outside the run is left alone. -/
theorem writeBlocks_of_notMem (h : ∀ i : Fin n, logicalBlockAddress + UInt32.ofNat i ≠ a) :
    writeBlocks ptr logicalBlockAddress disk a = disk a :=
  Store.foldl_update_of_notMem _ _ _ _ fun i _ => h i

/-- Block `i` of the run. -/
theorem writeBlocks_run (hn : n ≤ 2 ^ 32) (i : Fin n) :
    writeBlocks ptr logicalBlockAddress disk (logicalBlockAddress + UInt32.ofNat i) = chunk ptr i := by
  refine Store.foldl_update_of_mem (fun i : Fin n => logicalBlockAddress + UInt32.ofNat i) _ _ _ (fun j _ h => ?_)
    (List.mem_finRange i)
  have hj := congrArg UInt32.toNat ((UInt32.add_right_inj _).mp h)
  simp only [UInt32.toNat_ofNat'] at hj
  exact Fin.ext (by omega)

/-- A run reads back as it was written. -/
theorem readBlocks_writeBlocks (hn : n ≤ 2 ^ 32) :
    readBlocks (writeBlocks ptr logicalBlockAddress disk) logicalBlockAddress n = ptr := by
  rw [readBlocks, funext (writeBlocks_run hn), flatten_chunk]

/-- A run that no written block falls into reads as before. -/
theorem readBlocks_congr {disk' : Disk} (h : ∀ i : Fin n, disk' (logicalBlockAddress + UInt32.ofNat i) =
    disk (logicalBlockAddress + UInt32.ofNat i)) :
    readBlocks disk' logicalBlockAddress n = readBlocks disk logicalBlockAddress n := by
  rw [readBlocks, funext h, readBlocks]

end Os2024
