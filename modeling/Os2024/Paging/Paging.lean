import Mathlib.Algebra.Order.Ring.Nat
import Mathlib.Data.Fin.Basic
import Mathlib.Logic.Function.Basic
import Os2024.Lib.Scan

/-!
# Page frames

The page directory and the page manager of `ch2/paging/paging.h`, with the two operations that hand out page frames of
4 MiB and take them back. `page_frame_map` has `PAGE_FRAME_MAX_COUNT` = `32` elements: an index beyond them ends an
execution with that index. Flushing the TLB has no effect here.
-/

namespace Os2024

open Scan

/-- There are entries in a page directory. -/
instance instNeZeroPages : NeZero 1024 := ⟨by decide⟩

/-- There are page frames. -/
local instance instNeZeroFrames : NeZero 32 := ⟨by decide⟩

/-- `PAGE_FRAME_SIZE`, `1 << (2 + 10 + 10)` bytes. -/
def pageFrameSize : UInt32 := (1 : UInt32) <<< (2 + 10 + 10)

/-- `struct PageDirectoryEntryFlag`. -/
structure PageDirectoryEntryFlag where
  presentBit : Bool
  readWrite : Bool
  userSupervisor : Bool
  writeThrough : Bool
  cacheDisabled : Bool
  accessed : Bool
  dirty : Bool
  pageSize : Bool
  deriving DecidableEq

/-- `(struct PageDirectoryEntryFlag) {0}`. -/
def PageDirectoryEntryFlag.zero : PageDirectoryEntryFlag where
  presentBit := false
  readWrite := false
  userSupervisor := false
  writeThrough := false
  cacheDisabled := false
  accessed := false
  dirty := false
  pageSize := false

/-- The flags and the ten address bits of `struct PageDirectoryEntry`; nothing sets the bits between them. -/
structure PageDirectoryEntry where
  flag : PageDirectoryEntryFlag
  lowerAddress : Fin 1024
  deriving DecidableEq

/-- `struct PageDirectory`, of `PAGE_ENTRY_COUNT` entries. -/
structure PageDirectory where
  table : Fin 1024 → PageDirectoryEntry

/-- `struct PageManagerState`. -/
structure PageManagerState where
  pageFrameMap : Fin 32 → Bool
  freePageFrameCount : UInt32

/-- `_paging_kernel_page_directory` and `page_manager_state`. -/
structure Paging where
  pageDirectory : PageDirectory
  pageManagerState : PageManagerState

/-! ## The operations -/

/-- `((uint32_t) addr >> 22) & 0x3FF`. -/
def pageNumber (addr : UInt32) : Fin 1024 :=
  ⟨((addr >>> 22) &&& 0x3FF).toNat, by
    rw [UInt32.toNat_and]
    exact Nat.lt_of_le_of_lt Nat.and_le_right (by decide)⟩

/-- `update_page_directory_entry`. -/
def updatePageDirectoryEntry (pageDir : PageDirectory) (physicalAddr virtualAddr : UInt32)
    (flag : PageDirectoryEntryFlag) : PageDirectory where
  table := Function.update pageDir.table (pageNumber virtualAddr)
    { flag := flag, lowerAddress := pageNumber physicalAddr }

/-- `paging_allocate_check`. -/
def pagingAllocateCheck (amount : UInt32) (s : Paging) : Bool := amount ≤ s.pageManagerState.freePageFrameCount

/-- `paging_allocate_user_page_frame`; `flag` is the local variable of that name before any of its bits is set. -/
def pagingAllocateUserPageFrame (flag : PageDirectoryEntryFlag) (virtualAddr : UInt32) (s : Paging) : Bool × Paging :=
  -- Search for a free physical frame
  match firstFrom 0 fun physicalIdx => !s.pageManagerState.pageFrameMap physicalIdx with
  | none => (false, s)
  | some physicalIdx =>
    (true,
      { pageDirectory := updatePageDirectoryEntry s.pageDirectory (UInt32.ofNat physicalIdx.val * pageFrameSize)
          virtualAddr
          { flag with
            presentBit := true
            readWrite := true
            userSupervisor := true
            pageSize := true }
        pageManagerState :=
          { pageFrameMap := Function.update s.pageManagerState.pageFrameMap physicalIdx true
            freePageFrameCount := s.pageManagerState.freePageFrameCount - 1 } })

/-- `paging_free_user_page_frame`. -/
def pagingFreeUserPageFrame (virtualAddr : UInt32) (s : Paging) : Except (Fin 1024) (Bool × Paging) :=
  let entry := s.pageDirectory.table (pageNumber virtualAddr)
  if !entry.flag.presentBit then .ok (false, s)
  else if h : entry.lowerAddress.val < 32 then
    .ok (true,
      { pageDirectory := updatePageDirectoryEntry s.pageDirectory 0 virtualAddr .zero
        pageManagerState :=
          { pageFrameMap := Function.update s.pageManagerState.pageFrameMap ⟨entry.lowerAddress.val, h⟩ false
            freePageFrameCount := s.pageManagerState.freePageFrameCount + 1 } })
  else .error entry.lowerAddress

/-! ## The state after boot -/

/-- `_paging_kernel_page_directory`, as it is compiled in. -/
def pagingKernelPageDirectory : PageDirectory where
  table i :=
    if i = 0 ∨ i = 0x300 then
      { flag :=
          { PageDirectoryEntryFlag.zero with
            presentBit := true
            readWrite := true
            pageSize := true }
        lowerAddress := 0 }
    else { flag := .zero, lowerAddress := 0 }

/-- `page_manager_state`, as it is compiled in. -/
def pageManagerState : PageManagerState where
  pageFrameMap i := i = 0
  freePageFrameCount := 32 - 1

/-- The state in which the kernel starts: the loader has set entry `0` of the directory to zero. -/
def bootPaging : Paging where
  pageDirectory := { table := Function.update pagingKernelPageDirectory.table 0 { flag := .zero, lowerAddress := 0 } }
  pageManagerState := pageManagerState

/-! ## Sequences of calls -/

/-- A call of one of the two operations on the kernel's directory. -/
inductive PagingCall where
  | allocate (flag : PageDirectoryEntryFlag) (virtualAddr : UInt32)
  | free (virtualAddr : UInt32)

/-- The address a call is about. -/
def PagingCall.virtualAddr : PagingCall → UInt32
  | .allocate _ virtualAddr => virtualAddr
  | .free virtualAddr => virtualAddr

/-- A call, executed. -/
def PagingCall.exec : PagingCall → Paging → Except (Fin 1024) (Bool × Paging)
  | .allocate flag virtualAddr, s => .ok (pagingAllocateUserPageFrame flag virtualAddr s)
  | .free virtualAddr, s => pagingFreeUserPageFrame virtualAddr s

/-- A sequence of calls, one after the other. -/
def Paging.run : List PagingCall → Paging → Except (Fin 1024) Paging
  | [], s => .ok s
  | call :: calls, s => do
    let (_, s) ← call.exec s
    run calls s

end Os2024
