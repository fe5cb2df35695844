import Os2024.Lib.Cache
import Os2024.Paging.Frames

/-!
# The translations that the CPU caches

`update_page_directory_entry` writes an entry in two stores and then flushes its page. The CPU walks the directory
whenever it likes: it caches what an entry says at that moment, drops what it has cached, and marks entries as accessed
and dirty. `Mmu.Calls` are the calls of a kernel with such a CPU at work between any two stores, from the loader on.
-/

namespace Os2024

open Scan Cache

attribute [local instance] instNeZeroFrames

/-- What the CPU caches of an entry. -/
structure Translation where
  frame : Fin 1024
  readWrite : Bool
  userSupervisor : Bool
  deriving DecidableEq

namespace PageDirectoryEntry

/-- An entry without the marks that the CPU makes. -/
def unmarked (e : PageDirectoryEntry) : PageDirectoryEntry :=
  { e with flag := { e.flag with
      accessed := false
      dirty := false } }

/-- What the entry says, if it maps a page of 4 MiB. -/
def translation (e : PageDirectoryEntry) : Option Translation :=
  if e.flag.presentBit && e.flag.pageSize then
    some
      { frame := e.lowerAddress
        readWrite := e.flag.readWrite
        userSupervisor := e.flag.userSupervisor }
  else none

end PageDirectoryEntry

/-- How the CPU reads an entry. -/
def mmuReading : Reading PageDirectoryEntry PageDirectoryEntry Translation where
  core := PageDirectoryEntry.unmarked
  view := PageDirectoryEntry.translation

/-- The directory in memory, and the translations that are cached of it. -/
abbrev Mmu := Cache.State (Fin 1024) PageDirectoryEntry Translation

abbrev MmuOp := Cache.Op (Fin 1024) PageDirectoryEntry

/-! ## The stores of the kernel -/

/-- `update_page_directory_entry`, store by store. -/
def updatePageDirectoryEntryOps (physicalAddr virtualAddr : UInt32) (flag : PageDirectoryEntryFlag) : List MmuOp :=
  [.write (pageNumber virtualAddr) fun e => { e with flag := flag },
    .write (pageNumber virtualAddr) fun e => { e with lowerAddress := pageNumber physicalAddr },
    .invalidate (pageNumber virtualAddr)]

/-- What a call does to the directory and to the cache. -/
def PagingCall.ops : PagingCall → Paging → List MmuOp
  | .allocate flag virtualAddr, s =>
    match firstFrom 0 fun physicalIdx => !s.pageManagerState.pageFrameMap physicalIdx with
    | none => []
    | some physicalIdx =>
      updatePageDirectoryEntryOps (UInt32.ofNat physicalIdx.val * pageFrameSize) virtualAddr
        { flag with
          presentBit := true
          readWrite := true
          userSupervisor := true
          pageSize := true }
  | .free virtualAddr, s =>
    if !(s.pageDirectory.table (pageNumber virtualAddr)).flag.presentBit then []
    else updatePageDirectoryEntryOps 0 virtualAddr .zero

/-- `loader_virtual`: the identity mapping of the first page is deleted. -/
def loaderOps : List MmuOp := [.write 0 fun _ => { flag := .zero, lowerAddress := 0 }, .invalidate 0]

/-- What the page manager and the CPU have. -/
structure PagingMachine where
  mmu : Mmu
  pageManagerState : PageManagerState

/-- What the kernel reads. -/
def PagingMachine.paging (m : PagingMachine) : Paging where
  pageDirectory := ⟨m.mmu.table⟩
  pageManagerState := m.pageManagerState

/-- Calls one after the other, with the CPU at work in them and between them. -/
inductive PagingMachine.Calls : List PagingCall → PagingMachine → PagingMachine → Prop
  | nil {m : PagingMachine} {mmu : Mmu} (h : Run mmuReading [] m.mmu mmu) : Calls [] m { m with mmu := mmu }
  | cons {m n : PagingMachine} {call : PagingCall} {calls : List PagingCall} {mmu : Mmu} {done : Bool} {s : Paging}
      (hexec : call.exec m.paging = .ok (done, s)) (hrun : Run mmuReading (call.ops m.paging) m.mmu mmu)
      (hrest : Calls calls ⟨mmu, s.pageManagerState⟩ n) : Calls (call :: calls) m n

/-- The CPU when the loader has turned paging on, with nothing cached. -/
def loadedMmu : Mmu where
  table := pagingKernelPageDirectory.table
  cached _ _ := False

/-- A machine when the kernel begins. -/
structure PagingMachine.Booted (m : PagingMachine) : Prop where
  mmu : Run mmuReading loaderOps loadedMmu m.mmu
  pageManagerState : m.pageManagerState = Os2024.pageManagerState

/-! ## What the stores leave -/

/-- Every entry is as in the directory, and was flushed. -/
def PageDirectory.settled (dir : PageDirectory) (i : Fin 1024) : Trace PageDirectoryEntry := ⟨dir.table i, []⟩

section Stores

variable {s s' p p' : Paging} {call : PagingCall} {done : Bool} {dir : PageDirectory} {e e' : PageDirectoryEntry}

theorem updatePageDirectoryEntryOps_trace (physicalAddr virtualAddr : UInt32) (flag : PageDirectoryEntryFlag) :
    (updatePageDirectoryEntryOps physicalAddr virtualAddr flag).foldl (fun a op => op.trace a) dir.settled =
      (updatePageDirectoryEntry dir physicalAddr virtualAddr flag).settled := by
  funext i
  by_cases hi : i = pageNumber virtualAddr
  · subst hi
    simp [updatePageDirectoryEntryOps, Op.trace, PageDirectory.settled, updatePageDirectoryEntry]
  · simp [updatePageDirectoryEntryOps, Op.trace, PageDirectory.settled, updatePageDirectoryEntry, hi]

theorem loaderOps_trace :
    loaderOps.foldl (fun a op => op.trace a) pagingKernelPageDirectory.settled = bootPaging.pageDirectory.settled := by
  funext i
  by_cases hi : i = 0
  · subst hi
    simp [loaderOps, Op.trace, PageDirectory.settled, bootPaging]
  · simp [loaderOps, Op.trace, PageDirectory.settled, bootPaging, hi]

/-- The stores of a call, one by one, are the call. -/
theorem PagingCall.ops_trace (h : call.exec s = .ok (done, s')) :
    (call.ops s).foldl (fun a op => op.trace a) s.pageDirectory.settled = s'.pageDirectory.settled := by
  cases call with
  | allocate flag virtualAddr =>
    rw [ops]
    cases hfind : firstFrom 0 fun physicalIdx => !s.pageManagerState.pageFrameMap physicalIdx with
    | none =>
      simp only [exec, pagingAllocateUserPageFrame, hfind] at h
      cases h
      rfl
    | some physicalIdx =>
      simp only [exec, pagingAllocateUserPageFrame, hfind] at h
      cases h
      exact updatePageDirectoryEntryOps_trace ..
  | free virtualAddr =>
    simp only [exec, pagingFreeUserPageFrame] at h
    rw [ops]
    split at h
    · next hpresent =>
      cases h
      rw [if_pos hpresent]
      rfl
    · next hpresent =>
      split at h
      · cases h
        rw [if_neg hpresent]
        exact updatePageDirectoryEntryOps_trace ..
      · cases h

/-- Entries that differ only in the marks of the CPU. -/
theorem unmarked_eq_iff : e.unmarked = e'.unmarked ↔ e.lowerAddress = e'.lowerAddress ∧
    { e.flag with
      accessed := false
      dirty := false } = { e'.flag with
      accessed := false
      dirty := false } := by
  rw [PageDirectoryEntry.unmarked, PageDirectoryEntry.unmarked, PageDirectoryEntry.mk.injEq, and_comm]

theorem presentBit_of_unmarked (h : e.unmarked = e'.unmarked) : e.flag.presentBit = e'.flag.presentBit := by
  have hbit := congrArg (fun e : PageDirectoryEntry => e.flag.presentBit) h
  exact hbit

theorem lowerAddress_of_unmarked (h : e.unmarked = e'.unmarked) : e.lowerAddress = e'.lowerAddress :=
  (unmarked_eq_iff.mp h).1

theorem updatePageDirectoryEntryOps_uniform (physicalAddr virtualAddr : UInt32) (flag : PageDirectoryEntryFlag) :
    ∀ op ∈ updatePageDirectoryEntryOps physicalAddr virtualAddr flag, op.Uniform mmuReading := by
  intro op hop
  simp only [updatePageDirectoryEntryOps, List.mem_cons, List.not_mem_nil, or_false] at hop
  rcases hop with rfl | rfl | rfl
  · intro x y h
    have hlower : x.lowerAddress = y.lowerAddress := lowerAddress_of_unmarked h
    exact unmarked_eq_iff.mpr ⟨hlower, rfl⟩
  · intro x y h
    have hcore : x.unmarked = y.unmarked := h
    exact unmarked_eq_iff.mpr ⟨rfl, (unmarked_eq_iff.mp hcore).2⟩
  · trivial

theorem PagingCall.ops_uniform (call : PagingCall) (s : Paging) : ∀ op ∈ call.ops s, op.Uniform mmuReading := by
  have hnil : ∀ op ∈ ([] : List MmuOp), op.Uniform mmuReading := fun _ h => absurd h List.not_mem_nil
  cases call with
  | allocate flag virtualAddr =>
    rw [ops]
    split
    · exact hnil
    · exact updatePageDirectoryEntryOps_uniform _ _ _
  | free virtualAddr =>
    rw [ops]
    split
    · exact hnil
    · exact updatePageDirectoryEntryOps_uniform _ _ _

theorem loaderOps_uniform : ∀ op ∈ loaderOps, op.Uniform mmuReading := by
  intro op hop
  simp only [loaderOps, List.mem_cons, List.not_mem_nil, or_false] at hop
  rcases hop with rfl | rfl
  · intro _ _ _
    rfl
  · trivial

/-- The state is that of the kernel alone, but for the marks of the CPU. -/
structure Paging.SameButMarks (p s : Paging) : Prop where
  pageManagerState : p.pageManagerState = s.pageManagerState
  table : ∀ i, (p.pageDirectory.table i).unmarked = (s.pageDirectory.table i).unmarked

/-- The kernel does not look at the marks. -/
theorem Paging.SameButMarks.ops_eq (h : p.SameButMarks s) (call : PagingCall) : call.ops p = call.ops s := by
  cases call with
  | allocate flag virtualAddr => rw [PagingCall.ops, PagingCall.ops, h.pageManagerState]
  | free virtualAddr => rw [PagingCall.ops, PagingCall.ops, presentBit_of_unmarked (h.table _)]

theorem Paging.SameButMarks.exec (h : p.SameButMarks s) (hexec : call.exec p = .ok (done, p')) :
    ∃ s', call.exec s = .ok (done, s') ∧ p'.pageManagerState = s'.pageManagerState := by
  cases call with
  | allocate flag virtualAddr =>
    simp only [PagingCall.exec, pagingAllocateUserPageFrame, h.pageManagerState] at hexec ⊢
    cases hfind : firstFrom 0 fun physicalIdx => !s.pageManagerState.pageFrameMap physicalIdx with
    | none =>
      simp only [hfind] at hexec
      cases hexec
      exact ⟨s, rfl, h.pageManagerState⟩
    | some physicalIdx =>
      simp only [hfind] at hexec
      cases hexec
      exact ⟨_, rfl, rfl⟩
  | free virtualAddr =>
    simp only [PagingCall.exec, pagingFreeUserPageFrame] at hexec ⊢
    rw [presentBit_of_unmarked (h.table _), lowerAddress_of_unmarked (h.table _), h.pageManagerState] at hexec
    split at hexec
    · next hpresent =>
      cases hexec
      rw [if_pos hpresent]
      exact ⟨s, rfl, h.pageManagerState⟩
    · next hpresent =>
      rw [if_neg hpresent]
      split at hexec
      · next hlt =>
        cases hexec
        rw [dif_pos hlt]
        exact ⟨_, rfl, rfl⟩
      · cases hexec

end Stores

/-! ## Runs -/

/-- The machine has the state `s`, up to the marks of the CPU, and only translations of it are cached. -/
structure PagingMachine.Carries (m : PagingMachine) (s : Paging) : Prop where
  mmu : Explains mmuReading s.pageDirectory.settled m.mmu
  pageManagerState : m.pageManagerState = s.pageManagerState

section Runs

variable {m n : PagingMachine} {s : Paging} {b : FrameRegister} {calls : List PagingCall} {i : Fin 1024}
  {t : Translation}

namespace PagingMachine

theorem Carries.sameButMarks (h : m.Carries s) : m.paging.SameButMarks s := ⟨h.pageManagerState, h.mmu.table⟩

/-- A translation that is cached is that of the directory. -/
theorem Carries.translation (h : m.Carries s) (ht : m.mmu.cached i t) :
    (s.pageDirectory.table i).translation = some t := by
  have hview := h.mmu.cached_of_settled rfl ht
  rwa [h.mmu.table] at hview

theorem Booted.carries (h : m.Booted) : m.Carries bootPaging := by
  have hloaded : Explains mmuReading pagingKernelPageDirectory.settled loadedMmu := ⟨fun _ => rfl, fun _ _ h => h.elim⟩
  have hrun := hloaded.run loaderOps_uniform h.mmu
  rw [loaderOps_trace] at hrun
  exact ⟨hrun, h.pageManagerState⟩

/-- **What calls leave**: what they leave without a cache, and nothing else is cached. -/
theorem Calls.carries (hcalls : Calls calls m n) (h : m.Carries s) :
    ∃ s', Paging.run calls s = .ok s' ∧ n.Carries s' := by
  induction hcalls generalizing s with
  | nil hrun => exact ⟨s, rfl, h.mmu.run (fun _ hop => absurd hop List.not_mem_nil) hrun, h.pageManagerState⟩
  | cons hexec hrun _ ih =>
    obtain ⟨s', hexec', hmanager⟩ := h.sameButMarks.exec hexec
    have hexplains := h.mmu.run (PagingCall.ops_uniform _ _) hrun
    rw [h.sameButMarks.ops_eq, PagingCall.ops_trace hexec'] at hexplains
    obtain ⟨s'', hrest, hcarries⟩ := ih ⟨hexplains, hmanager⟩
    exact ⟨s'', (Paging.run_cons hexec').trans hrest, hcarries⟩

end PagingMachine

end Runs

end Os2024
