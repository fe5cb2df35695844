import Mathlib.Data.Fintype.Card
import Os2024.Lib.Lease
import Os2024.Paging.Paging

/-!
# Frames as leases

The page manager leases page frames to the entries of the page directory: `Paging.Refines` says that a state carries a
register of leases, the directory in its present entries, the frame map in its marks and the counter as the number of
free frames. `PagingCall.exec_outcome` and `PagingCall.Outcome.refines` say that each call is one of the register's
steps, or refused; `Paging.run_iff` turns what one call preserves into what a sequence of calls preserves.
-/

namespace Os2024

open Scan Lease

attribute [local instance] instNeZeroFrames

/-- Frames leased to entries of the page directory. -/
abbrev FrameRegister := Register (Fin 1024) (Fin 32)

/-- The entry is present and maps the frame `f`. -/
def PageDirectoryEntry.Maps (e : PageDirectoryEntry) (f : Fin 32) : Prop :=
  e.flag.presentBit = true ∧ e.lowerAddress = f.castLE (by decide)

/-- The state carries the register `b`. -/
structure Paging.Refines (s : Paging) (b : FrameRegister) : Prop where
  taken : ∀ f, s.pageManagerState.pageFrameMap f = b.taken f
  maps : ∀ i f, (s.pageDirectory.table i).Maps f ↔ b.holds i = some f
  present : ∀ i, (s.pageDirectory.table i).flag.presentBit = true → ∃ f, (s.pageDirectory.table i).Maps f
  count : s.pageManagerState.freePageFrameCount.toNat = b.free.card

/-! ## One call -/

/-- The state after frame `f` has been mapped for `virtualAddr`. -/
def Paging.allocated (s : Paging) (flag : PageDirectoryEntryFlag) (virtualAddr : UInt32) (f : Fin 32) : Paging where
  pageDirectory := updatePageDirectoryEntry s.pageDirectory (UInt32.ofNat f.val * pageFrameSize) virtualAddr
    { flag with
      presentBit := true
      readWrite := true
      userSupervisor := true
      pageSize := true }
  pageManagerState :=
    { pageFrameMap := Function.update s.pageManagerState.pageFrameMap f true
      freePageFrameCount := s.pageManagerState.freePageFrameCount - 1 }

/-- The state after frame `f`, mapped for `virtualAddr`, has been taken back. -/
def Paging.freed (s : Paging) (virtualAddr : UInt32) (f : Fin 32) : Paging where
  pageDirectory := updatePageDirectoryEntry s.pageDirectory 0 virtualAddr .zero
  pageManagerState :=
    { pageFrameMap := Function.update s.pageManagerState.pageFrameMap f false
      freePageFrameCount := s.pageManagerState.freePageFrameCount + 1 }

/-- What a call does to a state and to the register it carries. -/
inductive PagingCall.Outcome (s : Paging) (b : FrameRegister) : PagingCall → Bool → Paging → FrameRegister → Prop
  | full {flag : PageDirectoryEntryFlag} {addr : UInt32} (hfull : ∀ f, b.taken f = true) :
      Outcome s b (.allocate flag addr) false s b
  | taken {flag : PageDirectoryEntryFlag} {addr : UInt32} {f : Fin 32} (hf : b.taken f = false) :
      Outcome s b (.allocate flag addr) true (s.allocated flag addr f) (b.take (pageNumber addr) f)
  | absent {addr : UInt32} (hk : b.holds (pageNumber addr) = none) : Outcome s b (.free addr) false s b
  | givenBack {addr : UInt32} {f : Fin 32} (hk : b.holds (pageNumber addr) = some f) :
      Outcome s b (.free addr) true (s.freed addr f) (b.giveBack (pageNumber addr) f)

section Calls

variable {s s' : Paging} {b b' : FrameRegister} {call : PagingCall} {done : Bool} {addr : UInt32} {f g : Fin 32}
  {i : Fin 1024} {flag : PageDirectoryEntryFlag}

/-- The address of a frame, in the bits of an entry. -/
theorem pageNumber_frame (f : Fin 32) : pageNumber (UInt32.ofNat f.val * pageFrameSize) = f.castLE (by decide) := by
  revert f
  decide

theorem Paging.allocated_self : (s.allocated flag addr f).pageDirectory.table (pageNumber addr) =
    { flag :=
        { flag with
          presentBit := true
          readWrite := true
          userSupervisor := true
          pageSize := true }
      lowerAddress := f.castLE (by decide) } := by
  simp [Paging.allocated, updatePageDirectoryEntry, pageNumber_frame]

theorem Paging.allocated_of_ne (hi : i ≠ pageNumber addr) :
    (s.allocated flag addr f).pageDirectory.table i = s.pageDirectory.table i := by
  simp [Paging.allocated, updatePageDirectoryEntry, hi]

theorem Paging.freed_self :
    (s.freed addr f).pageDirectory.table (pageNumber addr) = { flag := .zero, lowerAddress := pageNumber 0 } := by
  simp [Paging.freed, updatePageDirectoryEntry]

theorem Paging.freed_of_ne (hi : i ≠ pageNumber addr) :
    (s.freed addr f).pageDirectory.table i = s.pageDirectory.table i := by
  simp [Paging.freed, updatePageDirectoryEntry, hi]

theorem not_maps_zero {a : Fin 1024} : ¬ (PageDirectoryEntry.mk .zero a).Maps f := fun h => by cases h.1

/-- The lowest free frame is mapped. -/
theorem PagingCall.exec_allocate (hf : s.pageManagerState.pageFrameMap f = false)
    (hlow : ∀ g < f, s.pageManagerState.pageFrameMap g = true) :
    (PagingCall.allocate flag addr).exec s = .ok (true, s.allocated flag addr f) := by
  have hfind : firstFrom 0 (fun physicalIdx => !s.pageManagerState.pageFrameMap physicalIdx) = some f :=
    firstFrom_eq_some.mpr ⟨Nat.zero_le _, by simp [hf], fun g _ hg => by simp [hlow g hg]⟩
  simp only [exec, pagingAllocateUserPageFrame, hfind]
  rfl

/-- The frame of a present entry is taken back. -/
theorem PagingCall.exec_free (hf : (s.pageDirectory.table (pageNumber addr)).Maps f) :
    (PagingCall.free addr).exec s = .ok (true, s.freed addr f) := by
  have hlt : (s.pageDirectory.table (pageNumber addr)).lowerAddress.val < 32 := by
    rw [hf.2]
    exact f.isLt
  have hidx : (⟨(s.pageDirectory.table (pageNumber addr)).lowerAddress.val, hlt⟩ : Fin 32) = f :=
    Fin.ext (by simp [hf.2])
  simp only [exec, pagingFreeUserPageFrame, hf.1, Bool.not_true, Bool.false_eq_true, if_false, dif_pos hlt, hidx]
  rfl

/-- **Every call is a step of the register, or is refused.** -/
theorem PagingCall.exec_outcome (h : s.Refines b) (call : PagingCall) :
    ∃ done s' b', call.exec s = .ok (done, s') ∧ Outcome s b call done s' b' := by
  cases call with
  | allocate flag addr =>
    cases hfind : firstFrom 0 fun physicalIdx => !s.pageManagerState.pageFrameMap physicalIdx with
    | none =>
      have hfull : ∀ f, b.taken f = true := fun f => by
        rw [← h.taken]
        simpa using firstFrom_eq_none.mp hfind f (Nat.zero_le _)
      exact ⟨false, s, b, by simp only [exec, pagingAllocateUserPageFrame, hfind], .full hfull⟩
    | some f =>
      obtain ⟨-, hf, hlow⟩ := firstFrom_eq_some.mp hfind
      have hfree : s.pageManagerState.pageFrameMap f = false := by simpa using hf
      refine ⟨true, s.allocated flag addr f, _, exec_allocate hfree fun g hg => ?_, .taken (h.taken f ▸ hfree)⟩
      simpa using hlow g (Nat.zero_le _) hg
  | free addr =>
    cases hp : (s.pageDirectory.table (pageNumber addr)).flag.presentBit with
    | false =>
      have hk : b.holds (pageNumber addr) = none := by
        cases hk : b.holds (pageNumber addr) with
        | none => rfl
        | some f => exact absurd ((h.maps _ f).mpr hk).1 (by simp [hp])
      exact ⟨false, s, b, by simp [exec, pagingFreeUserPageFrame, hp], .absent hk⟩
    | true =>
      obtain ⟨f, hf⟩ := h.present _ hp
      exact ⟨true, s.freed addr f, _, exec_free hf, .givenBack ((h.maps _ f).mp hf)⟩

theorem card_free_le (b : FrameRegister) : b.free.card ≤ 32 := by simpa using Finset.card_le_univ b.free

/-- What `take` does to the state. -/
theorem Paging.Refines.allocated (h : s.Refines b) (hf : b.taken f = false) :
    (s.allocated flag addr f).Refines (b.take (pageNumber addr) f) := by
  have hself : ∀ g, ((s.allocated flag addr f).pageDirectory.table (pageNumber addr)).Maps g ↔ f = g := fun g => by
    rw [Paging.allocated_self]
    exact ⟨fun hg => Fin.castLE_injective _ hg.2, fun hg => ⟨rfl, by rw [hg]⟩⟩
  refine
    { taken := ?taken
      maps := ?maps
      present := ?present
      count := ?count }
  case taken =>
    intro g
    by_cases hg : g = f
    · simp [Paging.allocated, Register.take, hg]
    · simp [Paging.allocated, Register.take, hg, h.taken]
  case maps =>
    intro i g
    by_cases hi : i = pageNumber addr
    · rw [hi, hself]
      simp [Register.take]
    · rw [Paging.allocated_of_ne hi, h.maps]
      simp [Register.take, hi]
  case present =>
    intro i hp
    by_cases hi : i = pageNumber addr
    · exact ⟨f, hi ▸ (hself f).mpr rfl⟩
    · rw [Paging.allocated_of_ne hi] at hp ⊢
      exact h.present i hp
  case count =>
    have hpos : 0 < b.free.card := Finset.card_pos.mpr ⟨f, Register.mem_free.mpr hf⟩
    have hcount := h.count
    rw [Register.card_free_take hf]
    simp only [Paging.allocated]
    rw [UInt32.toNat_sub_of_le _ _ (by rw [UInt32.le_iff_toNat_le, hcount]; exact hpos), hcount]
    rfl

/-- What `giveBack` does to the state. -/
theorem Paging.Refines.freed (h : s.Refines b) (hb : b.Sound) (hk : b.holds (pageNumber addr) = some f) :
    (s.freed addr f).Refines (b.giveBack (pageNumber addr) f) := by
  refine
    { taken := ?taken
      maps := ?maps
      present := ?present
      count := ?count }
  case taken =>
    intro g
    by_cases hg : g = f
    · simp [Paging.freed, Register.giveBack, hg]
    · simp [Paging.freed, Register.giveBack, hg, h.taken]
  case maps =>
    intro i g
    by_cases hi : i = pageNumber addr
    · rw [hi, Paging.freed_self]
      simp [Register.giveBack, not_maps_zero]
    · rw [Paging.freed_of_ne hi, h.maps]
      simp [Register.giveBack, hi]
  case present =>
    intro i hp
    by_cases hi : i = pageNumber addr
    · rw [hi, Paging.freed_self] at hp
      cases hp
    · rw [Paging.freed_of_ne hi] at hp ⊢
      exact h.present i hp
  case count =>
    have hle := card_free_le (b.giveBack (pageNumber addr) f)
    have hcount := h.count
    rw [Register.card_free_giveBack (hb.taken hk)] at hle ⊢
    simp only [Paging.freed, UInt32.toNat_add, hcount, UInt32.reduceToNat]
    omega

/-- **One call** keeps state and register together. -/
theorem PagingCall.Outcome.refines (ho : Outcome s b call done s' b') (h : s.Refines b) (hb : b.Sound) :
    s'.Refines b' ∧ b'.Sound := by
  cases ho with
  | full => exact ⟨h, hb⟩
  | taken hf => exact ⟨h.allocated hf, hb.take hf⟩
  | absent => exact ⟨h, hb⟩
  | givenBack hk => exact ⟨h.freed hb hk, hb.giveBack hk⟩

end Calls

/-! ## Sequences of calls -/

/-- `P` holds of every call of a sequence, in the state before it. -/
def Paging.Throughout (P : Paging → PagingCall → Prop) : List PagingCall → Paging → Prop
  | [], _ => True
  | call :: calls, s => P s call ∧ ∀ done s', call.exec s = .ok (done, s') → Throughout P calls s'

/-- The register of the state after boot: entry `0x300` holds frame `0`. -/
def bootRegister : FrameRegister where
  taken f := f = 0
  holds i := if i = 0x300 then some 0 else none

theorem bootRegister_sound : bootRegister.Sound := by
  constructor
  · intro i f hf
    simp only [bootRegister, Option.ite_none_right_eq_some, Option.some.injEq] at hf
    simp [bootRegister, hf.2]
  · intro i j f hi hj
    simp only [bootRegister, Option.ite_none_right_eq_some] at hi hj
    exact hi.1.trans hj.1.symm

theorem bootPaging_table (i : Fin 1024) : bootPaging.pageDirectory.table i =
    if i = 0x300 then
      { flag :=
          { PageDirectoryEntryFlag.zero with
            presentBit := true
            readWrite := true
            pageSize := true }
        lowerAddress := 0 }
    else { flag := .zero, lowerAddress := 0 } := by
  by_cases h0 : i = 0
  · subst h0
    rw [if_neg (by decide)]
    exact Function.update_self 0 _ pagingKernelPageDirectory.table
  · refine (Function.update_of_ne h0 _ pagingKernelPageDirectory.table).trans ?_
    simp only [pagingKernelPageDirectory, h0, false_or]

theorem bootPaging_refines : bootPaging.Refines bootRegister := by
  have hmaps : ∀ i f, (bootPaging.pageDirectory.table i).Maps f ↔ bootRegister.holds i = some f := fun i f => by
    rw [bootPaging_table]
    by_cases hi : i = 0x300
    · simp only [if_pos hi, PageDirectoryEntry.Maps, bootRegister, Option.some.injEq, true_and]
      exact ⟨fun h => Fin.castLE_injective (by decide) h, fun h => by rw [← h]; rfl⟩
    · simp [if_neg hi, bootRegister, not_maps_zero]
  refine ⟨fun f => rfl, hmaps, fun i hp => ?_, by decide⟩
  by_cases hi : i = 0x300
  · exact ⟨0, (hmaps i 0).mpr (if_pos hi)⟩
  · rw [bootPaging_table, if_neg hi] at hp
    cases hp

section Runs

variable {s s' : Paging} {b : FrameRegister} {call : PagingCall} {calls : List PagingCall} {done : Bool}

theorem Paging.run_cons (h : call.exec s = .ok (done, s')) :
    Paging.run (call :: calls) s = Paging.run calls s' := by
  simp only [Paging.run, h, bind, Except.bind]

/-- A sequence of calls never leaves the frame map, and keeps state and register together. -/
theorem Paging.run_refines (calls : List PagingCall) (h : s.Refines b) (hb : b.Sound) :
    ∃ s' b', Paging.run calls s = .ok s' ∧ s'.Refines b' ∧ b'.Sound := by
  induction calls generalizing s b with
  | nil => exact ⟨s, b, rfl, h, hb⟩
  | cons call calls ih =>
    obtain ⟨done, s₁, b₁, hexec, ho⟩ := call.exec_outcome h
    obtain ⟨h₁, hb₁⟩ := ho.refines h hb
    obtain ⟨s', b', hrun, hrest⟩ := ih h₁ hb₁
    exact ⟨s', b', (Paging.run_cons hexec).trans hrun, hrest⟩

/-- **What one call keeps exactly when `P` holds of it**, a sequence keeps exactly when `P` holds throughout. -/
theorem Paging.run_iff {Good : Paging → Prop} {P : Paging → PagingCall → Prop}
    (hstep : ∀ {s b call done s' b'}, s.Refines b → b.Sound → PagingCall.Outcome s b call done s' b' →
      (Good s' ↔ Good s ∧ P s call))
    (calls : List PagingCall) (h : s.Refines b) (hb : b.Sound) :
    ∃ s', Paging.run calls s = .ok s' ∧ (Good s' ↔ Good s ∧ Paging.Throughout P calls s) := by
  induction calls generalizing s b with
  | nil => exact ⟨s, rfl, by simp [Paging.Throughout]⟩
  | cons call calls ih =>
    obtain ⟨done, s₁, b₁, hexec, ho⟩ := call.exec_outcome h
    obtain ⟨h₁, hb₁⟩ := ho.refines h hb
    obtain ⟨s', hrun, hgood⟩ := ih h₁ hb₁
    refine ⟨s', (Paging.run_cons hexec).trans hrun, ?_⟩
    have hrest : Paging.Throughout P (call :: calls) s ↔ P s call ∧ Paging.Throughout P calls s₁ := by
      refine and_congr_right fun _ => ⟨fun ht => ht done s₁ hexec, fun ht done' t ht' => ?_⟩
      cases hexec.symm.trans ht'
      exact ht
    rw [hgood, hstep h hb ho, hrest, and_assoc]

end Runs

end Os2024
