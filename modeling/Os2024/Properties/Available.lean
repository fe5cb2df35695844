import Os2024.Paging.Frames

/-!
# The availability check

`paging_allocate_check` takes an amount in bytes and compares it with a number of frames of 4 MiB. Allocations succeed
as long as there are free frames (`allocateAll_iff`), so the check is right about amounts that are small enough to be
at most that number, or too large anyway: `check_predicts_iff`.
-/

namespace Os2024

open Lease

attribute [local instance] instNeZeroFrames

/-- Consecutive calls of `paging_allocate_user_page_frame` all return `true`. -/
def allocateAll : List (PageDirectoryEntryFlag × UInt32) → Paging → Bool
  | [], _ => true
  | (flag, virtualAddr) :: requests, s =>
    let (done, s) := pagingAllocateUserPageFrame flag virtualAddr s
    done && allocateAll requests s

/-- The frames that `amount` bytes need. -/
def framesNeeded (amount : UInt32) : Nat := (amount.toNat + (pageFrameSize.toNat - 1)) / pageFrameSize.toNat

/-- The check for `amount` bytes tells whether the frames they need will be allocated, at any addresses. -/
def CheckPredicts (s : Paging) (amount : UInt32) : Prop :=
  ∀ requests : List (PageDirectoryEntryFlag × UInt32), requests.length = framesNeeded amount →
    (pagingAllocateCheck amount s = true ↔ allocateAll requests s = true)

section Available

variable {s : Paging} {b : FrameRegister} {amount : UInt32} {requests : List (PageDirectoryEntryFlag × UInt32)}

/-- Allocations succeed as long as there are free frames. -/
theorem allocateAll_iff (h : s.Refines b) (hb : b.Sound) :
    allocateAll requests s = true ↔ requests.length ≤ b.free.card := by
  induction requests generalizing s b with
  | nil => simp [allocateAll]
  | cons request requests ih =>
    obtain ⟨flag, addr⟩ := request
    obtain ⟨done, s', b', hexec, ho⟩ := (PagingCall.allocate flag addr).exec_outcome h
    have hcall : pagingAllocateUserPageFrame flag addr s = (done, s') := Except.ok.inj hexec
    obtain ⟨h', hb'⟩ := ho.refines h hb
    simp only [allocateAll, hcall, Bool.and_eq_true, ih h' hb', List.length_cons]
    cases ho with
    | full hfull =>
      have hnone : b.free = ∅ := Finset.eq_empty_of_forall_notMem fun f hf => by
        rw [Register.mem_free, hfull f] at hf
        cases hf
      simp [hnone]
    | @taken _ _ f hf =>
      have hpos : 0 < b.free.card := Finset.card_pos.mpr ⟨f, Register.mem_free.mpr hf⟩
      have hcard := Register.card_free_take (k := pageNumber addr) hf
      rw [hcard, eq_self_iff_true, true_and]
      omega

/-- **The check predicts allocation** when the amount is at most the number of free frames, or more than they hold. -/
theorem check_predicts_iff (calls : List PagingCall) :
    ∃ s, Paging.run calls bootPaging = .ok s ∧ ∀ amount, CheckPredicts s amount ↔
      amount ≤ s.pageManagerState.freePageFrameCount ∨
        s.pageManagerState.freePageFrameCount.toNat * pageFrameSize.toNat < amount.toNat := by
  obtain ⟨s, b, hrun, h, hb⟩ := Paging.run_refines calls bootPaging_refines bootRegister_sound
  refine ⟨s, hrun, fun amount => ?_⟩
  have hcount := h.count
  have hsize : pageFrameSize.toNat = 2 ^ 22 := by decide
  have hcheck : pagingAllocateCheck amount s = true ↔ amount.toNat ≤ b.free.card := by
    rw [pagingAllocateCheck, decide_eq_true_iff, UInt32.le_iff_toNat_le, hcount]
  have hpredicts : CheckPredicts s amount ↔ (amount.toNat ≤ b.free.card ↔ framesNeeded amount ≤ b.free.card) := by
    constructor
    · intro hp
      have hlen : (List.replicate (framesNeeded amount) ((.zero, 0) : PageDirectoryEntryFlag × UInt32)).length =
          framesNeeded amount := List.length_replicate
      have hone := hp _ hlen
      rwa [hcheck, allocateAll_iff h hb, hlen] at hone
    · intro hiff requests hlen
      rw [hcheck, allocateAll_iff h hb, hlen]
      exact hiff
  rw [hpredicts, UInt32.le_iff_toNat_le, hcount, hsize, framesNeeded, hsize]
  omega

/-- Right after boot one frame is allocated for 4 MiB, and the check denies it. -/
theorem check_denies_one_frame :
    Paging.run [] bootPaging = .ok bootPaging ∧ framesNeeded 0x400000 = 1 ∧
      pagingAllocateCheck 0x400000 bootPaging = false ∧ allocateAll [(.zero, 0)] bootPaging = true ∧
      ¬ CheckPredicts bootPaging 0x400000 := by
  have hfree : allocateAll [(.zero, 0)] bootPaging = true :=
    (allocateAll_iff bootPaging_refines bootRegister_sound).mpr (by decide)
  have hdenied : pagingAllocateCheck 0x400000 bootPaging = false := by decide
  refine ⟨rfl, by decide, hdenied, hfree, fun hp => ?_⟩
  have hcheck := (hp [(.zero, 0)] (by decide)).mpr hfree
  rw [hdenied] at hcheck
  cases hcheck

end Available

end Os2024
