import Os2024.Paging.Frames

/-!
# Page frames in any sequence of calls

The two operations on the kernel's page directory, from the state after boot, with any addresses:

* `frames_exclusive`: no frame is mapped twice, mapped frames are marked, and the counter is exact;
* `frames_owned_iff`: a marked frame is mapped, unless an entry that is present has been mapped again;
* `kernel_frame_kept_iff`: the kernel's frame stays the kernel's, unless its entry is freed or mapped again.
-/

namespace Os2024

open Lease

attribute [local instance] instNeZeroFrames

/-- What holds between directory, frame map and counter in every state. -/
structure FramesExclusive (s : Paging) : Prop where
  injective : ∀ i j, (s.pageDirectory.table i).flag.presentBit = true →
    (s.pageDirectory.table j).flag.presentBit = true →
    (s.pageDirectory.table i).lowerAddress = (s.pageDirectory.table j).lowerAddress → i = j
  used : ∀ i, (s.pageDirectory.table i).flag.presentBit = true →
    ∃ f : Fin 32, (s.pageDirectory.table i).lowerAddress.val = f.val ∧ s.pageManagerState.pageFrameMap f = true
  count : s.pageManagerState.freePageFrameCount.toNat =
    (Finset.univ.filter fun f => s.pageManagerState.pageFrameMap f = false).card
  refused : ∀ flag addr s', (PagingCall.allocate flag addr).exec s = .ok (false, s') →
    s' = s ∧ ∀ f, s.pageManagerState.pageFrameMap f = true

/-- A frame other than the kernel's is marked if and only if exactly one present entry maps it. -/
def FramesOwned (s : Paging) : Prop :=
  ∀ f : Fin 32, f ≠ 0 → (s.pageManagerState.pageFrameMap f = true ↔ ∃! i, (s.pageDirectory.table i).Maps f)

/-- Some frame is free. -/
def Paging.HasFree (s : Paging) : Prop := ∃ f, s.pageManagerState.pageFrameMap f = false

/-- The call maps an entry again that maps a frame other than the kernel's. -/
def Remaps (s : Paging) : PagingCall → Prop
  | .allocate _ addr => s.HasFree ∧ ∃ f : Fin 32, f ≠ 0 ∧ (s.pageDirectory.table (pageNumber addr)).Maps f
  | .free _ => False

/-- Frame `0` is marked, mapped by entry `0x300` for the supervisor, and by no entry for the user. -/
structure KernelFrameKept (s : Paging) : Prop where
  marked : s.pageManagerState.pageFrameMap 0 = true
  kernel : (s.pageDirectory.table 0x300).Maps 0 ∧ (s.pageDirectory.table 0x300).flag.userSupervisor = false
  user : ∀ i, (s.pageDirectory.table i).flag.presentBit = true →
    (s.pageDirectory.table i).flag.userSupervisor = true → (s.pageDirectory.table i).lowerAddress ≠ 0

/-- The call frees or maps the kernel's entry. -/
def TouchesKernel (s : Paging) : PagingCall → Prop
  | .allocate _ addr => s.HasFree ∧ pageNumber addr = 0x300
  | .free addr => pageNumber addr = 0x300

/-! ## No frame is shared -/

section Exclusive

variable {s : Paging} {b : FrameRegister}

theorem Paging.Refines.exclusive (h : s.Refines b) (hb : b.Sound) : FramesExclusive s := by
  constructor
  · intro i j hi hj he
    obtain ⟨f, hf⟩ := h.present i hi
    exact hb.unique ((h.maps i f).mp hf) ((h.maps j f).mp ⟨hj, he.symm.trans hf.2⟩)
  · intro i hi
    obtain ⟨f, hf⟩ := h.present i hi
    exact ⟨f, congrArg Fin.val hf.2, (h.taken f).trans (hb.taken ((h.maps i f).mp hf))⟩
  · rw [h.count, Register.free]
    simp only [h.taken]
  · intro flag addr s' hexec
    obtain ⟨done, t, b', hexec', ho⟩ := (PagingCall.allocate flag addr).exec_outcome h
    cases hexec'.symm.trans hexec
    cases ho with
    | full hfull => exact ⟨rfl, fun f => (h.taken f).trans (hfull f)⟩

/-- **No frame is shared, and the free counter is exact.** -/
theorem frames_exclusive (calls : List PagingCall) :
    ∃ s, Paging.run calls bootPaging = .ok s ∧ FramesExclusive s := by
  obtain ⟨s, b, hrun, h, hb⟩ := Paging.run_refines calls bootPaging_refines bootRegister_sound
  exact ⟨s, hrun, h.exclusive hb⟩

end Exclusive

/-! ## No frame is lost -/

section Owned

variable {s s' : Paging} {b b' : FrameRegister} {call : PagingCall} {done : Bool}

theorem Paging.Refines.hasFree_iff (h : s.Refines b) : s.HasFree ↔ ∃ f, b.taken f = false := by
  simp only [Paging.HasFree, h.taken]

theorem Paging.Refines.not_hasFree (h : s.Refines b) (hfull : ∀ f, b.taken f = true) : ¬ s.HasFree := by
  intro hfree
  obtain ⟨f, hf⟩ := h.hasFree_iff.mp hfree
  simp [hfull f] at hf

/-- Frames are owned exactly if the register has lost none but the kernel's. -/
theorem Paging.Refines.owned_iff (h : s.Refines b) (hb : b.Sound) :
    FramesOwned s ↔ ∀ f, f ≠ 0 → ¬ b.Lost f := by
  refine forall_congr' fun f => imp_congr_right fun _ => ?_
  rw [Register.not_lost_iff hb, h.taken]
  simp only [h.maps]

theorem framesOwned_step (h : s.Refines b) (hb : b.Sound) (ho : PagingCall.Outcome s b call done s' b') :
    FramesOwned s' ↔ FramesOwned s ∧ ¬ Remaps s call := by
  obtain ⟨h', hb'⟩ := ho.refines h hb
  rw [h'.owned_iff hb', h.owned_iff hb]
  cases ho with
  | full hfull =>
    simp [Remaps, h.not_hasFree hfull]
  | @taken flag addr f hf =>
    have hfree : s.HasFree := h.hasFree_iff.mpr ⟨f, hf⟩
    have hremaps : Remaps s (.allocate flag addr) ↔ ∃ g, g ≠ 0 ∧ b.holds (pageNumber addr) = some g := by
      simp only [Remaps, hfree, true_and, h.maps]
    rw [hremaps]
    simp only [Register.lost_take_iff hb hf, not_or, imp_and, forall_and, not_exists, not_and]
  | absent => simp [Remaps]
  | givenBack hk => simp [Remaps, Register.lost_giveBack_iff hk]

/-- **Page-frame ownership is exact** in a sequence of calls, unless one of them maps a present entry again. -/
theorem frames_owned_iff (calls : List PagingCall) : ∃ s, Paging.run calls bootPaging = .ok s ∧
    (FramesOwned s ↔ Paging.Throughout (fun s call => ¬ Remaps s call) calls bootPaging) := by
  obtain ⟨s, hrun, hiff⟩ := Paging.run_iff framesOwned_step calls bootPaging_refines bootRegister_sound
  refine ⟨s, hrun, hiff.trans (and_iff_right ?_)⟩
  rw [bootPaging_refines.owned_iff bootRegister_sound]
  rintro f hf ⟨ht, -⟩
  exact hf (by simpa [bootRegister] using ht)

/-- Two allocations at address `0` lose frame `1`. -/
theorem frames_lost : ∃ s, Paging.run [.allocate .zero 0, .allocate .zero 0] bootPaging = .ok s ∧
    ¬ FramesOwned s := by
  have h₁ : (PagingCall.allocate .zero 0).exec bootPaging = .ok (true, bootPaging.allocated .zero 0 1) :=
    PagingCall.exec_allocate (by decide) (by decide)
  have h₂ : (PagingCall.allocate .zero 0).exec (bootPaging.allocated .zero 0 1) =
      .ok (true, (bootPaging.allocated .zero 0 1).allocated .zero 0 2) :=
    PagingCall.exec_allocate (by decide) (by decide)
  refine ⟨_, (Paging.run_cons h₁).trans (Paging.run_cons h₂), fun howned => ?_⟩
  obtain ⟨i, hi, -⟩ := (howned 1 (by decide)).mp (by decide)
  by_cases h0 : i = pageNumber 0
  · rw [h0, Paging.allocated_self] at hi
    exact absurd hi.2 (by decide)
  · rw [Paging.allocated_of_ne h0, Paging.allocated_of_ne h0, bootPaging_table] at hi
    split at hi
    · exact absurd hi.2 (by decide)
    · cases hi.1

end Owned

/-! ## The kernel's frame -/

section Kernel

variable {s s' : Paging} {b b' : FrameRegister} {call : PagingCall} {done : Bool}

/-- All depends on the kernel's entry. -/
theorem Paging.Refines.kernelFrameKept_iff (h : s.Refines b) (hb : b.Sound) : KernelFrameKept s ↔
    (s.pageDirectory.table 0x300).Maps 0 ∧ (s.pageDirectory.table 0x300).flag.userSupervisor = false := by
  refine ⟨KernelFrameKept.kernel, fun hk => ?_⟩
  have hholds : b.holds 0x300 = some 0 := (h.maps _ _).mp hk.1
  refine ⟨(h.taken 0).trans (hb.taken hholds), hk, fun i hp hu hlow => ?_⟩
  obtain rfl : i = 0x300 := hb.unique ((h.maps i 0).mp ⟨hp, hlow⟩) hholds
  rw [hk.2] at hu
  cases hu

theorem kernelFrameKept_step (h : s.Refines b) (hb : b.Sound) (ho : PagingCall.Outcome s b call done s' b') :
    KernelFrameKept s' ↔ KernelFrameKept s ∧ ¬ TouchesKernel s call := by
  obtain ⟨h', hb'⟩ := ho.refines h hb
  rw [h'.kernelFrameKept_iff hb', h.kernelFrameKept_iff hb]
  cases ho with
  | full hfull =>
    simp [TouchesKernel, h.not_hasFree hfull]
  | @taken flag addr f hf =>
    have hfree : s.HasFree := h.hasFree_iff.mpr ⟨f, hf⟩
    by_cases hk : pageNumber addr = 0x300
    · -- the entry is now one of the user's
      rw [← hk, Paging.allocated_self]
      simp [TouchesKernel, hfree, hk]
    · rw [Paging.allocated_of_ne (Ne.symm hk)]
      simp [TouchesKernel, hk]
  | @absent addr hk =>
    have hne : (s.pageDirectory.table 0x300).Maps 0 → pageNumber addr ≠ 0x300 := fun hm he => by
      rw [he, (h.maps _ _).mp hm] at hk
      cases hk
    exact ⟨fun hm => ⟨hm, hne hm.1⟩, fun hm => hm.1⟩
  | @givenBack addr f hk =>
    by_cases h300 : pageNumber addr = 0x300
    · rw [← h300, Paging.freed_self]
      simp [TouchesKernel, h300, not_maps_zero]
    · rw [Paging.freed_of_ne (Ne.symm h300)]
      simp [TouchesKernel, h300]

/-- **The kernel's frame is never given to user mode** in a sequence of calls, unless one of them frees or maps the
kernel's entry. -/
theorem kernel_frame_kept_iff (calls : List PagingCall) : ∃ s, Paging.run calls bootPaging = .ok s ∧
    (KernelFrameKept s ↔ Paging.Throughout (fun s call => ¬ TouchesKernel s call) calls bootPaging) := by
  obtain ⟨s, hrun, hiff⟩ := Paging.run_iff kernelFrameKept_step calls bootPaging_refines bootRegister_sound
  refine ⟨s, hrun, hiff.trans (and_iff_right ?_)⟩
  rw [bootPaging_refines.kernelFrameKept_iff bootRegister_sound, bootPaging_refines.maps]
  exact ⟨rfl, rfl⟩

/-- Freeing address `0xC0000000` and allocating address `0` maps the kernel's frame for the user. -/
theorem kernel_frame_given : ∃ s, Paging.run [.free 0xC0000000, .allocate .zero 0] bootPaging = .ok s ∧
    (s.pageDirectory.table 0).Maps 0 ∧ (s.pageDirectory.table 0).flag.userSupervisor = true ∧
    ¬ KernelFrameKept s := by
  have h₁ : (PagingCall.free 0xC0000000).exec bootPaging = .ok (true, bootPaging.freed 0xC0000000 0) :=
    PagingCall.exec_free ((bootPaging_refines.maps _ _).mpr rfl)
  have h₂ : (PagingCall.allocate .zero 0).exec (bootPaging.freed 0xC0000000 0) =
      .ok (true, (bootPaging.freed 0xC0000000 0).allocated .zero 0 0) :=
    PagingCall.exec_allocate (by decide) (by decide)
  have hself : ((bootPaging.freed 0xC0000000 0).allocated .zero 0 0).pageDirectory.table (pageNumber 0) = _ :=
    Paging.allocated_self
  refine ⟨_, (Paging.run_cons h₁).trans (Paging.run_cons h₂), ?_, ?_, fun hkept => ?_⟩
  · exact hself ▸ ⟨rfl, rfl⟩
  · exact hself ▸ rfl
  · exact hkept.user (pageNumber 0) (by rw [hself]) (by rw [hself]) (by rw [hself]; rfl)

end Kernel

end Os2024
