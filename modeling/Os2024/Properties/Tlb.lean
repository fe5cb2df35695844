import Mathlib.Data.List.Infix
import Os2024.Paging.Tlb
import Os2024.Properties.Frames

/-!
# No stale translation outlives a call

The CPU may cache a translation at any moment, also between the two stores to an entry: an entry is marked as present
and the user's before it has its frame. What it cached then is gone when the call returns: `tlb_coherent`. Until then
it may have the user's access to the frame that the entry had before, the frame of the kernel for a page that was never
mapped: `tlb_window_iff`.
-/

namespace Os2024

open Cache Lease

attribute [local instance] instNeZeroFrames

/-! ## A page that is handed out -/

section Allocate

variable {s s' : Paging} {flag : PageDirectoryEntryFlag} {virtualAddr : UInt32}

/-- The flags of a page that is handed out. -/
def userFlag (flag : PageDirectoryEntryFlag) : PageDirectoryEntryFlag :=
  { flag with
    presentBit := true
    readWrite := true
    userSupervisor := true
    pageSize := true }

theorem exec_allocate_inv (h : (PagingCall.allocate flag virtualAddr).exec s = .ok (true, s')) :
    ∃ physicalAddr, (PagingCall.allocate flag virtualAddr).ops s =
        updatePageDirectoryEntryOps physicalAddr virtualAddr (userFlag flag) ∧
      s'.pageDirectory.table (pageNumber virtualAddr) = ⟨userFlag flag, pageNumber physicalAddr⟩ := by
  rw [PagingCall.ops]
  cases hfind : Scan.firstFrom 0 fun physicalIdx => !s.pageManagerState.pageFrameMap physicalIdx with
  | none =>
    simp only [PagingCall.exec, pagingAllocateUserPageFrame, hfind] at h
    cases h
  | some physicalIdx =>
    simp only [PagingCall.exec, pagingAllocateUserPageFrame, hfind] at h
    cases h
    exact ⟨_, rfl, Function.update_self ..⟩

/-- What the stores of the call make of the entry. -/
theorem exec_allocate_table (h : (PagingCall.allocate flag virtualAddr).exec s = .ok (true, s')) (mmu : Mmu) :
    (((PagingCall.allocate flag virtualAddr).ops s).foldl (fun s op => op.exec s) mmu).table (pageNumber virtualAddr) =
      s'.pageDirectory.table (pageNumber virtualAddr) := by
  obtain ⟨physicalAddr, hops, hentry⟩ := exec_allocate_inv h
  rw [hops, hentry]
  simp [updatePageDirectoryEntryOps, Op.exec]

end Allocate

/-! ## When a call has returned -/

section Coherent

variable {m n : PagingMachine} {s s' : Paging} {calls : List PagingCall}

theorem translation_eq_some {e : PageDirectoryEntry} {t : Translation} (h : e.translation = some t) :
    e.flag.presentBit = true ∧ e.lowerAddress = t.frame := by
  unfold PageDirectoryEntry.translation at h
  split at h
  · next hbits =>
    cases h
    exact ⟨(Bool.and_eq_true_iff.mp hbits).1, rfl⟩
  · cases h

/-- **The cached translations are those of the directory** after every call. -/
theorem tlb_coherent (hboot : m.Booted) (hcalls : PagingMachine.Calls calls m n) :
    ∃ s, Paging.run calls bootPaging = .ok s ∧ n.paging.SameButMarks s ∧
      (∀ i t, n.mmu.cached i t → (s.pageDirectory.table i).translation = some t ∧
        ∃ f : Fin 32, t.frame.val = f.val ∧ s.pageManagerState.pageFrameMap f = true) ∧
      ∀ i j t u, n.mmu.cached i t → n.mmu.cached j u → t.frame = u.frame → i = j ∧ t = u := by
  obtain ⟨s, hrun, hcarries⟩ := hcalls.carries hboot.carries
  obtain ⟨s', b, hrun', hrefines, hsound⟩ := Paging.run_refines calls bootPaging_refines bootRegister_sound
  cases hrun.symm.trans hrun'
  have hexclusive := hrefines.exclusive hsound
  refine ⟨s, hrun, hcarries.sameButMarks, fun i t ht => ?_, fun i j t u ht hu hframe => ?_⟩
  · have htranslation := hcarries.translation ht
    obtain ⟨hpresent, hframe⟩ := translation_eq_some htranslation
    obtain ⟨f, hf, hmarked⟩ := hexclusive.used i hpresent
    exact ⟨htranslation, f, (congrArg Fin.val hframe).symm.trans hf, hmarked⟩
  · have htranslation := hcarries.translation ht
    obtain ⟨hpresent, hframe₁⟩ := translation_eq_some htranslation
    have htranslation' := hcarries.translation hu
    obtain ⟨hpresent', hframe₂⟩ := translation_eq_some htranslation'
    obtain rfl := hexclusive.injective i j hpresent hpresent' ((hframe₁.trans hframe).trans hframe₂.symm)
    exact ⟨rfl, Option.some.inj (htranslation.symm.trans htranslation')⟩

/-- The machine when the loader is done, with nothing cached. -/
def bootedMachine : PagingMachine where
  mmu := loaderOps.foldl (fun s op => op.exec s) loadedMmu
  pageManagerState := pageManagerState

theorem bootedMachine_booted : bootedMachine.Booted := ⟨Run.foldl mmuReading loaderOps loadedMmu, rfl⟩

/-- `kernel_setup` maps frame `1` for the shell. -/
theorem bootedMachine_allocate : (PagingCall.allocate .zero 0).exec bootedMachine.paging =
    .ok (true, bootedMachine.paging.allocated .zero 0 1) :=
  PagingCall.exec_allocate (by decide) (by decide)

/-- The page of the shell, cached once it is mapped. -/
theorem tlb_coherent_shell : ∃ n, PagingMachine.Calls [.allocate .zero 0] bootedMachine n ∧
    n.mmu.cached 0 ⟨1, true, true⟩ ∧ ∀ t, n.mmu.cached 0 t → t = ⟨1, true, true⟩ := by
  have hentry := (exec_allocate_table bootedMachine_allocate bootedMachine.mmu).trans Paging.allocated_self
  obtain ⟨mmu, hrun, hcached⟩ : ∃ mmu,
      Run mmuReading ((PagingCall.allocate .zero 0).ops bootedMachine.paging) bootedMachine.mmu mmu ∧
        mmu.cached 0 ⟨1, true, true⟩ := exists_cached (congrArg (fun e => e.unmarked.translation) hentry)
  have hcalls := PagingMachine.Calls.cons bootedMachine_allocate hrun (.nil (.nil .refl))
  obtain ⟨s', -, -, htranslations, -⟩ := tlb_coherent bootedMachine_booted hcalls
  refine ⟨_, hcalls, hcached, fun t ht => ?_⟩
  exact Option.some.inj ((htranslations 0 t ht).1.symm.trans (htranslations 0 _ hcached).1)

end Coherent

/-! ## Inside a call -/

section Window

variable {m n : PagingMachine} {s s' : Paging} {calls : List PagingCall} {flag : PageDirectoryEntryFlag}
  {virtualAddr : UInt32} {dir : PageDirectory} {e : PageDirectoryEntry} {pre : List MmuOp} {x : PageDirectoryEntry}

/-- The page with its new flags, and the frame that it had before. -/
def halfMapped (flag : PageDirectoryEntryFlag) (e : PageDirectoryEntry) : PageDirectoryEntry :=
  { e with flag := userFlag flag }

/-- What an entry is in a call that maps it. -/
theorem prefix_values {physicalAddr : UInt32} (dir : PageDirectory)
    (hpre : pre <+: updatePageDirectoryEntryOps physicalAddr virtualAddr (userFlag flag))
    (hx : x ∈ (pre.foldl (fun a op => op.trace a) dir.settled (pageNumber virtualAddr)).values) :
    x = dir.table (pageNumber virtualAddr) ∨ x = halfMapped flag (dir.table (pageNumber virtualAddr)) ∨
      x = ⟨userFlag flag, pageNumber physicalAddr⟩ := by
  rw [updatePageDirectoryEntryOps, List.prefix_cons_iff] at hpre
  rcases hpre with rfl | ⟨rest, rfl, hpre⟩
  · exact .inl (List.mem_singleton.mp hx)
  rw [List.prefix_cons_iff] at hpre
  rcases hpre with rfl | ⟨rest, rfl, hpre⟩
  · simp only [List.foldl_cons, List.foldl_nil, Op.trace, Function.update_self, Trace.values, PageDirectory.settled,
      List.mem_cons, List.not_mem_nil, or_false] at hx
    rcases hx with rfl | rfl
    · exact .inr (.inl rfl)
    · exact .inl rfl
  rw [List.prefix_cons_iff] at hpre
  rcases hpre with rfl | ⟨rest, rfl, hpre⟩
  · simp only [List.foldl_cons, List.foldl_nil, Op.trace, Function.update_self, Trace.values, PageDirectory.settled,
      List.mem_cons, List.not_mem_nil, or_false] at hx
    rcases hx with rfl | rfl | rfl
    · exact .inr (.inr rfl)
    · exact .inr (.inl rfl)
    · exact .inl rfl
  · rw [List.prefix_nil.mp hpre] at hx
    simp only [List.foldl_cons, List.foldl_nil, Op.trace, Function.update_self, Trace.values, PageDirectory.settled,
      List.mem_singleton] at hx
    exact .inr (.inr hx)

theorem index_of_mem_ops {physicalAddr : UInt32} {op : MmuOp}
    (h : op ∈ updatePageDirectoryEntryOps physicalAddr virtualAddr flag) : op.index = pageNumber virtualAddr := by
  simp only [updatePageDirectoryEntryOps, List.mem_cons, List.not_mem_nil, or_false] at h
  rcases h with rfl | rfl | rfl <;> rfl

/-- **What may be cached while a page is mapped**: of the page, what it was before, the user's access to the frame that
it had before, and what it becomes; of others, what they are. -/
theorem tlb_window_iff (hboot : m.Booted) (hcalls : PagingMachine.Calls calls m n)
    (hexec : (PagingCall.allocate flag virtualAddr).exec n.paging = .ok (true, s')) (i : Fin 1024) (t : Translation) :
    (∃ pre mmu, pre <+: (PagingCall.allocate flag virtualAddr).ops n.paging ∧ Run mmuReading pre n.mmu mmu ∧
        mmu.cached i t) ↔
      (n.mmu.table i).translation = some t ∨
      i = pageNumber virtualAddr ∧
        (t = ⟨(n.mmu.table i).lowerAddress, true, true⟩ ∨ t = ⟨(s'.pageDirectory.table i).lowerAddress, true, true⟩) := by
  obtain ⟨s, -, hcarries⟩ := hcalls.carries hboot.carries
  obtain ⟨physicalAddr, hops, hentry⟩ := exec_allocate_inv hexec
  have hbefore := hcarries.mmu.table i
  rw [hops]
  constructor
  · rintro ⟨pre, mmu, hpre, hrun, hcached⟩
    have hexplains := hcarries.mmu.run
      (fun op hop => updatePageDirectoryEntryOps_uniform _ _ _ op (hpre.subset hop)) hrun
    obtain ⟨x, hx, hview⟩ := hexplains.cached _ _ hcached
    have htranslation : x.translation = some t := hview
    have hsame := congrArg PageDirectoryEntry.translation hbefore
    by_cases hi : i = pageNumber virtualAddr
    · subst hi
      rcases prefix_values s.pageDirectory hpre hx with rfl | rfl | rfl
      · exact .inl (hsame.trans htranslation)
      · have hlower : (n.mmu.table (pageNumber virtualAddr)).lowerAddress = _ := lowerAddress_of_unmarked hbefore
        rw [hlower]
        exact .inr ⟨rfl, .inl (Option.some.inj htranslation).symm⟩
      · rw [hentry]
        exact .inr ⟨rfl, .inr (Option.some.inj htranslation).symm⟩
    · rw [foldl_trace_of_ne fun op hop => (index_of_mem_ops (hpre.subset hop)).symm ▸ hi] at hx
      rw [List.mem_singleton.mp hx] at htranslation
      exact .inl (hsame.trans htranslation)
  · rintro (hold | ⟨rfl, rfl | rfl⟩)
    · obtain ⟨mmu, hrun, hcached⟩ : ∃ mmu, Run mmuReading [] n.mmu mmu ∧ mmu.cached i t := exists_cached hold
      exact ⟨[], mmu, List.nil_prefix, hrun, hcached⟩
    · have hhalf : ((Op.write (pageNumber virtualAddr) (halfMapped flag)).exec n.mmu).table (pageNumber virtualAddr) =
          halfMapped flag (n.mmu.table (pageNumber virtualAddr)) := Function.update_self ..
      obtain ⟨mmu, hrun, hcached⟩ : ∃ mmu, Run mmuReading [.write (pageNumber virtualAddr) (halfMapped flag)] n.mmu mmu ∧
          mmu.cached (pageNumber virtualAddr) ⟨(n.mmu.table (pageNumber virtualAddr)).lowerAddress, true, true⟩ :=
        exists_cached (congrArg (fun e => e.unmarked.translation) hhalf)
      exact ⟨_, mmu, List.prefix_append [_] [_, _], hrun, hcached⟩
    · have hwhole := exec_allocate_table hexec n.mmu
      rw [hops] at hwhole
      obtain ⟨mmu, hrun, hcached⟩ : ∃ mmu,
          Run mmuReading (updatePageDirectoryEntryOps physicalAddr virtualAddr (userFlag flag)) n.mmu mmu ∧
          mmu.cached (pageNumber virtualAddr)
            ⟨(s'.pageDirectory.table (pageNumber virtualAddr)).lowerAddress, true, true⟩ :=
        exists_cached ((congrArg (fun e => e.unmarked.translation) hwhole).trans (by rw [hentry]; rfl))
      exact ⟨_, mmu, List.prefix_rfl, hrun, hcached⟩

/-- While the page of the shell is mapped, a user's access to the frame of the kernel may be cached. -/
theorem tlb_window_kernel : ∃ pre mmu, pre <+: (PagingCall.allocate .zero 0).ops bootedMachine.paging ∧
    Run mmuReading pre bootedMachine.mmu mmu ∧ mmu.cached 0 ⟨0, true, true⟩ := by
  have hwindow := tlb_window_iff bootedMachine_booted (.nil (.nil .refl)) bootedMachine_allocate 0 ⟨0, true, true⟩
  exact hwindow.mpr (.inr ⟨rfl, .inl rfl⟩)

end Window

end Os2024
