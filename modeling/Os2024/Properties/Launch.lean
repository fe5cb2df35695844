import Os2024.Properties.Boot
import Os2024.Properties.UserMode

/-!
# From the inserter to the first instruction

A shell that was inserted is read from the disk by any later boot to the page that is mapped for it, and
`kernel_execute_user_program` enters it there: `shell_starts`.
-/

namespace Os2024

/-- The kernel calls `kernel_execute_user_program` with address 0 when memory is as `kernel_setup` has left it, but for
what the kernel has above the page of the shell. -/
structure Launches (l : KernelLayout) (image : KernelImage) (flag : PageDirectoryEntryFlag) (esp0 : UInt32) (u : System)
    (k : Cpu) : Prop where
  ready : l.Ready image (setupPaging flag).pageDirectory esp0 k
  high : 2 ^ 22 ≤ l.kernelStack.toNat
  argument : k.stackWord 1 = 0
  memory : ∀ p : UInt32, p.toNat < 2 ^ 22 → k.memory p = u.memory p

section Launch

variable {l : KernelLayout} {image : KernelImage} {flag : PageDirectoryEntryFlag} {esp0 : UInt32} {s s' t u : System}
  {k : Cpu} {x : Inserter.Insertion} {h : List Event} {fuel : Nat} {a : SetupAddresses}

/-- The state in which the program begins. -/
theorem Launches.starts (hlaunch : Launches l image flag esp0 u k) :
    k.kernelExecuteUserProgram.eip = 0 ∧ k.kernelExecuteUserProgram.esp = 0x400000 - 4 ∧
      ∀ p : UInt32, p.toNat < 2 ^ 22 → k.kernelExecuteUserProgram.memory p = u.memory p := by
  have hroom := hlaunch.ready.room
  have hhigh := hlaunch.high
  obtain ⟨eflags, mem, hstart, -, hmem⟩ := k.kernelExecuteUserProgram_eq (by omega)
  rw [hlaunch.argument, UInt32.zero_add] at hstart
  rw [hstart]
  refine ⟨rfl, rfl, fun p hp => ?_⟩
  exact (hmem p fun hrange => by omega).trans (hlaunch.memory p hp)

/-- **A shell that was inserted is what runs.** -/
theorem shell_starts (hd : Stores s.disk h) (hkey : x.request.key = shellRequest.key)
    (hfile : x.request.bufferSize ≠ 0) (hmain : Inserter.main fuel x s = .ok ("Write success", t))
    (hfuel : 512 ≤ fuel) (hplain : RootSlotPlain s) (hrt : RoundTrips x.request x.fileBuffer)
    (hboot : LaterBoot t.disk s' u) (hlaunch : Launches l image flag esp0 u k) :
    UserMode l image (setupPaging flag).pageDirectory esp0 k k.kernelExecuteUserProgram ∧
      k.kernelExecuteUserProgram.eip = 0 ∧ k.kernelExecuteUserProgram.esp = 0x400000 - 4 ∧
      ∀ j < x.request.bufferSize.toNat, (setupPaging flag).pageDirectory.UserWritable (0 + UInt32.ofNat j) ∧
        k.kernelExecuteUserProgram.memory (0 + UInt32.ofNat j) = x.fileBuffer (0 + UInt32.ofNat j) := by
  obtain ⟨heip, hesp, hmem⟩ := hlaunch.starts
  obtain ⟨i, h', hw, rfl, hserves, hslot⟩ := exists_inserted hd hkey hfile hmain hfuel
  have hloads := (boot_memory_iff hw hkey hfile hserves).mpr ⟨hslot.mpr hplain, hrt⟩ s' u hboot
  have hsize := hw.bufferSize_lt
  refine ⟨hlaunch.ready.userMode .refl, heip, hesp, fun j hj => ?_⟩
  have hlow : (0 + UInt32.ofNat j).toNat < 2 ^ 22 := by
    rw [UInt32.zero_add, UInt32.toNat_ofNat']
    omega
  exact ⟨setupPaging_userWritable_iff.mpr hlow, (hmem _ hlow).trans (hloads j hj)⟩

/-- The kernel with its tables set up over the memory of a boot. -/
def launchingCpu (u : System) : Cpu :=
  { enteringCpu with
    memory := highLayout.withTables lowImage.isrStubTable 0xC0300000 fun p => if p.toNat < 2 ^ 22 then u.memory p else 0 }

theorem launchingCpu_memory (u : System) {p : UInt32} (hgdt : ¬ InRange highLayout.gdt 256 p)
    (hidt : ¬ InRange highLayout.idt 2048 p) (htss : ¬ InRange highLayout.tss 104 p) :
    (launchingCpu u).memory p = if p.toNat < 2 ^ 22 then u.memory p else 0 :=
  (highLayout_fits (bootPaging.pageDirectory.table 0x300).flag).withTables_of_notInRange hgdt hidt htss

theorem launchingCpu_launches (flag : PageDirectoryEntryFlag) (u : System) :
    Launches highLayout lowImage flag 0xC0300000 u (launchingCpu u) where
  ready :=
    { stackFits := ⟨by decide, .inl (by decide)⟩
      tablesFit := highLayout_fits flag
      loaded := (highLayout_fits flag).loaded _ _
      room := show (0xC0200000 : UInt32).toNat + 20 ≤ (0xC02FFFF8 : UInt32).toNat by decide
      top := show (0xC02FFFF8 : UInt32).toNat ≤ (0xC0300000 : UInt32).toNat by decide }
  high := by decide
  argument := by
    have hbytes : (launchingCpu u).memory.load 0xC02FFFFC 4 = fun _ => 0 := by
      funext j
      have hcases : ∀ j : Fin 4, ¬ InRange highLayout.gdt 256 (0xC02FFFFC + UInt32.ofNat j.val) ∧
          ¬ InRange highLayout.idt 2048 (0xC02FFFFC + UInt32.ofNat j.val) ∧
          ¬ InRange highLayout.tss 104 (0xC02FFFFC + UInt32.ofNat j.val) ∧
          ¬ (0xC02FFFFC + UInt32.ofNat j.val).toNat < 2 ^ 22 := by decide
      obtain ⟨hgdt, hidt, htss, hlow⟩ := hcases j
      exact (launchingCpu_memory u hgdt hidt htss).trans (if_neg hlow)
    have hword : (launchingCpu u).memory.loadWord 0xC02FFFFC = 0 := by
      rw [Memory.loadWord, hbytes]
      rfl
    exact hword
  memory p hp := by
    refine (launchingCpu_memory u ?_ ?_ ?_).trans (if_pos hp) <;>
      · simp only [InRange, highLayout, UInt32.reduceToNat]
        omega

/-- The shell of one byte is inserted into a blank image, loaded and entered. -/
theorem shell_starts_tiny : ∃ t s' u, Inserter.main 512 tinyShell blankSystem = .ok ("Write success", t) ∧
    s'.disk = t.disk ∧ kernelSetup 512 plainAddresses s' = .ok u ∧
    (launchingCpu u).kernelExecuteUserProgram.eip = 0 ∧
    (launchingCpu u).kernelExecuteUserProgram.memory (0 + UInt32.ofNat 0) = 0xF4 := by
  have hfile : tinyShell.request.bufferSize ≠ 0 := by decide
  have hroot : tinyShell.request.parentClusterNumber = rootClusterNumber := congrArg Prod.fst tinyShell_key
  obtain ⟨t, hmain, -⟩ := Inserter.main_stores blankSystem_stores ⟨hroot ▸ Live.root _, hfile⟩ le_rfl
  rw [tinyShell_answer] at hmain
  have hmain : Inserter.main 512 tinyShell blankSystem = .ok ("Write success", t) := hmain
  obtain ⟨i, h', -, -, hserves, -⟩ := exists_inserted blankSystem_stores tinyShell_key hfile hmain le_rfl
  obtain ⟨s', hdisk⟩ : ∃ s' : System, s'.disk = t.disk := ⟨t, rfl⟩
  obtain ⟨u, hrun⟩ := kernelSetup_runs (a := plainAddresses) (hdisk ▸ hserves.stores) le_rfl
  have hlaunch := launchingCpu_launches (bootPaging.pageDirectory.table 0x300).flag u
  obtain ⟨-, heip, -, hbytes⟩ := shell_starts blankSystem_stores tinyShell_key hfile hmain le_rfl blankSystem_slotPlain
    (.inl (by decide)) ⟨hdisk ▸ .refl, 512, _, le_rfl, plainAddresses_apart, hrun.returns⟩ hlaunch
  exact ⟨t, s', u, hmain, hdisk, hrun.returns, heip, (hbytes 0 (by decide)).2⟩

end Launch

end Os2024
