import Os2024.Properties.Stub
import Os2024.Protection.Entrypoint

/-!
# What a user program can do

A user program stays in ring 3 and in its own segments, and changes nothing outside of its 4 MiB but through the
interrupts that it takes: `user_confined`. It enters the kernel at the handlers of the vectors, on the stack that was set
for it, and goes on as if nothing had happened behind each of them that takes what the CPU pushes: `user_traps`.

The kernel never sets the offset of the map of ports in the state of its task, so the map lies over that state itself,
and what is zero there lets the program through. Its ports are most of those below 832, with those of the disk and of the
keyboard among them; an access that begins below may also reach over the end, where the byte behind the state decides:
`user_ports_iff`.
-/

namespace Os2024

open Bytes

/-! ## Ports -/

/-- The bit of the port is zero in the state of the task, or in the byte behind it. -/
def OpenPort (esp0 : UInt32) (behind : UInt8) (port : Nat) : Prop :=
  if port < 832 then port ≠ 68 ∧ (32 ≤ port → port < 64 → esp0.toNat.testBit (port - 32) = false)
  else behind.toNat.testBit (port - 832) = false

/-- The ports of the disk and of the screen are among those that do not depend on the stack of the kernel. -/
theorem openPort_of_lt {esp0 : UInt32} {behind : UInt8} {port : Nat} (hlow : 69 ≤ port) (hhigh : port < 832) :
    OpenPort esp0 behind port := by
  rw [OpenPort, if_pos hhigh]
  exact ⟨by omega, by omega⟩

section Ports

variable {l : KernelLayout} {mem : Memory} {isrStubTable : Fin 64 → UInt32} {esp0 : UInt32} {cpl level size n j : Nat}
  {port : UInt16}

theorem mod_two_pow_eq_zero_iff : n % 2 ^ size = 0 ↔ ∀ i < size, n.testBit i = false := by
  constructor
  · intro h i hi
    have hbit := Nat.testBit_mod_two_pow n size i
    rwa [h, Nat.zero_testBit, decide_eq_true hi, Bool.true_and, eq_comm] at hbit
  · intro h
    refine Nat.eq_of_testBit_eq fun i => ?_
    rw [Nat.testBit_mod_two_pow, Nat.zero_testBit]
    by_cases hi : i < size
    · rw [h i hi, Bool.and_false]
    · rw [decide_eq_false hi, Bool.false_and]

/-- A bit of a byte of a word. -/
theorem testBit_byte (word : UInt32) {k i : Nat} (hi : i < 8) :
    (UInt8.ofNat (word.toNat / 256 ^ k)).toNat.testBit i = word.toNat.testBit (8 * k + i) := by
  have hpow : 256 ^ k = 2 ^ (8 * k) := (Nat.pow_mul 2 8 k).symm
  have hmod : (UInt8.ofNat (word.toNat / 256 ^ k)).toNat = word.toNat / 256 ^ k % 2 ^ 8 := UInt8.toNat_ofNat'
  rw [hmod, Nat.testBit_mod_two_pow, decide_eq_true hi, Bool.true_and, hpow, Nat.testBit_div_two_pow, Nat.add_comm]

/-- The bits of the state of the task. -/
theorem testBit_tss {q : Nat} {behind : UInt8} (hq : q / 8 < 104) :
    (TSSEntry.bytes { esp0 := esp0, ss0 := 0x10 } ⟨q / 8, hq⟩).toNat.testBit (q % 8) = false ↔
      OpenPort esp0 behind q := by
  have hlt : q % 8 < 8 := Nat.mod_lt _ (by decide)
  rw [OpenPort, if_pos (by omega)]
  unfold TSSEntry.bytes
  dsimp only
  by_cases hesp0 : q / 8 / 4 = 1
  · have hindex : 8 * (q / 8 - 4) + q % 8 = q - 32 := by omega
    rw [if_pos hesp0, testBit_byte _ hlt, hindex]
    constructor
    · intro h
      exact ⟨by omega, fun _ _ => h⟩
    · intro h
      exact h.2 (by omega) (by omega)
  · rw [if_neg hesp0]
    by_cases hss0 : q / 8 / 4 = 2
    · have hindex : 8 * (q / 8 - 8) + q % 8 = q - 64 := by omega
      have hbit : ∀ i < 32, (0x10 : UInt32).toNat.testBit i = false ↔ i ≠ 4 := by decide
      rw [if_pos hss0, testBit_byte _ hlt, hindex, hbit _ (by omega)]
      constructor
      · intro h
        exact ⟨by omega, by omega⟩
      · intro h
        have hne := h.1
        omega
    · have hzero : (0 : UInt8).toNat.testBit (q % 8) = false := Nat.zero_testBit _
      rw [if_neg hss0, hzero]
      constructor
      · intro _
        exact ⟨by omega, by omega⟩
      · intro _
        rfl

/-- A byte of the state of the task. -/
theorem load_tss {b : Fin 104 → UInt8} (h : mem.load l.tss 104 = b) (k : Fin n) (hlt : j + k.val < 104) :
    mem.load (l.tss + UInt32.ofNat j) n k = b ⟨j + k.val, hlt⟩ := by
  have haddr : l.tss + UInt32.ofNat j + UInt32.ofNat k.val = l.tss + UInt32.ofNat (j + k.val) := by
    rw [UInt32.ofNat_add, UInt32.add_assoc]
  rw [Memory.load, haddr, ← h]
  rfl

/-- The bits of the map, which is the state of the task and what lies behind it. -/
theorem KernelLayout.Loaded.testBit_map (h : l.Loaded mem isrStubTable esp0) {q : Nat} (hq : q < 840) :
    (mem (l.tss + UInt32.ofNat (q / 8))).toNat.testBit (q % 8) = false ↔
      OpenPort esp0 (mem (l.tss + 104)) q := by
  by_cases hlow : q < 832
  · have hindex : q / 8 < 104 := by omega
    have hbyte : mem (l.tss + UInt32.ofNat (q / 8)) = TSSEntry.bytes { esp0 := esp0, ss0 := 0x10 } ⟨q / 8, hindex⟩ :=
      congrFun h.tss ⟨q / 8, hindex⟩
    rw [hbyte]
    exact testBit_tss hindex
  · have hindex : q / 8 = 104 := by omega
    have hbit : q % 8 = q - 832 := by omega
    rw [OpenPort, if_neg hlow, hindex, hbit]
    exact Iff.rfl

/-- **The ports of a level**, when the kernel has set up the state of its task. -/
theorem KernelLayout.Loaded.portAllowed_iff (h : l.Loaded mem isrStubTable esp0) (hsize : size ≤ 8) :
    l.portAllowed mem cpl level port size = true ↔
      cpl ≤ level ∨ port.toNat < 832 ∧ ∀ i < size, OpenPort esp0 (mem (l.tss + 104)) (port.toNat + i) := by
  -- the offset of the map was never set
  have hmap : mem.load (l.tss + 102) 2 = fun _ => 0 := by
    funext k
    have hbyte := load_tss (j := 102) h.tss k (by omega)
    have hzero : TSSEntry.bytes { esp0 := esp0, ss0 := 0x10 } ⟨102 + k.val, by omega⟩ = 0 := by
      rw [TSSEntry.bytes, if_neg (show ¬ (102 + k.val) / 4 = 1 by omega), if_neg (show ¬ (102 + k.val) / 4 = 2 by omega)]
    exact hbyte.trans hzero
  have hoffset : ofLe (fun _ : Fin 2 => (0 : UInt8)) = 0 := rfl
  have hbits : ofLe (mem.load (l.tss + UInt32.ofNat (port.toNat / 8)) 2) / 2 ^ (port.toNat % 8) % 2 ^ size = 0 ↔
      ∀ i < size, (ofLe (mem.load (l.tss + UInt32.ofNat (port.toNat / 8)) 2)).testBit (port.toNat % 8 + i) = false := by
    simp only [mod_two_pow_eq_zero_iff, Nat.testBit_div_two_pow, Nat.add_comm]
  have hlimit : port.toNat / 8 + 1 ≤ 104 ↔ port.toNat < 832 := by omega
  rw [portAllowed, task_base, task_limit, hmap, hoffset, Nat.zero_add, Bool.or_eq_true, decide_eq_true_eq,
    Bool.and_eq_true, decide_eq_true_eq, beq_iff_eq, hbits, hlimit]
  refine or_congr Iff.rfl (and_congr_right fun hport => forall₂_congr fun i hi => ?_)
  -- bit `i` is in one of the two bytes that are read
  have hlt : (port.toNat % 8 + i) / 8 < 2 := by omega
  have haddr : l.tss + UInt32.ofNat (port.toNat / 8) + UInt32.ofNat ((port.toNat % 8 + i) / 8) =
      l.tss + UInt32.ofNat ((port.toNat + i) / 8) := by
    rw [UInt32.add_assoc, ← UInt32.ofNat_add]
    congr 2
    omega
  have hmod : (port.toNat % 8 + i) % 8 = (port.toNat + i) % 8 := by omega
  rw [testBit_ofLe, dif_pos hlt, Memory.load, haddr, hmod]
  exact h.testBit_map (by omega)

end Ports

/-! ## Runs of a user program -/

/-- The kernel is about to enter a user program. -/
structure KernelLayout.Ready (l : KernelLayout) (image : KernelImage) (dir : PageDirectory) (esp0 : UInt32) (k : Cpu) :
    Prop where
  stackFits : l.StackFits esp0
  tablesFit : l.TablesFit dir esp0
  loaded : l.Loaded k.memory image.isrStubTable esp0
  room : l.kernelStack.toNat + 20 ≤ k.esp.toNat
  top : k.esp.toNat ≤ esp0.toNat

section Runs

variable {l : KernelLayout} {image : KernelImage} {dir : PageDirectory} {flag : PageDirectoryEntryFlag} {esp0 : UInt32}
  {k s : Cpu} {port : UInt16} {size : Nat}

/-- What every run keeps. -/
theorem KernelLayout.Ready.userMode (h : l.Ready image dir esp0 k)
    (hrun : Relation.ReflTransGen (UserStep l image dir) k.kernelExecuteUserProgram s) :
    UserMode l image dir esp0 k s := by
  induction hrun with
  | refl => exact h.loaded.userMode h.tablesFit h.room h.top
  | tail _ hstep ih => exact ih.step h.tablesFit h.stackFits hstep

/-- A layout in the higher half. -/
def highLayout : KernelLayout where
  gdt := 0xC0100000
  idt := 0xC0101000
  tss := 0xC0102000
  pageDirectory := 0xC0104000
  keyboardState := 0xC0103000
  kernelStack := 0xC0200000
  keyboardFits := by decide

/-- The kernel with its tables set up and the input of the keyboard on, at the call of `kernel_execute_user_program` with
address 0. -/
def enteringCpu : Cpu where
  regs := ⟨0, 0, 0, 0, 0, 0, 0, 0x10, 0x10, 0x10, 0x10⟩
  esp := 0xC02FFFF8
  ss := 0x10
  cs := 0x8
  eip := 0xC0010000
  eflags := 0x202
  memory := highLayout.withTables lowImage.isrStubTable 0xC0300000 fun a => if a = 0xC0103001 then 1 else 0

theorem highLayout_fits (flag : PageDirectoryEntryFlag) :
    highLayout.TablesFit (setupPaging flag).pageDirectory 0xC0300000 where
  gdt := by decide
  idt := by decide
  tss := by decide
  pageDirectory := by decide
  apart a ha := by
    simp only [InRange, highLayout, UInt32.reduceToNat] at ha ⊢
    omega
  idtApart a ha := by
    simp only [InRange, highLayout, UInt32.reduceToNat] at ha ⊢
    omega
  directoryApart a ha := by
    simp only [KernelLayout.InTables, InRange, highLayout, UInt32.reduceToNat] at ha ⊢
    omega
  kernel a ha := by
    rw [setupPaging_userWritable_iff]
    simp only [KernelLayout.InTables, InRange, KernelLayout.OnKernelStack, highLayout, UInt32.reduceToNat] at ha ⊢
    omega

theorem enteringCpu_ready (flag : PageDirectoryEntryFlag) :
    highLayout.Ready lowImage (setupPaging flag).pageDirectory 0xC0300000 enteringCpu where
  stackFits := ⟨by decide, .inl (by decide)⟩
  tablesFit := highLayout_fits flag
  loaded := (highLayout_fits flag).loaded _ _
  room := by decide
  top := by decide

/-- **A user program is confined.** -/
theorem user_confined (h : l.Ready image (setupPaging flag).pageDirectory esp0 k)
    (hrun : Relation.ReflTransGen (UserStep l image (setupPaging flag).pageDirectory) k.kernelExecuteUserProgram s) :
    s.cs = 0x1B ∧ s.ss = 0x23 ∧ (∀ reg, UserSelector (s.segment reg)) ∧ FlagsKept 3 k.eflags s.eflags ∧
      l.Loaded s.memory image.isrStubTable esp0 ∧
      (∀ a, InRange l.pageDirectory 4096 a → s.memory a ||| pageMarks = k.memory a ||| pageMarks) ∧
      ∀ a, 2 ^ 22 ≤ a.toNat → ¬ l.OnKernelStack esp0 a → ¬ InRange l.keyboardState 3 a → ¬ InRange l.gdt 256 a →
        ¬ InRange l.pageDirectory 4096 a → s.memory a = k.memory a := by
  have hmode := h.userMode hrun
  refine ⟨hmode.cs, hmode.ss, hmode.segments, hmode.flags, hmode.loaded, hmode.directory, fun a ha => ?_⟩
  exact hmode.memory a fun hwritable => absurd (setupPaging_userWritable_iff.mp hwritable) (Nat.not_lt.mpr ha)

/-- `main_interrupt_handler`, compiled without frames of its own. -/
def plainHandler : CompiledHandler := ⟨Cpu.regs, Cpu.eflags, Cpu.memory⟩

/-- The program writes to its first byte, the CPU marks its page, and `int 0x30` follows. -/
theorem user_confined_int : ∃ s,
    Relation.ReflTransGen
      (UserStep highLayout lowImage (setupPaging (bootPaging.pageDirectory.table 0x300).flag).pageDirectory)
      enteringCpu.kernelExecuteUserProgram s ∧ s.memory 0 = 7 ∧ s.cs = 0x1B ∧ s.memory 0xC0000000 = 0 := by
  generalize (bootPaging.pageDirectory.table 0x300).flag = flag
  have hstore : ∀ k : Cpu, ∃ t, Relation.ReflTransGen (UserStep highLayout lowImage (setupPaging flag).pageDirectory) k t ∧
      t.memory 0 = 7 := by
    intro k
    refine ⟨_, .tail (.single (.instr (.store 0 7 (setupPaging_userWritable_iff.mpr (by decide)))))
      (.marked 0 0x60 (by decide)), ?_⟩
    have hne : (0 : UInt32) ≠ highLayout.pageDirectory + UInt32.ofNat (4 * (0 : Fin 1024).val) := by decide
    dsimp only
    rw [Function.update_of_ne hne, Function.update_self]
  obtain ⟨t, hstore, hbyte⟩ := hstore enteringCpu.kernelExecuteUserProgram
  have hmode := (enteringCpu_ready flag).userMode hstore
  have hraises : Raises highLayout t ((0x30 : Fin 64).castLE isrStubTableLimit_le) := by
    have hvector : softwareVector (highLayout.idtAt t.memory) t.cpl 0x30 = (0x30 : Fin 64).castLE isrStubTableLimit_le := by
      rw [hmode.loaded.idt, hmode.cpl_eq, softwareVector_eq]
      rfl
    exact hvector ▸ .software 0x30
  obtain ⟨u, hu, hiret, hmem⟩ := hmode.exists_return (enteringCpu_ready flag).stackFits 0 plainHandler .zeroExtend
    0xC0100000 0 (show (0x30 : Fin 64).val ≠ 21 ∧ (0x30 : Fin 64).val ≠ 29 by decide)
  have hrun := hstore.tail (.trap 0 plainHandler .zeroExtend 0xC0100000 0 hraises (by decide) hu)
  obtain ⟨hcs, -, -, -, -, -, hkernel⟩ := user_confined (enteringCpu_ready flag) hrun
  have hzero : u.memory 0 = t.memory 0 := hmem 0 (by decide)
  have hkept : u.iret.memory 0xC0000000 = enteringCpu.memory 0xC0000000 :=
    hkernel 0xC0000000 (by decide) (by decide) (by decide) (by decide) (by decide)
  refine ⟨u.iret, hrun, ?_, hcs, hkept.trans (by decide +kernel)⟩
  rw [hiret]
  exact hzero.trans hbyte

/-- **The ports of a user program.** -/
theorem user_ports_iff (h : l.Ready image dir esp0 k)
    (hrun : Relation.ReflTransGen (UserStep l image dir) k.kernelExecuteUserProgram s) (hsize : size ≤ 8) :
    l.portAllowed s.memory s.cpl (ioLevel s.eflags) port size = true ↔
      3 ≤ ioLevel k.eflags ∨
        port.toNat < 832 ∧ ∀ i < size, OpenPort esp0 (s.memory (l.tss + 104)) (port.toNat + i) := by
  have hmode := h.userMode hrun
  have hlevel : ioLevel s.eflags = ioLevel k.eflags := by rw [ioLevel, ioLevel, hmode.flags.iopl]
  rw [hmode.cpl_eq, hlevel]
  exact hmode.loaded.portAllowed_iff hsize

/-- The two bytes of the data port of the disk. -/
theorem user_ports_data :
    highLayout.portAllowed enteringCpu.kernelExecuteUserProgram.memory enteringCpu.kernelExecuteUserProgram.cpl
      (ioLevel enteringCpu.kernelExecuteUserProgram.eflags) 0x1F0 2 = true :=
  (user_ports_iff (enteringCpu_ready (bootPaging.pageDirectory.table 0x300).flag) .refl (by decide)).mpr
    (.inr ⟨by decide, fun i hi => openPort_of_lt (show 69 ≤ 0x1F0 + i by omega) (show 0x1F0 + i < 832 by omega)⟩)

end Runs

end Os2024
