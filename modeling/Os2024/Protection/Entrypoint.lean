import Os2024.Protection.UserMode

/-!
# Into user mode

`set_tss_kernel_current_stack` and `kernel_execute_user_program`: the kernel enters user mode by an `iret` from words it
has pushed itself.
-/

namespace Os2024

open Bytes

/-- `set_tss_kernel_current_stack`, with the frame pointer of its own frame. -/
def setTssKernelCurrentStack (ebp : UInt32) (tss : TSSEntry) : TSSEntry := { tss with esp0 := ebp + 8 }

/-- The arithmetic flags in `eflags`. -/
def arithmeticFlags (carry parity adjust zero sign overflow : Bool) : UInt32 :=
  (if carry then 0x1 else 0) ||| (if parity then 0x4 else 0) ||| (if adjust then 0x10 else 0) |||
    (if zero then 0x40 else 0) ||| (if sign then 0x80 else 0) ||| (if overflow then 0x800 else 0)

/-- The flags of a sum. -/
def addFlags (a b : UInt32) : UInt32 :=
  arithmeticFlags (a + b < a) ((List.range 8).countP (a + b).toNat.testBit % 2 == 0)
    ((a &&& 0xF) + (b &&& 0xF) > 0xF) (a + b == 0) ((a + b).toNat.testBit 31)
    (((a ^^^ (a + b)) &&& (b ^^^ (a + b))).toNat.testBit 31)

namespace Cpu

/-- `add eax, value`. -/
def addEax (s : Cpu) (value : UInt32) : Cpu :=
  { s.setEax (s.regs.eax + value) with eflags := (s.eflags &&& ~~~0x8D5) ||| addFlags s.regs.eax value }

/-- `kernel_execute_user_program` up to the words for `iret`, entered with the return address on the stack. -/
def loadUserSegments (s : Cpu) : Cpu :=
  let s := s.setEax (0x20 ||| 0x3)
  let s := s.setSegment s.regs.eax.toUInt16 .ds
  let s := s.setSegment s.regs.eax.toUInt16 .es
  let s := s.setSegment s.regs.eax.toUInt16 .fs
  let s := s.setSegment s.regs.eax.toUInt16 .gs
  { s with regs := { s.regs with ecx := s.stackWord 1 } }

/-- The words for `iret`, pushed: the stack pointer is `size` bytes behind the start of the program. -/
def pushUserFrame (s : Cpu) (size codeSelector : UInt32) : Cpu :=
  let s := s.push s.regs.eax
  let s := s.setEax s.regs.ecx
  let s := s.addEax size
  let s := s.push s.regs.eax
  let s := s.push s.eflags
  let s := s.setEax codeSelector
  let s := s.push s.regs.eax
  let s := s.setEax s.regs.ecx
  s.push s.regs.eax

/-- `kernel_execute_user_program`. -/
def kernelExecuteUserProgram (s : Cpu) : Cpu := (s.loadUserSegments.pushUserFrame (0x400000 - 4) (0x18 ||| 0x3)).iret

end Cpu

/-! ## The tables in memory -/

/-- The table as it lies in memory. -/
def GlobalDescriptorTable.bytes (gdt : GlobalDescriptorTable) : Fin 256 → UInt8 :=
  flatten (n := 32) (m := 8) fun i => (gdt.table i).bytes

/-- The table as it lies in memory. -/
def IDT.bytes (idt : IDT) : Fin 2048 → UInt8 := flatten (n := 256) (m := 8) fun i => (idt.table i).bytes

/-- The tables once `initialize_idt`, `gdt_install_tss`, `set_tss_register` and `set_tss_kernel_current_stack` have run. -/
def KernelLayout.withTables (l : KernelLayout) (isrStubTable : Fin 64 → UInt32) (esp0 : UInt32) (mem : Memory) : Memory :=
  ((mem.store l.gdt (setupGdt l.tss).bytes).store l.idt (initializeIdt isrStubTable ⟨fun _ => .zero⟩).bytes).store l.tss
    (TSSEntry.bytes { esp0 := esp0, ss0 := 0x10 })

section Entry

variable {l : KernelLayout} {image : KernelImage} {dir : PageDirectory} {esp0 : UInt32} {mem : Memory}
  {isrStubTable : Fin 64 → UInt32} {s : Cpu} {start : UInt32} {n : Nat}

theorem store_self_notInRange {a : UInt32} (bytes : Fin n → UInt8) (h : ¬ InRange start n a)
    (hspace : start.toNat + n ≤ 2 ^ 32) : mem.store start bytes a = mem a := by
  have hstore : mem.store (start + UInt32.ofNat 0) bytes a = mem a :=
    store_notInRange bytes h (Nat.zero_add n).le hspace
  rwa [show UInt32.ofNat 0 = 0 from rfl, UInt32.add_zero] at hstore

/-- An entry of a table of descriptors in memory. -/
theorem load_entry (entries : Fin n → Fin 8 → UInt8) (hsize : n * 8 ≤ 2 ^ 32) (i : Fin n) :
    (mem.store start (flatten entries)).load (start + UInt32.ofNat (8 * i.val)) 8 = entries i := by
  funext k
  have hk : 8 * i.val + k.val < n * 8 := by omega
  have hstore : mem.store (start + UInt32.ofNat 0) (flatten entries) (start + UInt32.ofNat (8 * i.val + k.val)) = _ :=
    Memory.store_add (by omega) (by omega)
  rw [show UInt32.ofNat 0 = 0 from rfl, UInt32.add_zero, dif_pos ⟨Nat.zero_le _, by omega⟩] at hstore
  have haddr : start + UInt32.ofNat (8 * i.val) + UInt32.ofNat k.val = start + UInt32.ofNat (8 * i.val + k.val) := by
    rw [UInt32.ofNat_add, UInt32.add_assoc]
  have hindex : (⟨8 * i.val + k.val - 0, by omega⟩ : Fin (n * 8)) = finProdFinEquiv (i, k) := by
    apply Fin.ext
    rw [finProdFinEquiv_apply_val]
    exact Nat.add_comm ..
  rw [Memory.load, haddr, hstore, hindex]
  exact congrFun (congrFun (chunk_flatten entries) i) k

/-- Memory apart from the tables. -/
theorem KernelLayout.TablesFit.withTables_of_notInRange (hfit : l.TablesFit dir esp0) {a : UInt32}
    (hgdt : ¬ InRange l.gdt 256 a) (hidt : ¬ InRange l.idt 2048 a) (htss : ¬ InRange l.tss 104 a) :
    l.withTables isrStubTable esp0 mem a = mem a := by
  unfold withTables
  rw [store_self_notInRange _ htss hfit.tss, store_self_notInRange _ hidt hfit.idt,
    store_self_notInRange _ hgdt hfit.gdt]

/-- **The tables that the kernel sets up are loaded.** -/
theorem KernelLayout.TablesFit.loaded (hfit : l.TablesFit dir esp0) (mem : Memory) (isrStubTable : Fin 64 → UInt32) :
    l.Loaded (l.withTables isrStubTable esp0 mem) isrStubTable esp0 where
  gdt i := by
    have hsame : ∀ a, InRange l.gdt 256 a →
        l.withTables isrStubTable esp0 mem a = mem.store l.gdt (setupGdt l.tss).bytes a := fun a ha =>
      (store_self_notInRange _ (hfit.apart a ha).2 hfit.tss).trans (store_self_notInRange _ (hfit.apart a ha).1 hfit.idt)
    have hbytes : (mem.store l.gdt (setupGdt l.tss).bytes).load (l.gdt + UInt32.ofNat (8 * i.val)) 8 =
        ((setupGdt l.tss).table i).bytes := load_entry (fun i => ((setupGdt l.tss).table i).bytes) (by decide) i
    rw [descriptor, load_inRange hsame (by omega) hfit.gdt, hbytes, SegmentDescriptor.ofBytes_bytes]
  idt := by
    have hsame : ∀ a, InRange l.idt 2048 a → l.withTables isrStubTable esp0 mem a =
        (mem.store l.gdt (setupGdt l.tss).bytes).store l.idt (initializeIdt isrStubTable ⟨fun _ => .zero⟩).bytes a :=
      fun a ha => store_self_notInRange _ (hfit.idtApart a ha) hfit.tss
    generalize initializeIdt isrStubTable ⟨fun _ => .zero⟩ = idt at hsame ⊢
    cases idt with | mk table =>
    refine congrArg IDT.mk (funext fun i => ?_)
    have hbytes : ((mem.store l.gdt (setupGdt l.tss).bytes).store l.idt (IDT.bytes ⟨table⟩)).load
        (l.idt + UInt32.ofNat (8 * i.val)) 8 = (table i).bytes := load_entry (fun i => (table i).bytes) (by decide) i
    rw [load_inRange hsame (by omega) hfit.idt, hbytes, IDTGate.ofBytes_bytes]
  tss := Memory.load_store (by decide)

/-- `set_tss_kernel_current_stack` makes the caller's stack the one of the next interrupts. -/
theorem KernelLayout.withTables_setTss (ebp : UInt32) :
    (l.withTables isrStubTable esp0 mem).store l.tss (setTssKernelCurrentStack ebp { esp0 := esp0, ss0 := 0x10 }).bytes =
      l.withTables isrStubTable (ebp + 8) mem := by
  unfold withTables setTssKernelCurrentStack
  rw [Memory.store_store]

/-- Addition leaves the other flags. -/
theorem arithmeticFlags_and (carry parity adjust zero sign overflow : Bool) :
    arithmeticFlags carry parity adjust zero sign overflow &&& 0x23200 = 0 := by
  revert carry parity adjust zero sign overflow
  decide

theorem flagsKept_add (cpl : Nat) (eflags : UInt32) {flags : UInt32} (h : flags &&& 0x23200 = 0) :
    FlagsKept cpl eflags ((eflags &&& ~~~0x8D5) ||| flags) := by
  have hbits : ∀ mask : UInt32, 0x23200 &&& mask = mask →
      ((eflags &&& ~~~0x8D5) ||| flags) &&& mask = eflags &&& mask := by
    intro mask hmask
    have hflags : flags &&& mask = 0 := by
      rw [← hmask, ← UInt32.and_assoc, h, UInt32.zero_and]
    have hkept : ~~~0x8D5 &&& mask = mask := by
      rw [← hmask, ← UInt32.and_assoc]
      rfl
    have hdistrib : ((eflags &&& ~~~0x8D5) ||| flags) &&& mask = (eflags &&& ~~~0x8D5) &&& mask ||| flags &&& mask :=
      UInt32.toBitVec_inj.mp BitVec.and_or_distrib_right
    rw [hdistrib, hflags, UInt32.or_zero, UInt32.and_assoc, hkept]
  exact ⟨hbits _ (by decide), hbits _ (by decide), .inr (hbits _ (by decide))⟩

/-- The registers with which a user program begins. -/
def userRegisters (regs : Registers) (virtualAddr : UInt32) : Registers :=
  { regs with
    eax := virtualAddr
    ecx := virtualAddr
    ds := 0x23
    es := 0x23
    fs := 0x23
    gs := 0x23 }

theorem Cpu.pushUserFrame_eq (s : Cpu) (size codeSelector : UInt32) : ∃ eflags : UInt32, FlagsKept 3 s.eflags eflags ∧
    (s.pushUserFrame size codeSelector).regs = { s.regs with eax := s.regs.ecx } ∧
    (s.pushUserFrame size codeSelector).memory =
      (s.pushAll [s.regs.eax, s.regs.ecx + size, eflags, codeSelector, s.regs.ecx]).memory ∧
    (s.pushUserFrame size codeSelector).esp =
      (s.pushAll [s.regs.eax, s.regs.ecx + size, eflags, codeSelector, s.regs.ecx]).esp :=
  ⟨(s.eflags &&& ~~~0x8D5) ||| addFlags s.regs.ecx size, flagsKept_add 3 _ (arithmeticFlags_and ..), rfl, rfl, rfl⟩

/-- **The state in which a user program begins**: at the address that was the argument, in ring 3. -/
theorem Cpu.kernelExecuteUserProgram_eq (s : Cpu) (hroom : 20 ≤ s.esp.toNat) : ∃ (eflags : UInt32) (mem : Memory),
    s.kernelExecuteUserProgram =
      { regs := userRegisters s.regs (s.stackWord 1)
        esp := s.stackWord 1 + (0x400000 - 4)
        ss := 0x23
        cs := 0x1B
        eip := s.stackWord 1
        eflags := eflags
        memory := mem } ∧
      FlagsKept 3 s.eflags eflags ∧ SameOutside (s.esp.toNat - 20) s.esp.toNat s.memory mem := by
  unfold Cpu.kernelExecuteUserProgram
  generalize hsize : (0x400000 - 4 : UInt32) = size
  generalize hselector : (0x18 ||| 0x3 : UInt32) = codeSelector
  obtain ⟨k, hk⟩ : ∃ k, k = s.loadUserSegments := ⟨_, rfl⟩
  have heax : k.regs.eax = 0x23 := hk ▸ rfl
  have hecx : k.regs.ecx = s.stackWord 1 := hk ▸ rfl
  have hesp : k.esp = s.esp := hk ▸ rfl
  have hmem : k.memory = s.memory := hk ▸ rfl
  have hflags : k.eflags = s.eflags := hk ▸ rfl
  have hregs : { k.regs with eax := k.regs.ecx } = userRegisters s.regs (s.stackWord 1) := hk ▸ rfl
  obtain ⟨eflags, hkept, hpregs, hpmem, hpesp⟩ := k.pushUserFrame_eq size codeSelector
  rw [hregs] at hpregs
  rw [heax, hecx] at hpmem hpesp
  obtain ⟨words, hwords⟩ : ∃ words, words = [0x23, s.stackWord 1 + size, eflags, codeSelector, s.stackWord 1] := ⟨_, rfl⟩
  have hlength : words.length = 5 := hwords ▸ rfl
  have hlen : 4 * words.length ≤ k.esp.toNat := by
    rw [hlength, hesp]
    exact hroom
  have hsame := k.pushAll_sameOutside words hlen
  have hstack : OnStack (k.pushAll words).memory (k.pushAll words).esp (words.reverse ++ []) :=
    Cpu.pushAll_onStack words (onStack_nil _ _) (by rw [hlength]; decide)
  rw [← hwords] at hpmem hpesp
  rw [← hpmem, ← hpesp, hwords] at hstack
  rw [← hpmem, hlength, hesp, hmem] at hsame
  have hcode : codeSelector.toUInt16 = 0x1B := hselector ▸ rfl
  have huser : (0x1B : UInt16) &&& 3 ≠ 0 := by decide
  refine ⟨eflags, _, ?_, hflags ▸ hkept, hsame⟩
  rw [← hk]
  exact Cpu.iret_of_onStack (s := ⟨userRegisters s.regs (s.stackWord 1), s.stackWord 1 + size, 0x23, 0x1B, s.stackWord 1,
    eflags, (k.pushUserFrame size codeSelector).memory⟩) rfl hcode huser hpregs hstack

/-- **A user program begins in user mode**, when the kernel has set up its tables. -/
theorem KernelLayout.Loaded.userMode (h : l.Loaded s.memory image.isrStubTable esp0) (hfit : l.TablesFit dir esp0)
    (hroom : l.kernelStack.toNat + 20 ≤ s.esp.toNat) (htop : s.esp.toNat ≤ esp0.toNat) :
    UserMode l image dir esp0 s s.kernelExecuteUserProgram := by
  obtain ⟨eflags, mem, hstart, hflags, hmem⟩ := s.kernelExecuteUserProgram_eq (by omega)
  have hsame : ∀ a, ¬ l.OnKernelStack esp0 a → mem a = s.memory a := fun a ha =>
    hmem a fun hrange => ha ⟨by omega, by omega⟩
  rw [hstart]
  refine ⟨rfl, rfl, fun reg => ?_, hflags, h.of_same hfit fun a ha => hsame a (hfit.kernel a (.inl ha)).2.1,
    fun a ha => congrArg (· ||| pageMarks) (hsame a (hfit.kernel a (.inr ha)).2.1), fun a _ hstack _ _ _ => hsame a hstack⟩
  have huser : UserSelector 0x23 := .inr (.inr (by decide))
  cases reg <;> exact huser

end Entry

end Os2024
