import Os2024.Properties.ScreenMemory
import Os2024.Protection.Trap

/-!
# User mode

`kernel_execute_user_program` of `ch0/kernel-entrypoint`, and the steps of a program in ring 3: its instructions, but for
those on ports, and the interrupts that come while it runs, each with its handler up to `iret`. An instruction may do
whatever the checks of the CPU let it do; one that they do not let is an exception.

* `UserMode`: what holds whenever the program runs, with a step lemma for each kind of step.
-/

namespace Os2024

/-! ## Pages -/

/-- A user program can write to the page of the address. -/
def PageDirectory.UserWritable (dir : PageDirectory) (addr : UInt32) : Prop :=
  (dir.table (pageNumber addr)).flag.presentBit = true ∧ (dir.table (pageNumber addr)).flag.userSupervisor = true ∧
    (dir.table (pageNumber addr)).flag.readWrite = true

/-- The first 4 MiB, and nothing else, are the program's. -/
theorem setupPaging_userWritable_iff {flag : PageDirectoryEntryFlag} {addr : UInt32} :
    (setupPaging flag).pageDirectory.UserWritable addr ↔ addr.toNat < 2 ^ 22 := by
  have hpage : pageNumber addr = 0 ↔ addr.toNat < 2 ^ 22 := by
    have hlt := addr.toNat_lt
    have hval : (0 : Fin 1024).val = 0 := rfl
    rw [← Fin.val_inj, toNat_pageNumber, hval]
    omega
  rw [← hpage]
  constructor
  · intro h
    by_contra hne
    have huser := h.2.1
    rw [setupPaging_of_ne flag hne, bootPaging_table] at huser
    split at huser <;> cases huser
  · intro h
    unfold PageDirectory.UserWritable
    rw [h, setupPaging_zero]
    exact ⟨rfl, rfl, rfl⟩

/-! ## Instructions -/

/-- The privilege level. -/
def Cpu.cpl (s : Cpu) : Nat := s.cs.toNat % 4

/-- The level that may use ports and the interrupt flag. -/
def ioLevel (eflags : UInt32) : Nat := ((eflags &&& 0x3000) >>> 12).toNat

/-- What an instruction outside of ring 0 leaves of `eflags`. -/
structure FlagsKept (cpl : Nat) (eflags eflags' : UInt32) : Prop where
  iopl : eflags' &&& 0x3000 = eflags &&& 0x3000
  virtualMode : eflags' &&& 0x20000 = eflags &&& 0x20000
  interruptFlag : cpl ≤ ioLevel eflags ∨ eflags' &&& 0x200 = eflags &&& 0x200

/-- An instruction of a user program. -/
inductive UserInstr (l : KernelLayout) (dir : PageDirectory) : Cpu → Cpu → Prop
  | compute {s : Cpu} (regs : Registers) (esp eip eflags : UInt32)
      (hsegments : ∀ reg, { s with regs := regs }.segment reg = s.segment reg)
      (hflags : FlagsKept s.cpl s.eflags eflags) :
    UserInstr l dir s { s with
      regs := regs
      esp := esp
      eip := eip
      eflags := eflags }
  | store {s : Cpu} (a : UInt32) (v : UInt8) (h : dir.UserWritable a) :
    UserInstr l dir s { s with memory := Function.update s.memory a v }
  | loadData {s : Cpu} (reg : SegReg) (selector : UInt16)
      (h : selector.toNat / 4 = 0 ∨
        ∃ d, l.lookup s.memory selector = some d ∧ d.loadsData s.cpl (selector.toNat % 4) = true) :
    UserInstr l dir s (s.setSegment selector reg)
  | loadStack {s : Cpu} (selector : UInt16)
      (h : ∃ d, l.lookup s.memory selector = some d ∧ d.loadsStack s.cpl (selector.toNat % 4) = true) :
    UserInstr l dir s { s with ss := selector }
  | jump {s : Cpu} (selector : UInt16) (eip : UInt32)
      (h : ∃ d, l.lookup s.memory selector = some d ∧ d.loadsCode s.cpl (selector.toNat % 4) = true) :
    UserInstr l dir s { s with
      cs := (selector &&& 0xFFFC) ||| UInt16.ofNat s.cpl
      eip := eip }
  | farReturn {s : Cpu} (selector : UInt16) (eip esp : UInt32)
      (h : ∃ d, l.lookup s.memory selector = some d ∧ d.returnsTo s.cpl (selector.toNat % 4) = true) :
    UserInstr l dir s { s with
      cs := selector
      eip := eip
      esp := esp }

/-! ## Interrupts -/

/-- The vector of `int n`: a protection fault if the gate is not for this level, or not present. -/
def softwareVector (idt : IDT) (cpl : Nat) (n : Fin 256) : Fin 256 :=
  if (idt.table n).dpl.toNat < cpl then ⟨13, by decide⟩
  else if (idt.table n).validBit = 0 then ⟨11, by decide⟩
  else n

/-- The vectors that may come. -/
inductive Raises (l : KernelLayout) (s : Cpu) : Fin 256 → Prop
  | exception (v : Fin 256) (h : v.val < 32) : Raises l s v
  | external (v : Fin 256) (hlow : 32 ≤ v.val) (hhigh : v.val < 48) (hflag : s.eflags &&& 0x200 ≠ 0) : Raises l s v
  | software (n : Fin 256) : Raises l s (softwareVector (l.idtAt s.memory) s.cpl n)

/-- The CPU enters the handler of a vector, as the tables in memory say, and runs it up to an instruction. -/
def KernelLayout.runVector (l : KernelLayout) (image : KernelImage) (env : Env) (stop : Instr) (v : Fin 256)
    (errorCode : UInt32) (s : Cpu) : Option Cpu := do
  let start ← s.interrupt env.selectorPush (l.tssAt s.memory) (l.idtAt s.memory) v errorCode
  start.runUntil env stop (image.code start.eip)

/-- The bits that say that an entry of the page directory was accessed, and that its page is dirty. -/
def pageMarks : UInt8 := 0x60

/-- A step while a user program runs. Vectors 21 and 29 come with an error code that their handlers do not take into
account; the CPU raises them for shadow stacks and for encrypted guests only, and the kernel enables neither. -/
inductive UserStep (l : KernelLayout) (image : KernelImage) (dir : PageDirectory) : Cpu → Cpu → Prop
  | instr {s t : Cpu} (h : UserInstr l dir s t) : UserStep l image dir s t
  | accessed {s : Cpu} (i : Fin 32) :
    UserStep l image dir s { s with
      memory := s.memory.store (l.gdt + UInt32.ofNat (8 * i.val)) (l.descriptor s.memory i).accessed.bytes }
  | marked {s : Cpu} (i : Fin 1024) (marks : UInt8) (h : marks ||| pageMarks = pageMarks) :
    UserStep l image dir s { s with
      memory := Function.update s.memory (l.pageDirectory + UInt32.ofNat (4 * i.val))
        (s.memory (l.pageDirectory + UInt32.ofNat (4 * i.val)) ||| marks) }
  | trap {s u : Cpu} (scancode : UInt8) (compiled : CompiledHandler) (p : SelectorPush) (returnAddress : UInt32)
      {v : Fin 256} (errorCode : UInt32) (h : Raises l s v) (hv : v.val ≠ 21 ∧ v.val ≠ 29)
      (hrun : l.runVector image ((l.kernelHandler scancode compiled).env p returnAddress) .iret v errorCode s = some u) :
    UserStep l image dir s u.iret

/-! ## The tables stay -/

/-- An address of the three tables that the CPU reads for segments and interrupts. -/
def KernelLayout.InTables (l : KernelLayout) (a : UInt32) : Prop :=
  InRange l.gdt 256 a ∨ InRange l.idt 2048 a ∨ InRange l.tss 104 a

/-- The tables and the page directory lie apart from each other, from what user programs can write, and from what the
kernel writes. -/
structure KernelLayout.TablesFit (l : KernelLayout) (dir : PageDirectory) (esp0 : UInt32) : Prop where
  gdt : l.gdt.toNat + 256 ≤ 2 ^ 32
  idt : l.idt.toNat + 2048 ≤ 2 ^ 32
  tss : l.tss.toNat + 104 ≤ 2 ^ 32
  pageDirectory : l.pageDirectory.toNat + 4096 ≤ 2 ^ 32
  apart : ∀ a, InRange l.gdt 256 a → ¬ InRange l.idt 2048 a ∧ ¬ InRange l.tss 104 a
  idtApart : ∀ a, InRange l.idt 2048 a → ¬ InRange l.tss 104 a
  directoryApart : ∀ a, InRange l.pageDirectory 4096 a → ¬ l.InTables a
  kernel : ∀ a, l.InTables a ∨ InRange l.pageDirectory 4096 a →
    ¬ dir.UserWritable a ∧ ¬ l.OnKernelStack esp0 a ∧ ¬ InRange l.keyboardState 3 a

section Tables

variable {l : KernelLayout} {image : KernelImage} {dir : PageDirectory} {esp0 : UInt32} {mem mem' : Memory}
  {isrStubTable : Fin 64 → UInt32} {s s₀ t u : Cpu} {start : UInt32} {size j n : Nat}

theorem load_inRange (h : ∀ a, InRange start size a → mem' a = mem a) (hj : j + n ≤ size)
    (hspace : start.toNat + size ≤ 2 ^ 32) :
    mem'.load (start + UInt32.ofNat j) n = mem.load (start + UInt32.ofNat j) n := by
  funext k
  have haddr : (start + UInt32.ofNat j + UInt32.ofNat k).toNat = start.toNat + j + k := by
    rw [UInt32.toNat_add, UInt32.toNat_add, UInt32.toNat_ofNat', UInt32.toNat_ofNat']
    omega
  exact h _ ⟨by omega, by omega⟩

theorem store_notInRange {a : UInt32} (bytes : Fin n → UInt8) (h : ¬ InRange start size a) (hj : j + n ≤ size)
    (hspace : start.toNat + size ≤ 2 ^ 32) : mem.store (start + UInt32.ofNat j) bytes a = mem a := by
  refine dif_neg fun hlt => h ?_
  rw [UInt32.toNat_sub, UInt32.toNat_add, UInt32.toNat_ofNat'] at hlt
  have ha := a.toNat_lt
  unfold InRange
  omega

namespace KernelLayout

theorem idtAt_inRange (h : ∀ a, InRange l.idt 2048 a → mem' a = mem a) (hspace : l.idt.toNat + 2048 ≤ 2 ^ 32) :
    l.idtAt mem' = l.idtAt mem :=
  congrArg IDT.mk (funext fun n => congrArg IDTGate.ofBytes (load_inRange h (by omega) hspace))

theorem tss_inRange (h : ∀ a, InRange l.tss 104 a → mem' a = mem a) (hspace : l.tss.toNat + 104 ≤ 2 ^ 32) :
    mem'.load l.tss 104 = mem.load l.tss 104 := by
  have hload := load_inRange (j := 0) (n := 104) h le_rfl hspace
  rwa [show UInt32.ofNat 0 = 0 from rfl, UInt32.add_zero] at hload

/-- Tables that stay the same stay loaded. -/
theorem Loaded.of_same (hl : l.Loaded mem isrStubTable esp0) (hfit : l.TablesFit dir esp0)
    (h : ∀ a, l.InTables a → mem' a = mem a) :
    l.Loaded mem' isrStubTable esp0 where
  gdt i := by
    have hload : mem'.load (l.gdt + UInt32.ofNat (8 * i.val)) 8 = mem.load (l.gdt + UInt32.ofNat (8 * i.val)) 8 :=
      load_inRange (fun a ha => h a (.inl ha)) (by omega) hfit.gdt
    rw [← hl.gdt i, descriptor, hload, descriptor]
  idt := (idtAt_inRange (fun a ha => h a (.inr (.inl ha))) hfit.idt).trans hl.idt
  tss := (tss_inRange (fun a ha => h a (.inr (.inr ha))) hfit.tss).trans hl.tss

/-- A descriptor that is marked as accessed. -/
theorem Loaded.accessed (hl : l.Loaded mem isrStubTable esp0) (hfit : l.TablesFit dir esp0) (i : Fin 32) :
    l.Loaded (mem.store (l.gdt + UInt32.ofNat (8 * i.val)) (l.descriptor mem i).accessed.bytes) isrStubTable esp0 ∧
      ∀ a, ¬ InRange l.gdt 256 a →
        mem.store (l.gdt + UInt32.ofNat (8 * i.val)) (l.descriptor mem i).accessed.bytes a = mem a := by
  have hframe : ∀ a, ¬ InRange l.gdt 256 a →
      mem.store (l.gdt + UInt32.ofNat (8 * i.val)) (l.descriptor mem i).accessed.bytes a = mem a :=
    fun a ha => store_notInRange _ ha (by omega) hfit.gdt
  refine ⟨⟨fun j => ?_, ?_, ?_⟩, hframe⟩
  · rw [descriptor]
    by_cases hj : j = i
    · subst hj
      rw [Memory.load_store (by decide), SegmentDescriptor.ofBytes_bytes, ← hl.gdt j]
      exact SegmentDescriptor.accessed_accessed _
    · have hne : j.val ≠ i.val := fun h => hj (Fin.ext h)
      have hload : (mem.store (l.gdt + UInt32.ofNat (8 * i.val)) (l.descriptor mem i).accessed.bytes).load
          (l.gdt + UInt32.ofNat (8 * j.val)) 8 = mem.load (l.gdt + UInt32.ofNat (8 * j.val)) 8 := by
        funext k
        have haddr : l.gdt + UInt32.ofNat (8 * j.val) + UInt32.ofNat k.val = l.gdt + UInt32.ofNat (8 * j.val + k.val) := by
          rw [UInt32.ofNat_add, UInt32.add_assoc]
        rw [Memory.load, Memory.load, haddr, Memory.store_add (by omega) (by omega), dif_neg (by omega)]
      rw [hload, ← hl.gdt j, descriptor]
  · exact (idtAt_inRange (fun a ha => hframe a fun hg => (hfit.apart a hg).1 ha) hfit.idt).trans hl.idt
  · exact (tss_inRange (fun a ha => hframe a fun hg => (hfit.apart a hg).2 ha) hfit.tss).trans hl.tss

/-- A mark lies in the page directory. -/
theorem TablesFit.marked_inRange (hfit : l.TablesFit dir esp0) (i : Fin 1024) :
    InRange l.pageDirectory 4096 (l.pageDirectory + UInt32.ofNat (4 * i.val)) := by
  have hspace := hfit.pageDirectory
  have hi := i.isLt
  rw [InRange, UInt32.toNat_add, UInt32.toNat_ofNat']
  omega

end KernelLayout

/-! ## Vectors -/

/-- `initialize_idt` sets no gate behind those of its handlers. -/
theorem initializeIdt_of_ge (idt : IDT) {v : Fin 256} (hv : 64 ≤ v.val) :
    (initializeIdt isrStubTable idt).table v = idt.table v := by
  have hfold : ∀ (is : List (Fin 64)) (idt : IDT), (is.foldl (fun idt i => setInterruptGate (i.castLE isrStubTableLimit_le)
      (isrStubTable i) gdtKernelCodeSegmentSelector (gatePrivilege i.val) idt) idt).table v = idt.table v := by
    intro is
    induction is with
    | nil => intro idt; rfl
    | cons i is ih =>
      intro idt
      have hne : v ≠ i.castLE isrStubTableLimit_le := fun he => by
        have hval := congrArg Fin.val he
        have hi := i.isLt
        rw [Fin.val_castLE] at hval
        omega
      rw [List.foldl_cons, ih]
      exact Function.update_of_ne hne ..
  exact hfold _ idt

/-- **The vectors of `int n`**: a user program reaches the handlers from `0x30` to `0x3F`; any other number is a
protection fault. -/
theorem softwareVector_eq (isrStubTable : Fin 64 → UInt32) (n : Fin 256) :
    softwareVector (initializeIdt isrStubTable ⟨fun _ => .zero⟩) 3 n =
      if 0x30 ≤ n.val ∧ n.val < 0x40 then n else ⟨13, by decide⟩ := by
  by_cases hn : n.val < 64
  · have hgate := initializeIdt_table isrStubTable ⟨fun _ => .zero⟩ ⟨n.val, hn⟩
    have hcast : Fin.castLE isrStubTableLimit_le ⟨n.val, hn⟩ = n := rfl
    rw [hcast] at hgate
    by_cases huser : 0x30 ≤ n.val
    · have hprivilege : gatePrivilege n.val = 3 := if_pos ⟨huser, by omega⟩
      have hresult : (if 0x30 ≤ n.val ∧ n.val < 0x40 then n else ⟨13, by decide⟩) = n := if_pos ⟨huser, hn⟩
      rw [hresult, softwareVector, hgate, hprivilege]
      rfl
    · have hprivilege : gatePrivilege n.val = 0 := if_neg fun h => huser h.1
      have hresult : (if 0x30 ≤ n.val ∧ n.val < 0x40 then n else ⟨13, by decide⟩) = ⟨13, by decide⟩ :=
        if_neg fun h => huser h.1
      rw [hresult, softwareVector, hgate, hprivilege]
      rfl
  · have hresult : (if 0x30 ≤ n.val ∧ n.val < 0x40 then n else ⟨13, by decide⟩) = ⟨13, by decide⟩ :=
      if_neg fun h => hn h.2
    rw [hresult, softwareVector, initializeIdt_of_ge _ (Nat.not_lt.mp hn)]
    rfl

/-! ## What holds while a user program runs -/

/-- A state in which the handler of a vector begins. -/
structure Entered (l : KernelLayout) (image : KernelImage) (esp0 : UInt32) (w : Fin 64) (start : Cpu) : Prop where
  cs : start.cs = 0x8
  ss : start.ss = 0x10
  eip : start.eip = image.interruptHandler w
  interruptFlag : start.eflags &&& 0x200 = 0
  stack : l.OnKernelStack esp0 start.esp

/-- The state `s`, when the program began in `s₀`. -/
structure UserMode (l : KernelLayout) (image : KernelImage) (dir : PageDirectory) (esp0 : UInt32) (s₀ s : Cpu) : Prop where
  cs : s.cs = 0x1B
  ss : s.ss = 0x23
  segments : ∀ reg, UserSelector (s.segment reg)
  flags : FlagsKept 3 s₀.eflags s.eflags
  loaded : l.Loaded s.memory image.isrStubTable esp0
  directory : ∀ a, InRange l.pageDirectory 4096 a → s.memory a ||| pageMarks = s₀.memory a ||| pageMarks
  memory : ∀ a, ¬ dir.UserWritable a → ¬ l.OnKernelStack esp0 a → ¬ InRange l.keyboardState 3 a →
    ¬ InRange l.gdt 256 a → ¬ InRange l.pageDirectory 4096 a → s.memory a = s₀.memory a

theorem FlagsKept.refl (cpl : Nat) (eflags : UInt32) : FlagsKept cpl eflags eflags := ⟨rfl, rfl, .inr rfl⟩

theorem FlagsKept.trans {cpl : Nat} {f f' f'' : UInt32} (h : FlagsKept cpl f f') (h' : FlagsKept cpl f' f'') :
    FlagsKept cpl f f'' where
  iopl := h'.iopl.trans h.iopl
  virtualMode := h'.virtualMode.trans h.virtualMode
  interruptFlag := by
    have hlevel : ioLevel f' = ioLevel f := by rw [ioLevel, ioLevel, h.iopl]
    rcases h'.interruptFlag with hle | hsame
    · exact .inl (hlevel ▸ hle)
    · exact h.interruptFlag.imp_right hsame.trans

namespace UserMode

theorem cpl_eq (h : UserMode l image dir esp0 s₀ s) : s.cpl = 3 := by
  rw [Cpu.cpl, h.cs]
  rfl

/-- Memory that changes only where the program and the kernel may write. -/
theorem memory_of_frame (h : UserMode l image dir esp0 s₀ s) (hfit : l.TablesFit dir esp0) {mem' : Memory}
    (hframe : ∀ a, ¬ dir.UserWritable a → ¬ l.OnKernelStack esp0 a → ¬ InRange l.keyboardState 3 a → mem' a = s.memory a) :
    l.Loaded mem' image.isrStubTable esp0 ∧
      (∀ a, InRange l.pageDirectory 4096 a → mem' a ||| pageMarks = s₀.memory a ||| pageMarks) ∧
      ∀ a, ¬ dir.UserWritable a → ¬ l.OnKernelStack esp0 a → ¬ InRange l.keyboardState 3 a →
        ¬ InRange l.gdt 256 a → ¬ InRange l.pageDirectory 4096 a → mem' a = s₀.memory a := by
  have hkernel : ∀ a, l.InTables a ∨ InRange l.pageDirectory 4096 a → mem' a = s.memory a := by
    intro a ha
    obtain ⟨hpage, hstack, hkeyboard⟩ := hfit.kernel a ha
    exact hframe a hpage hstack hkeyboard
  refine ⟨h.loaded.of_same hfit fun a ha => hkernel a (.inl ha), fun a ha => ?_, fun a hpage hstack hkeyboard hgdt hdir => ?_⟩
  · rw [hkernel a (.inr ha)]
    exact h.directory a ha
  · exact (hframe a hpage hstack hkeyboard).trans (h.memory a hpage hstack hkeyboard hgdt hdir)

/-- What an instruction keeps. -/
theorem instr (h : UserMode l image dir esp0 s₀ s) (hfit : l.TablesFit dir esp0) (hstep : UserInstr l dir s t) :
    UserMode l image dir esp0 s₀ t := by
  have hcpl := h.cpl_eq
  cases hstep with
  | compute regs esp eip eflags hsegments hflags =>
    refine ⟨h.cs, h.ss, fun reg => ?_, h.flags.trans (hcpl ▸ hflags), h.loaded, h.directory, h.memory⟩
    have hsame : ({ s with
      regs := regs
      esp := esp
      eip := eip
      eflags := eflags } : Cpu).segment reg = s.segment reg := hsegments reg
    exact hsame ▸ h.segments reg
  | store a v hwritable =>
    have hframe : ∀ b, ¬ dir.UserWritable b → ¬ l.OnKernelStack esp0 b → ¬ InRange l.keyboardState 3 b →
        Function.update s.memory a v b = s.memory b := by
      intro b hb _ _
      refine Function.update_of_ne ?_ ..
      rintro rfl
      exact hb hwritable
    obtain ⟨hloaded, hdirectory, hmemory⟩ := h.memory_of_frame hfit hframe
    exact ⟨h.cs, h.ss, h.segments, h.flags, hloaded, hdirectory, hmemory⟩
  | loadData reg selector hselector =>
    have huser : UserSelector selector := by
      rcases hselector with hnull | ⟨d, hlookup, hrule⟩
      · exact .inl hnull
      · exact h.loaded.loadsData hlookup (hcpl ▸ hrule)
    have hsegment : ∀ other, UserSelector ((s.setSegment selector reg).segment other) := by
      intro other
      have hother := h.segments other
      cases reg <;> cases other <;> assumption
    cases reg <;> exact ⟨h.cs, h.ss, hsegment, h.flags, h.loaded, h.directory, h.memory⟩
  | loadStack selector hselector =>
    obtain ⟨d, hlookup, hrule⟩ := hselector
    exact ⟨h.cs, h.loaded.loadsStack hlookup (hcpl ▸ hrule), h.segments, h.flags, h.loaded, h.directory, h.memory⟩
  | jump selector eip hselector =>
    obtain ⟨d, hlookup, hrule⟩ := hselector
    refine ⟨?_, h.ss, h.segments, h.flags, h.loaded, h.directory, h.memory⟩
    rw [hcpl]
    exact h.loaded.loadsCode hlookup (hcpl ▸ hrule)
  | farReturn selector eip esp hselector =>
    obtain ⟨d, hlookup, hrule⟩ := hselector
    exact ⟨h.loaded.returnsTo hlookup (hcpl ▸ hrule), h.ss, h.segments, h.flags, h.loaded, h.directory, h.memory⟩

/-- What a descriptor that is marked as accessed keeps. -/
theorem accessed (h : UserMode l image dir esp0 s₀ s) (hfit : l.TablesFit dir esp0) (i : Fin 32) :
    UserMode l image dir esp0 s₀ { s with
      memory := s.memory.store (l.gdt + UInt32.ofNat (8 * i.val)) (l.descriptor s.memory i).accessed.bytes } := by
  obtain ⟨hloaded, hframe⟩ := h.loaded.accessed hfit i
  refine ⟨h.cs, h.ss, h.segments, h.flags, hloaded, fun a ha => ?_, fun a hpage hstack hkeyboard hgdt hdir => ?_⟩
  · dsimp only
    rw [hframe a fun hgdt => hfit.directoryApart a ha (.inl hgdt)]
    exact h.directory a ha
  · exact (hframe a hgdt).trans (h.memory a hpage hstack hkeyboard hgdt hdir)

/-- What a marked entry of the page directory keeps. -/
theorem marked (h : UserMode l image dir esp0 s₀ s) (hfit : l.TablesFit dir esp0) (i : Fin 1024) {marks : UInt8}
    (hmarks : marks ||| pageMarks = pageMarks) :
    UserMode l image dir esp0 s₀ { s with
      memory := Function.update s.memory (l.pageDirectory + UInt32.ofNat (4 * i.val))
        (s.memory (l.pageDirectory + UInt32.ofNat (4 * i.val)) ||| marks) } := by
  have hin := hfit.marked_inRange i
  generalize l.pageDirectory + UInt32.ofNat (4 * i.val) = b at hin ⊢
  have hframe : ∀ a, ¬ InRange l.pageDirectory 4096 a →
      Function.update s.memory b (s.memory b ||| marks) a = s.memory a := by
    intro a ha
    refine Function.update_of_ne ?_ ..
    rintro rfl
    exact ha hin
  refine ⟨h.cs, h.ss, h.segments, h.flags, h.loaded.of_same hfit fun a ha => hframe a fun hdir =>
    hfit.directoryApart a hdir ha, fun a ha => ?_, fun a hpage hstack hkeyboard hgdt hdir =>
      (hframe a hdir).trans (h.memory a hpage hstack hkeyboard hgdt hdir)⟩
  rw [← h.directory a ha]
  dsimp only
  by_cases hab : a = b
  · rw [hab, Function.update_self, UInt8.or_assoc, hmarks]
  · rw [Function.update_of_ne hab]

/-- A vector that comes has a handler. -/
theorem exists_vector (h : UserMode l image dir esp0 s₀ s) {v : Fin 256} (hv : Raises l s v) :
    ∃ w : Fin 64, v = w.castLE isrStubTableLimit_le := by
  have hvector : v.val < 64 := by
    cases hv with
    | exception _ h32 => omega
    | external _ hlow hhigh => omega
    | software n =>
      rw [h.loaded.idt, h.cpl_eq, softwareVector_eq]
      split
      · next hn => exact hn.2
      · decide
  exact ⟨⟨v.val, hvector⟩, rfl⟩

/-- The tables in memory are those of the kernel. -/
theorem runVector_eq (h : UserMode l image dir esp0 s₀ s) (env : Env) (stop : Instr) (w : Fin 64) (errorCode : UInt32) :
    l.runVector image env stop (w.castLE isrStubTableLimit_le) errorCode s =
      image.runVector env ⟨esp0, 0x10⟩ ⟨fun _ => .zero⟩ stop w errorCode s := by
  rw [KernelLayout.runVector, h.loaded.idt, h.loaded.tssAt_eq]
  rfl

theorem user_selector (h : UserMode l image dir esp0 s₀ s) : s.cs &&& 3 ≠ 0 := by
  rw [h.cs]
  decide

/-- Where the handler of a vector begins. -/
theorem exists_entry (h : UserMode l image dir esp0 s₀ s) (hstack : l.StackFits esp0) (p : SelectorPush) (w : Fin 64)
    (errorCode : UInt32) : ∃ start, s.interrupt p (l.tssAt s.memory) (l.idtAt s.memory) (w.castLE isrStubTableLimit_le)
      errorCode = some start ∧ Entered l image esp0 w start := by
  have hroom := hstack.room
  obtain ⟨-, -, -, -, -, hesp, -⟩ := exists_pushReturn p ⟨esp0, 0x10⟩ h.user_selector (show 20 ≤ esp0.toNat by omega)
  have hss : (s.pushReturn p ⟨esp0, 0x10⟩).ss = 0x10 := by
    rw [Cpu.pushReturn, if_neg h.user_selector]
    rfl
  have hesp : (s.pushReturn p ⟨esp0, 0x10⟩).esp.toNat = esp0.toNat - 20 := hesp
  have hgate := initializeIdt_table image.isrStubTable ⟨fun _ => .zero⟩ w
  have hvalid : (interruptGate (image.isrStubTable w) gdtKernelCodeSegmentSelector (gatePrivilege w.val)).validBit = 1 :=
    rfl
  have hpushed : ∀ b : Bool, (if b then (s.pushReturn p ⟨esp0, 0x10⟩).push errorCode
        else s.pushReturn p ⟨esp0, 0x10⟩).ss = 0x10 ∧
      l.OnKernelStack esp0 (if b then (s.pushReturn p ⟨esp0, 0x10⟩).push errorCode else s.pushReturn p ⟨esp0, 0x10⟩).esp := by
    generalize s.pushReturn p ⟨esp0, 0x10⟩ = t at hss hesp
    have hpush : (t.push errorCode).esp.toNat = t.esp.toNat - 4 :=
      UInt32.toNat_sub_of_le _ _ (show 4 ≤ t.esp.toNat by omega)
    intro b
    cases b with
    | false => exact ⟨hss, show _ ≤ t.esp.toNat by omega, show t.esp.toNat < _ by omega⟩
    | true => exact ⟨hss, show _ ≤ (t.push errorCode).esp.toNat by omega, show (t.push errorCode).esp.toNat < _ by omega⟩
  have hflags : s.eflags &&& ~~~0x34300 &&& 0x200 = 0 := by
    have hmask : ~~~0x34300 &&& 0x200 = (0 : UInt32) := by decide
    rw [UInt32.and_assoc, hmask, UInt32.and_zero]
  rw [h.loaded.idt, h.loaded.tssAt_eq, Cpu.interrupt, hgate]
  dsimp only
  rw [if_pos hvalid]
  exact ⟨_, rfl, rfl, (hpushed _).1, interruptGate_offset .., hflags, (hpushed _).2⟩

/-- **What an interrupt leaves**: the program goes on as it was. -/
theorem exists_return (h : UserMode l image dir esp0 s₀ s) (hstack : l.StackFits esp0) (scancode : UInt8)
    (compiled : CompiledHandler) (p : SelectorPush) (returnAddress : UInt32) {w : Fin 64} (errorCode : UInt32)
    (hw : w.val ≠ 21 ∧ w.val ≠ 29) :
    ∃ u, l.runVector image ((l.kernelHandler scancode compiled).env p returnAddress) .iret
        (w.castLE isrStubTableLimit_le) errorCode s = some u ∧
      u.iret = { s with memory := u.memory } ∧
      ∀ a, ¬ l.OnKernelStack esp0 a → u.memory a = l.handled scancode (UInt32.ofNat w.val) s.memory a := by
  rw [h.runVector_eq]
  exact exists_trap_kernel image scancode compiled p returnAddress ⟨fun _ => .zero⟩ w errorCode s hstack h.user_selector
    ⟨fun he => hw.1 (congrArg Fin.val he), fun he => hw.2 (congrArg Fin.val he)⟩

/-- What a step keeps. -/
theorem step (h : UserMode l image dir esp0 s₀ s) (hfit : l.TablesFit dir esp0) (hstack : l.StackFits esp0)
    (hstep : UserStep l image dir s t) : UserMode l image dir esp0 s₀ t := by
  cases hstep with
  | instr hinstr => exact h.instr hfit hinstr
  | accessed i => exact h.accessed hfit i
  | marked i marks hmarks => exact h.marked hfit i hmarks
  | trap scancode compiled p returnAddress errorCode hv hcode hrun =>
    obtain ⟨w, rfl⟩ := h.exists_vector hv
    obtain ⟨u, hrun', hiret, hmem⟩ := h.exists_return hstack scancode compiled p returnAddress errorCode hcode
    cases hrun.symm.trans hrun'
    rw [hiret]
    obtain ⟨hloaded, hdirectory, hmemory⟩ := h.memory_of_frame hfit fun a _ hout hkeyboard =>
      (hmem a hout).trans (KernelLayout.handled_of_notInRange hkeyboard)
    exact ⟨h.cs, h.ss, h.segments, h.flags, hloaded, hdirectory, hmemory⟩

end UserMode

end Tables

end Os2024
