import Os2024.Interrupt.Intsetup

/-!
# What the handler sees, and what the interrupted program gets back

`pushad` pushes the stack pointer before `ebp`, and `struct CPURegister` has them the other way round, so the frame of
the handler is right but for these two fields: `argument_holds_iff`. What is pushed is popped again in reverse, so an
interrupt is transparent wherever the stub pushes as many words as it removes, which it does not for the two
exceptions whose error code it does not know: `interrupt_transparent_iff`.
-/

namespace Os2024

/-- Every field of a frame holds what it is named after; `esp` is the stack pointer before `pushad`. -/
structure FrameHolds (frame : InterruptFrame) (s : Cpu) (v : Fin 64) (esp : UInt32) : Prop where
  edi : frame.cpu.index.edi = s.regs.edi
  esi : frame.cpu.index.esi = s.regs.esi
  ebp : frame.cpu.stack.ebp = s.regs.ebp
  esp : frame.cpu.stack.esp = esp
  ebx : frame.cpu.general.ebx = s.regs.ebx
  edx : frame.cpu.general.edx = s.regs.edx
  ecx : frame.cpu.general.ecx = s.regs.ecx
  eax : frame.cpu.general.eax = s.regs.eax
  gs : frame.cpu.segment.gs.toUInt16 = s.regs.gs
  fs : frame.cpu.segment.fs.toUInt16 = s.regs.fs
  es : frame.cpu.segment.es.toUInt16 = s.regs.es
  ds : frame.cpu.segment.ds.toUInt16 = s.regs.ds
  intNumber : frame.intNumber = UInt32.ofNat v.val
  errorCode : frame.intStack.errorCode = 0
  eip : frame.intStack.eip = s.eip
  cs : frame.intStack.cs.toUInt16 = s.cs
  eflags : frame.intStack.eflags = s.eflags

/-- The state `t`, at `iret`, gives everything back to the program that was interrupted in state `s`. -/
structure Transparent (p : SelectorPush) (tss : TSSEntry) (s t : Cpu) : Prop where
  regs : t.regs = s.regs
  esp : t.esp = (s.pushReturn p tss).esp
  returns : s.cs &&& 3 = 0 →
    t.iret.esp = s.esp ∧ t.iret.eip = s.eip ∧ t.iret.cs = s.cs ∧ t.iret.eflags = s.eflags

section Stub

variable {image : KernelImage} {env : Env} {tss : TSSEntry} {idt : IDT} {v : Fin 64} {errorCode : UInt32} {s t : Cpu}

/-- Of the vectors, two have an error code and a stub that pushes one of its own. -/
theorem words_length_eq_two_iff (errorCode : UInt32) :
    (hardwareWords v errorCode).length + (stubWords v).length = 2 ↔ v ≠ 21 ∧ v ≠ 29 := by
  have hlength : (hardwareWords v errorCode).length = if pushesErrorCode v.val then 1 else 0 := by
    unfold hardwareWords
    split <;> rfl
  rw [hlength]
  clear hlength
  revert v
  decide

/-- A vector without an error code has a stub that pushes one. -/
theorem words_of_no_errorCode (errorCode : UInt32) (hv : pushesErrorCode v.val = false) :
    hardwareWords v errorCode = [] ∧ stubWords v = [0, UInt32.ofNat v.val] := by
  have hmacro : ∀ v : Fin 64, pushesErrorCode v.val = false → errorCodeMacro v.val = false := by decide
  rw [hardwareWords, stubWords, hv, hmacro v hv]
  exact ⟨rfl, rfl⟩

/-- **The frame of the handler**: `ebp` is in the place of `esp`, and the stack pointer before `pushad` in that of
`ebp`. -/
theorem exists_argument (image : KernelImage) (env : Env) (tss : TSSEntry) (idt : IDT) (v : Fin 64)
    (errorCode returnAddress : UInt32) (s : Cpu) (hv : pushesErrorCode v.val = false) :
    ∃ (t : Cpu) (gs fs es ds cs : UInt32), image.runVector env tss idt .callHandler v errorCode s = some t ∧
      (gs.toUInt16 = s.regs.gs ∧ fs.toUInt16 = s.regs.fs ∧ es.toUInt16 = s.regs.es ∧ ds.toUInt16 = s.regs.ds ∧
        cs.toUInt16 = s.cs) ∧
      (t.push returnAddress).argument =
        { cpu :=
            { index := ⟨s.regs.edi, s.regs.esi⟩
              stack := ⟨s.regs.ebp, (s.pushReturn env.selectorPush tss).esp - 24⟩
              general := ⟨s.regs.ebx, s.regs.edx, s.regs.ecx, s.regs.eax⟩
              segment := ⟨gs, fs, es, ds⟩ }
          intNumber := UInt32.ofNat v.val
          intStack := ⟨0, s.eip, cs, s.eflags⟩ } := by
  obtain ⟨t, gs, fs, es, ds, cs, hrun, -, hselectors, -, hall⟩ := image.exists_call env tss idt v errorCode s
  obtain ⟨hhardware, hstub⟩ := words_of_no_errorCode errorCode hv
  have hesp : stubEsp env.selectorPush tss v errorCode s - 16 = (s.pushReturn env.selectorPush tss).esp - 24 := by
    rw [stubEsp, hhardware, hstub]
    exact sub_ofNat_sub _ (4 * 2) 16
  rw [hhardware, hstub, hesp] at hall
  exact ⟨t, gs, fs, es, ds, cs, hrun, hselectors, Cpu.push_argument.trans (Cpu.frame_of_onStack [] hall)⟩

/-- **The fields of the frame** hold what they are named after exactly when `ebp` is the stack pointer before `pushad`,
because the two are in each other's place. -/
theorem argument_holds_iff (image : KernelImage) (env : Env) (tss : TSSEntry) (idt : IDT) (v : Fin 64)
    (errorCode returnAddress : UInt32) (s : Cpu) (hv : pushesErrorCode v.val = false) :
    ∃ t, image.runVector env tss idt .callHandler v errorCode s = some t ∧
      (FrameHolds (t.push returnAddress).argument s v ((s.pushReturn env.selectorPush tss).esp - 24) ↔
        s.regs.ebp = (s.pushReturn env.selectorPush tss).esp - 24) := by
  obtain ⟨t, gs, fs, es, ds, cs, hrun, ⟨hgs, hfs, hes, hds, hcs⟩, hargument⟩ :=
    exists_argument image env tss idt v errorCode returnAddress s hv
  refine ⟨t, hrun, ?_⟩
  rw [hargument]
  constructor
  · intro h
    exact h.esp
  · intro h
    exact ⟨rfl, rfl, h.symm, h, rfl, rfl, rfl, rfl, hgs, hfs, hes, hds, rfl, rfl, rfl, hcs, rfl⟩

/-- An image with the handlers at the lowest addresses. -/
def lowImage : KernelImage where
  interruptHandler i := UInt32.ofNat i.val
  code a := ((handlerMacros.find? fun m => m.label == a.toNat).map HandlerMacro.code).getD []
  code_interruptHandler := by
    have hfind : ∀ i : Fin 64, ∀ m ∈ handlerMacros, m.label = i.val →
        (handlerMacros.find? fun m => m.label == (UInt32.ofNat i.val).toNat) = some m := by decide
    intro i m hm hlabel
    rw [hfind i m hm hlabel]
    rfl

/-- A handler that does nothing. -/
def idleHandler : ReturningHandler where
  run entry := entry.drop 1
  balanced _ := rfl
  argument _ := rfl

/-- The kernel, interrupted with `0x2000` in `ebp` and `0x1000` in `esp`. -/
def interruptedCpu : Cpu where
  regs := ⟨1, 2, 3, 4, 0x2000, 6, 7, 0x10, 0x10, 0x10, 0x10⟩
  esp := 0x1000
  ss := 0x10
  cs := 0x8
  eip := 0xC0100000
  eflags := 0x202
  memory := fun _ => 0

/-- A breakpoint. -/
theorem argument_holds_breakpoint :
    pushesErrorCode (3 : Fin 64).val = false ∧
      ∃ t, lowImage.runVector (idleHandler.env .zeroExtend 0xC0100000) ⟨0, 0x10⟩
          ⟨fun _ => interruptGate 0 0 0⟩ .callHandler 3 0 interruptedCpu = some t ∧
        (FrameHolds (t.push 0xC0100000).argument interruptedCpu 3
            ((interruptedCpu.pushReturn (idleHandler.env .zeroExtend 0xC0100000).selectorPush ⟨0, 0x10⟩).esp - 24) ↔
          interruptedCpu.regs.ebp =
            (interruptedCpu.pushReturn (idleHandler.env .zeroExtend 0xC0100000).selectorPush ⟨0, 0x10⟩).esp - 24) :=
  ⟨rfl, argument_holds_iff lowImage (idleHandler.env .zeroExtend 0xC0100000) ⟨0, 0x10⟩ ⟨fun _ => interruptGate 0 0 0⟩ 3
    0 0xC0100000 interruptedCpu rfl⟩

/-- The interrupt of the keyboard: the fields `esp` and `ebp` hold each other's register. -/
theorem argument_swapped :
    ∃ t, lowImage.runVector (idleHandler.env .zeroExtend 0xC0100000) ⟨0, 0x10⟩
        ⟨fun _ => interruptGate 0 0 0⟩ .callHandler 0x21 0 interruptedCpu = some t ∧
      (interruptedCpu.pushReturn .zeroExtend ⟨0, 0x10⟩).esp - 24 = 0xFDC ∧
      (t.push 0xC0100000).argument.cpu.stack = { esp := 0x2000, ebp := 0xFDC } ∧
      ¬ FrameHolds (t.push 0xC0100000).argument interruptedCpu 0x21 0xFDC := by
  obtain ⟨t, gs, fs, es, ds, cs, hrun, -, hargument⟩ := exists_argument lowImage
    (idleHandler.env .zeroExtend 0xC0100000) ⟨0, 0x10⟩ ⟨fun _ => interruptGate 0 0 0⟩ 0x21 0 0xC0100000 interruptedCpu rfl
  have hesp : (interruptedCpu.pushReturn .zeroExtend ⟨0, 0x10⟩).esp - 24 = 0xFDC := by decide +kernel
  have hstack : (t.push 0xC0100000).argument.cpu.stack = { esp := 0x2000, ebp := 0xFDC } := by
    rw [hargument]
    exact congrArg (StackRegister.mk 0x2000) hesp
  refine ⟨t, hrun, hesp, hstack, fun h => ?_⟩
  have hfield := h.esp
  rw [hstack] at hfield
  exact absurd hfield (by decide)

/-- What is on the stack at `iret`, when the stub pushes as many words as it removes. -/
theorem Cpu.frame_of_two_words {gs fs es ds cs word : UInt32} (h2 : v ≠ 21 ∧ v ≠ 29)
    (h : OnStack t.memory t.esp ([s.regs.edi, s.regs.esi, s.regs.ebp, word, s.regs.ebx, s.regs.edx, s.regs.ecx,
      s.regs.eax, gs, fs, es, ds] ++ ((stubWords v).reverse ++ (hardwareWords v errorCode ++ [s.eip, cs, s.eflags])))) :
    t.frame.intStack.eip = s.eip ∧ t.frame.intStack.cs = cs ∧ t.frame.intStack.eflags = s.eflags := by
  have hlength : ((stubWords v).reverse ++ hardwareWords v errorCode).length = 2 := by
    rw [List.length_append, List.length_reverse, Nat.add_comm]
    exact (words_length_eq_two_iff errorCode).mpr h2
  obtain ⟨intNumber, code, hwords⟩ := List.length_eq_two.mp hlength
  rw [← List.append_assoc (stubWords v).reverse, hwords] at h
  have hframe : t.frame =
      { cpu :=
          { index := ⟨s.regs.edi, s.regs.esi⟩
            stack := ⟨s.regs.ebp, word⟩
            general := ⟨s.regs.ebx, s.regs.edx, s.regs.ecx, s.regs.eax⟩
            segment := ⟨gs, fs, es, ds⟩ }
        intNumber := intNumber
        intStack := ⟨code, s.eip, cs, s.eflags⟩ } := Cpu.frame_of_onStack [] h
  rw [hframe]
  exact ⟨rfl, rfl, rfl⟩

/-- **What the stub of a vector leaves** at `iret`. -/
theorem exists_iret (image : KernelImage) (handler : ReturningHandler) (p : SelectorPush) (returnAddress : UInt32)
    (tss : TSSEntry) (idt : IDT) (v : Fin 64) (errorCode : UInt32) (s : Cpu) :
    ∃ t, image.runVector (handler.env p returnAddress) tss idt .iret v errorCode s = some t ∧ t.regs = s.regs ∧
      t.esp = stubEsp p tss v errorCode s + 8 ∧
      (v ≠ 21 ∧ v ≠ 29 → t.stackWord 0 = s.eip ∧ (t.stackWord 1).toUInt16 = s.cs ∧ t.stackWord 2 = s.eflags) := by
  obtain ⟨t, gs, fs, es, ds, cs, -, hrun, ⟨hgs, hfs, hes, hds, hcs⟩, htop, hall⟩ :=
    image.exists_call (handler.env p returnAddress) tss idt v errorCode s
  -- the handler returns with the frame as it was
  have hframe : ((handler.env p returnAddress).call t).frame = t.frame := (handler.argument _).trans Cpu.push_argument
  have hesp : ((handler.env p returnAddress).call t).esp = t.esp :=
    (handler.balanced _).trans (UInt32.sub_add_cancel t.esp 4)
  obtain ⟨hregs, hend, hmem⟩ := execAll_genericEpilogue (handler.env p returnAddress)
    ((handler.env p returnAddress).call t)
  have hword : ∀ i, (((handler.env p returnAddress).call t).execAll (handler.env p returnAddress)
      genericEpilogue).stackWord i = ((handler.env p returnAddress).call t).stackWord (14 + i) := by
    intro i
    rw [← Cpu.drop_stackWord, Cpu.stackWord, hend, hmem]
    rfl
  refine ⟨_, hrun, ?_, ?_, fun h2 => ?_⟩
  · rw [hregs, hframe]
    exact Cpu.restored_of_onStack hgs hfs hes hds hall
  · rw [hend, hesp, htop, UInt32.sub_eq_add_neg, UInt32.add_assoc]
    rfl
  · obtain ⟨heip, hcs', heflags⟩ := Cpu.frame_of_two_words h2 hall
    rw [← hframe] at heip hcs' heflags
    rw [hword, hword, hword]
    exact ⟨heip, (congrArg UInt32.toUInt16 hcs').trans hcs, heflags⟩

/-- The stack pointer at `iret` is where the CPU has pushed `eip` if two words are removed that were pushed. -/
theorem stubEsp_add_eq_iff {p : SelectorPush} :
    stubEsp p tss v errorCode s + 8 = (s.pushReturn p tss).esp ↔ v ≠ 21 ∧ v ≠ 29 := by
  have hle := words_length_le v errorCode
  have hlt := (s.pushReturn p tss).esp.toNat_lt
  rw [← words_length_eq_two_iff errorCode, stubEsp, ← UInt32.toNat_inj, UInt32.toNat_add,
    UInt32.toNat_sub, UInt32.toNat_ofNat_of_lt' (by change _ < 4294967296; omega), show (8 : UInt32).toNat = 8 from rfl]
  omega

/-- **An interrupt is transparent** for every vector but the two exceptions whose stub pushes a second error code. -/
theorem interrupt_transparent_iff (image : KernelImage) (handler : ReturningHandler) (p : SelectorPush)
    (returnAddress : UInt32) (tss : TSSEntry) (idt : IDT) (v : Fin 64) (errorCode : UInt32) (s : Cpu) :
    ∃ t, image.runVector (handler.env p returnAddress) tss idt .iret v errorCode s = some t ∧
      (Transparent p tss s t ↔ v ≠ 21 ∧ v ≠ 29) := by
  obtain ⟨t, hrun, hregs, hesp, hwords⟩ := exists_iret image handler p returnAddress tss idt v errorCode s
  refine ⟨t, hrun, ?_⟩
  constructor
  · intro h
    exact stubEsp_add_eq_iff.mp (hesp.symm.trans h.esp)
  · intro h2
    have htop := hesp.trans (stubEsp_add_eq_iff.mpr h2)
    refine ⟨hregs, htop, fun hkernel => ?_⟩
    obtain ⟨heip, hcs, heflags⟩ := hwords h2
    have hiret : t.iret = { t.drop 3 with
        eip := t.stackWord 0
        cs := (t.stackWord 1).toUInt16
        eflags := t.stackWord 2 } := if_pos (hcs.symm ▸ hkernel)
    have hreturn : (s.pushReturn p tss).esp = s.esp - 12 := by
      rw [Cpu.pushReturn, if_pos hkernel]
      exact (congrArg (· - 4) (sub_ofNat_sub s.esp 4 4)).trans (sub_ofNat_sub s.esp 8 4)
    rw [hiret]
    refine ⟨?_, heip, hcs, heflags⟩
    change t.esp + 12 = s.esp
    rw [htop, hreturn, UInt32.sub_add_cancel]

/-- A control protection exception: `iret` is reached with the stack pointer at the error code. -/
theorem interrupt_not_transparent :
    ∃ t, lowImage.runVector (idleHandler.env .zeroExtend 0xC0100000) ⟨0, 0x10⟩
        ⟨fun _ => interruptGate 0 0 0⟩ .iret 21 0 interruptedCpu = some t ∧
      (interruptedCpu.pushReturn .zeroExtend ⟨0, 0x10⟩).esp = 0xFF4 ∧ t.esp = 0xFF0 ∧
      ¬ Transparent .zeroExtend ⟨0, 0x10⟩ interruptedCpu t := by
  obtain ⟨t, hrun, -, hesp, -⟩ := exists_iret lowImage idleHandler .zeroExtend 0xC0100000 ⟨0, 0x10⟩
    ⟨fun _ => interruptGate 0 0 0⟩ 21 0 interruptedCpu
  have hreturn : (interruptedCpu.pushReturn .zeroExtend ⟨0, 0x10⟩).esp = 0xFF4 := by decide +kernel
  have htop : t.esp = 0xFF0 := hesp.trans (by decide +kernel)
  refine ⟨t, hrun, hreturn, htop, fun h => ?_⟩
  have hsame := h.esp
  rw [htop, hreturn] at hsame
  exact absurd hsame (by decide)

end Stub

end Os2024
