import Os2024.Interrupt.Cpu
import Os2024.Interrupt.Interrupt

/-!
# The interrupt stubs

`ch1/intsetup/intsetup.s`: `call_generic_handler`, the two macros and their uses, and the table of the handlers.

* `argument_execAll_prologue`: the argument of `main_interrupt_handler`, word by word;
* `execAll_epilogue`: what is restored from it.
-/

namespace Os2024

/-! ## The code -/

def saveSegments : List Instr := [.pushSeg .ds, .pushSeg .es, .pushSeg .fs, .pushSeg .gs]

/-- The segment registers are set before the interrupt is handled. -/
def loadKernelSegments : List Instr :=
  [.pushEax, .movAx 0x10, .movSegAx .ds, .movSegAx .es, .movSegAx .fs, .movSegAx .gs, .popEax]

/-- `call_generic_handler` up to the call. -/
def genericPrologue : List Instr := saveSegments ++ [.pushad] ++ loadKernelSegments

/-- `call_generic_handler` behind the call, up to `iret`. -/
def genericEpilogue : List Instr := [
  .popad,
  .popSeg .gs, .popSeg .fs, .popSeg .es, .popSeg .ds,
  -- interrupt number and error code
  .addEsp 8,
  .sti]

def callGenericHandler : List Instr := genericPrologue ++ [.callHandler] ++ genericEpilogue ++ [.iret]

/-- The macros that define the handlers, with their argument. -/
inductive HandlerMacro where
  | noErrorCodeInterruptHandler (intNumber : Nat)
  | errorCodeInterruptHandler (intNumber : Nat)
  deriving DecidableEq

namespace HandlerMacro

/-- The number in the label a macro defines. -/
def label : HandlerMacro → Nat
  | noErrorCodeInterruptHandler intNumber => intNumber
  | errorCodeInterruptHandler intNumber => intNumber

/-- What a macro pushes before it jumps. -/
def words : HandlerMacro → List UInt32
  | noErrorCodeInterruptHandler intNumber => [0, UInt32.ofNat intNumber]
  | errorCodeInterruptHandler intNumber => [UInt32.ofNat intNumber]

/-- The code at the label. -/
def code (m : HandlerMacro) : List Instr := m.words.map .pushDword ++ callGenericHandler

end HandlerMacro

open HandlerMacro in
/-- The uses of the macros, in the order of the file. -/
def handlerMacros : List HandlerMacro :=
  [noErrorCodeInterruptHandler 0, noErrorCodeInterruptHandler 1, noErrorCodeInterruptHandler 2,
    noErrorCodeInterruptHandler 3, noErrorCodeInterruptHandler 4, noErrorCodeInterruptHandler 5,
    noErrorCodeInterruptHandler 6, noErrorCodeInterruptHandler 7, errorCodeInterruptHandler 8,
    noErrorCodeInterruptHandler 9, errorCodeInterruptHandler 10, errorCodeInterruptHandler 11,
    errorCodeInterruptHandler 12, errorCodeInterruptHandler 13, errorCodeInterruptHandler 14,
    noErrorCodeInterruptHandler 15, noErrorCodeInterruptHandler 16, errorCodeInterruptHandler 17,
    noErrorCodeInterruptHandler 18, noErrorCodeInterruptHandler 19, noErrorCodeInterruptHandler 20,
    noErrorCodeInterruptHandler 21, noErrorCodeInterruptHandler 22, noErrorCodeInterruptHandler 23,
    noErrorCodeInterruptHandler 24, noErrorCodeInterruptHandler 25, noErrorCodeInterruptHandler 26,
    noErrorCodeInterruptHandler 27, noErrorCodeInterruptHandler 28, noErrorCodeInterruptHandler 29,
    errorCodeInterruptHandler 30, noErrorCodeInterruptHandler 31] ++
  -- `%rep 32`, from 32 on
  (List.range 32).map fun k => noErrorCodeInterruptHandler (32 + k)

/-- The kernel in memory: where its labels are, and the code there. -/
structure KernelImage where
  interruptHandler : Fin 64 → UInt32
  code : UInt32 → List Instr
  code_interruptHandler : ∀ i, ∀ m ∈ handlerMacros, m.label = i.val → code (interruptHandler i) = m.code

/-- `isr_stub_table`. -/
def KernelImage.isrStubTable (image : KernelImage) : Fin 64 → UInt32 := image.interruptHandler

/-! ## The argument of the handler -/

/-- The words of a frame, as they lie in memory. -/
def InterruptFrame.words (frame : InterruptFrame) : List UInt32 :=
  [frame.cpu.index.edi, frame.cpu.index.esi,
    frame.cpu.stack.esp, frame.cpu.stack.ebp,
    frame.cpu.general.ebx, frame.cpu.general.edx, frame.cpu.general.ecx, frame.cpu.general.eax,
    frame.cpu.segment.gs, frame.cpu.segment.fs, frame.cpu.segment.es, frame.cpu.segment.ds,
    frame.intNumber,
    frame.intStack.errorCode, frame.intStack.eip, frame.intStack.cs, frame.intStack.eflags]

/-- The `struct InterruptFrame` at the top of the stack. -/
def Cpu.frame (s : Cpu) : InterruptFrame where
  cpu :=
    { index := ⟨s.stackWord 0, s.stackWord 1⟩
      stack := ⟨s.stackWord 2, s.stackWord 3⟩
      general := ⟨s.stackWord 4, s.stackWord 5, s.stackWord 6, s.stackWord 7⟩
      segment := ⟨s.stackWord 8, s.stackWord 9, s.stackWord 10, s.stackWord 11⟩ }
  intNumber := s.stackWord 12
  intStack := ⟨s.stackWord 13, s.stackWord 14, s.stackWord 15, s.stackWord 16⟩

/-- The argument that a function sees when it is entered: it lies behind the return address. -/
def Cpu.argument (entry : Cpu) : InterruptFrame := (entry.drop 1).frame

/-- A `main_interrupt_handler` that returns: the stack is balanced, and the argument is as it was. -/
structure ReturningHandler where
  run : Cpu → Cpu
  balanced : ∀ entry, (run entry).esp = entry.esp + 4
  argument : ∀ entry, (run entry).frame = entry.argument

/-- The call of the handler, with the address of the instruction behind it. -/
def ReturningHandler.env (handler : ReturningHandler) (p : SelectorPush) (returnAddress : UInt32) : Env where
  selectorPush := p
  call s := handler.run (s.push returnAddress)

/-- What `popad` and the pops behind it make of a frame: the word before last of `stack` is `ebp`. -/
def InterruptFrame.restored (frame : InterruptFrame) : Registers where
  eax := frame.cpu.general.eax
  ecx := frame.cpu.general.ecx
  edx := frame.cpu.general.edx
  ebx := frame.cpu.general.ebx
  ebp := frame.cpu.stack.esp
  esi := frame.cpu.index.esi
  edi := frame.cpu.index.edi
  ds := frame.cpu.segment.ds.toUInt16
  es := frame.cpu.segment.es.toUInt16
  fs := frame.cpu.segment.fs.toUInt16
  gs := frame.cpu.segment.gs.toUInt16

section Stubs

variable {env : Env} {s : Cpu} {frame : InterruptFrame} {word : UInt32} {words : List UInt32}

theorem InterruptFrame.words_injective {frame frame' : InterruptFrame} (h : frame.words = frame'.words) :
    frame = frame' := by
  obtain ⟨⟨⟨_, _⟩, ⟨_, _⟩, ⟨_, _, _, _⟩, ⟨_, _, _, _⟩⟩, _, ⟨_, _, _, _⟩⟩ := frame
  obtain ⟨⟨⟨_, _⟩, ⟨_, _⟩, ⟨_, _, _, _⟩, ⟨_, _, _, _⟩⟩, _, ⟨_, _, _, _⟩⟩ := frame'
  simpa [InterruptFrame.words, and_assoc] using h

theorem InterruptFrame.words_length (frame : InterruptFrame) : frame.words.length = 17 := rfl

theorem Cpu.frame_words (s : Cpu) : s.frame.words = (List.range 17).map s.stackWord := rfl

/-- The frame whose words are on the stack. -/
theorem Cpu.frame_of_onStack (words : List UInt32) (h : OnStack s.memory s.esp (frame.words ++ words)) : s.frame = frame := by
  have hlength : s.frame.words.length = frame.words.length := by
    rw [InterruptFrame.words_length, InterruptFrame.words_length]
  refine InterruptFrame.words_injective (List.ext_getElem hlength fun i hi hi' => ?_)
  have hlen : i < (frame.words ++ words).length := by
    rw [List.length_append]
    exact Nat.lt_add_right _ hi'
  have hword := Cpu.stackWord_of_onStack h hlen
  rw [List.getElem_append_left hi'] at hword
  simpa only [Cpu.frame_words, List.getElem_map, List.getElem_range] using hword

/-- The registers whose words are on the stack. -/
theorem Cpu.restored_of_onStack {regs : Registers} {gs fs es ds : UInt32} (hgs : gs.toUInt16 = regs.gs)
    (hfs : fs.toUInt16 = regs.fs) (hes : es.toUInt16 = regs.es) (hds : ds.toUInt16 = regs.ds)
    (h : OnStack s.memory s.esp ([regs.edi, regs.esi, regs.ebp, word, regs.ebx, regs.edx, regs.ecx, regs.eax,
      gs, fs, es, ds] ++ words)) : s.frame.restored = regs := by
  have hword : ∀ i (hi : i < 12), s.stackWord i = [regs.edi, regs.esi, regs.ebp, word, regs.ebx, regs.edx, regs.ecx,
      regs.eax, gs, fs, es, ds][i] := by
    intro i hi
    rw [Cpu.stackWord_of_onStack h (by rw [List.length_append]; exact Nat.lt_add_right _ hi)]
    exact List.getElem_append_left _
  exact Registers.ext (hword 7 (by decide)) (hword 6 (by decide)) (hword 5 (by decide)) (hword 4 (by decide))
    (hword 2 (by decide)) (hword 1 (by decide)) (hword 0 (by decide))
    ((congrArg UInt32.toUInt16 (hword 11 (by decide))).trans hds)
    ((congrArg UInt32.toUInt16 (hword 10 (by decide))).trans hes)
    ((congrArg UInt32.toUInt16 (hword 9 (by decide))).trans hfs)
    ((congrArg UInt32.toUInt16 (hword 8 (by decide))).trans hgs)

/-- A word that is pushed below the frame does not change it. -/
theorem Cpu.push_argument : (s.push word).argument = s.frame := by
  have hesp : ((s.push word).drop 1).esp = s.esp := UInt32.sub_add_cancel s.esp 4
  refine InterruptFrame.words_injective ?_
  rw [Cpu.argument, Cpu.frame_words, Cpu.frame_words]
  refine List.map_congr_left fun i hi => ?_
  rw [Cpu.stackWord, hesp]
  exact Memory.loadWord_storeWord_below (by have := List.mem_range.mp hi; omega)

theorem Cpu.pushSelector_eq (p : SelectorPush) (s : Cpu) (selector : UInt16) :
    ∃ word : UInt32, word.toUInt16 = selector ∧ s.pushSelector p selector = s.push word :=
  ⟨_, p.low _ _, rfl⟩

theorem execAll_pushDword : s.execAll env (words.map .pushDword) = s.pushAll words := by
  rw [Cpu.execAll, List.foldl_map]
  rfl

/-- Loading the segment registers of the kernel leaves the stack as it is. -/
theorem execAll_loadKernelSegments (env : Env) (s : Cpu) : (s.execAll env loadKernelSegments).esp = s.esp ∧
    (s.execAll env loadKernelSegments).memory = s.memory.storeWord (s.esp - 4) s.regs.eax := by
  constructor
  · exact UInt32.sub_add_cancel s.esp 4
  · rfl

/-- **What is on the stack at the call**: the registers, above what was there. -/
theorem execAll_genericPrologue (env : Env) (h : OnStack s.memory s.esp words) (hlen : 4 * (words.length + 13) ≤ 2 ^ 32) :
    ∃ gs fs es ds : UInt32, gs.toUInt16 = s.regs.gs ∧ fs.toUInt16 = s.regs.fs ∧ es.toUInt16 = s.regs.es ∧
      ds.toUInt16 = s.regs.ds ∧ (s.execAll env genericPrologue).esp = s.esp - 48 ∧
      OnStack (s.execAll env genericPrologue).memory (s.execAll env genericPrologue).esp
        ([s.regs.edi, s.regs.esi, s.regs.ebp, s.esp - 16, s.regs.ebx, s.regs.edx, s.regs.ecx, s.regs.eax,
          gs, fs, es, ds] ++ words) := by
  have hexec : s.execAll env saveSegments =
      (((s.pushSelector env.selectorPush s.regs.ds).pushSelector env.selectorPush s.regs.es).pushSelector
        env.selectorPush s.regs.fs).pushSelector env.selectorPush s.regs.gs := rfl
  obtain ⟨ds, hds, hpush⟩ := Cpu.pushSelector_eq env.selectorPush s s.regs.ds
  rw [hpush] at hexec
  obtain ⟨es, hes, hpush⟩ := Cpu.pushSelector_eq env.selectorPush (s.push ds) s.regs.es
  rw [hpush] at hexec
  obtain ⟨fs, hfs, hpush⟩ := Cpu.pushSelector_eq env.selectorPush ((s.push ds).push es) s.regs.fs
  rw [hpush] at hexec
  obtain ⟨gs, hgs, hpush⟩ := Cpu.pushSelector_eq env.selectorPush (((s.push ds).push es).push fs) s.regs.gs
  rw [hpush] at hexec
  -- the selectors, then the words of `pushad` above them
  have hsave : s.execAll env saveSegments = s.pushAll [ds, es, fs, gs] := hexec
  have hselectors := Cpu.pushAll_onStack [ds, es, fs, gs] h (by
    simp only [List.length_cons, List.length_nil]
    omega)
  have hpushad : (s.pushAll [ds, es, fs, gs]).execAll env [.pushad] = (s.pushAll [ds, es, fs, gs]).pushAll
      [s.regs.eax, s.regs.ecx, s.regs.edx, s.regs.ebx, s.esp - 16, s.regs.ebp, s.regs.esi, s.regs.edi] := by
    have hesp : (s.pushAll [ds, es, fs, gs]).esp = s.esp - 16 := by
      rw [Cpu.pushAll_esp]
      rfl
    rw [Cpu.execAll_cons, Cpu.execAll_nil, Instr.exec, Cpu.pushad, Cpu.pushAll_regs, hesp]
  have hall := Cpu.pushAll_onStack [s.regs.eax, s.regs.ecx, s.regs.edx, s.regs.ebx, s.esp - 16, s.regs.ebp, s.regs.esi,
    s.regs.edi] hselectors (by
      simp only [List.length_cons, List.length_nil, List.length_append, List.length_reverse]
      omega)
  obtain ⟨hesp, hmem⟩ := execAll_loadKernelSegments env ((s.pushAll [ds, es, fs, gs]).pushAll
    [s.regs.eax, s.regs.ecx, s.regs.edx, s.regs.ebx, s.esp - 16, s.regs.ebp, s.regs.esi, s.regs.edi])
  refine ⟨gs, fs, es, ds, hgs, hfs, hes, hds, ?_, ?_⟩
  · rw [genericPrologue, Cpu.execAll_append, Cpu.execAll_append, hsave, hpushad, hesp, Cpu.pushAll_esp,
      Cpu.pushAll_esp, sub_ofNat_sub]
    rfl
  · rw [genericPrologue, Cpu.execAll_append, Cpu.execAll_append, hsave, hpushad, hesp, hmem]
    simp only [List.reverse_cons, List.reverse_nil, List.nil_append, List.cons_append] at hall ⊢
    refine hall.store_below ?_
    simp only [List.length_cons]
    omega

/-- **What is restored** behind the call: the registers of the frame at the top of the stack. -/
theorem execAll_genericEpilogue (env : Env) (s : Cpu) : (s.execAll env genericEpilogue).regs = s.frame.restored ∧
    (s.execAll env genericEpilogue).esp = s.esp + 56 ∧ (s.execAll env genericEpilogue).memory = s.memory := by
  have hgs : (s.drop 8).stackWord 0 = s.stackWord 8 := Cpu.drop_stackWord
  have hfs : ((s.drop 8).drop 1).stackWord 0 = s.stackWord 9 := Cpu.drop_stackWord.trans Cpu.drop_stackWord
  have hes : (((s.drop 8).drop 1).drop 1).stackWord 0 = s.stackWord 10 :=
    Cpu.drop_stackWord.trans (Cpu.drop_stackWord.trans Cpu.drop_stackWord)
  have hds : ((((s.drop 8).drop 1).drop 1).drop 1).stackWord 0 = s.stackWord 11 :=
    Cpu.drop_stackWord.trans (Cpu.drop_stackWord.trans (Cpu.drop_stackWord.trans Cpu.drop_stackWord))
  refine ⟨?_, ?_, rfl⟩
  · exact Registers.ext rfl rfl rfl rfl rfl rfl rfl (congrArg UInt32.toUInt16 hds) (congrArg UInt32.toUInt16 hes)
      (congrArg UInt32.toUInt16 hfs) (congrArg UInt32.toUInt16 hgs)
  · have hesp : (s.execAll env genericEpilogue).esp = s.esp + UInt32.ofNat 32 + UInt32.ofNat 4 + UInt32.ofNat 4 +
        UInt32.ofNat 4 + UInt32.ofNat 4 + 8 := rfl
    rw [hesp]
    simp only [UInt32.add_assoc]
    rfl

/-! ## Runs of a stub -/

variable {m : HandlerMacro}

/-- A stub comes to the call of the handler. -/
theorem runUntil_callHandler : s.runUntil env .callHandler m.code =
    some ((s.pushAll m.words).execAll env genericPrologue) := by
  have hpushes : Instr.callHandler ∉ m.words.map .pushDword := by simp
  have hprologue : Instr.callHandler ∉ genericPrologue := by decide
  rw [HandlerMacro.code, Cpu.runUntil_append hpushes, execAll_pushDword, callGenericHandler, List.append_assoc,
    List.append_assoc, Cpu.runUntil_append hprologue]
  exact Cpu.runUntil_self

/-- A stub comes to `iret`. -/
theorem runUntil_iret : s.runUntil env .iret m.code =
    some ((env.call ((s.pushAll m.words).execAll env genericPrologue)).execAll env genericEpilogue) := by
  have hpushes : Instr.iret ∉ m.words.map .pushDword := by simp
  have hprologue : Instr.iret ∉ genericPrologue := by decide
  have hcall : Instr.iret ∉ [Instr.callHandler] := by decide
  have hepilogue : Instr.iret ∉ genericEpilogue := by decide
  rw [HandlerMacro.code, Cpu.runUntil_append hpushes, execAll_pushDword, callGenericHandler, List.append_assoc,
    List.append_assoc, Cpu.runUntil_append hprologue, Cpu.runUntil_append hcall, Cpu.runUntil_append hepilogue]
  exact Cpu.runUntil_self

/-- The handlers that push the interrupt number only. -/
def errorCodeMacro (vector : Nat) : Bool := vector ∈ [8, 10, 11, 12, 13, 14, 17, 30]

/-- Every vector has a handler. -/
theorem exists_handlerMacro (v : Fin 64) : ∃ m ∈ handlerMacros, m.label = v.val ∧
    m.words = if errorCodeMacro v.val then [UInt32.ofNat v.val] else [0, UInt32.ofNat v.val] := by
  revert v
  decide

end Stubs

/-! ## Vectors -/

/-- The CPU enters the handler of a vector and runs it up to an instruction. -/
def KernelImage.runVector (image : KernelImage) (env : Env) (tss : TSSEntry) (idt : IDT) (stop : Instr) (v : Fin 64)
    (errorCode : UInt32) (s : Cpu) : Option Cpu := do
  let start ← s.interrupt env.selectorPush tss (initializeIdt image.isrStubTable idt) (v.castLE isrStubTableLimit_le) errorCode
  start.runUntil env stop (image.code start.eip)

/-- What the CPU pushes behind the return address. -/
def hardwareWords (v : Fin 64) (errorCode : UInt32) : List UInt32 := if pushesErrorCode v then [errorCode] else []

/-- What the handler of a vector pushes. -/
def stubWords (v : Fin 64) : List UInt32 :=
  if errorCodeMacro v.val then [UInt32.ofNat v.val] else [0, UInt32.ofNat v.val]

section Vectors

variable {image : KernelImage} {env : Env} {tss : TSSEntry} {idt : IDT} {v : Fin 64} {errorCode : UInt32} {s : Cpu}
  {stop : Instr}

theorem Cpu.pushReturn_regs (p : SelectorPush) : (s.pushReturn p tss).regs = s.regs := by
  unfold Cpu.pushReturn
  dsimp only
  split <;> rfl

theorem Cpu.pushReturn_onStack (s : Cpu) (tss : TSSEntry) (p : SelectorPush) : ∃ cs : UInt32, cs.toUInt16 = s.cs ∧
    OnStack (s.pushReturn p tss).memory (s.pushReturn p tss).esp [s.eip, cs, s.eflags] := by
  unfold Cpu.pushReturn
  dsimp only
  generalize (if s.cs &&& 3 = 0 then s else _) = t
  obtain ⟨cs, hcs, hpush⟩ := Cpu.pushSelector_eq p (t.push s.eflags) s.cs
  refine ⟨cs, hcs, ?_⟩
  rw [hpush]
  exact Cpu.pushAll_onStack (s := t) [s.eflags, cs, s.eip] (onStack_nil _ _) (show 4 * (3 + 0) ≤ 2 ^ 32 by decide)

theorem pushAll_hardwareWords : s.pushAll (hardwareWords v errorCode) =
    if pushesErrorCode v.val then s.push errorCode else s := by
  unfold hardwareWords
  split <;> rfl

/-- **The run of a vector** is the run of its stub, from a state with the registers of the interrupted program. -/
theorem KernelImage.runVector_eq (image : KernelImage) (env : Env) (tss : TSSEntry) (idt : IDT) (v : Fin 64)
    (errorCode : UInt32) (s : Cpu) : ∃ (start : Cpu) (m : HandlerMacro),
      (∀ stop, image.runVector env tss idt stop v errorCode s = start.runUntil env stop m.code) ∧
      m.words = stubWords v ∧ start.regs = s.regs ∧
      start.esp = ((s.pushReturn env.selectorPush tss).pushAll (hardwareWords v errorCode)).esp ∧
      start.memory = ((s.pushReturn env.selectorPush tss).pushAll (hardwareWords v errorCode)).memory := by
  obtain ⟨m, hmem, hlabel, hwords⟩ := exists_handlerMacro v
  have hgate := initializeIdt_table image.isrStubTable idt v
  let start : Cpu :=
    { (s.pushReturn env.selectorPush tss).pushAll (hardwareWords v errorCode) with
      cs := gdtKernelCodeSegmentSelector
      eip := image.interruptHandler v
      eflags := s.eflags &&& ~~~0x34300 }
  have hstart : s.interrupt env.selectorPush tss (initializeIdt image.isrStubTable idt) (v.castLE isrStubTableLimit_le)
      errorCode = some start := by
    have hvalid : (interruptGate (image.isrStubTable v) gdtKernelCodeSegmentSelector (gatePrivilege v.val)).validBit =
        1 := rfl
    simp only [Cpu.interrupt, hgate, if_pos hvalid, interruptGate_offset, Option.some.injEq, start]
    rw [pushAll_hardwareWords]
    rfl
  refine ⟨start, m, fun stop => ?_, hwords, Cpu.pushAll_regs.trans (Cpu.pushReturn_regs _), rfl, rfl⟩
  have hrun : image.runVector env tss idt stop v errorCode s = start.runUntil env stop (image.code start.eip) := by
    rw [KernelImage.runVector, hstart]
    rfl
  rw [hrun, ← image.code_interruptHandler v m hmem hlabel]

/-- The stack pointer when the stub of a vector is done with its own words. -/
def stubEsp (p : SelectorPush) (tss : TSSEntry) (v : Fin 64) (errorCode : UInt32) (s : Cpu) : UInt32 :=
  (s.pushReturn p tss).esp - UInt32.ofNat (4 * ((hardwareWords v errorCode).length + (stubWords v).length))

theorem hardwareWords_reverse : (hardwareWords v errorCode).reverse = hardwareWords v errorCode := by
  unfold hardwareWords
  split <;> rfl

theorem words_length_le (v : Fin 64) (errorCode : UInt32) : (hardwareWords v errorCode).length + (stubWords v).length ≤ 3 := by
  unfold hardwareWords stubWords
  split <;> split <;> simp

/-- **Every vector comes to the call**, with the registers of the interrupted program on the stack, and from there to
`iret`. -/
theorem KernelImage.exists_call (image : KernelImage) (env : Env) (tss : TSSEntry) (idt : IDT) (v : Fin 64)
    (errorCode : UInt32) (s : Cpu) : ∃ (t : Cpu) (gs fs es ds cs : UInt32),
      image.runVector env tss idt .callHandler v errorCode s = some t ∧
      image.runVector env tss idt .iret v errorCode s = some ((env.call t).execAll env genericEpilogue) ∧
      (gs.toUInt16 = s.regs.gs ∧ fs.toUInt16 = s.regs.fs ∧ es.toUInt16 = s.regs.es ∧ ds.toUInt16 = s.regs.ds ∧
        cs.toUInt16 = s.cs) ∧
      t.esp = stubEsp env.selectorPush tss v errorCode s - 48 ∧
      OnStack t.memory t.esp
        ([s.regs.edi, s.regs.esi, s.regs.ebp, stubEsp env.selectorPush tss v errorCode s - 16, s.regs.ebx, s.regs.edx,
          s.regs.ecx, s.regs.eax, gs, fs, es, ds] ++
          ((stubWords v).reverse ++ (hardwareWords v errorCode ++ [s.eip, cs, s.eflags]))) := by
  obtain ⟨start, m, hrun, hwords, hregs, hesp, hmem⟩ := image.runVector_eq env tss idt v errorCode s
  obtain ⟨cs, hcs, hreturn⟩ := s.pushReturn_onStack tss env.selectorPush
  have hle := words_length_le v errorCode
  -- what the CPU has pushed, then what the stub pushes
  have hhardware := Cpu.pushAll_onStack (hardwareWords v errorCode) hreturn
    (by simp only [List.length_cons, List.length_nil]; omega)
  rw [hardwareWords_reverse, ← hesp, ← hmem] at hhardware
  have hstub := Cpu.pushAll_onStack (stubWords v) hhardware
    (by simp only [List.length_append, List.length_cons, List.length_nil]; omega)
  have hstubEsp : (start.pushAll (stubWords v)).esp = stubEsp env.selectorPush tss v errorCode s := by
    rw [Cpu.pushAll_esp, hesp, Cpu.pushAll_esp, sub_ofNat_sub, ← Nat.mul_add]
    rfl
  obtain ⟨gs, fs, es, ds, hgs, hfs, hes, hds, htop, hall⟩ := execAll_genericPrologue env hstub
    (by simp only [List.length_append, List.length_reverse, List.length_cons, List.length_nil]; omega)
  rw [Cpu.pushAll_regs, hregs] at hgs hfs hes hds hall
  rw [hstubEsp] at htop hall
  refine ⟨(start.pushAll (stubWords v)).execAll env genericPrologue, gs, fs, es, ds, cs, ?_, ?_,
    ⟨hgs, hfs, hes, hds, hcs⟩, htop, hall⟩
  · rw [hrun, runUntil_callHandler, hwords]
  · rw [hrun, runUntil_iret, hwords]

end Vectors

end Os2024
