import Os2024.Properties.Stub
import Os2024.Protection.Tables

/-!
# Interrupts of user programs

What an interrupt in ring 3 leaves when its handler has returned: the user program goes on as if nothing had happened,
and only the stack of the kernel and what the handler writes has changed (`exists_trap`). The handler is
`main_interrupt_handler`, however it is compiled: it writes `keyboard_state` when the interrupt is that of the keyboard,
and nothing else (`exists_trap_kernel`).
-/

namespace Os2024

/-! ## Where memory stays the same -/

/-- The address is one of `size` from `start` on. -/
def InRange (start : UInt32) (size : Nat) (a : UInt32) : Prop :=
  start.toNat ≤ a.toNat ∧ a.toNat < start.toNat + size

instance {start : UInt32} {size : Nat} {a : UInt32} : Decidable (InRange start size a) :=
  inferInstanceAs (Decidable (_ ∧ _))

/-- What is written lies in `[lo, hi)`. -/
def SameOutside (lo hi : Nat) (mem mem' : Memory) : Prop :=
  ∀ a : UInt32, ¬ (lo ≤ a.toNat ∧ a.toNat < hi) → mem' a = mem a

section Writes

variable {lo lo' hi hi' : Nat} {mem mem' mem'' : Memory} {s : Cpu} {words : List UInt32} {env : Env} {sp : UInt32}

theorem SameOutside.trans (h : SameOutside lo hi mem mem') (h' : SameOutside lo' hi' mem' mem'') (hle : lo' ≤ lo)
    (hhi : hi' ≤ hi) : SameOutside lo' hi mem mem'' := by
  intro a ha
  rw [h' a (fun h => ha ⟨h.1, lt_of_lt_of_le h.2 hhi⟩), h a (fun h => ha ⟨le_trans hle h.1, h.2⟩)]

theorem storeWord_sameOutside (mem : Memory) (word : UInt32) (h : 4 ≤ sp.toNat) :
    SameOutside (sp.toNat - 4) sp.toNat mem (mem.storeWord (sp - 4) word) := by
  intro a ha
  refine dif_neg fun hlt => ha ?_
  have hsub : (sp - 4).toNat = sp.toNat - 4 := UInt32.toNat_sub_of_le _ _ h
  rw [UInt32.toNat_sub, hsub] at hlt
  have := a.toNat_lt
  have := sp.toNat_lt
  omega

theorem Cpu.toNat_pushAll_esp (s : Cpu) (words : List UInt32) (h : 4 * words.length ≤ s.esp.toNat) :
    (s.pushAll words).esp.toNat = s.esp.toNat - 4 * words.length := by
  have hlt := s.esp.toNat_lt
  have hof : (UInt32.ofNat (4 * words.length)).toNat = 4 * words.length :=
    UInt32.toNat_ofNat_of_lt' (lt_of_le_of_lt h hlt)
  rw [Cpu.pushAll_esp, UInt32.toNat_sub_of_le _ _ (UInt32.le_iff_toNat_le.mpr (hof.trans_le h)), hof]

/-- Pushes write below the stack pointer. -/
theorem Cpu.pushAll_sameOutside (s : Cpu) (words : List UInt32) (h : 4 * words.length ≤ s.esp.toNat) :
    SameOutside (s.esp.toNat - 4 * words.length) s.esp.toNat s.memory (s.pushAll words).memory := by
  induction words generalizing s with
  | nil => exact fun _ _ => rfl
  | cons word words ih =>
    rw [List.length_cons] at h ⊢
    have hesp : (s.push word).esp.toNat = s.esp.toNat - 4 := UInt32.toNat_sub_of_le _ _ (show 4 ≤ s.esp.toNat by omega)
    have hrest := ih (s.push word) (by omega)
    rw [hesp] at hrest
    have hword := storeWord_sameOutside s.memory word (show 4 ≤ s.esp.toNat by omega)
    have hall := hword.trans hrest (by omega) (by omega)
    rwa [Nat.sub_sub, Nat.add_comm, ← Nat.mul_succ] at hall

theorem Cpu.pushAll_append (s : Cpu) (words words' : List UInt32) :
    s.pushAll (words ++ words') = (s.pushAll words).pushAll words' :=
  List.foldl_append ..

/-- What `call_generic_handler` saves is pushed. -/
theorem exists_saved (env : Env) (s : Cpu) : ∃ words : List UInt32, words.length = 12 ∧
    s.execAll env (saveSegments ++ [.pushad]) = s.pushAll words := by
  have hexec : s.execAll env saveSegments =
      (((s.pushSelector env.selectorPush s.regs.ds).pushSelector env.selectorPush s.regs.es).pushSelector
        env.selectorPush s.regs.fs).pushSelector env.selectorPush s.regs.gs := rfl
  obtain ⟨ds, -, hds⟩ := Cpu.pushSelector_eq env.selectorPush s s.regs.ds
  rw [hds] at hexec
  obtain ⟨es, -, hes⟩ := Cpu.pushSelector_eq env.selectorPush (s.push ds) s.regs.es
  rw [hes] at hexec
  obtain ⟨fs, -, hfs⟩ := Cpu.pushSelector_eq env.selectorPush ((s.push ds).push es) s.regs.fs
  rw [hfs] at hexec
  obtain ⟨gs, -, hgs⟩ := Cpu.pushSelector_eq env.selectorPush (((s.push ds).push es).push fs) s.regs.gs
  rw [hgs] at hexec
  have hselectors : s.execAll env saveSegments = s.pushAll [ds, es, fs, gs] := hexec
  generalize ht : s.pushAll [ds, es, fs, gs] = t at hselectors
  have hpushad : t.execAll env [.pushad] =
      t.pushAll [t.regs.eax, t.regs.ecx, t.regs.edx, t.regs.ebx, t.esp, t.regs.ebp, t.regs.esi, t.regs.edi] := by
    rw [Cpu.execAll_cons, Cpu.execAll_nil, Instr.exec, Cpu.pushad]
  refine ⟨[ds, es, fs, gs] ++ [t.regs.eax, t.regs.ecx, t.regs.edx, t.regs.ebx, t.esp, t.regs.ebp, t.regs.esi, t.regs.edi],
    rfl, ?_⟩
  rw [Cpu.execAll_append, hselectors, Cpu.pushAll_append, ht, hpushad]

/-- `call_generic_handler` writes 52 bytes below the stack pointer. -/
theorem genericPrologue_sameOutside (env : Env) (s : Cpu) (h : 52 ≤ s.esp.toNat) :
    SameOutside (s.esp.toNat - 52) s.esp.toNat s.memory (s.execAll env genericPrologue).memory := by
  obtain ⟨words, hlen, hsaved⟩ := exists_saved env s
  have hpush := s.pushAll_sameOutside words (by omega)
  have hesp : (s.pushAll words).esp.toNat = s.esp.toNat - 48 := by
    rw [s.toNat_pushAll_esp words (by omega), hlen]
  obtain ⟨-, hmem⟩ := execAll_loadKernelSegments env (s.pushAll words)
  have hload := storeWord_sameOutside (s.pushAll words).memory (s.pushAll words).regs.eax
    (show 4 ≤ (s.pushAll words).esp.toNat by omega)
  rw [← hmem, hesp] at hload
  rw [hlen] at hpush
  have hexec : s.execAll env genericPrologue = (s.pushAll words).execAll env loadKernelSegments := by
    rw [genericPrologue, Cpu.execAll_append, hsaved]
  rw [hexec]
  exact hpush.trans hload (by omega) (by omega)

end Writes

/-! ## The handler -/

/-- A handler that returns: of the memory it is entered with, it writes its own stack and `keyboard_state`. -/
structure KernelHandler (l : KernelLayout) where
  run : Cpu → Cpu
  balanced : ∀ entry, (run entry).esp = entry.esp + 4
  writes : ∀ entry a, (run entry).memory a ≠ entry.memory a →
    InRange l.keyboardState 3 a ∨ l.kernelStack.toNat ≤ a.toNat ∧ a.toNat < entry.esp.toNat

/-- The call of the handler, with the address of the instruction behind it. -/
def KernelHandler.env {l : KernelLayout} (handler : KernelHandler l) (p : SelectorPush) (returnAddress : UInt32) :
    Env where
  selectorPush := p
  call s := handler.run (s.push returnAddress)

/-- `struct KeyboardDriverState` as it lies in memory. -/
def KeyboardDriverState.bytes (s : KeyboardDriverState) : Fin 3 → UInt8 := fun k =>
  if k.val = 0 then if s.readExtendedMode then 1 else 0
  else if k.val = 1 then if s.keyboardInputOn then 1 else 0
  else s.keyboardBuffer

def KeyboardDriverState.ofBytes (b : Fin 3 → UInt8) : KeyboardDriverState where
  readExtendedMode := b ⟨0, by decide⟩ != 0
  keyboardInputOn := b ⟨1, by decide⟩ != 0
  keyboardBuffer := b ⟨2, by decide⟩

theorem KeyboardDriverState.ofBytes_bytes (s : KeyboardDriverState) : ofBytes s.bytes = s := by
  obtain ⟨extended, on, buffer⟩ := s
  cases extended <;> cases on <;> rfl

/-- The `keyboard_state` in memory. -/
def KernelLayout.keyboardStateAt (l : KernelLayout) (mem : Memory) : KeyboardDriverState :=
  .ofBytes (mem.load l.keyboardState 3)

/-- What `main_interrupt_handler` leaves in memory for an interrupt number. -/
def KernelLayout.handled (l : KernelLayout) (scancode : UInt8) (intNumber : UInt32) (mem : Memory) : Memory :=
  if intNumber = irqKeyboardVector then mem.store l.keyboardState ((l.keyboardStateAt mem).keyboardIsr scancode).bytes
  else mem

/-- It writes `keyboard_state` only. -/
theorem KernelLayout.handled_of_notInRange {l : KernelLayout} {scancode : UInt8} {intNumber a : UInt32} {mem : Memory}
    (h : ¬ InRange l.keyboardState 3 a) : l.handled scancode intNumber mem a = mem a := by
  unfold handled
  split
  · refine dif_neg fun hlt => h ?_
    have hfits := l.keyboardFits
    have ha := a.toNat_lt
    rw [UInt32.toNat_sub] at hlt
    unfold InRange
    omega
  · rfl

/-- `main_interrupt_handler` as it is compiled: what it leaves in the registers and in the frames that it pushes. -/
structure CompiledHandler where
  regs : Cpu → Registers
  eflags : Cpu → UInt32
  frames : Cpu → Memory

/-- An address of the frames that a function pushes. -/
def KernelLayout.InFrames (l : KernelLayout) (entry : Cpu) (a : UInt32) : Prop :=
  l.kernelStack.toNat ≤ a.toNat ∧ a.toNat < entry.esp.toNat

instance {l : KernelLayout} {entry : Cpu} {a : UInt32} : Decidable (l.InFrames entry a) :=
  inferInstanceAs (Decidable (_ ∧ _))

/-- `main_interrupt_handler` returns. -/
def KernelLayout.kernelHandler (l : KernelLayout) (scancode : UInt8) (compiled : CompiledHandler) : KernelHandler l where
  run entry :=
    { entry.drop 1 with
      regs := compiled.regs entry
      eflags := compiled.eflags entry
      memory := fun a =>
        if l.InFrames entry a then compiled.frames entry a
        else l.handled scancode entry.argument.intNumber entry.memory a }
  balanced _ := rfl
  writes entry a h := by
    by_cases hframes : l.InFrames entry a
    · exact .inr hframes
    · exact .inl (by_contra fun hout => h ((if_neg hframes).trans (handled_of_notInRange hout)))

/-- The stack of the kernel lies below `esp0`, with room for what is pushed before the handler is called, and
`keyboard_state` elsewhere. -/
structure KernelLayout.StackFits (l : KernelLayout) (esp0 : UInt32) : Prop where
  room : l.kernelStack.toNat + 88 ≤ esp0.toNat
  keyboardState : l.keyboardState.toNat + 3 ≤ l.kernelStack.toNat ∨ esp0.toNat ≤ l.keyboardState.toNat

/-- An address of the stack of the kernel. -/
def KernelLayout.OnKernelStack (l : KernelLayout) (esp0 a : UInt32) : Prop :=
  l.kernelStack.toNat ≤ a.toNat ∧ a.toNat < esp0.toNat

instance {l : KernelLayout} {esp0 a : UInt32} : Decidable (l.OnKernelStack esp0 a) :=
  inferInstanceAs (Decidable (_ ∧ _))

section Trap

variable {l : KernelLayout} {image : KernelImage} {env : Env} {handler : KernelHandler l} {p : SelectorPush}
  {tss : TSSEntry} {esp0 returnAddress errorCode a : UInt32} {idt : IDT} {v : Fin 64} {s t : Cpu}

/-- Words on the stack stay there if memory does. -/
theorem OnStack.of_same {mem mem' : Memory} {sp : UInt32} {words : List UInt32} (h : OnStack mem sp words)
    (hfits : sp.toNat + 4 * words.length ≤ 2 ^ 32)
    (hsame : ∀ a : UInt32, sp.toNat ≤ a.toNat → a.toNat < sp.toNat + 4 * words.length → mem' a = mem a) :
    OnStack mem' sp words := by
  refine h.congr fun i hi => Memory.loadWord_congr fun k hk => ?_
  have haddr : (sp + UInt32.ofNat (4 * i) + UInt32.ofNat k).toNat = sp.toNat + 4 * i + k := by
    rw [UInt32.toNat_add, UInt32.toNat_add, UInt32.toNat_ofNat', UInt32.toNat_ofNat']
    omega
  exact hsame _ (by omega) (by omega)

/-- From a user program, the CPU pushes its stack pointer too, on the stack of the kernel. -/
theorem exists_pushReturn (p : SelectorPush) (tss : TSSEntry) (huser : s.cs &&& 3 ≠ 0) (hroom : 20 ≤ tss.esp0.toNat) :
    ∃ ss cs : UInt32, ss.toUInt16 = s.ss ∧ cs.toUInt16 = s.cs ∧
      OnStack (s.pushReturn p tss).memory (s.pushReturn p tss).esp [s.eip, cs, s.eflags, s.esp, ss] ∧
      (s.pushReturn p tss).esp.toNat = tss.esp0.toNat - 20 ∧
      SameOutside (tss.esp0.toNat - 20) tss.esp0.toNat s.memory (s.pushReturn p tss).memory := by
  obtain ⟨k, hk⟩ : ∃ k : Cpu, k = { s with
    esp := tss.esp0
    ss := tss.ss0.toUInt16 } := ⟨_, rfl⟩
  have hesp : k.esp = tss.esp0 := hk ▸ rfl
  have hmem : k.memory = s.memory := hk ▸ rfl
  have hreturn : s.pushReturn p tss =
      ((((k.pushSelector p s.ss).push s.esp).push s.eflags).pushSelector p s.cs).push s.eip := by
    rw [Cpu.pushReturn, if_neg huser, hk]
  obtain ⟨ss, hss, hpush⟩ := Cpu.pushSelector_eq p k s.ss
  obtain ⟨cs, hcs, hpush'⟩ := Cpu.pushSelector_eq p (((k.push ss).push s.esp).push s.eflags) s.cs
  rw [hpush, hpush'] at hreturn
  have hall : s.pushReturn p tss = k.pushAll [ss, s.esp, s.eflags, cs, s.eip] := hreturn
  have hlen : 4 * [ss, s.esp, s.eflags, cs, s.eip].length ≤ k.esp.toNat := hesp ▸ hroom
  rw [hall, ← hesp, ← hmem]
  exact ⟨ss, cs, hss, hcs, Cpu.pushAll_onStack [ss, s.esp, s.eflags, cs, s.eip] (onStack_nil _ _)
    (show 4 * (5 + 0) ≤ 2 ^ 32 by decide), k.toNat_pushAll_esp _ hlen, k.pushAll_sameOutside _ hlen⟩

/-- Up to the call, a vector writes 64 bytes below what the CPU pushes to return. -/
theorem KernelImage.call_sameOutside (h : image.runVector env tss idt .callHandler v errorCode s = some t)
    (hroom : 64 ≤ (s.pushReturn env.selectorPush tss).esp.toNat) :
    SameOutside ((s.pushReturn env.selectorPush tss).esp.toNat - 64) (s.pushReturn env.selectorPush tss).esp.toNat
      (s.pushReturn env.selectorPush tss).memory t.memory := by
  obtain ⟨start, m, hrun, hwords, -, hesp, hmem⟩ := image.runVector_eq env tss idt v errorCode s
  have ht : (start.pushAll m.words).execAll env genericPrologue = t :=
    Option.some.inj (runUntil_callHandler.symm.trans ((hrun .callHandler).symm.trans h))
  generalize s.pushReturn env.selectorPush tss = r at hroom hesp hmem ⊢
  have hle := words_length_le v errorCode
  have hhardware := r.pushAll_sameOutside (hardwareWords v errorCode) (by omega)
  have hstart : start.esp.toNat = r.esp.toNat - 4 * (hardwareWords v errorCode).length := by
    rw [hesp, r.toNat_pushAll_esp _ (by omega)]
  have hstub := start.pushAll_sameOutside m.words (by rw [hwords]; omega)
  have hpushed := start.toNat_pushAll_esp m.words (by rw [hwords]; omega)
  have hprologue := genericPrologue_sameOutside env (start.pushAll m.words) (by rw [hpushed, hwords]; omega)
  rw [← hmem] at hhardware
  rw [hstart] at hstub
  rw [hpushed, hstart] at hprologue
  have hall := (hhardware.trans hstub (by omega) (by omega)).trans hprologue (by omega) (by omega)
  rw [ht, hwords] at hall
  exact fun a ha => hall a fun h => ha ⟨by omega, h.2⟩

/-- What the call of the handler leaves. -/
theorem KernelHandler.call_same (handler : KernelHandler l) (p : SelectorPush) (returnAddress : UInt32)
    (hroom : l.kernelStack.toNat + 4 ≤ t.esp.toNat) : ((handler.env p returnAddress).call t).esp = t.esp ∧
      ∀ a, ¬ InRange l.keyboardState 3 a → ¬ (l.kernelStack.toNat ≤ a.toNat ∧ a.toNat < t.esp.toNat) →
        ((handler.env p returnAddress).call t).memory a = t.memory a := by
  have hesp : (t.push returnAddress).esp.toNat = t.esp.toNat - 4 :=
    UInt32.toNat_sub_of_le _ _ (show 4 ≤ t.esp.toNat by omega)
  refine ⟨(handler.balanced _).trans (UInt32.sub_add_cancel t.esp 4), fun a hkeyboard hstack => ?_⟩
  have hrun : (handler.run (t.push returnAddress)).memory a = (t.push returnAddress).memory a := by
    by_contra hne
    rcases handler.writes _ a hne with h | h
    · exact hkeyboard h
    · exact hstack ⟨h.1, by omega⟩
  exact hrun.trans (storeWord_sameOutside t.memory returnAddress (by omega) a fun h => hstack ⟨by omega, h.2⟩)

/-- `iret` to a user program. -/
theorem Cpu.iret_of_onStack {u : Cpu} {ss cs : UInt32} (hss : ss.toUInt16 = s.ss) (hcs : cs.toUInt16 = s.cs)
    (huser : s.cs &&& 3 ≠ 0) (hregs : u.regs = s.regs) (h : OnStack u.memory u.esp [s.eip, cs, s.eflags, s.esp, ss]) :
    u.iret = { s with memory := u.memory } := by
  have hword := fun i (hi : i < 5) => Cpu.stackWord_of_onStack h hi
  have h1 : (u.stackWord 1).toUInt16 = s.cs := (congrArg UInt32.toUInt16 (hword 1 (by decide))).trans hcs
  have h4 : (u.stackWord 4).toUInt16 = s.ss := (congrArg UInt32.toUInt16 (hword 4 (by decide))).trans hss
  have h0 : u.stackWord 0 = s.eip := hword 0 (by decide)
  have h2 : u.stackWord 2 = s.eflags := hword 2 (by decide)
  have h3 : u.stackWord 3 = s.esp := hword 3 (by decide)
  simp only [Cpu.iret, Cpu.drop, h0, h1, h2, h3, h4, if_neg huser, hregs]

/-- The interrupt number that the handler of a vector pushes. -/
theorem frame_intNumber {regs words : List UInt32} (hregs : regs.length = 12)
    (h : OnStack t.memory t.esp (regs ++ ((stubWords v).reverse ++ words))) : t.frame.intNumber = UInt32.ofNat v.val := by
  have hhead : ∃ rest, (stubWords v).reverse = UInt32.ofNat v.val :: rest := by
    unfold stubWords
    split
    · exact ⟨[], rfl⟩
    · exact ⟨[0], rfl⟩
  obtain ⟨rest, hrest⟩ := hhead
  rw [hrest] at h
  have hword := Cpu.stackWord_of_onStack (i := 12) h (by simp [hregs])
  rw [List.getElem_append_right (by omega)] at hword
  have hnumber : t.frame.intNumber = t.stackWord 12 := rfl
  rw [hnumber]
  simpa [hregs] using hword

/-- **An interrupt of a user program** gives everything back. The handler is entered with the number of the vector, and
memory as it was but for the stack of the kernel. -/
theorem exists_trap (image : KernelImage) (handler : KernelHandler l) (p : SelectorPush) (returnAddress : UInt32)
    (idt : IDT) (v : Fin 64) (errorCode : UInt32) (s : Cpu) (hfits : l.StackFits esp0) (huser : s.cs &&& 3 ≠ 0)
    (hv : v ≠ 21 ∧ v ≠ 29) : ∃ u entry, image.runVector (handler.env p returnAddress) ⟨esp0, 0x10⟩ idt .iret v errorCode s =
      some u ∧ u.iret = { s with memory := u.memory } ∧ u.memory = (handler.run entry).memory ∧
      entry.argument.intNumber = UInt32.ofNat v.val ∧ entry.esp.toNat ≤ esp0.toNat ∧
      ∀ a, ¬ l.OnKernelStack esp0 a → entry.memory a = s.memory a := by
  have hroom := hfits.room
  have hesp0 := esp0.toNat_lt
  obtain ⟨ss, cs, hss, hcs, hpushed, hresp, hrmem⟩ := exists_pushReturn p ⟨esp0, 0x10⟩ huser
    (show 20 ≤ esp0.toNat by omega)
  have hresp : (s.pushReturn p ⟨esp0, 0x10⟩).esp.toNat = esp0.toNat - 20 := hresp
  -- the state at the call
  obtain ⟨t, gs, fs, es, ds, cs', hcall, hiret, ⟨hgs, hfs, hes, hds, -⟩, htop, hall⟩ :=
    image.exists_call (handler.env p returnAddress) ⟨esp0, 0x10⟩ idt v errorCode s
  have hpush : (handler.env p returnAddress).selectorPush = p := rfl
  have htmem := image.call_sameOutside hcall (by rw [hpush, hresp]; omega)
  rw [hpush] at htmem htop
  have hstub : stubEsp p ⟨esp0, 0x10⟩ v errorCode s + 8 = (s.pushReturn p ⟨esp0, 0x10⟩).esp := stubEsp_add_eq_iff.mpr hv
  have hlength := (words_length_eq_two_iff errorCode).mpr hv
  have htop' : t.esp + 56 = (s.pushReturn p ⟨esp0, 0x10⟩).esp := by
    rw [htop, ← hstub, UInt32.sub_eq_add_neg, UInt32.add_assoc]
    rfl
  have htesp : t.esp.toNat = esp0.toNat - 76 := by
    have hadd := congrArg UInt32.toNat htop'
    rw [UInt32.toNat_add, hresp, show (56 : UInt32).toNat = 56 from rfl] at hadd
    have htlt := t.esp.toNat_lt
    omega
  have hroomCall : l.kernelStack.toNat + 4 ≤ t.esp.toNat := by omega
  obtain ⟨hwesp, hwmem⟩ := handler.call_same p returnAddress hroomCall
  generalize hcalled : (handler.env p returnAddress).call t = w at hiret hwesp hwmem
  have habove : ∀ a : UInt32, t.esp.toNat ≤ a.toNat → a.toNat < esp0.toNat → w.memory a = t.memory a := by
    intro a hle hlt
    refine hwmem a (fun hkeyboard => ?_) (by omega)
    have hstart := hkeyboard.1
    have hend := hkeyboard.2
    rcases hfits.keyboardState with h | h <;> omega
  obtain ⟨hregs, hend, hmem⟩ := execAll_genericEpilogue (handler.env p returnAddress) w
  have hentry : (t.push returnAddress).esp.toNat = t.esp.toNat - 4 :=
    UInt32.toNat_sub_of_le _ _ (show 4 ≤ t.esp.toNat by omega)
  refine ⟨_, t.push returnAddress, hiret, Cpu.iret_of_onStack hss hcs huser (hregs.trans ?_) ?_,
    hmem.trans (congrArg Cpu.memory hcalled.symm), ?_, by omega, fun a hstack => ?_⟩
  · have hwall : OnStack w.memory t.esp _ := hall.of_same
      (by simp only [List.length_append, List.length_reverse, List.length_cons, List.length_nil]; omega)
      fun a hle hlt => habove a hle (by
        simp only [List.length_append, List.length_reverse, List.length_cons, List.length_nil] at hlt
        omega)
    rw [← hwesp] at hwall
    exact Cpu.restored_of_onStack hgs hfs hes hds hwall
  · rw [hmem, hend, hwesp, htop']
    refine hpushed.of_same (show _ + 4 * 5 ≤ 2 ^ 32 by omega) fun a hle hlt => ?_
    have hlt : a.toNat < (s.pushReturn p ⟨esp0, 0x10⟩).esp.toNat + 4 * 5 := hlt
    exact (habove a (by omega) (by omega)).trans (htmem a (fun h => absurd h.2 (Nat.not_lt.mpr hle)))
  · rw [Cpu.push_argument]
    exact frame_intNumber rfl hall
  · have hout : ¬ (l.kernelStack.toNat ≤ a.toNat ∧ a.toNat < esp0.toNat) := hstack
    have hrange : SameOutside (esp0.toNat - 20) esp0.toNat s.memory (s.pushReturn p ⟨esp0, 0x10⟩).memory := hrmem
    have hpushed : (t.push returnAddress).memory a = t.memory a :=
      storeWord_sameOutside t.memory returnAddress (by omega) a (by omega)
    rw [hpushed, htmem a (by omega), hrange a (by omega)]

/-! ### `main_interrupt_handler` -/

section Handled

variable {scancode : UInt8} {intNumber : UInt32} {mem mem' : Memory} {k : Kernel} {frame : InterruptFrame}

/-- It reads `keyboard_state` only. -/
theorem KernelLayout.handled_congr (hkeyboard : ∀ b, InRange l.keyboardState 3 b → mem' b = mem b) (ha : mem' a = mem a) :
    l.handled scancode intNumber mem' a = l.handled scancode intNumber mem a := by
  have hfits := l.keyboardFits
  have hstate : l.keyboardStateAt mem' = l.keyboardStateAt mem := by
    refine congrArg KeyboardDriverState.ofBytes (funext fun k => hkeyboard _ ?_)
    have hk := k.isLt
    rw [InRange, UInt32.toNat_add, UInt32.toNat_ofNat']
    omega
  unfold handled
  rw [hstate]
  split
  · unfold Memory.store
    split
    · rfl
    · exact ha
  · exact ha

/-- What is in memory afterwards is the state of the driver. -/
theorem KernelLayout.keyboardStateAt_handled (hk : k.keyboardDriverState = l.keyboardStateAt mem) :
    l.keyboardStateAt (l.handled scancode frame.intNumber mem) = (mainInterruptHandler scancode frame k).keyboardDriverState := by
  unfold handled mainInterruptHandler
  split
  · rw [← hk]
    rw [keyboardStateAt, Memory.load_store (by decide), KeyboardDriverState.ofBytes_bytes]
  · exact hk.symm

/-- **An interrupt of a user program**: outside of its stack the kernel has changed what `main_interrupt_handler` does. -/
theorem exists_trap_kernel (image : KernelImage) (scancode : UInt8) (compiled : CompiledHandler) (p : SelectorPush)
    (returnAddress : UInt32) (idt : IDT) (v : Fin 64) (errorCode : UInt32) (s : Cpu) (hfits : l.StackFits esp0)
    (huser : s.cs &&& 3 ≠ 0) (hv : v ≠ 21 ∧ v ≠ 29) :
    ∃ u, image.runVector ((l.kernelHandler scancode compiled).env p returnAddress) ⟨esp0, 0x10⟩ idt .iret v errorCode s =
      some u ∧ u.iret = { s with memory := u.memory } ∧
      ∀ a, ¬ l.OnKernelStack esp0 a → u.memory a = l.handled scancode (UInt32.ofNat v.val) s.memory a := by
  obtain ⟨u, entry, hrun, hiret, hmem, hnumber, hesp, hentry⟩ :=
    exists_trap image (l.kernelHandler scancode compiled) p returnAddress idt v errorCode s hfits huser hv
  refine ⟨u, hrun, hiret, fun a hstack => ?_⟩
  have hframes : ¬ l.InFrames entry a := fun h => hstack ⟨h.1, lt_of_lt_of_le h.2 hesp⟩
  rw [hmem]
  refine (if_neg hframes).trans ?_
  rw [hnumber]
  refine l.handled_congr (fun b hb => hentry b fun hstack => ?_) (hentry a hstack)
  have hb' := hb.1
  have hb'' := hb.2
  have hs := hstack.1
  have hs' := hstack.2
  rcases hfits.keyboardState with h | h <;> omega

end Handled

end Trap

end Os2024
