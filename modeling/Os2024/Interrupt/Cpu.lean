import Os2024.Interrupt.Idt
import Os2024.Interrupt.Stack

/-!
# The CPU

The registers of a 32-bit x86 CPU with flat segments, the instructions of `ch1/intsetup/intsetup.s`, and how the CPU
enters an interrupt handler and leaves it. A selector takes a whole word on the stack, and CPUs differ in what the
upper half of the word is then (`SelectorPush`).
-/

namespace Os2024

/-- The registers that belong to the interrupted program alone: but for `esp`, the general-purpose registers, and the
data segment registers. -/
structure Registers where
  eax : UInt32
  ecx : UInt32
  edx : UInt32
  ebx : UInt32
  ebp : UInt32
  esi : UInt32
  edi : UInt32
  ds : UInt16
  es : UInt16
  fs : UInt16
  gs : UInt16
  deriving DecidableEq

attribute [ext] Registers

structure Cpu where
  regs : Registers
  esp : UInt32
  ss : UInt16
  cs : UInt16
  eip : UInt32
  eflags : UInt32
  memory : Memory

/-- The word that a selector is pushed as; it may depend on the word that was there before. -/
structure SelectorPush where
  word : (selector : UInt16) → (old : UInt32) → UInt32
  low : ∀ selector old, (word selector old).toUInt16 = selector

/-- The upper half is zero. -/
def SelectorPush.zeroExtend : SelectorPush where
  word selector _ := selector.toUInt32
  low selector _ := UInt16.toUInt16_toUInt32 selector

namespace Cpu

/-- `push` of a word. -/
def push (s : Cpu) (word : UInt32) : Cpu :=
  { s with
    esp := s.esp - 4
    memory := s.memory.storeWord (s.esp - 4) word }

/-- `push` of a selector. -/
def pushSelector (p : SelectorPush) (s : Cpu) (selector : UInt16) : Cpu :=
  s.push (p.word selector (s.memory.loadWord (s.esp - 4)))

/-- Any number of words, pushed one after the other. -/
def pushAll (s : Cpu) (words : List UInt32) : Cpu := words.foldl push s

/-- Word `i` of the stack. -/
def stackWord (s : Cpu) (i : Nat) : UInt32 := s.memory.loadWord (s.esp + UInt32.ofNat (4 * i))

/-- The stack pointer, moved past `n` words. -/
def drop (s : Cpu) (n : Nat) : Cpu := { s with esp := s.esp + UInt32.ofNat (4 * n) }

/-- `pushad`: the stack pointer is pushed as it was before. -/
def pushad (s : Cpu) : Cpu :=
  s.pushAll [s.regs.eax, s.regs.ecx, s.regs.edx, s.regs.ebx, s.esp, s.regs.ebp, s.regs.esi, s.regs.edi]

/-- `popad`: the word of the stack pointer is skipped. -/
def popad (s : Cpu) : Cpu :=
  { s.drop 8 with
    regs := { s.regs with
      edi := s.stackWord 0
      esi := s.stackWord 1
      ebp := s.stackWord 2
      ebx := s.stackWord 4
      edx := s.stackWord 5
      ecx := s.stackWord 6
      eax := s.stackWord 7 } }

end Cpu

/-! ## Instructions -/

/-- The data segment registers. -/
inductive SegReg where
  | ds
  | es
  | fs
  | gs
  deriving DecidableEq

namespace Cpu

def segment (s : Cpu) : SegReg → UInt16
  | .ds => s.regs.ds
  | .es => s.regs.es
  | .fs => s.regs.fs
  | .gs => s.regs.gs

def setSegment (s : Cpu) (selector : UInt16) : SegReg → Cpu
  | .ds => { s with regs := { s.regs with ds := selector } }
  | .es => { s with regs := { s.regs with es := selector } }
  | .fs => { s with regs := { s.regs with fs := selector } }
  | .gs => { s with regs := { s.regs with gs := selector } }

def setEax (s : Cpu) (value : UInt32) : Cpu := { s with regs := { s.regs with eax := value } }

/-- `iret` of the kernel; the stack pointer and its segment are restored when the privilege level changes. -/
def iret (s : Cpu) : Cpu :=
  let cs := (s.stackWord 1).toUInt16
  let t := { s.drop 3 with
    eip := s.stackWord 0
    cs := cs
    eflags := s.stackWord 2 }
  if cs &&& 3 = 0 then t
  else
    { t with
      esp := s.stackWord 3
      ss := (s.stackWord 4).toUInt16 }

end Cpu

/-- The instructions of the interrupt stubs; jumps are not among them. -/
inductive Instr where
  | pushDword (value : UInt32)
  | pushSeg (reg : SegReg)
  | popSeg (reg : SegReg)
  | pushEax
  | popEax
  | pushad
  | popad
  | movAx (value : UInt16)
  | movSegAx (reg : SegReg)
  | addEsp (value : UInt32)
  | callHandler
  | sti
  | iret
  deriving DecidableEq

/-- What the instructions depend on: how selectors are pushed, and what the call of the handler does. -/
structure Env where
  selectorPush : SelectorPush
  call : Cpu → Cpu

/-- An instruction, executed. -/
def Instr.exec (env : Env) : Instr → Cpu → Cpu
  | pushDword value, s => s.push value
  | pushSeg reg, s => s.pushSelector env.selectorPush (s.segment reg)
  | popSeg reg, s => (s.drop 1).setSegment (s.stackWord 0).toUInt16 reg
  | pushEax, s => s.push s.regs.eax
  | popEax, s => (s.drop 1).setEax (s.stackWord 0)
  | .pushad, s => s.pushad
  | .popad, s => s.popad
  | movAx value, s => s.setEax ((s.regs.eax &&& 0xFFFF0000) ||| value.toUInt32)
  | movSegAx reg, s => s.setSegment s.regs.eax.toUInt16 reg
  | addEsp value, s => { s with esp := s.esp + value }
  | callHandler, s => env.call s
  | sti, s => { s with eflags := s.eflags ||| 0x200 }
  | .iret, s => s.iret

/-- Any number of instructions. -/
def Cpu.execAll (env : Env) (code : List Instr) (s : Cpu) : Cpu := code.foldl (fun s i => i.exec env s) s

/-- The state in which an execution comes to an instruction. -/
def Cpu.runUntil (env : Env) (stop : Instr) : List Instr → Cpu → Option Cpu
  | [], _ => none
  | i :: code, s => if i = stop then some s else runUntil env stop code (i.exec env s)

section Runs

variable {env : Env} {stop : Instr} {code code' : List Instr} {s : Cpu} {word : UInt32} {words words' : List UInt32}
  {i n : Nat}

@[simp] theorem Cpu.push_esp : (s.push word).esp = s.esp - 4 := rfl

theorem Cpu.execAll_nil : s.execAll env [] = s := rfl

theorem Cpu.execAll_cons {instr : Instr} : s.execAll env (instr :: code) = (instr.exec env s).execAll env code := rfl

theorem Cpu.execAll_append : s.execAll env (code ++ code') = (s.execAll env code).execAll env code' :=
  List.foldl_append ..

/-- An execution that does not come to the instruction in its first part goes on in the second. -/
theorem Cpu.runUntil_append (h : stop ∉ code) :
    s.runUntil env stop (code ++ code') = (s.execAll env code).runUntil env stop code' := by
  induction code generalizing s with
  | nil => rfl
  | cons i code ih =>
    rw [List.mem_cons, not_or] at h
    rw [List.cons_append, Cpu.runUntil, if_neg (Ne.symm h.1)]
    exact ih h.2

theorem Cpu.runUntil_self : s.runUntil env stop (stop :: code) = some s := if_pos rfl

theorem Cpu.drop_stackWord : (s.drop n).stackWord i = s.stackWord (n + i) := by
  have haddr : s.esp + UInt32.ofNat (4 * n) + UInt32.ofNat (4 * i) = s.esp + UInt32.ofNat (4 * (n + i)) := by
    rw [Nat.mul_add, UInt32.ofNat_add, UInt32.add_assoc]
  exact congrArg s.memory.loadWord haddr

/-- The words on the stack, by number. -/
theorem Cpu.stackWord_of_onStack (h : OnStack s.memory s.esp words) (hi : i < words.length) :
    s.stackWord i = words[i] :=
  onStack_iff.mp h i hi

theorem Cpu.pushAll_regs : (s.pushAll words).regs = s.regs := by
  induction words generalizing s with
  | nil => rfl
  | cons word words ih => exact ih

theorem Cpu.pushAll_esp : (s.pushAll words).esp = s.esp - UInt32.ofNat (4 * words.length) := by
  induction words generalizing s with
  | nil => exact (UInt32.sub_zero s.esp).symm
  | cons word words ih =>
    have hrest : ((s.push word).pushAll words).esp = _ := ih
    rw [Cpu.push_esp, show (4 : UInt32) = UInt32.ofNat 4 from rfl, sub_ofNat_sub] at hrest
    rw [List.length_cons, Nat.mul_add, Nat.add_comm]
    exact hrest

/-- What is pushed is on the stack, the last word first. -/
theorem Cpu.pushAll_onStack (words' : List UInt32) (h : OnStack s.memory s.esp words)
    (hlen : 4 * (words'.length + words.length) ≤ 2 ^ 32) :
    OnStack (s.pushAll words').memory (s.pushAll words').esp (words'.reverse ++ words) := by
  induction words' generalizing s words with
  | nil => exact h
  | cons word words' ih =>
    rw [List.length_cons] at hlen
    have hpushed : OnStack (s.push word).memory (s.push word).esp (word :: words) := h.push (by omega)
    rw [List.reverse_cons, List.append_assoc]
    refine ih hpushed ?_
    rw [List.singleton_append, List.length_cons]
    omega

end Runs

/-! ## Interrupts -/

/-- `struct TSSEntry`: the stack of the kernel. -/
structure TSSEntry where
  esp0 : UInt32
  ss0 : UInt32

/-- The exceptions that come with an error code. -/
def pushesErrorCode (vector : Nat) : Bool := vector ∈ [8, 10, 11, 12, 13, 14, 17, 21, 29, 30]

namespace Cpu

/-- The CPU pushes `eflags`, `cs` and `eip`, on the stack of the kernel if it comes from another privilege level. -/
def pushReturn (p : SelectorPush) (tss : TSSEntry) (s : Cpu) : Cpu :=
  let t :=
    if s.cs &&& 3 = 0 then s
    else
      ({ s with
        esp := tss.esp0
        ss := tss.ss0.toUInt16 }.pushSelector p s.ss).push s.esp
  ((t.push s.eflags).pushSelector p s.cs).push s.eip

/-- The CPU enters the handler of a vector; `errorCode` is pushed where there is one. -/
def interrupt (p : SelectorPush) (tss : TSSEntry) (idt : IDT) (vector : Fin 256) (errorCode : UInt32) (s : Cpu) :
    Option Cpu :=
  let gate := idt.table vector
  if gate.validBit = 1 then
    let t := s.pushReturn p tss
    let t := if pushesErrorCode vector then t.push errorCode else t
    some
      { t with
        cs := gate.segment
        eip := gate.offset
        eflags := s.eflags &&& ~~~0x34300 }
  else none

end Cpu

end Os2024
