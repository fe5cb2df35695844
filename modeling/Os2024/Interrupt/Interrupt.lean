import Os2024.Fat32.Catalog
import Os2024.Interrupt.Putc
import Os2024.Keyboard.Keyboard

/-!
# The interrupt handler and the system calls

`struct InterruptFrame`, `main_interrupt_handler` and `syscall` of `ch1/interrupt`. The kernel state is what the
operations behind them read and write; the stack a frame is on is not part of `memory`. An execution of
`main_interrupt_handler` is given the byte at the data port of the keyboard.
-/

namespace Os2024

/-! ## `struct InterruptFrame` -/

/-- `index` of `struct CPURegister`. -/
structure IndexRegister where
  edi : UInt32
  esi : UInt32
  deriving DecidableEq

/-- `stack` of `struct CPURegister`. -/
structure StackRegister where
  esp : UInt32
  ebp : UInt32
  deriving DecidableEq

/-- `general` of `struct CPURegister`. -/
structure GeneralRegister where
  ebx : UInt32
  edx : UInt32
  ecx : UInt32
  eax : UInt32
  deriving DecidableEq

/-- `segment` of `struct CPURegister`. -/
structure SegmentRegister where
  gs : UInt32
  fs : UInt32
  es : UInt32
  ds : UInt32
  deriving DecidableEq

structure CPURegister where
  index : IndexRegister
  stack : StackRegister
  general : GeneralRegister
  segment : SegmentRegister
  deriving DecidableEq

structure InterruptStack where
  errorCode : UInt32
  eip : UInt32
  cs : UInt32
  eflags : UInt32
  deriving DecidableEq

structure InterruptFrame where
  cpu : CPURegister
  intNumber : UInt32
  intStack : InterruptStack
  deriving DecidableEq

/-! ## The kernel -/

/-- Memory, disk, and the static variables of the drivers. -/
structure Kernel where
  memory : Memory
  disk : Disk
  driverState : FAT32DriverState
  keyboardDriverState : KeyboardDriverState
  cursor : Cursor

/-- An execution returns, or stops in some state. -/
abbrev KernelExec (α : Type) := Except (Halt × Kernel) α

namespace Kernel

/-- The file system. -/
def system (k : Kernel) : System := ⟨k.memory, k.disk, k.driverState, []⟩

/-- The kernel after an operation of the file system. -/
def withSystem (k : Kernel) (s : System) : Kernel :=
  { k with memory := s.memory, disk := s.disk, driverState := s.driverState }

/-- The terminal. -/
def console (k : Kernel) : Console := ⟨k.memory, k.cursor, []⟩

/-- The kernel after characters were printed. -/
def withConsole (k : Kernel) (s : Console) : Kernel := { k with memory := s.memory, cursor := s.cursor }

end Kernel

/-- `IRQ_KEYBOARD + PIC1_OFFSET`. -/
def irqKeyboardVector : UInt32 := 1 + 0x20

/-- `main_interrupt_handler`. -/
def mainInterruptHandler (scancode : UInt8) (frame : InterruptFrame) (k : Kernel) : Kernel :=
  if frame.intNumber = irqKeyboardVector then
    { k with keyboardDriverState := k.keyboardDriverState.keyboardIsr scancode }
  else k

/-! ## System calls -/

/-- The packed `struct FAT32DriverRequest` at `ptr`. -/
def loadRequest (mem : Memory) (ptr : UInt32) : FAT32DriverRequest where
  buf := ofLe32 (mem.load ptr 4)
  name := mem.load (ptr + 4) 8
  ext := mem.load (ptr + 12) 3
  parentClusterNumber := ofLe32 (mem.load (ptr + 15) 4)
  bufferSize := ofLe32 (mem.load (ptr + 19) 4)

/-- An operation of the file system on the request at `ebx`; its return code is stored at `ecx`. -/
def fileCall (fuel : Nat) (op : Op) (general : GeneralRegister) (k : Kernel) : KernelExec Kernel :=
  match op.run fuel (loadRequest k.memory general.ebx) k.system with
  | .ok (code, s) => .ok (k.withSystem { s with memory := Function.update s.memory general.ecx code.toUInt8 })
  | .error (halt, s) => .error (halt, k.withSystem s)

/-- `get_keyboard_buffer` with a pointer. -/
def keyboardCall (buf : UInt32) (k : Kernel) : Kernel :=
  { k with
    memory := Function.update k.memory buf k.keyboardDriverState.getKeyboardBuffer.1
    keyboardDriverState := k.keyboardDriverState.getKeyboardBuffer.2 }

/-- `syscall`. -/
def syscall (fuel : Nat) (frame : InterruptFrame) (k : Kernel) : KernelExec Kernel :=
  let general := frame.cpu.general
  match general.eax.toNat with
  | 0 => fileCall fuel .read general k
  | 1 => fileCall fuel .readDirectory general k
  | 2 => fileCall fuel .write general k
  | 3 => fileCall fuel .delete general k
  | 4 => .ok (keyboardCall general.ebx k)
  | 5 => .ok (k.withConsole (k.console.putc general.ebx.toUInt8 general.ecx))
  | 6 => .ok (k.withConsole (k.console.puts general.ebx general.ecx general.edx))
  | 7 => .ok { k with keyboardDriverState := k.keyboardDriverState.activate }
  | _ => .ok k

end Os2024
