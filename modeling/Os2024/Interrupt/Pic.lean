import Os2024.Interrupt.Interrupt
import Os2024.Lib.Ports
import Os2024.Lib.Scan

/-!
# The interrupt controllers and the keyboard controller

The functions of `ch1/interrupt` and `ch1/keyboard` that access ports, with their accesses in order, and the devices
behind them: two 8259A, the slave on line `2` of the master, and the keyboard with its controller.

A request line is latched when it rises. The keyboard raises line `1` of the master when a scancode reaches the output
buffer of its controller, and the next one gets there only when that buffer has been read.
-/

namespace Os2024

open Ports Scan

/-! ## An interrupt controller -/

/-- Which word the data port takes next. -/
inductive IcwStage where
  | icw2
  | icw3
  | icw4
  | ready
  deriving DecidableEq

/-- The registers of an 8259A but for its request register. -/
structure PicControl where
  /-- The in-service register. -/
  isr : Fin 8 → Bool
  /-- The mask register. -/
  imr : UInt8
  offset : UInt8
  icw1 : UInt8
  icw3 : UInt8
  icw4 : UInt8
  stage : IcwStage

namespace PicControl

/-- The interrupt that is served: of all in service, the one of the highest priority. -/
def served (c : PicControl) : Option (Fin 8) := firstFrom 0 c.isr

/-- A byte at the command port: `ICW1`, or a non-specific end of interrupt. No other command is sent. -/
def command (v : UInt8) (c : PicControl) : PicControl :=
  if v &&& 0x10 ≠ 0 then
    { c with isr := fun _ => false, imr := 0, icw1 := v, icw4 := 0, stage := .icw2 }
  else if v = 0x20 then
    match c.served with
    | some i => { c with isr := Function.update c.isr i false }
    | none => c
  else c

/-- A byte at the data port: the words of the initialization, then the mask. -/
def data (v : UInt8) (c : PicControl) : PicControl :=
  match c.stage with
  | .icw2 =>
    { c with
      offset := v &&& 0xF8
      -- a single controller has no third word, and the first says whether there is a fourth
      stage := if c.icw1 &&& 0x02 = 0 then .icw3 else if c.icw1 &&& 0x01 = 0 then .ready else .icw4 }
  | .icw3 => { c with icw3 := v, stage := if c.icw1 &&& 0x01 = 0 then .ready else .icw4 }
  | .icw4 => { c with icw4 := v, stage := .ready }
  | .ready => { c with imr := v }

def masked (c : PicControl) (i : Fin 8) : Bool := c.imr.toNat.testBit i

/-- The line whose interrupt is requested: nothing of its priority or a higher one is in service. -/
def request (c : PicControl) (lines : Fin 8 → Bool) : Option (Fin 8) :=
  firstFrom 0 fun i => lines i && !c.masked i && decide (∀ j ≤ i, c.isr j = false)

def vector (c : PicControl) (i : Fin 8) : UInt8 := c.offset + UInt8.ofNat i

/-- The interrupt is acknowledged by the processor; with automatic end of interrupt it is not put in service. -/
def acknowledge (c : PicControl) (i : Fin 8) : PicControl :=
  if c.icw4 &&& 0x02 = 0 then { c with isr := Function.update c.isr i true } else c

end PicControl

/-- An 8259A. -/
structure Pic where
  /-- The request register: the lines that have risen. -/
  irr : Fin 8 → Bool
  control : PicControl

namespace Pic

/-- `ICW1` also clears the requests. -/
def command (v : UInt8) (p : Pic) : Pic where
  irr := if v &&& 0x10 ≠ 0 then fun _ => false else p.irr
  control := p.control.command v

def data (v : UInt8) (p : Pic) : Pic := { p with control := p.control.data v }

def acknowledge (p : Pic) (i : Fin 8) : Pic := ⟨Function.update p.irr i false, p.control.acknowledge i⟩

end Pic

/-! ## The keyboard -/

/-- The keyboard and the output buffer of its controller. -/
structure KeyboardController where
  full : Bool
  data : UInt8
  /-- The scancodes the keyboard keeps. -/
  queue : List UInt8
  /-- How many it can keep. -/
  capacity : Nat

namespace KeyboardController

/-- The keyboard has room for a scancode. -/
def accepts (c : KeyboardController) : Bool := decide (c.queue.length < c.capacity)

/-- A scancode that finds no room is lost. -/
def send (scancode : UInt8) (c : KeyboardController) : KeyboardController :=
  if c.accepts then { c with queue := c.queue ++ [scancode] } else c

/-- The scancodes that have not been read. -/
def pending (c : KeyboardController) : List UInt8 := (if c.full then [c.data] else []) ++ c.queue

end KeyboardController

/-! ## The devices -/

abbrev irqKeyboard : Fin 8 := ⟨1, by decide⟩
abbrev irqCascade : Fin 8 := ⟨2, by decide⟩
abbrev irqLpt1Spur : Fin 8 := ⟨7, by decide⟩

structure Devices where
  master : Pic
  slave : Pic
  keyboard : KeyboardController

namespace Devices

/-- The controllers without their requests. -/
def controls (d : Devices) : PicControl × PicControl := (d.master.control, d.slave.control)

/-- The lines of the master; the slave drives line `2`. -/
def lines (d : Devices) : Fin 8 → Bool :=
  Function.update d.master.irr irqCascade (d.slave.control.request d.slave.irr).isSome

/-- The line of the master whose interrupt is requested. -/
def requested (d : Devices) : Option (Fin 8) := d.master.control.request d.lines

/-- The vector that the processor is given for a line. -/
def vector (d : Devices) (i : Fin 8) : UInt8 :=
  if i = irqCascade then d.slave.control.vector ((d.slave.control.request d.slave.irr).getD irqLpt1Spur)
  else d.master.control.vector i

/-- The vector of the interrupt that is requested. -/
def request (d : Devices) : Option UInt8 := d.requested.map d.vector

/-- The processor takes the interrupt that is requested. -/
def acknowledge (d : Devices) : Devices :=
  match d.requested with
  | none => d
  | some i =>
    { d with
      master := d.master.acknowledge i
      slave :=
        if i = irqCascade then
          match d.slave.control.request d.slave.irr with
          | some j => d.slave.acknowledge j
          | none => d.slave
        else d.slave }

/-- The next scancode reaches the output buffer. -/
def transfer (d : Devices) : Devices :=
  match d.keyboard.full, d.keyboard.queue with
  | false, scancode :: rest =>
    { d with
      master := { d.master with irr := Function.update d.master.irr irqKeyboard true }
      keyboard := { d.keyboard with full := true, data := scancode, queue := rest } }
  | _, _ => d

/-- Lines of the two controllers rise and fall. -/
def withLines (d : Devices) (irr irr' : Fin 8 → Bool) : Devices :=
  { d with master := { d.master with irr := irr }, slave := { d.slave with irr := irr' } }

end Devices

/-- What the devices do of their own accord. The lines other than that of the keyboard may rise and fall. -/
inductive Devices.Change : Devices → Devices → Prop
  | key (d : Devices) (scancode : UInt8) : Change d { d with keyboard := d.keyboard.send scancode }
  | transfer (d : Devices) : Change d d.transfer
  | lines (d : Devices) (irr irr' : Fin 8 → Bool) (h : irr irqKeyboard = d.master.irr irqKeyboard) :
    Change d (d.withLines irr irr')

/-! ## Ports -/

def pic1Command : UInt16 := 0x20
def pic1Data : UInt16 := pic1Command + 1
def pic2Command : UInt16 := 0xA0
def pic2Data : UInt16 := pic2Command + 1
def keyboardDataPort : UInt16 := 0x60

/-- `in` and `out`; nothing else is at a port. -/
def deviceBus : Bus UInt16 UInt8 Devices where
  read port d :=
    if port = keyboardDataPort then (d.keyboard.data, { d with keyboard := { d.keyboard with full := false } })
    else if port = pic1Data then (d.master.control.imr, d)
    else if port = pic2Data then (d.slave.control.imr, d)
    else (0, d)
  write port value d :=
    if port = pic1Command then { d with master := d.master.command value }
    else if port = pic1Data then { d with master := d.master.data value }
    else if port = pic2Command then { d with slave := d.slave.command value }
    else if port = pic2Data then { d with slave := d.slave.data value }
    else d

/-- The part of the interrupt controllers in it. -/
def controlBus : Bus UInt16 UInt8 (PicControl × PicControl) where
  read port c :=
    if port = pic1Data then (c.1.imr, c)
    else if port = pic2Data then (c.2.imr, c)
    else (0, c)
  write port value c :=
    if port = pic1Command then (c.1.command value, c.2)
    else if port = pic1Data then (c.1.data value, c.2)
    else if port = pic2Command then (c.1, c.2.command value)
    else if port = pic2Data then (c.1, c.2.data value)
    else c

/-! ## The driver -/

namespace Port

abbrev Code := Program UInt16 UInt8

/-- The access of `io_wait`. -/
def ioWait : UInt16 × UInt8 := (0x80, 0)

/-- `pic_ack`. -/
def picAck (irq : UInt8) : Code Unit :=
  .outs ((if irq ≥ 8 then [(pic2Command, 0x20)] else []) ++ [(pic1Command, 0x20)])

/-- `pic_remap`. -/
def picRemap : Code Unit := .outs [
  (pic1Command, 0x10 ||| 0x01), ioWait,
  (pic2Command, 0x10 ||| 0x01), ioWait,
  (pic1Data, 0x20), ioWait,
  (pic2Data, 0x28), ioWait,
  (pic1Data, 0b0100), ioWait,
  (pic2Data, 0b0010), ioWait,
  (pic1Data, 0x01), ioWait,
  (pic2Data, 0x01), ioWait,
  (pic1Data, 0xFF),
  (pic2Data, 0xFF)]

/-- `activate_keyboard_interrupt`. -/
def activateKeyboardInterrupt : Code Unit := .read pic1Data fun mask => .out pic1Data (mask &&& ~~~((1 : UInt8) <<< 1))

/-- `keyboard_isr`; it returns the state of the driver. -/
def keyboardIsr (s : KeyboardDriverState) : Code KeyboardDriverState :=
  if s.keyboardInputOn then
    .read keyboardDataPort fun scancode =>
      if scancode = extendedScancodeByte then (picAck 1).andThen fun _ => .done { s with readExtendedMode := true }
      else
        let s :=
          if s.readExtendedMode then { s with readExtendedMode := false }
          else if scancode &&& 0x80 == 0 then { s with keyboardBuffer := keyboardScancode1ToAsciiMap scancode }
          else { s with keyboardBuffer := 0 }
        (picAck 1).andThen fun _ => .done s
  else (picAck 1).andThen fun _ => .done s

/-- `main_interrupt_handler`. -/
def mainInterruptHandler (intNumber : UInt32) (s : KeyboardDriverState) : Code KeyboardDriverState :=
  if intNumber = irqKeyboardVector then keyboardIsr s else .done s

end Port

/-! ## What the accesses do -/

section Driver

variable {s : KeyboardDriverState} {d d' : Devices}

/-- `keyboard_isr` reads a scancode if the input is on, and acknowledges the interrupt in any case. -/
theorem Port.keyboardIsr_on (hon : s.keyboardInputOn = true) : Port.keyboardIsr s =
    .read keyboardDataPort fun scancode => .write pic1Command 0x20 (.done (s.keyboardIsr scancode)) := by
  unfold Port.keyboardIsr KeyboardDriverState.keyboardIsr
  rw [if_pos hon]
  congr 1
  funext scancode
  rw [if_pos hon]
  by_cases he : scancode = extendedScancodeByte
  · rw [if_pos he, if_pos he]
    rfl
  · rw [if_neg he, if_neg he]
    cases hx : s.readExtendedMode <;> rfl

theorem Port.keyboardIsr_off (hoff : s.keyboardInputOn = false) :
    Port.keyboardIsr s = .write pic1Command 0x20 (.done s) := by
  rw [Port.keyboardIsr, hoff, if_neg Bool.false_ne_true]
  rfl

/-- The accesses to other ports than that of the keyboard see and change the interrupt controllers only, and the
devices do not program them. -/
theorem deviceBus_projects :
    Projects deviceBus controlBus Devices.Change (fun port => port ≠ keyboardDataPort) Devices.controls where
  read port d h := by
    simp only [deviceBus, controlBus, if_neg h]
    split
    · rfl
    · split <;> rfl
  write port value d _ := by
    simp only [deviceBus, controlBus]
    split
    · rfl
    · split
      · rfl
      · split
        · rfl
        · split <;> rfl
  env h := by
    cases h with
    | key => rfl
    | transfer =>
      unfold Devices.transfer
      split <;> rfl
    | lines => rfl

theorem Port.picRemap_uses : Port.picRemap.Uses fun port => port ≠ keyboardDataPort :=
  Program.uses_outs (by decide)

/-! ## After the initialization -/

/-- A controller in cascade mode, initialized. -/
def initialized (offset icw3 imr : UInt8) : PicControl where
  isr := fun _ => false
  imr := imr
  offset := offset
  icw1 := 0x11
  icw3 := icw3
  icw4 := 0x01
  stage := .ready

/-- The controllers with the master's mask. -/
def initializedControls (imr : UInt8) : PicControl × PicControl :=
  (initialized 0x20 0b0100 imr, initialized 0x28 0b0010 0xFF)

theorem PicControl.command_icw1 (c : PicControl) : c.command (0x10 ||| 0x01) =
    { c with isr := fun _ => false, imr := 0, icw1 := 0x10 ||| 0x01, icw4 := 0, stage := .icw2 } := if_pos (by decide)

/-- The words of the initialization leave nothing of the state before. -/
theorem PicControl.initialize_eq {offset icw3 imr : UInt8} (c : PicControl) (h : offset &&& 0xF8 = offset) :
    ((((c.command (0x10 ||| 0x01)).data offset).data icw3).data 0x01).data imr = initialized offset icw3 imr := by
  have hcascade : (0x10 ||| 0x01 : UInt8) &&& 0x02 = 0 := by decide
  have hfourth : ¬ (0x10 ||| 0x01 : UInt8) &&& 0x01 = 0 := by decide
  simp only [command_icw1, data, if_pos hcascade, if_neg hfourth, h, initialized]
  rfl

/-- Whatever state the controllers were in. -/
theorem picRemap_run (c : PicControl × PicControl) :
    controlBus.run Port.picRemap c = ((), initializedControls 0xFF) :=
  congrArg (Prod.mk ()) (congrArg₂ Prod.mk (PicControl.initialize_eq c.1 rfl) (PicControl.initialize_eq c.2 rfl))

theorem activateKeyboardInterrupt_run :
    controlBus.run Port.activateKeyboardInterrupt (initializedControls 0xFF) = ((), initializedControls 0xFD) := rfl

end Driver

end Os2024
