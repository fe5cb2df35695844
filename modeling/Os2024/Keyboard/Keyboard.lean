import Mathlib.Data.List.Basic

/-!
# The keyboard driver

`ch1/keyboard/keyboard.c`. The driver keeps one character: `keyboard_isr` stores into it and `get_keyboard_buffer`
takes it out. An execution of `keyboard_isr` is given the byte that it reads from `KEYBOARD_DATA_PORT`;
acknowledging the interrupt has no effect here.
-/

namespace Os2024

def extendedScancodeByte : UInt8 := 0xE0

/-- The rows of `keyboard_scancode_1_to_ascii_map` up to the last one with a character. -/
def keyboardScancodeRows : List (List Char) := [
  ['\x00', '\x1b', '1', '2', '3', '4', '5', '6', '7', '8', '9', '0', '-', '=', '\x08', '\t'],
  ['q', 'w', 'e', 'r', 't', 'y', 'u', 'i', 'o', 'p', '[', ']', '\n', '\x00', 'a', 's'],
  ['d', 'f', 'g', 'h', 'j', 'k', 'l', ';', '\x27', '\x60', '\x00', '\x5c', 'z', 'x', 'c', 'v'],
  ['b', 'n', 'm', ',', '.', '/', '\x00', '*', '\x00', ' ', '\x00', '\x00', '\x00', '\x00', '\x00', '\x00'],
  ['\x00', '\x00', '\x00', '\x00', '\x00', '\x00', '\x00', '\x00', '\x00', '\x00', '-', '\x00', '\x00', '\x00', '+',
    '\x00']]

/-- `keyboard_scancode_1_to_ascii_map`: all other rows are zero. -/
def keyboardScancode1ToAsciiMap (scancode : UInt8) : UInt8 :=
  match keyboardScancodeRows.flatten[scancode.toNat]? with
  | some c => UInt8.ofNat c.toNat
  | none => 0

/-- `struct KeyboardDriverState`. -/
structure KeyboardDriverState where
  readExtendedMode : Bool
  keyboardInputOn : Bool
  keyboardBuffer : UInt8
  deriving DecidableEq

namespace KeyboardDriverState

/-- `keyboard_state_activate`. -/
def activate (s : KeyboardDriverState) : KeyboardDriverState := { s with keyboardInputOn := true }

/-- `keyboard_state_deactivate`. -/
def deactivate (s : KeyboardDriverState) : KeyboardDriverState := { s with keyboardInputOn := false }

/-- `get_keyboard_buffer`: what is stored at `buf`, and the state. -/
def getKeyboardBuffer (s : KeyboardDriverState) : UInt8 × KeyboardDriverState :=
  (s.keyboardBuffer, { s with keyboardBuffer := 0 })

/-- `keyboard_isr`, with the byte at the data port. -/
def keyboardIsr (scancode : UInt8) (s : KeyboardDriverState) : KeyboardDriverState :=
  if s.keyboardInputOn then
    if scancode = extendedScancodeByte then { s with readExtendedMode := true }
    else if s.readExtendedMode then
      -- the cases of the `switch` on the arrow keys are empty
      { s with readExtendedMode := false }
    else
      let isMake := scancode &&& 0x80 == 0
      if isMake then { s with keyboardBuffer := keyboardScancode1ToAsciiMap scancode }
      else { s with keyboardBuffer := 0 }
  else s

end KeyboardDriverState

example : keyboardScancode1ToAsciiMap 0x1E = 97 := by decide

end Os2024
