import Os2024.Lib.Bytes
import Os2024.Stdlib.String

/-!
# The terminal of the system calls

`putc` and `puts` of `ch1/interrupt/interrupt.c`. The cursor is a pair of static variables and `buffer` the address
`0xB8000`; `stores` lists the addresses and values of all stores to `buffer` so far, oldest first, and exists for the
statements only. A `char` is signed.
-/

namespace Os2024

open Bytes

/-- The static variables of `putc`. -/
structure Cursor where
  x : UInt32
  y : UInt32
  deriving DecidableEq

/-- Memory and cursor. -/
structure Console where
  memory : Memory
  cursor : Cursor
  stores : List (UInt32 × UInt16)

/-- `buffer` of `putc`. -/
def terminalBuffer : UInt32 := 0xB8000

/-- A `char` as an operand of `|`. -/
def charToUInt32 (c : UInt8) : UInt32 := c.toInt8.toInt32.toUInt32

/-- `(color << 8) | c`, as it is stored. -/
def terminalCell (color : UInt32) (c : UInt8) : UInt16 := ((color <<< 8) ||| charToUInt32 c).toUInt16

namespace Console

/-- `buffer[index] = value`. -/
def store (s : Console) (index : UInt32) (value : UInt16) : Console :=
  { s with
    memory := s.memory.store (terminalBuffer + index * 2) (leBytes 2 value.toNat)
    stores := s.stores ++ [(terminalBuffer + index * 2, value)] }

/-- The cursor, set. -/
def moveTo (s : Console) (x y : UInt32) : Console := { s with cursor := ⟨x, y⟩ }

/-- One row of the loops that blank the screen. -/
def blankRow (s : Console) (color : UInt32) (y : Nat) : Console :=
  (List.range 80).foldl (fun s x => s.store (UInt32.ofNat y * 80 + UInt32.ofNat x) (terminalCell color 32)) s

/-- The loops that blank the screen. -/
def blank (s : Console) (color : UInt32) : Console := (List.range 25).foldl (fun s y => s.blankRow color y) s

/-- `putc`. -/
def putc (c : UInt8) (color : UInt32) (s : Console) : Console :=
  let s :=
    if c = 10 then s.moveTo 0 (s.cursor.y + 1) -- '\n'
    else (s.store (s.cursor.y * 80 + s.cursor.x) (terminalCell color c)).moveTo (s.cursor.x + 1) s.cursor.y
  let s := if s.cursor.x ≥ 80 then s.moveTo 0 (s.cursor.y + 1) else s
  if s.cursor.y ≥ 25 then (s.blank color).moveTo 0 0 else s

/-- The loop of `puts`, from character `i` on. -/
def putsLoop (str color : UInt32) : (n : Nat) → (i : UInt32) → Console → Console
  | 0, _, s => s
  | n + 1, i, s => putsLoop str color n (i + 1) (s.putc (s.memory (str + i)) color)

/-- `puts`. -/
def puts (str len color : UInt32) (s : Console) : Console := putsLoop str color len.toNat 0 s

end Console

section Fields

variable (s : Console) (x y : UInt32)

@[simp] theorem Console.moveTo_cursor : (s.moveTo x y).cursor = ⟨x, y⟩ := rfl
@[simp] theorem Console.moveTo_memory : (s.moveTo x y).memory = s.memory := rfl
@[simp] theorem Console.moveTo_stores : (s.moveTo x y).stores = s.stores := rfl

end Fields

/-! ## Sequences of calls -/

/-- A call of `putc` or `puts`. -/
inductive PrintCall where
  | putc (c : UInt8) (color : UInt32)
  | puts (str len color : UInt32)

/-- A character, in a colour. -/
abbrev Glyph := UInt8 × UInt32

/-- The characters of the loop of `puts`, as it comes to them. -/
def Console.putsChars (str color : UInt32) : (n : Nat) → (i : UInt32) → Console → List Glyph
  | 0, _, _ => []
  | n + 1, i, s => (s.memory (str + i), color) :: putsChars str color n (i + 1) (s.putc (s.memory (str + i)) color)

namespace PrintCall

/-- A call, executed. -/
def exec : PrintCall → Console → Console
  | putc c color, s => s.putc c color
  | puts str len color, s => s.puts str len color

/-- The characters a call prints. -/
def chars : PrintCall → Console → List Glyph
  | putc c color, _ => [(c, color)]
  | puts str len color, s => s.putsChars str color len.toNat 0

end PrintCall

/-- A sequence of calls, one after the other. -/
def Console.runCalls : List PrintCall → Console → Console
  | [], s => s
  | call :: calls, s => runCalls calls (call.exec s)

/-- The characters a sequence of calls prints. -/
def Console.printed : List PrintCall → Console → List Glyph
  | [], _ => []
  | call :: calls, s => call.chars s ++ printed calls (call.exec s)

/-- Characters, printed with `putc` one after the other. -/
def Console.print (glyphs : List Glyph) (s : Console) : Console := glyphs.foldl (fun s g => s.putc g.1 g.2) s

section Printed

variable {s : Console} {call : PrintCall} {str color : UInt32}

theorem Console.putsLoop_eq (n : Nat) (i : UInt32) (s : Console) :
    s.putsLoop str color n i = s.print (s.putsChars str color n i) := by
  induction n generalizing i s with
  | zero => rfl
  | succ n ih => exact ih (i + 1) (s.putc (s.memory (str + i)) color)

/-- A call prints its characters. -/
theorem PrintCall.exec_eq (call : PrintCall) (s : Console) : call.exec s = s.print (call.chars s) := by
  cases call with
  | putc c color => rfl
  | puts str len color => exact Console.putsLoop_eq len.toNat 0 s

/-- **A sequence of calls** prints its characters, one after the other. -/
theorem Console.runCalls_eq (calls : List PrintCall) (s : Console) : s.runCalls calls = s.print (s.printed calls) := by
  induction calls generalizing s with
  | nil => rfl
  | cons call calls ih =>
    have hrest : ((call.exec s).runCalls calls) = _ := ih (call.exec s)
    rw [Console.runCalls, Console.printed, hrest, call.exec_eq]
    exact (List.foldl_append ..).symm

end Printed

end Os2024
