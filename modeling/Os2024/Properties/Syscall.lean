import Os2024.Interrupt.Interrupt
import Os2024.Interrupt.Terminal

/-!
# System calls are not carried out

`main_interrupt_handler` has no case for vector `0x30`, so `syscall` is never reached. The handler does what the system
call of a frame is to do only where that is nothing: `syscall_carriedOut_iff`.
-/

namespace Os2024

open Terminal

/-- The handler does for a frame what it is to do: the system call on vector `0x30`, and nothing on the other vectors
but that of the keyboard. -/
structure CarriesOut (scancode : UInt8) (frame : InterruptFrame) (k : Kernel) : Prop where
  call : frame.intNumber = 0x30 → ∃ fuel, syscall fuel frame k = .ok (mainInterruptHandler scancode frame k)
  other : frame.intNumber ≠ 0x30 → frame.intNumber ≠ irqKeyboardVector → mainInterruptHandler scancode frame k = k

/-- The operation of the file system returns the code that is at `ecx` and changes nothing else. -/
def FileCallIdle (op : Op) (general : GeneralRegister) (k : Kernel) : Prop :=
  ∃ fuel code s, op.run fuel (loadRequest k.memory general.ebx) k.system = .ok (code, s) ∧
    Function.update s.memory general.ecx code.toUInt8 = k.memory ∧ s.disk = k.disk ∧ s.driverState = k.driverState

/-- There is nothing to do for a system call: the operation fails or repeats what is there, no key is waiting and the
buffer is zero, the text leaves screen and cursor as they are, the input is on, or there is no such call. Nothing is
ever a `putc`. -/
def Idle (general : GeneralRegister) (k : Kernel) : Prop :=
  match general.eax.toNat with
  | 0 => FileCallIdle .read general k
  | 1 => FileCallIdle .readDirectory general k
  | 2 => FileCallIdle .write general k
  | 3 => FileCallIdle .delete general k
  | 4 => k.keyboardDriverState.keyboardBuffer = 0 ∧ k.memory general.ebx = 0
  | 5 => False
  | 6 => (k.console.puts general.ebx general.ecx general.edx).memory = k.memory ∧
      (k.console.puts general.ebx general.ecx general.edx).cursor = k.cursor
  | 7 => k.keyboardDriverState.keyboardInputOn = true
  | _ => True

section Idle

variable {k : Kernel} {general : GeneralRegister} {frame : InterruptFrame} {s : Console} {c scancode : UInt8}
  {color : UInt32} {op : Op}

theorem Console.putcAdvance_cursor : (s.putcAdvance c color).cursor =
    if c = 10 ∨ s.cursor.x + 1 ≥ 80 then ⟨0, s.cursor.y + 1⟩ else ⟨s.cursor.x + 1, s.cursor.y⟩ := by
  by_cases hc : c = 10
  · rw [hc, Console.putcAdvance_newline, if_pos (.inl rfl)]
    rfl
  · rw [Console.putcAdvance_char hc]
    by_cases hwrap : s.cursor.x + 1 ≥ 80
    · rw [if_pos hwrap, if_pos (.inr hwrap), Console.moveTo_cursor]
    · rw [if_neg hwrap, if_neg (not_or.mpr ⟨hc, hwrap⟩), Console.moveTo_cursor]

/-- Every character moves the cursor. -/
theorem Console.putc_cursor_ne (s : Console) (c : UInt8) (color : UInt32) : (s.putc c color).cursor ≠ s.cursor := by
  have hsucc : ∀ z : UInt32, z + 1 ≠ z := fun z => by simp
  rw [Console.putc_eq]
  intro h
  by_cases hend : (s.putcAdvance c color).cursor.y ≥ 25
  · rw [if_pos hend, Console.moveTo_cursor] at h
    rw [Console.putcAdvance_cursor, ← h] at hend
    split at hend <;> exact absurd hend (by decide)
  · rw [if_neg hend, Console.putcAdvance_cursor] at h
    split at h
    · exact hsucc _ (congrArg Cursor.y h)
    · exact hsucc _ (congrArg Cursor.x h)

theorem Kernel.withSystem_eq_iff {t : System} :
    k.withSystem t = k ↔ t.memory = k.memory ∧ t.disk = k.disk ∧ t.driverState = k.driverState := by
  constructor
  · intro h
    exact ⟨congrArg Kernel.memory h, congrArg Kernel.disk h, congrArg Kernel.driverState h⟩
  · rintro ⟨hm, hd, hs⟩
    simp only [Kernel.withSystem, hm, hd, hs]

theorem Kernel.withConsole_eq_iff : k.withConsole s = k ↔ s.memory = k.memory ∧ s.cursor = k.cursor := by
  constructor
  · intro h
    exact ⟨congrArg Kernel.memory h, congrArg Kernel.cursor h⟩
  · rintro ⟨hm, hc⟩
    simp only [Kernel.withConsole, hm, hc]

theorem fileCall_eq_iff : (∃ fuel, fileCall fuel op general k = .ok k) ↔ FileCallIdle op general k := by
  refine exists_congr fun fuel => ?_
  unfold fileCall
  cases hrun : op.run fuel (loadRequest k.memory general.ebx) k.system with
  | error e => simp
  | ok r =>
    obtain ⟨code, s⟩ := r
    simp only [Except.ok.injEq, Kernel.withSystem_eq_iff, Prod.mk.injEq]
    constructor
    · intro h
      exact ⟨code, s, ⟨rfl, rfl⟩, h⟩
    · rintro ⟨_, _, ⟨rfl, rfl⟩, h⟩
      exact h

theorem keyboardCall_eq_iff {buf : UInt32} : keyboardCall buf k = k ↔
    k.keyboardDriverState.keyboardBuffer = 0 ∧ k.memory buf = 0 := by
  obtain ⟨mem, disk, driverState, ⟨extended, inputOn, buffer⟩, cursor⟩ := k
  simp only [keyboardCall, KeyboardDriverState.getKeyboardBuffer, Kernel.mk.injEq, KeyboardDriverState.mk.injEq,
    Function.update_eq_self_iff, true_and, and_true]
  constructor
  · rintro ⟨hmem, rfl⟩
    exact ⟨rfl, hmem.symm⟩
  · rintro ⟨rfl, hmem⟩
    exact ⟨hmem.symm, rfl⟩

theorem activate_eq_iff : { k with keyboardDriverState := k.keyboardDriverState.activate } = k ↔
    k.keyboardDriverState.keyboardInputOn = true := by
  obtain ⟨mem, disk, driverState, ⟨extended, inputOn, buffer⟩, cursor⟩ := k
  simp [KeyboardDriverState.activate, eq_comm]

/-- A system call changes nothing exactly when there is nothing to do for it. -/
theorem syscall_eq_iff : (∃ fuel, syscall fuel frame k = .ok k) ↔ Idle frame.cpu.general k := by
  unfold syscall Idle
  dsimp only
  generalize frame.cpu.general.eax.toNat = eax
  match eax with
  | 0 => exact fileCall_eq_iff
  | 1 => exact fileCall_eq_iff
  | 2 => exact fileCall_eq_iff
  | 3 => exact fileCall_eq_iff
  | 4 => simp [keyboardCall_eq_iff]
  | 5 =>
    have hmoved : (k.console.putc frame.cpu.general.ebx.toUInt8 frame.cpu.general.ecx).cursor ≠ k.cursor :=
      k.console.putc_cursor_ne frame.cpu.general.ebx.toUInt8 frame.cpu.general.ecx
    simp [Kernel.withConsole_eq_iff, hmoved]
  | 6 => simp [Kernel.withConsole_eq_iff]
  | 7 => simp [activate_eq_iff]
  | _ + 8 => simp

/-! ## Frames -/

theorem Console.putsChars_color {str : UInt32} (n : Nat) (i : UInt32) (s : Console) :
    ∀ g ∈ s.putsChars str color n i, g.2 = color := by
  induction n generalizing i s with
  | zero => simp [Console.putsChars]
  | succ n ih =>
    rw [Console.putsChars]
    intro g hg
    rcases List.mem_cons.mp hg with rfl | hg
    · rfl
    · exact ih _ _ g hg

/-- A text that is not empty is drawn, so a screen whose attributes are not those of the text does not stay. -/
theorem Console.puts_memory_ne {str len : UInt32} {v : UInt8} (hlen : len ≠ 0) (hv : v ≠ 10)
    (hcolor : v ≠ color.toUInt8) (hff : v ≠ 0xFF) :
    ((Console.mk (fun _ => v) ⟨0, 0⟩ []).puts str len color).memory ≠ fun _ => v := by
  obtain ⟨n, hn⟩ : ∃ n, len.toNat = n + 1 :=
    Nat.exists_eq_succ_of_ne_zero fun h => hlen (UInt32.toNat_inj.mp h)
  have hlook : ∀ g : Glyph, g.2 = color →
      ((putcLook.glyph g).2 = color.toUInt8 ∨ (putcLook.glyph g).2 = 0xFF) ∧
        ((putcLook.blank g).2 = color.toUInt8 ∨ (putcLook.blank g).2 = 0xFF) := by
    rintro ⟨c, _⟩ rfl
    simp only [putcLook, cellBytes_terminalCell]
    constructor
    · split <;> simp
    · simp
  let start : Console := ⟨fun _ => v, ⟨0, 0⟩, []⟩
  let rest := Console.putsChars str color n (0 + 1) (start.putc v color)
  have hprint : start.puts str len color = start.print ((v, color) :: rest) := by
    rw [Console.puts, hn, Console.putsLoop_eq]
    rfl
  have hscreen := (Console.refines_terminal (s := start) rfl).print ((v, color) :: rest)
  -- the first character is in the first cell, and what is drawn over it has the same attributes
  have hfirst : (screenShape.step putcLook start.terminal (v, color)).grid 0 = putcLook.glyph (v, color) := by
    simp [Shape.step, Shape.put, Shape.advance, screenShape, start, Console.terminal, hv]
  have hlast : ((screenShape.run putcLook rest (screenShape.step putcLook start.terminal (v, color))).grid 0).2 =
      color.toUInt8 ∨
      ((screenShape.run putcLook rest (screenShape.step putcLook start.terminal (v, color))).grid 0).2 = 0xFF :=
    run_grid_of (P := fun cell : Cell => cell.2 = color.toUInt8 ∨ cell.2 = 0xFF)
      (fun g hg => hlook g (Console.putsChars_color _ _ _ g hg)) (hfirst ▸ (hlook (v, color) rfl).1)
  rw [← hprint] at hscreen
  intro hmem
  have hcell := hscreen.cells 0 (by decide)
  rw [show (start.puts str len color).memory = fun _ => v from hmem] at hcell
  have hattr : v = ((screenShape.run putcLook ((v, color) :: rest) start.terminal).grid 0).2 := congrArg Prod.snd hcell
  rcases hlast with h | h
  · exact hcolor (hattr.trans h)
  · exact hff (hattr.trans h)

/-- A kernel with a key waiting, the input off and one byte in all of memory. -/
def uniformKernel (v : UInt8) : Kernel where
  memory := fun _ => v
  disk := fun _ _ => 0
  driverState := ⟨newFat, newRootDirectoryTable⟩
  keyboardDriverState := ⟨false, false, 1⟩
  cursor := ⟨0, 0⟩

/-- A request of zeros is refused, and its return code is not zero. -/
theorem not_fileCallIdle : ¬ FileCallIdle op general (uniformKernel 0) := by
  rintro ⟨fuel, code, s, hrun, hmem, -, -⟩
  have hcodes : ∀ op : Op, op.invalidParent.toUInt8 ≠ 0 := by
    intro op
    cases op <;> decide
  have hparent : (loadRequest (uniformKernel 0).memory general.ebx).parentClusterNumber < 2 :=
    show ofLe32 (fun _ => 0) < 2 by decide
  rw [op.run_of_lt_two fuel hparent, Except.ok.injEq, Prod.mk.injEq] at hrun
  have hcode := congrFun hmem general.ecx
  rw [Function.update_self, ← hrun.1] at hcode
  exact hcodes op hcode

/-- In every kernel there is nothing to do only for a number without a call, and for a text of length zero. -/
theorem idle_forall_iff : (∀ k, Idle general k) ↔ 7 < general.eax ∨ general.eax = 6 ∧ general.ecx = 0 := by
  have h7 : 7 < general.eax ↔ 7 < general.eax.toNat := UInt32.lt_iff_toNat_lt
  have h6 : general.eax = 6 ↔ general.eax.toNat = 6 := UInt32.toNat_inj.symm
  -- a text in the colour of a kernel is drawn on another
  obtain ⟨v, hv, hcolor, hff⟩ : ∃ v : UInt8, v ≠ 10 ∧ v ≠ general.edx.toUInt8 ∧ v ≠ 0xFF := by
    by_cases h1 : general.edx.toUInt8 = 1
    · exact ⟨2, by decide, by rw [h1]; decide, by decide⟩
    · exact ⟨1, by decide, Ne.symm h1, by decide⟩
  rw [h7, h6]
  unfold Idle
  generalize general.eax.toNat = eax
  match eax with
  | 0 => exact iff_of_false (fun h => not_fileCallIdle (h _)) (by simp)
  | 1 => exact iff_of_false (fun h => not_fileCallIdle (h _)) (by simp)
  | 2 => exact iff_of_false (fun h => not_fileCallIdle (h _)) (by simp)
  | 3 => exact iff_of_false (fun h => not_fileCallIdle (h _)) (by simp)
  | 4 => exact iff_of_false (fun h => absurd (h (uniformKernel 0)).1 (by decide)) (by simp)
  | 5 => exact iff_of_false (fun h => h (uniformKernel 0)) (by simp)
  | 6 =>
    simp only [show ¬ 7 < 6 by decide, false_or, true_and]
    constructor
    · intro h
      by_contra hlen
      exact Console.puts_memory_ne hlen hv hcolor hff (h (uniformKernel v)).1
    · intro hlen k
      rw [hlen]
      exact ⟨rfl, rfl⟩
  | 7 => exact iff_of_false (fun h => Bool.false_ne_true (h (uniformKernel 0))) (by simp)
  | n + 8 => exact iff_of_true (fun _ => trivial) (.inl (by omega))

/-- **The handler carries out a system call** exactly when there is nothing to do for it; in every kernel that is so
only for a number without a call and for a text of length zero. On other vectors it does what it is to do. -/
theorem syscall_carriedOut_iff (scancode : UInt8) (frame : InterruptFrame) :
    (∀ k, CarriesOut scancode frame k ↔ (frame.intNumber = 0x30 → Idle frame.cpu.general k)) ∧
      ((∀ k, CarriesOut scancode frame k) ↔
        (frame.intNumber = 0x30 → 7 < frame.cpu.general.eax ∨
          frame.cpu.general.eax = 6 ∧ frame.cpu.general.ecx = 0)) := by
  have hstate : ∀ k, CarriesOut scancode frame k ↔ (frame.intNumber = 0x30 → Idle frame.cpu.general k) := by
    intro k
    have hidle : frame.intNumber ≠ irqKeyboardVector → mainInterruptHandler scancode frame k = k := fun h => if_neg h
    constructor
    · intro h h30
      have hcall := h.call h30
      rw [hidle (by rw [h30]; decide)] at hcall
      exact syscall_eq_iff.mp hcall
    · intro h
      refine ⟨fun h30 => ?_, fun _ hne => hidle hne⟩
      rw [hidle (by rw [h30]; decide)]
      exact syscall_eq_iff.mpr (h h30)
  refine ⟨hstate, ?_⟩
  simp only [hstate, ← idle_forall_iff]
  exact ⟨fun h h30 k => h k h30, fun h k h30 => h h30 k⟩

/-- The input is to be switched on, and stays off. -/
theorem syscall_not_carriedOut :
    ∃ frame : InterruptFrame, frame.intNumber = 0x30 ∧ frame.cpu.general.eax = 7 ∧
      (mainInterruptHandler 0 frame (uniformKernel 0)).keyboardDriverState.keyboardInputOn = false ∧
      (∀ fuel, ∃ k, syscall fuel frame (uniformKernel 0) = .ok k ∧ k.keyboardDriverState.keyboardInputOn = true) ∧
      ¬ CarriesOut 0 frame (uniformKernel 0) := by
  refine ⟨⟨⟨⟨0, 0⟩, ⟨0, 0⟩, ⟨0, 0, 0, 7⟩, ⟨0, 0, 0, 0⟩⟩, 0x30, ⟨0, 0, 0, 0⟩⟩, rfl, rfl, rfl,
    fun fuel => ⟨_, rfl, rfl⟩, fun h => ?_⟩
  obtain ⟨fuel, hfuel⟩ := h.call rfl
  have hinput := congrArg (fun k => k.keyboardDriverState.keyboardInputOn) (Except.ok.inj hfuel)
  cases hinput

end Idle

end Os2024
