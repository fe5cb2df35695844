import Os2024.Keyboard.Keyboard

/-!
# Keystrokes and polls

Releases of keys and keys without a character store `'\0'` over the character that is waiting. So what a poll returns
is decided by the last scancode outside of the `E0` sequences (`runIsr_buffer`), and the one character that was typed
since the poll before is returned exactly when its make code is that last one: `keystroke_kept_iff`.

Keystrokes may be lost, but polls return nothing that was not typed, and nothing twice: `delivered_sublist_typed`.
-/

namespace Os2024

/-- The scancodes that are read outside of `E0` sequences; `extended` says whether one has begun. -/
def plainCodes : (extended : Bool) → List UInt8 → List UInt8
  | _, [] => []
  | extended, scancode :: codes =>
    if scancode = extendedScancodeByte then plainCodes true codes
    else if extended then plainCodes false codes
    else scancode :: plainCodes false codes

/-- The character of a make code; a break code has none. -/
def scancodeChar (scancode : UInt8) : UInt8 :=
  if scancode &&& 0x80 == 0 then keyboardScancode1ToAsciiMap scancode else 0

/-- The scancode is a make code with a character. -/
def printable (scancode : UInt8) : Bool := scancodeChar scancode != 0

/-- The character of the last scancode, if there is one. -/
def lastChar (waiting : UInt8) (codes : List UInt8) : UInt8 :=
  match codes.getLast? with
  | some scancode => scancodeChar scancode
  | none => waiting

namespace KeyboardDriverState

/-- Keyboard interrupts, one after the other. -/
def runIsr (codes : List UInt8) (s : KeyboardDriverState) : KeyboardDriverState :=
  codes.foldl (fun s scancode => s.keyboardIsr scancode) s

/-- What the second of two polls returns, when `codes` have been read since the first. -/
def secondPoll (codes : List UInt8) (s : KeyboardDriverState) : UInt8 :=
  (s.getKeyboardBuffer.2.runIsr codes).getKeyboardBuffer.1

end KeyboardDriverState

section Polls

variable {s : KeyboardDriverState} {codes : List UInt8} {scancode k : UInt8} {waiting : UInt8} {extended : Bool}

theorem lastChar_cons : lastChar waiting (scancode :: codes) = lastChar (scancodeChar scancode) codes := by
  cases codes with
  | nil => rfl
  | cons b codes =>
    simp only [lastChar]
    rw [List.getLast?_cons_cons]
    simp only [List.getLast?_cons]

/-- An interrupt does not switch the input on or off. -/
theorem keyboardIsr_inputOn : (s.keyboardIsr scancode).keyboardInputOn = s.keyboardInputOn := by
  unfold KeyboardDriverState.keyboardIsr
  split
  · split
    · rfl
    · split
      · rfl
      · dsimp only
        split <;> rfl
  · rfl

/-- What one interrupt does to the buffer is what `plainCodes` sees of its scancode. -/
theorem keyboardIsr_buffer (hon : s.keyboardInputOn = true) :
    lastChar (s.keyboardIsr scancode).keyboardBuffer (plainCodes (s.keyboardIsr scancode).readExtendedMode codes) =
      lastChar s.keyboardBuffer (plainCodes s.readExtendedMode (scancode :: codes)) := by
  simp only [KeyboardDriverState.keyboardIsr, hon, if_true, plainCodes]
  by_cases he : scancode = extendedScancodeByte
  · rw [if_pos he, if_pos he]
  · rw [if_neg he, if_neg he]
    cases hx : s.readExtendedMode with
    | true => rfl
    | false =>
      simp only [Bool.false_eq_true, if_false]
      rw [lastChar_cons, scancodeChar]
      split <;> rfl

/-- **The buffer after any interrupts** holds the character of the last plain scancode. -/
theorem runIsr_buffer (hon : s.keyboardInputOn = true) :
    (s.runIsr codes).keyboardBuffer = lastChar s.keyboardBuffer (plainCodes s.readExtendedMode codes) := by
  induction codes generalizing s with
  | nil => rfl
  | cons scancode codes ih =>
    have hrest : ((s.keyboardIsr scancode).runIsr codes).keyboardBuffer = _ := ih (keyboardIsr_inputOn.trans hon)
    rw [keyboardIsr_buffer hon] at hrest
    exact hrest

/-- **A keystroke between two polls is kept** exactly when nothing but `E0` sequences is read after it. -/
theorem keystroke_kept_iff (hon : s.keyboardInputOn = true) (hplain : s.readExtendedMode = false)
    (hone : (plainCodes false codes).filter printable = [k]) :
    s.secondPoll codes = keyboardScancode1ToAsciiMap k ↔ (plainCodes false codes).getLast? = some k := by
  have hbuffer : s.secondPoll codes = lastChar 0 (plainCodes false codes) := by
    rw [← hplain]
    exact runIsr_buffer (s := s.getKeyboardBuffer.2) hon
  have hk : k ∈ (plainCodes false codes).filter printable := by
    rw [hone]
    exact List.mem_singleton_self k
  have hprint : scancodeChar k ≠ 0 := bne_iff_ne.mp (List.mem_filter.mp hk).2
  have hmap : scancodeChar k = keyboardScancode1ToAsciiMap k := by
    unfold scancodeChar at hprint ⊢
    split at hprint
    · next hmake => rw [if_pos hmake]
    · exact absurd rfl hprint
  rw [hbuffer, ← hmap, lastChar]
  cases hlast : (plainCodes false codes).getLast? with
  | none => exact iff_of_false hprint.symm (by simp)
  | some j =>
    rw [Option.some.injEq]
    constructor
    · intro hj
      -- the last scancode has a character, so it is the one that does
      have hmem : j ∈ (plainCodes false codes).filter printable :=
        List.mem_filter.mpr ⟨List.mem_of_getLast? hlast, bne_iff_ne.mpr (ne_of_eq_of_ne hj hprint)⟩
      rw [hone] at hmem
      exact List.mem_singleton.mp hmem
    · rintro rfl
      rfl

/-- A key that is still held, pressed after another one was released and an arrow key before that. -/
theorem keystroke_kept_held :
    (KeyboardDriverState.mk false true 0).secondPoll [0xE0, 0x48, 0x9E, 0x30] = keyboardScancode1ToAsciiMap 0x30 :=
  (keystroke_kept_iff rfl rfl (by decide)).mpr (by decide)

/-- A tap on a key is lost: its make code and its break code are read, and the poll returns nothing. -/
theorem keystroke_lost_tap :
    (plainCodes false [0x1E, 0x9E]).filter printable = [0x1E] ∧ keyboardScancode1ToAsciiMap 0x1E = 97 ∧
      (KeyboardDriverState.mk false true 0).secondPoll [0x1E, 0x9E] = 0 ∧
      ¬ (KeyboardDriverState.mk false true 0).secondPoll [0x1E, 0x9E] = keyboardScancode1ToAsciiMap 0x1E := by
  decide

end Polls

/-! ## Any events -/

/-- The driver at the start. -/
def initialKeyboardDriverState : KeyboardDriverState := ⟨false, false, 0⟩

/-- A call of the driver: the interrupt with the byte at the data port, `get_keyboard_buffer`, or a switch of the
input. -/
inductive KeyboardEvent where
  | isr (scancode : UInt8)
  | poll
  | activate
  | deactivate

/-- The driver after an event. -/
def KeyboardEvent.exec (s : KeyboardDriverState) : KeyboardEvent → KeyboardDriverState
  | isr scancode => s.keyboardIsr scancode
  | poll => s.getKeyboardBuffer.2
  | activate => s.activate
  | deactivate => s.deactivate

/-- What the event returns. -/
def KeyboardEvent.result (s : KeyboardDriverState) : KeyboardEvent → List UInt8
  | poll => [s.getKeyboardBuffer.1]
  | _ => []

/-- What the events return, in order. -/
def polled : List KeyboardEvent → KeyboardDriverState → List UInt8
  | [], _ => []
  | e :: events, s => e.result s ++ polled events (e.exec s)

/-- The characters the events return, in order. -/
def delivered (events : List KeyboardEvent) (s : KeyboardDriverState) : List UInt8 :=
  (polled events s).filter (· != 0)

/-- The scancodes that are read: those that come while the input is on. -/
def readCodes : (on : Bool) → List KeyboardEvent → List UInt8
  | _, [] => []
  | on, .isr scancode :: events => if on then scancode :: readCodes on events else readCodes on events
  | on, .poll :: events => readCodes on events
  | _, .activate :: events => readCodes true events
  | _, .deactivate :: events => readCodes false events

/-- The characters of the make codes that are read outside of `E0` sequences, in order. -/
def typed (extended on : Bool) (events : List KeyboardEvent) : List UInt8 :=
  ((plainCodes extended (readCodes on events)).filter fun scancode => scancode &&& 0x80 == 0).map
    keyboardScancode1ToAsciiMap

/-- The character that is waiting, if there is one, and what is still to be typed. -/
def pending (s : KeyboardDriverState) (events : List KeyboardEvent) : List UInt8 :=
  [s.keyboardBuffer].filter (· != 0) ++ typed s.readExtendedMode s.keyboardInputOn events

section Events

variable {s : KeyboardDriverState} {events : List KeyboardEvent} {scancode : UInt8} {extended : Bool}

/-- A scancode that begins or ends an `E0` sequence is no keystroke. -/
theorem typed_isr_extended : typed extended true (.isr extendedScancodeByte :: events) = typed true true events := by
  rw [typed, readCodes, if_pos rfl, plainCodes, if_pos rfl]
  rfl

theorem typed_isr_sequence (he : scancode ≠ extendedScancodeByte) :
    typed true true (.isr scancode :: events) = typed false true events := by
  rw [typed, readCodes, if_pos rfl, plainCodes, if_neg he]
  rfl

/-- Outside of the sequences it is one if it is a make code. -/
theorem typed_isr_plain (he : scancode ≠ extendedScancodeByte) : typed false true (.isr scancode :: events) =
    (if scancode &&& 0x80 == 0 then [keyboardScancode1ToAsciiMap scancode] else []) ++ typed false true events := by
  rw [typed, readCodes, if_pos rfl, plainCodes, if_neg he, if_neg Bool.false_ne_true, List.filter_cons]
  split <;> rfl

/-- An interrupt adds nothing that is not typed. -/
theorem pending_isr : (pending (s.keyboardIsr scancode) events).Sublist (pending s (.isr scancode :: events)) := by
  obtain ⟨extended, on, buffer⟩ := s
  cases on with
  | false => exact List.Sublist.refl _
  | true =>
    by_cases he : scancode = extendedScancodeByte
    · subst he
      rw [pending, pending, typed_isr_extended]
      exact List.Sublist.refl _
    · cases extended with
      | true =>
        rw [pending, pending, typed_isr_sequence he]
        simp only [KeyboardDriverState.keyboardIsr, if_true, if_neg he]
        exact List.Sublist.refl _
      | false =>
        -- what was waiting is overwritten
        rw [pending, pending, typed_isr_plain he]
        simp only [KeyboardDriverState.keyboardIsr, if_true, if_neg he, Bool.false_eq_true, if_false]
        refine List.Sublist.trans ?_ (List.sublist_append_right _ _)
        split
        · exact (List.filter_sublist).append (List.Sublist.refl _)
        · exact List.Sublist.refl _

/-- What is returned and what is pending after an event was pending before. -/
theorem pending_step (e : KeyboardEvent) :
    ((e.result s).filter (· != 0) ++ pending (e.exec s) events).Sublist (pending s (e :: events)) := by
  cases e with
  | isr scancode => exact pending_isr
  | poll => exact List.Sublist.refl _
  | activate => exact List.Sublist.refl _
  | deactivate => exact List.Sublist.refl _

theorem delivered_sublist_pending : (delivered events s).Sublist (pending s events) := by
  induction events generalizing s with
  | nil => exact List.nil_sublist _
  | cons e events ih =>
    have hcons : delivered (e :: events) s = (e.result s).filter (· != 0) ++ delivered events (e.exec s) :=
      List.filter_append ..
    rw [hcons]
    exact ((List.Sublist.refl _).append ih).trans (pending_step e)

/-- **The characters that are delivered were typed**, in this order, and each is delivered once. -/
theorem delivered_sublist_typed (events : List KeyboardEvent) :
    (delivered events initialKeyboardDriverState).Sublist (typed false false events) :=
  delivered_sublist_pending

/-- A key before the input is on, an arrow key, and a key that is held. -/
example : delivered [.isr 0x1E, .activate, .isr 0xE0, .isr 0x48, .isr 0x30, .poll, .poll] initialKeyboardDriverState =
    [98] := by decide

/-! ## More events -/

theorem polled_append (events events' : List KeyboardEvent) (s : KeyboardDriverState) :
    polled (events ++ events') s = polled events s ++ polled events' (events.foldl KeyboardEvent.exec s) := by
  induction events generalizing s with
  | nil => rfl
  | cons e events ih => rw [List.cons_append, polled, polled, ih, List.append_assoc, List.foldl_cons]

theorem readCodes_append (events events' : List KeyboardEvent) (s : KeyboardDriverState) :
    readCodes s.keyboardInputOn (events ++ events') = readCodes s.keyboardInputOn events ++
      readCodes (events.foldl KeyboardEvent.exec s).keyboardInputOn events' := by
  induction events generalizing s with
  | nil => rfl
  | cons e events ih =>
    rw [List.cons_append, List.foldl_cons]
    have hrest := ih (e.exec s)
    cases e with
    | isr scancode =>
      rw [KeyboardEvent.exec, keyboardIsr_inputOn] at hrest
      rw [readCodes, readCodes, hrest]
      split
      · rfl
      · rfl
    | poll => exact hrest
    | activate => exact hrest
    | deactivate => exact hrest

end Events

end Os2024
