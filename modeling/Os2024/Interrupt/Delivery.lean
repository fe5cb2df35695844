import Os2024.Interrupt.Pic
import Os2024.Properties.Keyboard

/-!
# From a key to the driver

A processor that runs `pic_remap` with its interrupts off, then `sti` and `activate_keyboard_interrupt`, and whatever
comes after. The devices go on between any two port accesses, also between those of a handler. The handler runs with
interrupts off; exceptions and software interrupts enter it too.

`Delivery.Kept` is the invariant: where the handler is in its accesses says which bits of the controllers are set, and
the scancodes that were read are the first of those that were sent.
-/

namespace Os2024

open Ports Scan

/-! ## Requests -/

/-- The controllers once they are initialized; `busy` says that the interrupt of the keyboard is in service. -/
def listening (imr : UInt8) (busy : Bool) : PicControl × PicControl :=
  ({ initialized 0x20 0b0100 imr with isr := if busy then Function.update (fun _ => false) irqKeyboard true else fun _ => false },
    initialized 0x28 0b0010 0xFF)

section Requests

variable {d : Devices} {imr : UInt8} {busy : Bool} {lines : Fin 8 → Bool} {i : Fin 8}

theorem masked_all (i : Fin 8) : (listening 0xFF busy).1.masked i = true := by
  have hall : ∀ i : Fin 8, (0xFF : UInt8).toNat.testBit i = true := by decide
  exact hall i

theorem masked_but_keyboard (i : Fin 8) : (listening 0xFD busy).1.masked i = decide (i ≠ irqKeyboard) := by
  have hall : ∀ i : Fin 8, (0xFD : UInt8).toNat.testBit i = decide (i ≠ irqKeyboard) := by decide
  exact hall i

theorem listening_isr (i : Fin 8) : (listening imr busy).1.isr i = (busy && decide (i = irqKeyboard)) := by
  cases busy with
  | false => rfl
  | true => exact Function.update_apply (fun _ => false) irqKeyboard true i

theorem request_masked : (listening 0xFF busy).1.request lines = none := by
  refine firstFrom_eq_none.mpr fun i _ => ?_
  rw [masked_all, Bool.not_true, Bool.and_false, Bool.false_and]

/-- With all lines masked but that of the keyboard, only it can be requested. -/
theorem request_listening :
    (listening 0xFD busy).1.request lines = if lines irqKeyboard && !busy then some irqKeyboard else none := by
  simp only [PicControl.request, masked_but_keyboard, listening_isr]
  split
  · next hreq =>
    obtain ⟨hline, hidle⟩ := (Bool.and_eq_true _ _).mp hreq
    refine firstFrom_eq_some.mpr ⟨Nat.zero_le _, ?_, fun j _ hj => ?_⟩
    · rw [hline, (Bool.not_eq_true' busy).mp hidle]
      decide
    · rw [decide_eq_true hj.ne, Bool.not_true, Bool.and_false, Bool.false_and]
  · next hreq =>
    refine firstFrom_eq_none.mpr fun i _ => Bool.eq_false_iff.mpr fun hi => hreq ?_
    simp only [Bool.and_eq_true, Bool.not_eq_true', decide_eq_false_iff_not, not_not, decide_eq_true_eq] at hi
    obtain ⟨⟨hline, rfl⟩, hfree⟩ := hi
    have hidle := hfree irqKeyboard le_rfl
    rw [decide_eq_true rfl, Bool.and_true] at hidle
    rw [hline, hidle]
    rfl

theorem Devices.master_of_controls {c : PicControl × PicControl} (h : d.controls = c) : d.master.control = c.1 :=
  congrArg Prod.fst h

theorem Devices.request_masked (h : d.controls = listening 0xFF busy) : d.request = none := by
  rw [Devices.request, Devices.requested, Devices.master_of_controls h, Os2024.request_masked, Option.map_none]

theorem Devices.lines_keyboard (d : Devices) : d.lines irqKeyboard = d.master.irr irqKeyboard := Function.update_of_ne (by decide) ..

theorem Devices.requested_listening (h : d.controls = listening 0xFD busy) :
    d.requested = if d.master.irr irqKeyboard && !busy then some irqKeyboard else none := by
  rw [Devices.requested, Devices.master_of_controls h, request_listening, Devices.lines_keyboard]

/-- The only vector is that of the keyboard. -/
theorem Devices.request_listening (h : d.controls = listening 0xFD busy) :
    d.request = if d.master.irr irqKeyboard && !busy then some 0x21 else none := by
  rw [Devices.request, Devices.requested_listening h]
  split
  · rw [Option.map_some, Devices.vector, if_neg (by decide), Devices.master_of_controls h]
    rfl
  · rfl

/-- The processor takes the interrupt of the keyboard. -/
theorem Devices.acknowledge_listening (h : d.controls = listening 0xFD false) (hirr : d.master.irr irqKeyboard = true) :
    d.acknowledge.controls = listening 0xFD true ∧ d.acknowledge.master.irr irqKeyboard = false ∧
      d.acknowledge.keyboard = d.keyboard := by
  have hreq : d.requested = some irqKeyboard := by
    rw [Devices.requested_listening h, hirr]
    rfl
  rw [Devices.acknowledge, hreq]
  have hlow : (d.master.acknowledge irqKeyboard).irr irqKeyboard = false := by simp [Pic.acknowledge]
  refine ⟨?_, hlow, rfl⟩
  have hslave : d.slave.control = (listening 0xFD true).2 := congrArg Prod.snd h
  have hmaster : d.master.control.acknowledge 1 = (listening 0xFD true).1 := by
    rw [Devices.master_of_controls h]
    exact if_pos (by decide)
  exact Prod.ext hmaster hslave

/-- The end of an interrupt. -/
theorem listening_command : (listening imr true).1.command 0x20 = (listening imr false).1 := by
  have hserved : (listening imr true).1.served = some irqKeyboard := by
    refine firstFrom_eq_some.mpr ⟨Nat.zero_le _, listening_isr irqKeyboard, fun j _ hj => ?_⟩
    rw [listening_isr, Bool.true_and, decide_eq_false_iff_not]
    exact hj.ne
  have hicw1 : ¬ (0x20 : UInt8) &&& 0x10 ≠ 0 := by decide
  rw [PicControl.command, if_neg hicw1, if_pos rfl, hserved]
  have hisr : Function.update (listening imr true).1.isr irqKeyboard false = (listening imr false).1.isr := by
    funext i
    rw [Function.update_apply, listening_isr, listening_isr]
    split <;> simp_all
  simp only [hisr]
  rfl

end Requests

/-! ## The run of the processor -/

/-- The scancode that the next access of a program reads, if it reads one. -/
def codesRead {α : Type} (p : Port.Code α) (d : Devices) : List UInt8 :=
  match p with
  | .read port _ => if port = keyboardDataPort then [d.keyboard.data] else []
  | _ => []

/-- The processor with its devices, and what has happened. -/
structure Delivery where
  devices : Devices
  /-- What is left of `pic_remap`, and after `sti` of `activate_keyboard_interrupt`. -/
  main : Port.Code Unit
  /-- The interrupt flag, outside of handlers. -/
  interruptFlag : Bool
  /-- What is left of `main_interrupt_handler`. -/
  handler : Option (Port.Code KeyboardDriverState)
  driver : KeyboardDriverState
  /-- The scancodes that the keyboard had room for. -/
  sent : List UInt8
  /-- The scancodes that were read. -/
  taken : List UInt8
  /-- The calls of the driver; a `keyboard_isr` that reads nothing is not listed. -/
  events : List KeyboardEvent
  /-- What the polls returned. -/
  received : List UInt8
  /-- The vectors of the interrupts that were taken. -/
  vectors : List UInt8

namespace Delivery

/-- The keyboard sends a scancode. -/
def keyed (s : Delivery) (scancode : UInt8) : Delivery :=
  { s with
    devices := { s.devices with keyboard := s.devices.keyboard.send scancode }
    sent := s.sent ++ if s.devices.keyboard.accepts then [scancode] else [] }

/-- The processor takes an interrupt. -/
def interrupted (s : Delivery) (v : UInt8) : Delivery :=
  { s with
    devices := s.devices.acknowledge
    handler := some (Port.mainInterruptHandler v.toUInt32 s.driver)
    vectors := s.vectors ++ [v] }

/-- The handler has made an access. -/
def handled (s : Delivery) (p q : Port.Code KeyboardDriverState) (d : Devices) : Delivery :=
  { s with
    devices := d
    handler := some q
    taken := s.taken ++ codesRead p s.devices
    events := s.events ++ (codesRead p s.devices).map .isr }

/-- A call of another function of the driver. -/
def called (s : Delivery) (e : KeyboardEvent) : Delivery :=
  { s with driver := e.exec s.driver, events := s.events ++ [e], received := s.received ++ e.result s.driver }

/-- A step of the devices or of the processor. -/
inductive Step : Delivery → Delivery → Prop
  | key (s : Delivery) (scancode : UInt8) : Step s (s.keyed scancode)
  | transfer (s : Delivery) : Step s { s with devices := s.devices.transfer }
  | lines (s : Delivery) (irr irr' : Fin 8 → Bool) (h : irr irqKeyboard = s.devices.master.irr irqKeyboard) :
      Step s { s with devices := s.devices.withLines irr irr' }
  | main {s : Delivery} {p : Port.Code Unit} {d : Devices} (hh : s.handler = none)
      (hacc : deviceBus.access s.main s.devices = some (p, d)) : Step s { s with main := p, devices := d }
  | sti {s : Delivery} (hh : s.handler = none) (hf : s.interruptFlag = false) (hm : s.main = .done ()) :
      Step s { s with main := Port.activateKeyboardInterrupt, interruptFlag := true }
  | interrupt {s : Delivery} {v : UInt8} (hh : s.handler = none) (hf : s.interruptFlag = true)
      (hreq : s.devices.request = some v) : Step s (s.interrupted v)
  /-- An exception or a software interrupt. -/
  | trap {s : Delivery} {intNumber : UInt32} (hh : s.handler = none) (hf : s.interruptFlag = true)
      (hv : intNumber < 0x20 ∨ 0x30 ≤ intNumber) :
      Step s { s with handler := some (Port.mainInterruptHandler intNumber s.driver) }
  | handler {s : Delivery} {p q : Port.Code KeyboardDriverState} {d : Devices} (hh : s.handler = some p)
      (hacc : deviceBus.access p s.devices = some (q, d)) : Step s (s.handled p q d)
  | iret {s : Delivery} {driver : KeyboardDriverState} (hh : s.handler = some (.done driver)) :
      Step s { s with handler := none, driver := driver }
  | call {s : Delivery} {e : KeyboardEvent} (hh : s.handler = none) (hf : s.interruptFlag = true)
      (hm : s.main = .done ()) (he : ∀ scancode, e ≠ .isr scancode) : Step s (s.called e)

/-- A finite run. -/
abbrev Reaches : Delivery → Delivery → Prop := Relation.ReflTransGen Step

/-- `pic_remap` is about to run. The devices are in any state. -/
structure Starts (s : Delivery) : Prop where
  main : s.main = Port.picRemap
  interruptFlag : s.interruptFlag = false
  handler : s.handler = none
  driver : s.driver = initialKeyboardDriverState
  sent : s.sent = s.devices.keyboard.pending
  taken : s.taken = []
  events : s.events = []
  received : s.received = []
  vectors : s.vectors = []

end Delivery

/-! ## Quiet changes -/

/-- A change that no program has made: it does not program the controllers, and what it does to the output buffer and
to the request of the keyboard it does to both. -/
structure Devices.Quiet (d d' : Devices) : Prop where
  controls : d'.controls = d.controls
  kept : d.keyboard.full = true → d'.keyboard.full = true ∧ d'.master.irr irqKeyboard = d.master.irr irqKeyboard
  raised : d.keyboard.full = false → d'.keyboard.full = false ∧ d'.master.irr irqKeyboard = d.master.irr irqKeyboard ∨
    d'.keyboard.full = true ∧ d'.master.irr irqKeyboard = true

section Quiet

variable {d d' : Devices} {scancode : UInt8}

theorem KeyboardController.send_full (c : KeyboardController) : (c.send scancode).full = c.full := by
  unfold send
  split <;> rfl

theorem KeyboardController.pending_send (c : KeyboardController) :
    (c.send scancode).pending = c.pending ++ if c.accepts then [scancode] else [] := by
  unfold send
  split
  · exact (List.append_assoc ..).symm
  · exact (List.append_nil _).symm

theorem Devices.quiet_send (d : Devices) (scancode : UInt8) : d.Quiet { d with keyboard := d.keyboard.send scancode } where
  controls := rfl
  kept h := ⟨d.keyboard.send_full.trans h, rfl⟩
  raised h := .inl ⟨d.keyboard.send_full.trans h, rfl⟩

theorem Devices.Change.quiet (h : d.Change d') : d.Quiet d' := by
  cases h with
  | key scancode => exact d.quiet_send scancode
  | transfer =>
    unfold Devices.transfer
    split
    · next hfull _ => exact ⟨rfl, fun h => absurd (hfull.symm.trans h) Bool.false_ne_true, fun _ => .inr ⟨rfl, by simp⟩⟩
    · exact ⟨rfl, fun h => ⟨h, rfl⟩, fun h => .inl ⟨h, rfl⟩⟩
  | lines irr irr' h => exact ⟨rfl, fun hf => ⟨hf, h⟩, fun hf => .inl ⟨hf, h⟩⟩

end Quiet

/-! ## The invariant -/

/-- A request of the keyboard is there for a scancode that is in the output buffer. -/
def Devices.Latched (d : Devices) : Prop := d.master.irr irqKeyboard = true → d.keyboard.full = true

namespace Delivery

variable {s t : Delivery} {busy : Bool} {d : Devices}

/-- The driver after the calls. -/
def settled (s : Delivery) : KeyboardDriverState := s.events.foldl KeyboardEvent.exec initialKeyboardDriverState

/-- Where the handler is; `busy` says that the interrupt of the keyboard is in service. -/
inductive Handling (s : Delivery) : (busy : Bool) → Prop
  | outside (hh : s.handler = none) (hd : s.driver = s.settled) : Handling s false
  | entered (hh : s.handler = some (.read keyboardDataPort fun scancode =>
        .write pic1Command 0x20 (.done (s.settled.keyboardIsr scancode))))
      (hon : s.settled.keyboardInputOn = true) (hfull : s.devices.keyboard.full = true)
      (hirr : s.devices.master.irr irqKeyboard = false) : Handling s true
  | acking (hh : s.handler = some (.write pic1Command 0x20 (.done s.settled))) : Handling s true
  | acked (hh : s.handler = some (.done s.settled)) : Handling s false

/-- How far the processor is. -/
inductive Stage (s : Delivery) : Prop
  | remapping (hf : s.interruptFlag = false) (hh : s.handler = none) (hd : s.driver = s.settled)
      (huses : s.main.Uses fun port => port ≠ keyboardDataPort)
      (hrun : controlBus.run s.main s.devices.controls = ((), initializedControls 0xFF))
      (hl : s.main = Port.picRemap ∨ s.devices.Latched)
  | activating (hf : s.interruptFlag = true) (hh : s.Handling false) (hc : s.devices.controls = listening 0xFF false)
      (hm : s.main = Port.activateKeyboardInterrupt ∨ s.main = .out pic1Data 0xFD) (hl : s.devices.Latched)
  | ready {busy : Bool} (hf : s.interruptFlag = true) (hh : s.Handling busy)
      (hc : s.devices.controls = listening 0xFD busy) (hm : s.main = .done ()) (hl : s.devices.Latched)

/-- The invariant. -/
structure Kept (s : Delivery) : Prop where
  stage : s.Stage
  sent : s.sent = s.taken ++ s.devices.keyboard.pending
  taken : s.taken = readCodes false s.events
  received : s.received = polled s.events initialKeyboardDriverState
  vectors : ∀ v ∈ s.vectors, v = 0x21

end Delivery

/-! ## The devices keep it -/

section DeviceSteps

variable {s : Delivery} {d d' : Devices} {busy : Bool} {sent : List UInt8}

theorem Devices.Latched.quiet (h : d.Latched) (hq : d.Quiet d') : d'.Latched := by
  intro hirr
  cases hfull : d.keyboard.full with
  | true => exact (hq.kept hfull).1
  | false =>
    rcases hq.raised hfull with ⟨-, hsame⟩ | ⟨hfull', -⟩
    · exact absurd (h (hsame.symm.trans hirr)) (Bool.eq_false_iff.mp hfull)
    · exact hfull'

theorem Delivery.Handling.quiet (h : s.Handling busy) (hq : s.devices.Quiet d) :
    Delivery.Handling { s with devices := d, sent := sent } busy := by
  cases h with
  | outside hh hd => exact .outside hh hd
  | entered hh hon hfull hirr => exact .entered hh hon (hq.kept hfull).1 ((hq.kept hfull).2.trans hirr)
  | acking hh => exact .acking hh
  | acked hh => exact .acked hh

theorem Delivery.Stage.quiet (h : s.Stage) (hq : s.devices.Quiet d) :
    Delivery.Stage { s with devices := d, sent := sent } := by
  cases h with
  | remapping hf hh hd huses hrun hl =>
    exact .remapping hf hh hd huses (by rw [← hrun, hq.controls]) (hl.imp_right fun hl => hl.quiet hq)
  | activating hf hh hc hm hl => exact .activating hf (hh.quiet hq) (hq.controls.trans hc) hm (hl.quiet hq)
  | ready hf hh hc hm hl => exact .ready hf (hh.quiet hq) (hq.controls.trans hc) hm (hl.quiet hq)

theorem Devices.pending_transfer (d : Devices) : d.transfer.keyboard.pending = d.keyboard.pending := by
  unfold transfer
  split
  · next hfull hqueue => rw [KeyboardController.pending, KeyboardController.pending, hfull, hqueue]; rfl
  · rfl

end DeviceSteps

/-! ## The programs keep it -/

section ProgramSteps

variable {s : Delivery} {d : Devices} {busy : Bool}

/-- Accesses to other ports leave the keyboard alone and raise no request. -/
theorem access_other {α : Type} {p q : Port.Code α} {d d' : Devices} (hp : p.Uses fun port => port ≠ keyboardDataPort)
    (hacc : deviceBus.access p d = some (q, d')) :
    d'.keyboard = d.keyboard ∧ (d'.master.irr irqKeyboard = true → d.master.irr irqKeyboard = true) := by
  cases p with
  | done a => cases hacc
  | read port next =>
    cases hacc
    simp only [deviceBus, if_neg hp.1]
    split
    · exact ⟨rfl, id⟩
    · split <;> exact ⟨rfl, id⟩
  | write port value next =>
    cases hacc
    simp only [deviceBus]
    split
    · refine ⟨rfl, ?_⟩
      simp only [Pic.command]
      split
      · intro h
        cases h
      · exact id
    · split
      · exact ⟨rfl, id⟩
      · split
        · exact ⟨rfl, id⟩
        · split <;> exact ⟨rfl, id⟩

theorem Devices.Latched.access {α : Type} {p q : Port.Code α} {d d' : Devices} (h : d.Latched)
    (hp : p.Uses fun port => port ≠ keyboardDataPort) (hacc : deviceBus.access p d = some (q, d')) : d'.Latched := by
  obtain ⟨hkeyboard, hirr⟩ := access_other hp hacc
  intro hraised
  rw [hkeyboard]
  exact h (hirr hraised)

/-- The first access of `pic_remap` clears the requests. -/
theorem picRemap_latched {p : Port.Code Unit} {d d' : Devices}
    (hacc : deviceBus.access Port.picRemap d = some (p, d')) : d'.Latched := by
  cases hacc
  intro hraised
  cases hraised

theorem out_mask_uses : (Program.out pic1Data 0xFD : Port.Code Unit).Uses fun port => port ≠ keyboardDataPort :=
  ⟨by decide, trivial⟩

theorem Delivery.Kept.main {p : Port.Code Unit} (h : s.Kept) (hh : s.handler = none)
    (hacc : deviceBus.access s.main s.devices = some (p, d)) : Delivery.Kept { s with main := p, devices := d } := by
  have hmain : d.keyboard = s.devices.keyboard ∧ Delivery.Stage { s with main := p, devices := d } := by
    cases h.stage with
    | remapping hf _ hd huses hrun hl =>
      obtain ⟨huses', hacc'⟩ := deviceBus_projects.access huses hacc
      refine ⟨(access_other huses hacc).1, .remapping hf hh hd huses' ((Bus.run_access hacc').trans hrun) (.inr ?_)⟩
      rcases hl with hfirst | hl
      · rw [hfirst] at hacc
        exact picRemap_latched hacc
      · exact hl.access huses hacc
    | activating hf hhandling hc hm hl =>
      rcases hm with hm | hm
      · rw [hm] at hacc
        cases hacc
        have himr : s.devices.master.control.imr = 0xFF := congrArg PicControl.imr (Devices.master_of_controls hc)
        refine ⟨rfl, .activating hf ?_ hc (.inr ?_) hl⟩
        · cases hhandling with
          | outside hh hd => exact .outside hh hd
          | acked hh' => exact .acked hh'
        · change Program.out pic1Data (s.devices.master.control.imr &&& ~~~((1 : UInt8) <<< 1)) = _
          rw [himr]
          rfl
      · rw [hm] at hacc
        have hl' := hl.access out_mask_uses hacc
        cases hacc
        have hmaster : s.devices.master.control.data 0xFD = (listening 0xFD false).1 := by
          rw [Devices.master_of_controls hc]
          rfl
        have hslave : s.devices.slave.control = (listening 0xFD false).2 := congrArg Prod.snd hc
        refine ⟨rfl, .ready hf ?_ (Prod.ext hmaster hslave) rfl hl'⟩
        cases hhandling with
        | outside hh hd => exact .outside hh hd
        | acked hh' => exact .acked hh'
    | ready hf hhandling hc hm hl =>
      rw [hm] at hacc
      cases hacc
  exact ⟨hmain.2, hmain.1.symm ▸ h.sent, h.taken, h.received, h.vectors⟩

theorem Delivery.Kept.sti (h : s.Kept) (hh : s.handler = none) (hf : s.interruptFlag = false) (hm : s.main = .done ()) :
    Delivery.Kept { s with main := Port.activateKeyboardInterrupt, interruptFlag := true } := by
  refine ⟨?_, h.sent, h.taken, h.received, h.vectors⟩
  cases h.stage with
  | remapping _ _ hd _ hrun hl =>
    have hc : s.devices.controls = listening 0xFF false := by
      rw [hm] at hrun
      exact congrArg Prod.snd hrun
    refine .activating rfl (.outside hh hd) hc (.inl rfl) ?_
    rcases hl with hfirst | hl
    · rw [hm] at hfirst
      cases hfirst
    · exact hl
  | activating hf' => exact absurd (hf.symm.trans hf') Bool.false_ne_true
  | ready hf' => exact absurd (hf.symm.trans hf') Bool.false_ne_true

theorem Delivery.settled_called (e : KeyboardEvent) : (s.called e).settled = e.exec s.settled := List.foldl_append ..

theorem Delivery.settled_handled (p q : Port.Code KeyboardDriverState) (d : Devices) : (s.handled p q d).settled =
    ((codesRead p s.devices).map .isr).foldl KeyboardEvent.exec s.settled := List.foldl_append ..

theorem Port.mainInterruptHandler_trap {intNumber : UInt32} {driver : KeyboardDriverState}
    (hv : intNumber < 0x20 ∨ 0x30 ≤ intNumber) : Port.mainInterruptHandler intNumber driver = .done driver := by
  refine if_neg ?_
  rintro rfl
  revert hv
  decide

theorem Delivery.Kept.interrupt {v : UInt8} (h : s.Kept) (hh : s.handler = none) (hf : s.interruptFlag = true)
    (hreq : s.devices.request = some v) : v = 0x21 ∧ s.devices.controls = listening 0xFD false ∧
      s.devices.master.irr irqKeyboard = true ∧ (s.interrupted v).Kept := by
  cases h.stage with
  | remapping hf' => exact absurd (hf'.symm.trans hf) Bool.false_ne_true
  | activating _ _ hc =>
    rw [Devices.request_masked hc] at hreq
    cases hreq
  | @ready busy _ hhandling hc hm hl =>
    rw [Devices.request_listening hc] at hreq
    cases hhandling with
    | entered hh' => cases hh.symm.trans hh'
    | acking hh' => cases hh.symm.trans hh'
    | acked hh' => cases hh.symm.trans hh'
    | outside _ hd =>
      cases hirr : s.devices.master.irr irqKeyboard with
      | false =>
        rw [hirr] at hreq
        cases hreq
      | true =>
        rw [hirr] at hreq
        obtain rfl : 0x21 = v := Option.some.inj hreq
        obtain ⟨hc', hirr', hkeyboard⟩ := Devices.acknowledge_listening hc hirr
        have hhandler : (s.interrupted 0x21).handler = some (Port.keyboardIsr s.settled) := by
          rw [← hd]
          rfl
        have hl' : s.devices.acknowledge.Latched := fun hraised => absurd (hirr'.symm.trans hraised) Bool.false_ne_true
        refine ⟨rfl, hc, rfl, .ready hf ?_ hc' hm hl', hkeyboard.symm ▸ h.sent, h.taken, h.received, ?_⟩
        · cases hon : s.settled.keyboardInputOn with
          | true =>
            rw [Port.keyboardIsr_on hon] at hhandler
            exact .entered hhandler hon ((congrArg KeyboardController.full hkeyboard).trans (hl hirr)) hirr'
          | false =>
            rw [Port.keyboardIsr_off hon] at hhandler
            exact .acking hhandler
        · intro v hv
          rcases List.mem_append.mp hv with hv | hv
          · exact h.vectors v hv
          · exact List.mem_singleton.mp hv

theorem Delivery.Kept.trap {intNumber : UInt32} (h : s.Kept) (hh : s.handler = none) (hf : s.interruptFlag = true)
    (hv : intNumber < 0x20 ∨ 0x30 ≤ intNumber) :
    Delivery.Kept { s with handler := some (Port.mainInterruptHandler intNumber s.driver) } := by
  rw [Port.mainInterruptHandler_trap hv]
  refine ⟨?_, h.sent, h.taken, h.received, h.vectors⟩
  cases h.stage with
  | remapping hf' => exact absurd (hf'.symm.trans hf) Bool.false_ne_true
  | activating _ hhandling hc hm hl =>
    cases hhandling with
    | outside _ hd => exact .activating hf (.acked (congrArg (fun d => some (Program.done d)) hd)) hc hm hl
    | acked hh' => cases hh.symm.trans hh'
  | ready _ hhandling hc hm hl =>
    cases hhandling with
    | outside _ hd => exact .ready hf (.acked (congrArg (fun d => some (Program.done d)) hd)) hc hm hl
    | entered hh' => cases hh.symm.trans hh'
    | acking hh' => cases hh.symm.trans hh'
    | acked hh' => cases hh.symm.trans hh'

theorem Delivery.Kept.iret {driver : KeyboardDriverState} (h : s.Kept) (hh : s.handler = some (.done driver)) :
    Delivery.Kept { s with handler := none, driver := driver } := by
  refine ⟨?_, h.sent, h.taken, h.received, h.vectors⟩
  have hdone : ∀ {busy}, s.Handling busy → busy = false ∧ driver = s.settled := by
    intro busy hhandling
    cases hhandling with
    | outside hh' => cases hh.symm.trans hh'
    | entered hh' => cases hh.symm.trans hh'
    | acking hh' => cases hh.symm.trans hh'
    | acked hh' =>
      cases hh.symm.trans hh'
      exact ⟨rfl, rfl⟩
  cases h.stage with
  | remapping _ hh' => cases hh.symm.trans hh'
  | activating hf hhandling hc hm hl => exact .activating hf (.outside rfl (hdone hhandling).2) hc hm hl
  | ready hf hhandling hc hm hl =>
    obtain ⟨rfl, hd⟩ := hdone hhandling
    exact .ready hf (.outside rfl hd) hc hm hl

theorem Delivery.Kept.call {e : KeyboardEvent} (h : s.Kept) (hh : s.handler = none) (hf : s.interruptFlag = true)
    (hm : s.main = .done ()) (he : ∀ scancode, e ≠ .isr scancode) : (s.called e).Kept := by
  cases h.stage with
  | remapping hf' => exact absurd (hf'.symm.trans hf) Bool.false_ne_true
  | activating _ _ _ hm' => rcases hm' with hm' | hm' <;> cases hm.symm.trans hm'
  | ready _ hhandling hc _ hl =>
    cases hhandling with
    | entered hh' => cases hh.symm.trans hh'
    | acking hh' => cases hh.symm.trans hh'
    | acked hh' => cases hh.symm.trans hh'
    | outside _ hd =>
      have hd' : (s.called e).driver = (s.called e).settled := by
        rw [Delivery.settled_called, Delivery.called, hd]
      refine ⟨.ready hf (.outside hh hd') hc hm hl, h.sent, ?_, ?_, h.vectors⟩
      · have hnone : ∀ on, readCodes on [e] = [] := by
          intro on
          cases e with
          | isr scancode => exact absurd rfl (he scancode)
          | poll => rfl
          | activate => rfl
          | deactivate => rfl
        rw [Delivery.called, h.taken]
        refine ((readCodes_append s.events [e] initialKeyboardDriverState).trans ?_).symm
        rw [hnone, List.append_nil]
        rfl
      · rw [Delivery.called, h.received, polled_append, hd]
        exact congrArg _ (List.append_nil _).symm

theorem readCodes_isr (codes : List UInt8) : readCodes true (codes.map .isr) = codes := by
  induction codes with
  | nil => rfl
  | cons c codes ih => exact congrArg (c :: ·) ih

theorem polled_isr (codes : List UInt8) (driver : KeyboardDriverState) : polled (codes.map .isr) driver = [] := by
  induction codes generalizing driver with
  | nil => rfl
  | cons c codes ih => exact ih _

/-- What is known of the past stays so if scancodes are read with the input on. -/
theorem Delivery.Kept.log {p q : Port.Code KeyboardDriverState} (h : s.Kept)
    (hon : codesRead p s.devices ≠ [] → s.settled.keyboardInputOn = true)
    (hpending : s.devices.keyboard.pending = codesRead p s.devices ++ d.keyboard.pending)
    (hstage : (s.handled p q d).Stage) : (s.handled p q d).Kept := by
  refine ⟨hstage, ?_, ?_, ?_, h.vectors⟩
  · rw [Delivery.handled, h.sent, hpending, List.append_assoc]
  · rw [Delivery.handled, h.taken]
    refine Eq.symm ((readCodes_append s.events _ initialKeyboardDriverState).trans (congrArg (_ ++ ·) ?_))
    cases hcodes : codesRead p s.devices with
    | nil => rfl
    | cons c codes =>
      have hon' : (s.events.foldl KeyboardEvent.exec initialKeyboardDriverState).keyboardInputOn = true :=
        hon (hcodes ▸ List.cons_ne_nil c codes)
      rw [hon', readCodes_isr]
  · rw [Delivery.handled, h.received, polled_append, polled_isr, List.append_nil]

theorem Delivery.Kept.handler {p q : Port.Code KeyboardDriverState} (h : s.Kept) (hh : s.handler = some p)
    (hacc : deviceBus.access p s.devices = some (q, d)) : (s.handled p q d).Kept := by
  have hbusy : ∀ {busy}, s.Handling busy → busy = true := by
    intro busy hhandling
    cases hhandling with
    | outside hh' => cases hh.symm.trans hh'
    | entered => rfl
    | acking => rfl
    | acked hh' =>
      cases hh.symm.trans hh'
      cases hacc
  cases h.stage with
  | remapping _ hh' => cases hh.symm.trans hh'
  | activating _ hhandling => cases hbusy hhandling
  | ready hf hhandling hc hm hl =>
    cases hhandling with
    | outside hh' => cases hh.symm.trans hh'
    | acked hh' => cases hbusy (.acked hh')
    | entered hh' hon hfull hirr =>
      cases hh.symm.trans hh'
      cases hacc
      refine h.log (fun _ => hon) ?_ (.ready hf (.acking ?_) hc hm fun hraised => ?_)
      · rw [KeyboardController.pending, hfull]
        rfl
      · rw [Delivery.settled_handled]
        rfl
      · exact absurd (hirr.symm.trans hraised) Bool.false_ne_true
    | acking hh' =>
      cases hh.symm.trans hh'
      have hl' := hl.access (p := .write pic1Command 0x20 (.done s.settled)) ⟨by decide, trivial⟩ hacc
      cases hacc
      have hmaster : s.devices.master.control.command 0x20 = (listening 0xFD false).1 := by
        rw [Devices.master_of_controls hc, listening_command]
      have hslave : s.devices.slave.control = (listening 0xFD false).2 := congrArg Prod.snd hc
      refine h.log (fun hne => absurd rfl hne) rfl (.ready hf (.acked ?_) (Prod.ext hmaster hslave) hm hl')
      rw [Delivery.settled_handled]
      rfl

/-! ## Runs -/

theorem Delivery.Starts.kept (h : s.Starts) : s.Kept where
  stage := by
    have hsettled : s.driver = s.settled := by
      rw [h.driver, Delivery.settled, h.events]
      rfl
    refine .remapping h.interruptFlag h.handler hsettled ?_ ?_ (.inl h.main)
    · rw [h.main]
      exact Port.picRemap_uses
    · rw [h.main]
      exact picRemap_run _
  sent := by rw [h.sent, h.taken, List.nil_append]
  taken := by rw [h.taken, h.events]; rfl
  received := by rw [h.received, h.events]; rfl
  vectors := by rw [h.vectors]; exact fun v hv => absurd hv List.not_mem_nil

theorem Delivery.Step.kept {t : Delivery} (hstep : Delivery.Step s t) (h : s.Kept) : t.Kept := by
  cases hstep with
  | key scancode =>
    refine ⟨h.stage.quiet (s.devices.quiet_send scancode), ?_, h.taken, h.received, h.vectors⟩
    rw [Delivery.keyed, KeyboardController.pending_send, h.sent, List.append_assoc]
  | transfer =>
    have hquiet : s.devices.Quiet s.devices.transfer := (Devices.Change.transfer s.devices).quiet
    exact ⟨h.stage.quiet hquiet, by rw [s.devices.pending_transfer]; exact h.sent, h.taken, h.received, h.vectors⟩
  | lines irr irr' hirr =>
    exact ⟨h.stage.quiet (Devices.Change.lines s.devices irr irr' hirr).quiet, h.sent, h.taken, h.received, h.vectors⟩
  | main hh hacc => exact h.main hh hacc
  | sti hh hf hm => exact h.sti hh hf hm
  | interrupt hh hf hreq => exact (h.interrupt hh hf hreq).2.2.2
  | trap hh hf hv => exact h.trap hh hf hv
  | handler hh hacc => exact h.handler hh hacc
  | iret hh => exact h.iret hh
  | call hh hf hm he => exact h.call hh hf hm he

theorem Delivery.Reaches.kept {t : Delivery} (hrun : Delivery.Reaches s t) (h : s.Kept) : t.Kept := by
  induction hrun with
  | refl => exact h
  | tail _ hstep ih => exact hstep.kept ih

end ProgramSteps

end Os2024
