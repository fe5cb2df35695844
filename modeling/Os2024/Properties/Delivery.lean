import Os2024.Interrupt.Delivery

/-!
# Keys that reach the driver, and keys that do not

The scancodes that the driver has read are the first of those that were sent, in order and each once, and no interrupt
but that of the keyboard is ever taken: `keyboard_delivery`.

`keyboard_isr` acknowledges an interrupt also when the input is off, and then it leaves the scancode where it is. The
keyboard raises no further request until somebody reads it, so from then on nobody does: a keyboard is lost for good
(`Delivery.Deaf`) by the first interrupt that comes with the input off (`keyboard_lost`), and only so (`keyboard_heard`).
-/

namespace Os2024

open Ports

/-! ## `pic_remap` -/

section Remap

variable {d d' : Devices}

/-- **`pic_remap` under interference**: whatever the controllers were doing, and whatever keys and lines do meanwhile,
they are initialized and all lines are masked; `activate_keyboard_interrupt` then lets the keyboard through, and only it. -/
theorem picRemap_masks {d₁ d₂ d₃ : Devices}
    (hremap : Relation.ReflTransGen (Ports.Step deviceBus Devices.Change) (Port.picRemap, d) (.done (), d₁))
    (hwait : Relation.ReflTransGen Devices.Change d₁ d₂)
    (hactivate : Relation.ReflTransGen (Ports.Step deviceBus Devices.Change)
      (Port.activateKeyboardInterrupt, d₂) (.done (), d₃)) :
    d₁.controls = initializedControls 0xFF ∧ d₁.request = none ∧ d₂.request = none ∧
      d₃.request = if d₃.master.irr irqKeyboard then some 0x21 else none := by
  have h₁ : d₁.controls = initializedControls 0xFF := by
    have hreturns := deviceBus_projects.returns hremap Port.picRemap_uses
    rw [picRemap_run] at hreturns
    exact congrArg Prod.snd hreturns
  have h₂ : d₂.controls = initializedControls 0xFF := by
    rw [← h₁]
    clear hremap hactivate
    induction hwait with
    | refl => rfl
    | tail _ hchange ih => exact hchange.quiet.controls.trans ih
  have h₃ : d₃.controls = listening 0xFD false := by
    have hreturns := deviceBus_projects.returns hactivate ⟨by decide, fun _ => ⟨by decide, trivial⟩⟩
    rw [h₂, activateKeyboardInterrupt_run] at hreturns
    exact congrArg Prod.snd hreturns
  have hmasked₁ : d₁.controls = listening 0xFF false := h₁
  have hmasked₂ : d₂.controls = listening 0xFF false := h₂
  refine ⟨h₁, Devices.request_masked hmasked₁, Devices.request_masked hmasked₂, ?_⟩
  rw [Devices.request_listening h₃, Bool.not_false, Bool.and_true]

end Remap

namespace Delivery

variable {s t : Delivery} {d : Devices}

/-! ## What is delivered -/

/-- The characters of scancodes in the order they were sent. -/
def charsOf (codes : List UInt8) : List UInt8 :=
  ((plainCodes false codes).filter fun scancode => scancode &&& 0x80 == 0).map keyboardScancode1ToAsciiMap

theorem plainCodes_of_append (extended : Bool) (codes codes' : List UInt8) :
    plainCodes extended codes <+: plainCodes extended (codes ++ codes') := by
  induction codes generalizing extended with
  | nil => exact List.nil_prefix
  | cons c codes ih =>
    rw [List.cons_append, plainCodes, plainCodes]
    split
    · exact ih true
    · split
      · exact ih false
      · exact (List.cons_prefix_cons).mpr ⟨rfl, ih false⟩

theorem charsOf_sublist (codes codes' : List UInt8) : (charsOf codes).Sublist (charsOf (codes ++ codes')) :=
  ((plainCodes_of_append false codes codes').sublist.filter _).map _

/-- Outside of the handler no interrupt is in service. -/
theorem Kept.idle (h : s.Kept) (hf : s.interruptFlag = true) (hh : s.handler = none) :
    (∀ i, s.devices.master.control.isr i = false) ∧ ∀ i, s.devices.slave.control.isr i = false := by
  have hcontrols : ∃ imr, s.devices.controls = listening imr false := by
    cases h.stage with
    | remapping hf' => exact absurd (hf'.symm.trans hf) Bool.false_ne_true
    | activating _ _ hc => exact ⟨_, hc⟩
    | ready _ hhandling hc =>
      cases hhandling with
      | outside => exact ⟨_, hc⟩
      | entered hh' => cases hh.symm.trans hh'
      | acking hh' => cases hh.symm.trans hh'
      | acked hh' => cases hh.symm.trans hh'
  obtain ⟨imr, hc⟩ := hcontrols
  constructor
  · intro i
    rw [Devices.master_of_controls hc]
    rfl
  · intro i
    have hslave : s.devices.slave.control = (listening imr false).2 := congrArg Prod.snd hc
    rw [hslave]
    rfl

/-- **What is delivered was sent.** -/
theorem keyboard_delivery (hs : s.Starts) (hrun : Reaches s t) :
    t.sent = t.taken ++ t.devices.keyboard.pending ∧
      (t.received.filter (· != 0)).Sublist (charsOf t.sent) ∧
      (∀ v ∈ t.vectors, v = 0x21) ∧
      (t.interruptFlag = true → t.handler = none →
        (∀ i, t.devices.master.control.isr i = false) ∧ ∀ i, t.devices.slave.control.isr i = false) := by
  have h := hrun.kept hs.kept
  refine ⟨h.sent, ?_, h.vectors, fun hf hh => h.idle hf hh⟩
  have hpolled : (t.received.filter (· != 0)).Sublist (charsOf t.taken) := by
    rw [h.received, h.taken]
    exact delivered_sublist_pending
  rw [h.sent]
  exact hpolled.trans (charsOf_sublist _ _)

/-! ## A keyboard that is lost -/

/-- A scancode is waiting, and nothing is there to make anybody read it. -/
structure Deaf (s : Delivery) : Prop where
  full : s.devices.keyboard.full = true
  unlatched : s.devices.master.irr irqKeyboard = false
  handler : ∀ p ∈ s.handler, p.Uses fun port => port ≠ keyboardDataPort

theorem Stage.main_uses (h : s.Stage) : s.main.Uses fun port => port ≠ keyboardDataPort := by
  cases h with
  | remapping _ _ _ huses => exact huses
  | activating _ _ _ hm =>
    rcases hm with hm | hm
    · rw [hm]
      exact ⟨by decide, fun _ => ⟨by decide, trivial⟩⟩
    · rw [hm]
      exact out_mask_uses
  | ready _ _ _ hm =>
    rw [hm]
    trivial

theorem codesRead_of_uses {α : Type} {p : Port.Code α} (hp : p.Uses fun port => port ≠ keyboardDataPort) :
    codesRead p d = [] := by
  cases p with
  | done => rfl
  | read port next => exact if_neg hp.1
  | write => rfl

theorem Deaf.quiet {sent : List UInt8} (h : s.Deaf) (hq : s.devices.Quiet d) :
    Deaf { s with devices := d, sent := sent } :=
  ⟨(hq.kept h.full).1, (hq.kept h.full).2.trans h.unlatched, h.handler⟩

/-- Nothing wakes it up. -/
theorem Deaf.step (h : s.Deaf) (hk : s.Kept) (hstep : Step s t) :
    t.Deaf ∧ t.taken = s.taken ∧ t.vectors = s.vectors := by
  have hother : ∀ {α : Type} {p q : Port.Code α} {d : Devices}, (p.Uses fun port => port ≠ keyboardDataPort) →
      deviceBus.access p s.devices = some (q, d) → d.keyboard.full = true ∧ d.master.irr irqKeyboard = false := by
    intro α p q d hp hacc
    obtain ⟨hkeyboard, hirr⟩ := access_other hp hacc
    refine ⟨hkeyboard.symm ▸ h.full, Bool.eq_false_iff.mpr fun hraised => ?_⟩
    exact Bool.false_ne_true (h.unlatched.symm.trans (hirr hraised))
  cases hstep with
  | key scancode => exact ⟨h.quiet (s.devices.quiet_send scancode), rfl, rfl⟩
  | transfer => exact ⟨h.quiet (Devices.Change.transfer s.devices).quiet, rfl, rfl⟩
  | lines irr irr' hirr => exact ⟨h.quiet (Devices.Change.lines s.devices irr irr' hirr).quiet, rfl, rfl⟩
  | main hh hacc =>
    obtain ⟨hfull, hirr⟩ := hother hk.stage.main_uses hacc
    exact ⟨⟨hfull, hirr, h.handler⟩, rfl, rfl⟩
  | sti => exact ⟨⟨h.full, h.unlatched, h.handler⟩, rfl, rfl⟩
  | interrupt hh hf hreq =>
    have hraised := (hk.interrupt hh hf hreq).2.2.1
    exact absurd (h.unlatched.symm.trans hraised) Bool.false_ne_true
  | trap hh hf hv =>
    refine ⟨⟨h.full, h.unlatched, ?_⟩, rfl, rfl⟩
    rw [Port.mainInterruptHandler_trap hv]
    rintro p ⟨⟩
    trivial
  | @handler p q d hh hacc =>
    have hp := h.handler p hh
    obtain ⟨hfull, hirr⟩ := hother hp hacc
    refine ⟨⟨hfull, hirr, ?_⟩, ?_, rfl⟩
    · rintro q' ⟨⟩
      exact (deviceBus_projects.access hp hacc).1
    · rw [handled, codesRead_of_uses hp, List.append_nil]
  | iret hh =>
    refine ⟨⟨h.full, h.unlatched, ?_⟩, rfl, rfl⟩
    rintro p ⟨⟩
  | call => exact ⟨⟨h.full, h.unlatched, h.handler⟩, rfl, rfl⟩

theorem Deaf.reaches (h : s.Deaf) (hk : s.Kept) (hrun : Reaches s t) :
    t.Deaf ∧ t.taken = s.taken ∧ t.vectors = s.vectors := by
  induction hrun with
  | refl => exact ⟨h, rfl, rfl⟩
  | tail hrun' hstep ih =>
    obtain ⟨hdeaf, htaken, hvectors⟩ := ih
    obtain ⟨hdeaf', htaken', hvectors'⟩ := hdeaf.step (Reaches.kept hrun' hk) hstep
    exact ⟨hdeaf', htaken'.trans htaken, hvectors'.trans hvectors⟩

/-- An interrupt that is taken with the input off is the last. -/
theorem Kept.deaf_interrupted {v : UInt8} (hk : s.Kept) (hh : s.handler = none) (hf : s.interruptFlag = true)
    (hreq : s.devices.request = some v) (hoff : s.driver.keyboardInputOn = false) : (s.interrupted v).Deaf := by
  obtain ⟨rfl, hc, hirr, -⟩ := hk.interrupt hh hf hreq
  obtain ⟨-, hirr', hkeyboard⟩ := Devices.acknowledge_listening hc hirr
  refine ⟨?_, hirr', ?_⟩
  · have hlatched : s.devices.Latched := by
      cases hk.stage with
      | remapping hf' => exact absurd (hf'.symm.trans hf) Bool.false_ne_true
      | activating _ _ _ _ hl => exact hl
      | ready _ _ _ _ hl => exact hl
    exact (congrArg KeyboardController.full hkeyboard).trans (hlatched hirr)
  · rintro p ⟨⟩
    have hhandler : Port.mainInterruptHandler (0x21 : UInt8).toUInt32 s.driver = .write pic1Command 0x20 (.done s.driver) :=
      Port.keyboardIsr_off hoff
    rw [hhandler]
    exact ⟨by decide, trivial⟩

/-- Interrupts stay on. -/
theorem Reaches.interruptFlag (hrun : Reaches s t) (hf : s.interruptFlag = true) : t.interruptFlag = true := by
  induction hrun with
  | refl => exact hf
  | tail _ hstep ih =>
    cases hstep with
    | sti => rfl
    | _ => exact ih

/-- **A keyboard that is lost stays so**: after an interrupt with the input off, no interrupt is taken and no scancode
is read. The interrupt itself is acknowledged. -/
theorem keyboard_lost {v : UInt8} {u : Delivery} (hs : s.Starts) (hrun : Reaches s t) (hh : t.handler = none)
    (hf : t.interruptFlag = true) (hreq : t.devices.request = some v) (hoff : t.driver.keyboardInputOn = false)
    (hrest : Reaches (t.interrupted v) u) :
    u.taken = t.taken ∧ u.vectors = t.vectors ++ [v] ∧
      u.devices.keyboard.full = true ∧ u.devices.master.irr irqKeyboard = false ∧
      (u.handler = none → (∀ i, u.devices.master.control.isr i = false) ∧
        (∀ i, u.devices.slave.control.isr i = false) ∧ u.devices.request = none) := by
  have hk := hrun.kept hs.kept
  have hk' := (hk.interrupt hh hf hreq).2.2.2
  obtain ⟨hdeaf, htaken, hvectors⟩ := (hk.deaf_interrupted hh hf hreq hoff).reaches hk' hrest
  refine ⟨htaken, hvectors, hdeaf.full, hdeaf.unlatched, fun hh' => ?_⟩
  have hf' : u.interruptFlag = true := hrest.interruptFlag hf
  have hku := hrest.kept hk'
  refine ⟨(hku.idle hf' hh').1, (hku.idle hf' hh').2, ?_⟩
  cases hreq' : u.devices.request with
  | none => rfl
  | some w => exact absurd (hdeaf.unlatched.symm.trans (hku.interrupt hh' hf' hreq').2.2.1) Bool.false_ne_true

/-! ## The input is never switched on -/

theorem readCodes_never_on {events : List KeyboardEvent} (hno : .activate ∉ events) : readCodes false events = [] := by
  induction events with
  | nil => rfl
  | cons e events ih =>
    have hrest := ih fun h => hno (List.mem_cons_of_mem _ h)
    cases e with
    | isr scancode => exact hrest
    | poll => exact hrest
    | activate => exact absurd (List.mem_cons_self ..) hno
    | deactivate => exact hrest

theorem inputOn_never_on {events : List KeyboardEvent} {driver : KeyboardDriverState} (hno : .activate ∉ events)
    (hoff : driver.keyboardInputOn = false) : (events.foldl KeyboardEvent.exec driver).keyboardInputOn = false := by
  induction events generalizing driver with
  | nil => exact hoff
  | cons e events ih =>
    refine ih (fun h => hno (List.mem_cons_of_mem _ h)) ?_
    cases e with
    | isr scancode => exact keyboardIsr_inputOn.trans hoff
    | poll => exact hoff
    | activate => exact absurd (List.mem_cons_self ..) hno
    | deactivate => rfl

theorem Kept.driver_eq (hk : s.Kept) (hh : s.handler = none) : s.driver = s.settled := by
  have hout : ∀ {busy}, s.Handling busy → s.driver = s.settled := by
    intro busy hhandling
    cases hhandling with
    | outside _ hd => exact hd
    | entered hh' => cases hh.symm.trans hh'
    | acking hh' => cases hh.symm.trans hh'
    | acked hh' => cases hh.symm.trans hh'
  cases hk.stage with
  | remapping _ _ hd => exact hd
  | activating _ hhandling => exact hout hhandling
  | ready _ hhandling => exact hout hhandling

theorem Step.events (hstep : Step s t) {e : KeyboardEvent} (he : e ∈ s.events) : e ∈ t.events := by
  cases hstep with
  | handler => exact List.mem_append_left _ he
  | call => exact List.mem_append_left _ he
  | _ => exact he

theorem Step.vectors (hstep : Step s t) (hsame : ∀ v, t = s.interrupted v → s.handler = none →
    s.interruptFlag = true → s.devices.request = some v → False) : t.vectors = s.vectors := by
  cases hstep with
  | interrupt hh hf hreq => exact (hsame _ rfl hh hf hreq).elim
  | _ => rfl

/-- **As long as the input is never switched on**, no scancode is read, and one interrupt is the last. -/
theorem keyboard_silent (hs : s.Starts) (hrun : Reaches s t) (hno : .activate ∉ t.events) :
    t.taken = [] ∧ t.vectors.length ≤ 1 := by
  have hk := hrun.kept hs.kept
  refine ⟨hk.taken.trans (readCodes_never_on hno), ?_⟩
  have hlast : t.vectors = [] ∨ t.vectors.length = 1 ∧ t.Deaf := by
    clear hk
    induction hrun with
    | refl => exact .inl hs.vectors
    | @tail t u hrun' hstep ih =>
      have hk : t.Kept := Reaches.kept hrun' hs.kept
      have hno' : .activate ∉ t.events := fun h => hno (hstep.events h)
      rcases ih hno' with hnone | ⟨hone, hdeaf⟩
      · by_cases hint : ∃ v, u = t.interrupted v ∧ t.handler = none ∧ t.interruptFlag = true ∧
            t.devices.request = some v
        · obtain ⟨v, rfl, hh, hf, hreq⟩ := hint
          have hoff : t.driver.keyboardInputOn = false := by
            rw [hk.driver_eq hh]
            exact inputOn_never_on hno' rfl
          refine .inr ⟨?_, hk.deaf_interrupted hh hf hreq hoff⟩
          rw [interrupted, hnone]
          rfl
        · exact .inl ((hstep.vectors fun v hu hh hf hreq => hint ⟨v, hu, hh, hf, hreq⟩).trans hnone)
      · obtain ⟨hdeaf', -, hvectors⟩ := hdeaf.step hk hstep
        exact .inr ⟨by rw [hvectors, hone], hdeaf'⟩
  rcases hlast with hnone | ⟨hone, -⟩
  · rw [hnone]
    exact Nat.zero_le _
  · exact hone.le

/-! ## A keyboard that is heard -/

/-- The step loses no scancode: `pic_remap` begins with the output buffer empty, and interrupts are taken with the
input on. -/
structure Attends (s t : Delivery) : Prop where
  remap : s.main = Port.picRemap → t.main ≠ Port.picRemap → s.devices.keyboard.full = false
  interrupt : t.vectors ≠ s.vectors → s.driver.keyboardInputOn = true

/-- A run that loses no scancode. -/
abbrev Attended : Delivery → Delivery → Prop := Relation.ReflTransGen fun s t => Step s t ∧ Attends s t

/-- The master is not reset any more, and the keyboard is not lost. -/
def Heard (s : Delivery) : Prop := s.main = Port.picRemap ∨ (s.main.Uses fun port => port ≠ pic1Command) ∧ ¬ s.Deaf

theorem access_irr {α : Type} {p q : Port.Code α} {d d' : Devices} (hp : p.Uses fun port => port ≠ keyboardDataPort)
    (hp' : p.Uses fun port => port ≠ pic1Command) (hacc : deviceBus.access p d = some (q, d')) :
    (q.Uses fun port => port ≠ pic1Command) ∧ d'.master.irr = d.master.irr := by
  cases p with
  | done a => cases hacc
  | read port next =>
    cases hacc
    refine ⟨hp'.2 _, ?_⟩
    simp only [deviceBus, if_neg hp.1]
    split
    · rfl
    · split <;> rfl
  | write port value next =>
    cases hacc
    refine ⟨hp'.2, ?_⟩
    simp only [deviceBus, if_neg hp'.1]
    split
    · rfl
    · split
      · rfl
      · split <;> rfl

/-- After its first access `pic_remap` does not reset the master again. -/
theorem picRemap_tail {p : Port.Code Unit} {d d' : Devices} (hacc : deviceBus.access Port.picRemap d = some (p, d')) :
    p.Uses fun port => port ≠ pic1Command := by
  cases hacc
  exact Program.uses_outs (by decide)

theorem not_deaf_quiet {sent : List UInt8} (h : ¬ s.Deaf) (hq : s.devices.Quiet d) :
    ¬ Deaf { s with devices := d, sent := sent } := by
  intro hdeaf
  cases hfull : s.devices.keyboard.full with
  | true => exact h ⟨hfull, (hq.kept hfull).2.symm.trans hdeaf.unlatched, hdeaf.handler⟩
  | false =>
    rcases hq.raised hfull with ⟨hempty, -⟩ | ⟨-, hraised⟩
    · exact Bool.false_ne_true (hempty.symm.trans hdeaf.full)
    · exact Bool.false_ne_true (hdeaf.unlatched.symm.trans hraised)

theorem Heard.step (h : s.Heard) (hk : s.Kept) (hstep : Step s t) (hatt : Attends s t) : t.Heard := by
  have hmain : ∀ {d sent}, s.devices.Quiet d → Heard { s with devices := d, sent := sent } := by
    intro d sent hq
    exact h.imp_right fun ⟨huses, hdeaf⟩ => ⟨huses, not_deaf_quiet hdeaf hq⟩
  cases hstep with
  | key scancode => exact hmain (s.devices.quiet_send scancode)
  | transfer => exact hmain (Devices.Change.transfer s.devices).quiet
  | lines irr irr' hirr => exact hmain (Devices.Change.lines s.devices irr irr' hirr).quiet
  | @main p d hh hacc =>
    have hkeyboard := (access_other hk.stage.main_uses hacc).1
    rcases h with hfirst | ⟨huses, hdeaf⟩
    · by_cases hp : p = Port.picRemap
      · exact .inl hp
      · rw [hfirst] at hacc
        refine .inr ⟨picRemap_tail hacc, fun hdeaf => Bool.false_ne_true ?_⟩
        rw [← hatt.remap hfirst hp, ← hkeyboard]
        exact hdeaf.full
    · obtain ⟨huses', hirr⟩ := access_irr hk.stage.main_uses huses hacc
      refine .inr ⟨huses', fun hdeaf' => hdeaf ⟨hkeyboard ▸ hdeaf'.full, hirr ▸ hdeaf'.unlatched, hdeaf'.handler⟩⟩
  | sti hh hf hm =>
    rcases h with hfirst | ⟨-, hdeaf⟩
    · cases hm.symm.trans hfirst
    · exact .inr ⟨⟨by decide, fun _ => ⟨by decide, trivial⟩⟩, fun hdeaf' => hdeaf ⟨hdeaf'.full, hdeaf'.unlatched,
        hdeaf'.handler⟩⟩
  | interrupt hh hf hreq =>
    have hon : s.driver.keyboardInputOn = true := by
      refine hatt.interrupt fun hsame => ?_
      have hlength := congrArg List.length hsame
      rw [interrupted, List.length_append, List.length_singleton] at hlength
      omega
    obtain ⟨rfl, -⟩ := hk.interrupt hh hf hreq
    refine h.imp_right fun ⟨huses, _⟩ => ⟨huses, fun hdeaf => ?_⟩
    have hreads := hdeaf.handler _ rfl
    have hhandler : Port.mainInterruptHandler (0x21 : UInt8).toUInt32 s.driver = .read keyboardDataPort fun scancode =>
        .write pic1Command 0x20 (.done (s.driver.keyboardIsr scancode)) := Port.keyboardIsr_on hon
    rw [hhandler] at hreads
    exact hreads.1 rfl
  | trap hh hf hv =>
    refine h.imp_right fun ⟨huses, hdeaf⟩ => ⟨huses, fun hdeaf' => hdeaf ⟨hdeaf'.full, hdeaf'.unlatched, ?_⟩⟩
    rw [hh]
    rintro p ⟨⟩
  | @handler p q d hh hacc =>
    refine h.imp_right fun ⟨huses, hdeaf⟩ => ⟨huses, fun hdeaf' => ?_⟩
    have hacted : ∀ {busy}, s.Handling busy → False := by
      intro busy hhandling
      cases hhandling with
      | outside hh' => cases hh.symm.trans hh'
      | acked hh' =>
        cases hh.symm.trans hh'
        cases hacc
      | entered hh' =>
        -- the scancode has been read
        cases hh.symm.trans hh'
        cases hacc
        cases hdeaf'.full
      | acking hh' =>
        cases hh.symm.trans hh'
        cases hacc
        refine hdeaf ⟨hdeaf'.full, hdeaf'.unlatched, ?_⟩
        rw [hh']
        rintro p ⟨⟩
        exact ⟨by decide, trivial⟩
    cases hk.stage with
    | remapping _ hh' => cases hh.symm.trans hh'
    | activating _ hhandling => exact hacted hhandling
    | ready _ hhandling => exact hacted hhandling
  | @iret driver hh =>
    refine h.imp_right fun ⟨huses, hdeaf⟩ => ⟨huses, fun hdeaf' => hdeaf ⟨hdeaf'.full, hdeaf'.unlatched, ?_⟩⟩
    rw [hh]
    rintro p ⟨⟩
    trivial
  | call =>
    exact h.imp_right fun ⟨huses, hdeaf⟩ => ⟨huses, fun hdeaf' => hdeaf ⟨hdeaf'.full, hdeaf'.unlatched, hdeaf'.handler⟩⟩

theorem Attended.heard (hrun : Attended s t) (hh : s.Heard) (hk : s.Kept) : t.Heard ∧ t.Kept := by
  induction hrun with
  | refl => exact ⟨hh, hk⟩
  | tail _ hstep ih => exact ⟨ih.1.step ih.2 hstep.1 hstep.2, hstep.1.kept ih.2⟩

/-- Outside of the handler a scancode in the output buffer has an interrupt requested, unless the keyboard is lost. -/
theorem Kept.request_of_full (hk : s.Kept) (hh : s.handler = none) (hm : s.main = .done ())
    (hf : s.interruptFlag = true) (hfull : s.devices.keyboard.full = true) (hdeaf : ¬ s.Deaf) :
    s.devices.request = some 0x21 := by
  have hirr : s.devices.master.irr irqKeyboard = true := by
    rw [← Bool.not_eq_false]
    intro hirr
    refine hdeaf ⟨hfull, hirr, ?_⟩
    rw [hh]
    rintro p ⟨⟩
  cases hk.stage with
  | remapping hf' => exact absurd (hf'.symm.trans hf) Bool.false_ne_true
  | activating _ _ _ hm' => rcases hm' with hm' | hm' <;> cases hm.symm.trans hm'
  | ready _ hhandling hc =>
    cases hhandling with
    | outside =>
      rw [Devices.request_listening hc, hirr]
      rfl
    | entered hh' => cases hh.symm.trans hh'
    | acking hh' => cases hh.symm.trans hh'
    | acked hh' => cases hh.symm.trans hh'

/-! ## Reading what is left -/

/-- The kernel is set up, no handler runs, and the input is on. -/
structure Ready (s : Delivery) : Prop where
  main : s.main = .done ()
  interruptFlag : s.interruptFlag = true
  handler : s.handler = none
  inputOn : s.driver.keyboardInputOn = true

theorem Attends.of_done (hm : s.main = .done ()) (h : t.vectors = s.vectors ∨ s.driver.keyboardInputOn = true) :
    Attends s t where
  remap hfirst := by cases hm.symm.trans hfirst
  interrupt hne := h.resolve_left hne

theorem Attended.trans_step {u : Delivery} (hrun : Attended s t) (hm : t.main = .done ()) (hstep : Step t u)
    (h : u.vectors = t.vectors ∨ t.driver.keyboardInputOn = true) : Attended s u :=
  hrun.tail ⟨hstep, .of_done hm h⟩

/-- One interrupt reads the scancode in the output buffer. -/
theorem Ready.round (hr : s.Ready) (hreq : s.devices.request = some 0x21) (hk : s.Kept) :
    ∃ u, Attended s u ∧ u.Ready ∧ u.sent = s.sent ∧ u.taken = s.taken ++ [s.devices.keyboard.data] ∧
      u.devices.keyboard = { s.devices.keyboard with full := false } := by
  obtain ⟨-, hc, hirr, -⟩ := hk.interrupt hr.handler hr.interruptFlag hreq
  have hkeyboard := (Devices.acknowledge_listening hc hirr).2.2
  have hentered : (s.interrupted 0x21).handler = some (.read keyboardDataPort fun scancode =>
      .write pic1Command 0x20 (.done (s.driver.keyboardIsr scancode))) := by
    rw [← Port.keyboardIsr_on hr.inputOn]
    rfl
  obtain ⟨s₁, hs₁⟩ : ∃ s₁, s₁ = s.interrupted 0x21 := ⟨_, rfl⟩
  rw [← hs₁] at hentered
  have hmain : s₁.main = .done () := by rw [hs₁]; exact hr.main
  have hflag : s₁.interruptFlag = true := by rw [hs₁]; exact hr.interruptFlag
  have hsent : s₁.sent = s.sent := by rw [hs₁]; rfl
  have htaken : s₁.taken = s.taken := by rw [hs₁]; rfl
  have hdevices : s₁.devices.keyboard = s.devices.keyboard := by rw [hs₁]; exact hkeyboard
  have hrun₁ : Attended s s₁ := by
    rw [hs₁]
    exact Attended.trans_step .refl hr.main (.interrupt hr.handler hr.interruptFlag hreq) (.inr hr.inputOn)
  have hrun₂ := Attended.trans_step hrun₁ hmain (.handler hentered rfl) (.inl rfl)
  have hrun₃ := Attended.trans_step hrun₂ hmain (.handler rfl rfl) (.inl rfl)
  have hrun₄ := Attended.trans_step hrun₃ hmain (.iret rfl) (.inl rfl)
  refine ⟨_, hrun₄, ⟨hmain, hflag, rfl, keyboardIsr_inputOn.trans hr.inputOn⟩, hsent, ?_, ?_⟩
  · rw [← hdevices, ← htaken]
    exact List.append_nil _
  · rw [← hdevices]
    rfl

/-- With the output buffer empty, the scancodes that the keyboard keeps are transferred and read. -/
theorem Ready.drain {queue : List UInt8} (hr : s.Ready) (hh : s.Heard) (hk : s.Kept)
    (hempty : s.devices.keyboard.full = false) (hqueue : s.devices.keyboard.queue = queue) :
    ∃ u, Attended s u ∧ u.Ready ∧ u.sent = s.sent ∧ u.taken = s.taken ++ queue := by
  induction queue generalizing s with
  | nil => exact ⟨s, .refl, hr, rfl, (List.append_nil _).symm⟩
  | cons c queue ih =>
    obtain ⟨s₁, hs₁⟩ : ∃ s₁, s₁ = { s with devices := s.devices.transfer } := ⟨_, rfl⟩
    have hstep : Step s s₁ ∧ Attends s s₁ := by
      rw [hs₁]
      exact ⟨.transfer s, .of_done hr.main (.inl rfl)⟩
    have hfilled : s₁.devices.keyboard = { s.devices.keyboard with full := true, data := c, queue := queue } := by
      rw [hs₁, Devices.transfer, hempty, hqueue]
    have hr₁ : s₁.Ready := by
      rw [hs₁]
      exact ⟨hr.main, hr.interruptFlag, hr.handler, hr.inputOn⟩
    have hk₁ := hstep.1.kept hk
    have hh₁ := hh.step hk hstep.1 hstep.2
    have hdeaf : ¬ s₁.Deaf := by
      rcases hh₁ with hfirst | ⟨-, hdeaf⟩
      · cases hr₁.main.symm.trans hfirst
      · exact hdeaf
    have hreq := hk₁.request_of_full hr₁.handler hr₁.main hr₁.interruptFlag (by rw [hfilled]) hdeaf
    obtain ⟨s₂, hrun₂, hr₂, hsent₂, htaken₂, hkeyboard₂⟩ := hr₁.round hreq hk₁
    obtain ⟨hh₂, hk₂⟩ := Attended.heard hrun₂ hh₁ hk₁
    obtain ⟨u, hrun, hru, hsent, htaken⟩ := ih hr₂ hh₂ hk₂ (by rw [hkeyboard₂]) (by rw [hkeyboard₂, hfilled])
    refine ⟨u, .head hstep (hrun₂.trans hrun), hru, ?_, ?_⟩
    · rw [hsent, hsent₂, hs₁]
    · rw [htaken, htaken₂, hfilled, hs₁, List.append_assoc]
      rfl

/-- **A keyboard that is heard**: if no interrupt comes with the input off, a scancode in the output buffer always has
its interrupt requested, and once the input is on everything that was sent can be read, without a further key. -/
theorem keyboard_heard (hs : s.Starts) (hrun : Attended s t) (hm : t.main = .done ()) (hf : t.interruptFlag = true)
    (hh : t.handler = none) :
    (t.devices.keyboard.full = true → t.devices.request = some 0x21) ∧
      (t.driver.keyboardInputOn = true →
        ∃ u, Attended t u ∧ u.handler = none ∧ u.sent = t.sent ∧ u.taken = t.sent) := by
  obtain ⟨hheard, hk⟩ := Attended.heard hrun (.inl hs.main) hs.kept
  have hreq : t.devices.keyboard.full = true → t.devices.request = some 0x21 := by
    intro hfull
    rcases hheard with hfirst | ⟨-, hdeaf⟩
    · cases hm.symm.trans hfirst
    · exact hk.request_of_full hh hm hf hfull hdeaf
  refine ⟨hreq, fun hon => ?_⟩
  have hr : t.Ready := ⟨hm, hf, hh, hon⟩
  cases hfull : t.devices.keyboard.full with
  | false =>
    obtain ⟨u, hrun', hru, hsent, htaken⟩ := hr.drain hheard hk hfull rfl
    refine ⟨u, hrun', hru.handler, hsent, htaken.trans ?_⟩
    rw [hk.sent, KeyboardController.pending, hfull]
    rfl
  | true =>
    obtain ⟨t₁, hrun₁, hr₁, hsent₁, htaken₁, hkeyboard₁⟩ := hr.round (hreq hfull) hk
    obtain ⟨hheard₁, hk₁⟩ := Attended.heard hrun₁ hheard hk
    obtain ⟨u, hrun', hru, hsent, htaken⟩ := hr₁.drain hheard₁ hk₁ (by rw [hkeyboard₁]) rfl
    refine ⟨u, hrun₁.trans hrun', hru.handler, hsent.trans hsent₁, htaken.trans ?_⟩
    rw [htaken₁, hkeyboard₁, hk.sent, KeyboardController.pending, hfull, List.append_assoc]
    rfl

/-! ## A start -/

theorem attended_access {p q : Port.Code Unit} (hh : s.handler = none)
    (huses : p.Uses fun port => port ≠ keyboardDataPort) (hempty : s.devices.keyboard.full = false)
    (hacc : deviceBus.access p s.devices = some (q, d)) :
    (Step { s with main := p } { s with main := q, devices := d } ∧
        Attends { s with main := p } { s with main := q, devices := d }) ∧
      (q.Uses fun port => port ≠ keyboardDataPort) ∧ d.keyboard.full = false := by
  refine ⟨⟨.main (s := { s with main := p }) hh hacc, ⟨fun _ _ => hempty, fun hne => absurd rfl hne⟩⟩,
    (deviceBus_projects.access huses hacc).1, ?_⟩
  rw [(access_other huses hacc).1, hempty]

/-- The main program can run without interruption, and loses nothing if the output buffer is empty. -/
theorem attended_main (p : Port.Code Unit) (hh : s.handler = none)
    (huses : p.Uses fun port => port ≠ keyboardDataPort) (hempty : s.devices.keyboard.full = false) :
    Attended { s with main := p } { s with main := .done (), devices := (deviceBus.run p s.devices).2 } := by
  induction p generalizing s with
  | done a => exact .refl
  | read port next ih =>
    obtain ⟨hfirst, huses', hempty'⟩ := attended_access hh huses hempty rfl
    exact .head hfirst (ih _ (s := { s with devices := (deviceBus.read port s.devices).2 }) hh huses' hempty')
  | write port value next ih =>
    obtain ⟨hfirst, huses', hempty'⟩ := attended_access hh huses hempty rfl
    exact .head hfirst (ih (s := { s with devices := deviceBus.write port value s.devices }) hh huses' hempty')

/-- The devices when the kernel starts: the vectors that the firmware has set, and no key. -/
def coldDevices : Devices where
  master := ⟨fun _ => false, initialized 0x08 0b0100 0⟩
  slave := ⟨fun _ => false, initialized 0x70 0b0010 0⟩
  keyboard := ⟨false, 0, [], 16⟩

/-- The same after the first access of `pic_remap` and a key. -/
def keyedDevices : Devices :=
  { deviceBus.write pic1Command (0x10 ||| 0x01) coldDevices with
    keyboard := coldDevices.keyboard.send 0x1E }.transfer

/-- A key is pressed between the first and the second access of `pic_remap`: its request waits until it is let through. -/
theorem picRemap_masks_keyed : ∃ d₁ d₃,
    Relation.ReflTransGen (Ports.Step deviceBus Devices.Change) (Port.picRemap, coldDevices) (.done (), d₁) ∧
    Relation.ReflTransGen (Ports.Step deviceBus Devices.Change) (Port.activateKeyboardInterrupt, d₁) (.done (), d₃) ∧
    d₁.master.irr irqKeyboard = true ∧ d₁.request = none ∧ d₃.request = some 0x21 := by
  obtain ⟨rest, hrest⟩ : ∃ rest, Port.picRemap = .write pic1Command (0x10 ||| 0x01) rest := ⟨_, rfl⟩
  have hrun₁ : Relation.ReflTransGen (Ports.Step deviceBus Devices.Change) (Port.picRemap, coldDevices)
      (.done (), (deviceBus.run rest keyedDevices).2) := by
    rw [hrest]
    refine .head (.access rfl) (.head (.env (.key _ 0x1E)) (.head (.env (.transfer _)) ?_))
    exact deviceBus.reaches_run Devices.Change rest keyedDevices
  have hrun₂ := deviceBus.reaches_run Devices.Change Port.activateKeyboardInterrupt (deviceBus.run rest keyedDevices).2
  obtain ⟨-, hmasked, -, hheard⟩ := picRemap_masks hrun₁ .refl hrun₂
  have hirr : (deviceBus.run rest keyedDevices).2.master.irr irqKeyboard = true := by
    cases hrest
    rfl
  refine ⟨_, _, hrun₁, hrun₂, hirr, hmasked, hheard.trans (if_pos ?_)⟩
  cases hrest
  rfl

def cold : Delivery where
  devices := coldDevices
  main := Port.picRemap
  interruptFlag := false
  handler := none
  driver := initialKeyboardDriverState
  sent := []
  taken := []
  events := []
  received := []
  vectors := []

theorem cold_starts : cold.Starts := ⟨rfl, rfl, rfl, rfl, rfl, rfl, rfl, rfl, rfl⟩

/-- After `pic_remap`. -/
def remapped : Delivery := { cold with main := .done (), devices := (deviceBus.run Port.picRemap coldDevices).2 }

/-- After `activate_keyboard_interrupt`. -/
def unmasked : Delivery :=
  { remapped with
    interruptFlag := true
    devices := (deviceBus.run Port.activateKeyboardInterrupt remapped.devices).2 }

theorem cold_attended : Attended cold unmasked := by
  have hremap : Attended cold remapped := attended_main (s := cold) Port.picRemap rfl Port.picRemap_uses rfl
  refine (hremap.tail ⟨.sti rfl rfl rfl, .of_done rfl (.inl rfl)⟩).trans ?_
  exact attended_main (s := { remapped with interruptFlag := true }) Port.activateKeyboardInterrupt rfl
    ⟨by decide, fun _ => ⟨by decide, trivial⟩⟩ rfl

/-- A key is pressed, and its scancode is transferred. -/
def pressed (s : Delivery) (scancode : UInt8) : Delivery :=
  { s.keyed scancode with devices := (s.keyed scancode).devices.transfer }

theorem attended_pressed (hm : s.main = .done ()) (scancode : UInt8) : Attended s (s.pressed scancode) :=
  .tail (.single ⟨.key s scancode, .of_done hm (.inl rfl)⟩) ⟨.transfer _, .of_done hm (.inl rfl)⟩

theorem Attended.reaches (hrun : Attended s t) : Reaches s t := by
  induction hrun with
  | refl => exact .refl
  | tail _ hstep ih => exact ih.tail hstep.1

/-- The input is on, and a key is pressed. -/
theorem attended_typed : Attended cold ((unmasked.called .activate).pressed 0x1E) := by
  refine (cold_attended.tail ⟨.call rfl rfl rfl ?_, .of_done rfl (.inl rfl)⟩).trans (attended_pressed rfl 0x1E)
  intro scancode h
  cases h

/-- A key whose interrupt has not been taken. -/
theorem keyboard_delivery_pending :
    [0x1E] = [] ++ ((unmasked.called .activate).pressed 0x1E).devices.keyboard.pending ∧
      ((unmasked.called .activate).pressed 0x1E).devices.keyboard.pending = [0x1E] :=
  ⟨(keyboard_delivery cold_starts attended_typed.reaches).1, rfl⟩

/-- Its interrupt is requested, and its scancode can be read. -/
theorem keyboard_heard_typed : ((unmasked.called .activate).pressed 0x1E).devices.request = some 0x21 ∧
    ∃ u, Attended ((unmasked.called .activate).pressed 0x1E) u ∧ u.handler = none ∧ u.sent = [0x1E] ∧ u.taken = [0x1E] :=
  have h := keyboard_heard cold_starts attended_typed rfl rfl rfl
  ⟨h.1 rfl, h.2 rfl⟩

/-- A key that comes while the input is off requests its interrupt. -/
theorem unheard_requested : Reaches cold (unmasked.pressed 0x1E) ∧ (unmasked.pressed 0x1E).devices.request = some 0x21 := by
  have hrun := cold_attended.trans (attended_pressed rfl 0x1E)
  have hk := (Attended.heard hrun (.inl cold_starts.main) cold_starts.kept).2
  refine ⟨Attended.reaches hrun, hk.request_of_full rfl rfl rfl rfl fun hdeaf => ?_⟩
  cases hdeaf.unlatched

/-- `main_interrupt_handler` acknowledges it and returns, and nothing more is requested. -/
theorem keyboard_lost_pressed : ∃ u, Reaches ((unmasked.pressed 0x1E).interrupted 0x21) u ∧ u.handler = none ∧
    u.taken = [] ∧ u.vectors = [0x21] ∧ u.devices.keyboard.full = true ∧ u.devices.request = none := by
  obtain ⟨hrun, hreq⟩ := unheard_requested
  have hrest : Reaches ((unmasked.pressed 0x1E).interrupted 0x21) _ :=
    .tail (.single (.handler (show _ = some (.write pic1Command 0x20 (.done unmasked.driver)) from rfl) rfl)) (.iret rfl)
  obtain ⟨htaken, hvectors, hfull, -, hidle⟩ := keyboard_lost cold_starts hrun rfl rfl hreq rfl hrest
  exact ⟨_, hrest, rfl, htaken, hvectors, hfull, (hidle rfl).2.2⟩

/-- The kernel as it is set up, a key, and its interrupt. -/
theorem keyboard_silent_pressed : ((unmasked.pressed 0x1E).interrupted 0x21).vectors = [0x21] ∧
    ((unmasked.pressed 0x1E).interrupted 0x21).taken = [] ∧
    ((unmasked.pressed 0x1E).interrupted 0x21).vectors.length ≤ 1 :=
  ⟨rfl, keyboard_silent cold_starts (unheard_requested.1.tail (.interrupt rfl rfl unheard_requested.2)) List.not_mem_nil⟩

end Delivery

end Os2024
