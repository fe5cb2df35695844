import Os2024.Framebuffer.Screen
import Os2024.Interrupt.Pic

/-!
# The framebuffer is a screen with a cursor

`framebuffer_write`, `framebuffer_clear` and `framebuffer_set_cursor`, called one after the other with interrupts in
between and between the port accesses of a call, do to the screen what the calls do to a grid of cells and a cursor:
`framebuffer_shows`. Interrupts come in `kernel_setup` from `initialize_idt` on, before it clears the screen.
-/

namespace Os2024

open Ports

/-- A screen as it is seen: cells, and the one with the cursor, counted row by row. -/
structure Screen where
  cell : Fin 25 → Fin 80 → ScreenCell
  cursor : Nat

inductive ScreenCall where
  | write (row col c fg bg : UInt8)
  | clear
  | setCursor (r c : UInt8)

/-- What a call shows. -/
def ScreenCall.exec : ScreenCall → Screen → Screen
  | .write row col c fg bg, s =>
    { s with
      cell := fun i j =>
        if i.val = row.toNat ∧ j.val = col.toNat then ⟨c, fg &&& 0x0F, bg &&& 0x0F⟩ else s.cell i j }
  | .clear, s => { s with cell := fun _ _ => .blank }
  | .setCursor r c, s => { s with cursor := 80 * r.toNat + c.toNat }

/-- Memory, and the devices at the ports. -/
structure Display where
  memory : Memory
  devices : Devices
  crt : CrtController

/-- What is seen of it. -/
def Display.screen (d : Display) : Screen where
  cell i j := d.memory.shownAt i j
  cursor := d.crt.location

def CursorPort (port : UInt16) : Prop := port = cursorPortCmd ∨ port = cursorPortData

instance (port : UInt16) : Decidable (CursorPort port) := inferInstanceAs (Decidable (_ ∨ _))

/-- `in` and `out`. -/
def displayBus : Bus UInt16 UInt8 Display where
  read port d :=
    if CursorPort port then ((crtBus.read port d.crt).1, { d with crt := (crtBus.read port d.crt).2 })
    else ((deviceBus.read port d.devices).1, { d with devices := (deviceBus.read port d.devices).2 })
  write port value d :=
    if CursorPort port then { d with crt := crtBus.write port value d.crt }
    else { d with devices := deviceBus.write port value d.devices }

/-- What goes on beside the calls: devices change, the handler of an interrupt accesses ports, and memory changes
elsewhere. -/
inductive Display.Change : Display → Display → Prop
  | devices (d : Display) {devices : Devices} (h : Devices.Change d.devices devices) :
    Change d { d with devices := devices }
  | handler (d : Display) (intNumber : UInt32) (s : KeyboardDriverState) :
    Change d (displayBus.run (Port.mainInterruptHandler intNumber s) d).2
  | memory (d : Display) {memory : Memory} (h : ∀ a, OnFramebuffer a → memory a = d.memory a) :
    Change d { d with memory := memory }

/-- Calls, one after the other. -/
inductive DisplayRun : List ScreenCall → Display → Display → Prop
  | done {d : Display} : DisplayRun [] d d
  | change {calls : List ScreenCall} {d d' e : Display} (h : d.Change d') (hrest : DisplayRun calls d' e) :
    DisplayRun calls d e
  | write {calls : List ScreenCall} {d e : Display} (row col c fg bg : UInt8)
      (hrest : DisplayRun calls { d with memory := framebufferWrite row col c fg bg d.memory } e) :
    DisplayRun (.write row col c fg bg :: calls) d e
  | clear {calls : List ScreenCall} {d e : Display}
      (hrest : DisplayRun calls { d with memory := framebufferClear d.memory } e) : DisplayRun (.clear :: calls) d e
  | setCursor {calls : List ScreenCall} {d d' e : Display} (r c : UInt8)
      (hcall : Relation.ReflTransGen (Step displayBus Display.Change) (framebufferSetCursor r c, d) (.done (), d'))
      (hrest : DisplayRun calls d' e) : DisplayRun (.setCursor r c :: calls) d e

section Changes

variable {d d' e : Display} {calls : List ScreenCall} {addr : UInt32} {i j : Nat}

/-- The handler has no access to the cursor. -/
theorem mainInterruptHandler_uses (intNumber : UInt32) (s : KeyboardDriverState) :
    (Port.mainInterruptHandler intNumber s).Uses fun port => ¬ CursorPort port := by
  unfold Port.mainInterruptHandler
  split
  · cases hon : s.keyboardInputOn with
    | true =>
      rw [Port.keyboardIsr_on hon]
      exact ⟨by decide, fun _ => ⟨by decide, trivial⟩⟩
    | false =>
      rw [Port.keyboardIsr_off hon]
      exact ⟨by decide, trivial⟩
  · trivial

/-- Accesses to other ports keep the cursor. -/
theorem run_crt {α : Type} {p : Port.Code α} (hp : p.Uses fun port => ¬ CursorPort port) :
    (displayBus.run p d).2.crt = d.crt :=
  displayBus.run_keeps
    (fun port d h => by
      dsimp only [displayBus]
      rw [if_neg h])
    (fun port value d h => by
      dsimp only [displayBus]
      rw [if_neg h])
    hp

theorem displayBus_memory : (∀ port d, (displayBus.read port d).2.memory = d.memory) ∧
    ∀ port value d, (displayBus.write port value d).memory = d.memory := by
  constructor
  · intro port d
    dsimp only [displayBus]
    split <;> rfl
  · intro port value d
    dsimp only [displayBus]
    split <;> rfl

/-- Accesses to ports keep memory. -/
theorem run_memory {α : Type} (p : Port.Code α) : (displayBus.run p d).2.memory = d.memory :=
  displayBus.run_keeps (fun port d _ => displayBus_memory.1 port d)
    (fun port value d _ => displayBus_memory.2 port value d)
    (Program.uses_of_forall (fun _ => trivial) p : p.Uses fun _ => True)

/-- What goes on beside the calls does not show. -/
theorem Display.Change.keeps (h : d.Change d') :
    d'.crt = d.crt ∧ ∀ a, OnFramebuffer a → d'.memory a = d.memory a := by
  cases h with
  | devices => exact ⟨rfl, fun _ _ => rfl⟩
  | handler intNumber s =>
    exact ⟨run_crt (mainInterruptHandler_uses intNumber s), fun a _ => congrFun (run_memory _) a⟩
  | memory hmem => exact ⟨rfl, hmem⟩

/-- The ports of the cursor are those of the CRT controller, whatever goes on. -/
theorem displayBus_projects : Projects displayBus crtBus Display.Change CursorPort Display.crt where
  read port d h := by
    dsimp only [displayBus]
    rw [if_pos h]
  write port value d h := by
    dsimp only [displayBus]
    rw [if_pos h]
  env h := h.keeps.1

theorem framebufferSetCursor_uses (r c : UInt8) : (framebufferSetCursor r c).Uses CursorPort :=
  ⟨.inl rfl, .inr rfl, .inl rfl, .inr rfl, trivial⟩

/-- A program at the ports, interrupted or not, does not write to the screen. -/
theorem cells_kept {α : Type} {x y : Port.Code α × Display}
    (h : Relation.ReflTransGen (Step displayBus Display.Change) x y) (ha : OnFramebuffer addr) :
    y.2.memory addr = x.2.memory addr := by
  induction h with
  | refl => rfl
  | tail _ hstep ih =>
    rw [← ih]
    cases hstep with
    | @access p _ _ _ hacc =>
      cases p with
      | done a => cases hacc
      | read port next =>
        cases hacc
        exact congrFun (displayBus_memory.1 port _) addr
      | write port value next =>
        cases hacc
        exact congrFun (displayBus_memory.2 port value _) addr
    | env henv => exact henv.keeps.2 addr ha

theorem onFramebuffer_cell {k : Nat} (hi : i < 25) (hj : j < 80) (hk : k < 2) :
    OnFramebuffer (framebufferMemoryOffset + UInt32.ofNat (2 * (80 * i + j) + k)) := by
  unfold OnFramebuffer
  rw [toNat_framebuffer (by omega)]
  omega

/-- Two displays with the same bytes on the screen show the same cells. -/
theorem screen_congr (hcells : ∀ a, OnFramebuffer a → e.memory a = d.memory a)
    (hcursor : e.crt.location = d.crt.location) : e.screen = d.screen := by
  have hcell : ∀ (i : Fin 25) (j : Fin 80), e.memory.shownAt i j = d.memory.shownAt i j := by
    intro i j
    unfold Memory.shownAt
    have heven := hcells _ (onFramebuffer_cell i.2 j.2 (k := 0) (by decide))
    have hodd := hcells _ (onFramebuffer_cell i.2 j.2 (k := 1) (by decide))
    rw [Nat.add_zero] at heven
    rw [heven, hodd]
  unfold Display.screen
  rw [hcursor]
  simp only [hcell]

/-- `framebuffer_set_cursor`, interrupted or not. -/
theorem setCursor_crt {r c : UInt8}
    (h : Relation.ReflTransGen (Step displayBus Display.Change) (framebufferSetCursor r c, d) (.done (), d')) :
    d'.crt = (crtBus.run (framebufferSetCursor r c) d.crt).2 :=
  congrArg Prod.snd (displayBus_projects.returns h (framebufferSetCursor_uses r c))

theorem setCursor_screen {r c : UInt8}
    (h : Relation.ReflTransGen (Step displayBus Display.Change) (framebufferSetCursor r c, d) (.done (), d')) :
    d'.screen = (ScreenCall.setCursor r c).exec d.screen := by
  have hlocation : d'.crt.location = 80 * r.toNat + c.toNat := by
    rw [setCursor_crt h]
    exact (framebufferSetCursor_location r c d.crt).1
  have hcells : Display.screen { d' with crt := d.crt } = d.screen := screen_congr (fun a => cells_kept h) rfl
  rw [ScreenCall.exec, ← hcells, ← hlocation]
  rfl

theorem DisplayRun.screen_eq (h : DisplayRun calls d e) :
    e.screen = calls.foldl (fun s call => call.exec s) d.screen := by
  induction h with
  | done => rfl
  | @change calls d d' e hchange _ ih =>
    obtain ⟨hcrt, hcells⟩ := hchange.keeps
    rw [ih, screen_congr hcells (congrArg CrtController.location hcrt)]
  | @write calls d e row col c fg bg _ ih =>
    have hwrite : Display.screen { d with memory := framebufferWrite row col c fg bg d.memory } =
        (ScreenCall.write row col c fg bg).exec d.screen := by
      rw [Display.screen, ScreenCall.exec]
      congr 1
      funext i j
      exact Memory.shownAt_framebufferWrite i.2 j.2
    rw [ih, hwrite]
    rfl
  | @clear calls d e _ ih =>
    have hclear : Display.screen { d with memory := framebufferClear d.memory } = ScreenCall.clear.exec d.screen := by
      rw [Display.screen, ScreenCall.exec]
      congr 1
      funext i j
      exact shownAt_framebufferClear i.2 j.2
    rw [ih, hclear]
    rfl
  | setCursor r c hcall _ ih =>
    rw [ih, setCursor_screen hcall]
    rfl

theorem DisplayRun.registers_eq {k : UInt8} (h : DisplayRun calls d e) (hhigh : k ≠ 0x0E) (hlow : k ≠ 0x0F) :
    e.crt.registers k = d.crt.registers k := by
  induction h with
  | done => rfl
  | change hchange _ ih => rw [ih, hchange.keeps.1]
  | write row col c fg bg _ ih => exact ih
  | clear _ ih => exact ih
  | @setCursor calls d d' e r c hcall _ ih =>
    rw [ih, setCursor_crt hcall]
    exact (framebufferSetCursor_location r c d.crt).2 k hhigh hlow

/-- **The framebuffer is a screen with a cursor**; no other register of the CRT controller changes. -/
theorem framebuffer_shows (h : DisplayRun calls d e) :
    e.screen = calls.foldl (fun s call => call.exec s) d.screen ∧
      ∀ k, k ≠ 0x0E → k ≠ 0x0F → e.crt.registers k = d.crt.registers k :=
  ⟨h.screen_eq, fun _ => h.registers_eq⟩

end Changes

/-- The display before `kernel_setup` clears it: `A` in all of memory, and no cursor on the screen. -/
def litDisplay : Display where
  memory _ := 65
  devices := {
    master := ⟨fun _ => false, initialized 0x20 0b0100 0xFD⟩
    slave := ⟨fun _ => false, initialized 0x28 0b0010 0xFF⟩
    keyboard := ⟨false, 0, [], 16⟩ }
  crt := ⟨0, fun _ => 0xFF⟩

/-- The two calls of `kernel_setup`. -/
theorem framebuffer_shows_blank :
    ∃ e, DisplayRun [.clear, .setCursor 0 0] litDisplay e ∧ e.screen = ⟨fun _ _ => .blank, 0⟩ := by
  have hrun : DisplayRun [.clear, .setCursor 0 0] litDisplay
      (displayBus.run (framebufferSetCursor 0 0) { litDisplay with memory := framebufferClear litDisplay.memory }).2 :=
    .clear (.setCursor 0 0 (displayBus.reaches_run Display.Change (framebufferSetCursor 0 0) _) .done)
  exact ⟨_, hrun, (framebuffer_shows hrun).1⟩

end Os2024
