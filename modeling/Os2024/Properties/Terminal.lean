import Os2024.Framebuffer.Framebuffer
import Os2024.Interrupt.Terminal

/-!
# The screen that `putc` draws

A terminal on top of `framebuffer_write` draws the same screen as `putc`, but for characters from `0x80` on: there the
sign of the `char` ends up in the attribute. `screen_eq_reference_iff` says when the two screens are the same.
-/

namespace Os2024

open Terminal

/-! ## The reference terminal -/

/-- A terminal on top of `framebuffer_write`. -/
structure ReferenceTerminal where
  memory : Memory
  row : Nat
  col : Nat

namespace ReferenceTerminal

/-- A cell, written in colour `k`. -/
def write (t : ReferenceTerminal) (row col : Nat) (c : UInt8) (k : UInt32) : ReferenceTerminal :=
  { t with
    memory := framebufferWrite (UInt8.ofNat row) (UInt8.ofNat col) c (k &&& 0xF).toUInt8 (k >>> 4).toUInt8 t.memory }

/-- The cursor, set. -/
def moveTo (t : ReferenceTerminal) (row col : Nat) : ReferenceTerminal := { t with row := row, col := col }

@[simp] theorem moveTo_memory (t : ReferenceTerminal) (row col : Nat) : (t.moveTo row col).memory = t.memory := rfl

/-- Every cell of the screen, blanked. -/
def blank (t : ReferenceTerminal) (k : UInt32) : ReferenceTerminal :=
  (List.range 25).foldl (fun t row => (List.range 80).foldl (fun t col => t.write row col 32 k) t) t

/-- The cursor, in the next row when it has left its own. -/
def wrap (t : ReferenceTerminal) : ReferenceTerminal := if t.col = 80 then t.moveTo (t.row + 1) 0 else t

/-- One character. -/
def putc (t : ReferenceTerminal) (c : UInt8) (k : UInt32) : ReferenceTerminal :=
  let t := if c = 10 then t.moveTo (t.row + 1) 0 else ((t.write t.row t.col c k).moveTo t.row (t.col + 1)).wrap
  if t.row = 25 then (t.blank k).moveTo 0 0 else t

/-- Characters, one after the other. -/
def print (glyphs : List Glyph) (t : ReferenceTerminal) : ReferenceTerminal :=
  glyphs.foldl (fun t g => t.putc g.1 g.2) t

end ReferenceTerminal

/-- How the reference terminal draws characters. -/
def referenceLook : Look Glyph Cell where
  glyph g := (g.1, g.2.toUInt8)
  blank g := (32, g.2.toUInt8)

/-- The reference terminal shows the terminal `s`. -/
structure ReferenceTerminal.Refines (t : ReferenceTerminal) (s : State Cell) : Prop where
  col : t.col < 80
  row : t.row < 25
  pos : 80 * t.row + t.col = s.pos
  cells : ∀ k < 2000, screenCell t.memory framebufferMemoryOffset k = s.grid k

section Reference

variable {t : ReferenceTerminal} {s : State Cell} {row col j : Nat} {c : UInt8} {k : UInt32}

namespace ReferenceTerminal

/-- A character and its colour are in the cell they are written to. -/
theorem screenCell_write (hrow : row < 25) (hcol : col < 80) (hj : j < 2000) :
    screenCell (t.write row col c k).memory framebufferMemoryOffset j =
      if j = 80 * row + col then (c, k.toUInt8) else screenCell t.memory framebufferMemoryOffset j := by
  have hr : (UInt8.ofNat row).toNat = row := UInt8.toNat_ofNat_of_lt' (hrow.trans (by decide))
  have hc : (UInt8.ofNat col).toNat = col := UInt8.toNat_ofNat_of_lt' (hcol.trans (by decide))
  have hmem : (t.write row col c k).memory =
      Function.update (Function.update t.memory (framebufferMemoryOffset + UInt32.ofNat (2 * (80 * row + col))) c)
        (framebufferMemoryOffset + UInt32.ofNat (2 * (80 * row + col) + 1)) k.toUInt8 := by
    rw [write, framebufferWrite_eq (by rwa [hr]) (by rwa [hc]), framebufferAttribute_halves, hr, hc]
  simp only [screenCell, hmem, Function.update_apply]
  rw [if_neg (mt (framebuffer_inj (by omega) (by omega)).mp (by omega))]
  by_cases hjk : j = 80 * row + col
  · subst hjk
    simp
  · rw [if_neg (mt (framebuffer_inj (by omega) (by omega)).mp (by omega)),
      if_neg (mt (framebuffer_inj (by omega) (by omega)).mp (by omega)),
      if_neg (mt (framebuffer_inj (by omega) (by omega)).mp (by omega)), if_neg hjk]

/-- One character, written to any cells. -/
theorem screenCell_writeAll {cells : List (Nat × Nat)} (hcells : ∀ p ∈ cells, p.1 < 25 ∧ p.2 < 80) (hj : j < 2000) :
    screenCell (cells.foldl (fun t p => t.write p.1 p.2 c k) t).memory framebufferMemoryOffset j =
      if (j / 80, j % 80) ∈ cells then (c, k.toUInt8) else screenCell t.memory framebufferMemoryOffset j := by
  induction cells generalizing t with
  | nil => rfl
  | cons p cells ih =>
    obtain ⟨row, col⟩ := p
    have hp : row < 25 ∧ col < 80 := hcells (row, col) List.mem_cons_self
    have hat : j = 80 * row + col ↔ (j / 80, j % 80) = (row, col) := by
      rw [Prod.mk.injEq]
      omega
    rw [List.foldl_cons, ih fun q hq => hcells q (List.mem_cons_of_mem _ hq), screenCell_write hp.1 hp.2 hj]
    by_cases hm : (j / 80, j % 80) ∈ cells
    · simp only [List.mem_cons, hm, or_true, if_true]
    · simp only [List.mem_cons, hm, or_false, hat, if_false]

theorem screenCell_blank (hj : j < 2000) :
    screenCell (t.blank k).memory framebufferMemoryOffset j = (32, k.toUInt8) := by
  have hblank : t.blank k = ((List.range 25).flatMap fun row => (List.range 80).map fun col => (row, col)).foldl
      (fun t p => t.write p.1 p.2 32 k) t := by
    simp only [blank, List.foldl_flatMap, List.foldl_map]
  rw [hblank, screenCell_writeAll _ hj, if_pos]
  · simp only [List.mem_flatMap, List.mem_map, List.mem_range]
    exact ⟨j / 80, by omega, j % 80, Nat.mod_lt _ (by decide), rfl⟩
  · intro p hp
    simp only [List.mem_flatMap, List.mem_map, List.mem_range] at hp
    obtain ⟨row, hrow, col, hcol, rfl⟩ := hp
    exact ⟨hrow, hcol⟩

/-- The end of the screen is looked at behind the character. -/
theorem refines_step {g : Glyph} (hcol : t.col < 80) (hrow : t.row ≤ 25)
    (hpos : 80 * t.row + t.col = screenShape.advance g s.pos)
    (hcells : ∀ j < 2000, screenCell t.memory framebufferMemoryOffset j = screenShape.put referenceLook g s j) :
    (if t.row = 25 then (t.blank g.2).moveTo 0 0 else t).Refines (screenShape.step referenceLook s g) := by
  have hend : t.row = 25 ↔ screenShape.width * screenShape.height ≤ screenShape.advance g s.pos := by
    rw [← hpos]
    simp only [screenShape]
    omega
  unfold Shape.step
  by_cases h25 : t.row = 25
  · rw [if_pos h25, if_pos (hend.mp h25)]
    refine ⟨Nat.zero_lt_succ 79, Nat.zero_lt_succ 24, rfl, fun j hj => ?_⟩
    rw [moveTo_memory, screenCell_blank hj]
    rfl
  · rw [if_neg h25, if_neg (mt hend.mpr h25)]
    exact ⟨hcol, by omega, hpos, hcells⟩

/-- One character is one input of a terminal. -/
theorem Refines.putc (h : t.Refines s) (c : UInt8) (k : UInt32) :
    (t.putc c k).Refines (screenShape.step referenceLook s (c, k)) := by
  obtain ⟨hcol, hrow, hpos, hcells⟩ := h
  by_cases hc : c = 10
  · simp only [ReferenceTerminal.putc, if_pos hc]
    rw [hc]
    refine refines_step (t := t.moveTo (t.row + 1) 0) (g := (10, k)) (Nat.zero_lt_succ 79) hrow
      (advance_row hcol hpos).symm ?_
    rw [put_newline screenShape_newline]
    exact hcells
  · have hput : screenShape.put referenceLook (c, k) s = Function.update s.grid s.pos (c, k.toUInt8) :=
      put_glyph (screenShape_glyph hc)
    have hadvance : screenShape.advance (c, k) s.pos = s.pos + 1 := advance_glyph (screenShape_glyph hc)
    -- the character is written to the cell at the cursor
    have hwritten : ∀ j < 2000, screenCell (t.write t.row t.col c k).memory framebufferMemoryOffset j =
        screenShape.put referenceLook (c, k) s j := by
      intro j hj
      rw [screenCell_write hrow hcol hj, hput, hpos, Function.update_apply, hcells j hj]
    simp only [ReferenceTerminal.putc, if_neg hc]
    by_cases hwrap : t.col + 1 = 80
    · have hmove : ((t.write t.row t.col c k).moveTo t.row (t.col + 1)).wrap =
          (t.write t.row t.col c k).moveTo (t.row + 1) 0 := if_pos hwrap
      rw [hmove]
      refine refines_step (g := (c, k)) (Nat.zero_lt_succ 79) hrow ?_ hwritten
      change 80 * (t.row + 1) + 0 = _
      omega
    · have hmove : ((t.write t.row t.col c k).moveTo t.row (t.col + 1)).wrap =
          (t.write t.row t.col c k).moveTo t.row (t.col + 1) := if_neg hwrap
      rw [hmove]
      refine refines_step (g := (c, k)) ?_ hrow.le ?_ hwritten
      · change t.col + 1 < 80
        omega
      · change 80 * t.row + (t.col + 1) = _
        omega

theorem Refines.print (h : t.Refines s) (glyphs : List Glyph) :
    (t.print glyphs).Refines (screenShape.run referenceLook glyphs s) := by
  induction glyphs generalizing s t with
  | nil => exact h
  | cons g glyphs ih => exact ih (h.putc g.1 g.2)

end ReferenceTerminal

/-- **The two screens are the same** exactly when every character from `0x80` on that is printed since the screen was
blanked last has a colour of ones. -/
theorem screen_eq_reference_iff (console : Console) (mem : Memory) (calls : List PrintCall)
    (hcursor : console.cursor = ⟨0, 0⟩)
    (hscreen : ∀ k < 2000, screenCell mem framebufferMemoryOffset k = screenCell console.memory terminalBuffer k) :
    (∀ k < 2000, screenCell (console.runCalls calls).memory terminalBuffer k =
      screenCell ((ReferenceTerminal.mk mem 0 0).print (console.printed calls)).memory framebufferMemoryOffset k) ↔
      ∀ g ∈ screenShape.shown (console.printed calls) 0, g.1 < 0x80 ∨ g.2.toUInt8 = 0xFF := by
  have hstart : (ReferenceTerminal.mk mem 0 0).Refines console.terminal :=
    ⟨Nat.zero_lt_succ 79, Nat.zero_lt_succ 24, rfl, hscreen⟩
  have hputc := (Console.refines_terminal hcursor).print (console.printed calls)
  have href := hstart.print (console.printed calls)
  have hblank : putcLook.blank = referenceLook.blank := by
    funext g
    exact cellBytes_terminalCell g.2 32
  have hglyph : ∀ g : Glyph, putcLook.glyph g = referenceLook.glyph g ↔ g.1 < 0x80 ∨ g.2.toUInt8 = 0xFF := by
    intro g
    simp only [putcLook, referenceLook, cellBytes_terminalCell, Prod.mk.injEq, true_and]
    split <;> simp [*, eq_comm]
  have hgrids := run_grid_eq_iff_forall (d := screenShape) (s := console.terminal) (console.printed calls)
    (Nat.zero_lt_succ 79) hblank (show 0 < 80 * 25 by decide)
  simp only [hglyph] at hgrids
  rw [Console.runCalls_eq]
  refine Iff.trans ?_ hgrids
  constructor
  · intro h k hk
    rw [← hputc.cells k hk, ← href.cells k hk, h k hk]
  · intro h k hk
    rw [hputc.cells k hk, href.cells k hk, h k hk]

/-- ASCII characters and a newline, then a character from `0x80` on in a colour of ones. -/
theorem screen_eq_reference_ascii :
    screenShape.shown [(0x41, 7), (10, 7), (0x80, 0xFF)] 0 = [(0x41, 7), (0x80, 0xFF)] ∧
      ∀ k < 2000, screenCell ((Console.mk (fun _ => 0) ⟨0, 0⟩ []).runCalls
          [.putc 0x41 7, .putc 10 7, .putc 0x80 0xFF]).memory terminalBuffer k =
        screenCell ((ReferenceTerminal.mk (fun _ => 0) 0 0).print
          [(0x41, 7), (10, 7), (0x80, 0xFF)]).memory framebufferMemoryOffset k := by
  -- the newline takes no cell
  have hshown : screenShape.shown [(0x41, 7), (10, 7), (0x80, 0xFF)] 0 = [(0x41, 7), (0x80, 0xFF)] := by rfl
  refine ⟨hshown, ?_⟩
  refine (screen_eq_reference_iff ⟨fun _ => 0, ⟨0, 0⟩, []⟩ (fun _ => 0) [.putc 0x41 7, .putc 10 7, .putc 0x80 0xFF] rfl
    (fun _ _ => rfl)).mpr ?_
  change ∀ g ∈ screenShape.shown [(0x41, 7), (10, 7), (0x80, 0xFF)] 0, _
  rw [hshown]
  simp only [List.forall_mem_cons, List.not_mem_nil, false_implies, implies_true, and_true]
  exact ⟨.inl (by decide), .inr (by decide)⟩

/-- Character `0x80` in colour `7`: one screen has attribute `0xFF`, the other attribute `7`. -/
theorem screen_ne_reference :
    screenCell ((Console.mk (fun _ => 0) ⟨0, 0⟩ []).runCalls [.putc 0x80 7]).memory terminalBuffer 0 = (0x80, 0xFF) ∧
      screenCell ((ReferenceTerminal.mk (fun _ => 0) 0 0).print [(0x80, 7)]).memory framebufferMemoryOffset 0 =
        (0x80, 7) ∧
      ¬ ∀ k < 2000, screenCell ((Console.mk (fun _ => 0) ⟨0, 0⟩ []).runCalls [.putc 0x80 7]).memory terminalBuffer k =
        screenCell ((ReferenceTerminal.mk (fun _ => 0) 0 0).print
          ((Console.mk (fun _ => 0) ⟨0, 0⟩ []).printed [.putc 0x80 7])).memory framebufferMemoryOffset k := by
  refine ⟨by decide +kernel, by decide +kernel, fun h => ?_⟩
  exact absurd (h 0 (by decide)) (by decide +kernel)

end Reference

end Os2024
