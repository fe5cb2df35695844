import Mathlib.Tactic.Ring
import Os2024.Interrupt.Putc
import Os2024.Lib.Terminal

/-!
# `putc` is a terminal

`putc` keeps its cursor on the screen and stores to cells of the screen only, so it is a terminal of 80 by 25 cells
without scrolling: `Console.Refines`, `Console.Refines.print`.
-/

namespace Os2024

open Bytes Terminal

/-- The two bytes of a cell: character and attribute. -/
abbrev Cell := UInt8 × UInt8

/-- A 16-bit value in memory. -/
def cellBytes (value : UInt16) : Cell := (leBytes 2 value.toNat 0, leBytes 2 value.toNat 1)

/-- Cell `k` of a screen in memory. -/
def screenCell (mem : Memory) (base : UInt32) (k : Nat) : Cell :=
  (mem (base + UInt32.ofNat (2 * k)), mem (base + UInt32.ofNat (2 * k + 1)))

/-- The screen. -/
def screenShape : Shape Glyph where
  width := 80
  height := 25
  newline g := g.1 == 10

/-- How `putc` draws characters. -/
def putcLook : Look Glyph Cell where
  glyph g := cellBytes (terminalCell g.2 g.1)
  blank g := cellBytes (terminalCell g.2 32)

/-- The console shows the terminal `t`. -/
structure Console.Refines (s : Console) (t : State Cell) : Prop where
  x : s.cursor.x.toNat < 80
  y : s.cursor.y.toNat < 25
  pos : 80 * s.cursor.y.toNat + s.cursor.x.toNat = t.pos
  cells : ∀ k < 2000, screenCell s.memory terminalBuffer k = t.grid k

/-! ## The bytes of a cell -/

section Bits

variable (color : UInt32) (c : UInt8)

theorem charToUInt32_getLsbD (i : Nat) : (charToUInt32 c).toBitVec.getLsbD i =
    (decide (i < 32) && if i < 8 then c.toBitVec.getLsbD i else !decide (c < 0x80)) := by
  have hmsb : c.toBitVec.msb = !decide (c < 0x80) := by
    by_cases hc : c < 0x80
    · simpa [BitVec.msb_eq_decide, hc] using UInt8.lt_iff_toNat_lt.mp hc
    · simpa [BitVec.msb_eq_decide, hc] using UInt8.le_iff_toNat_le.mp (UInt8.not_lt.mp hc)
  rw [← hmsb]
  exact BitVec.getLsbD_signExtend ..

/-- The sign of the character is in all bits of the attribute. -/
theorem terminalCell_getLsbD {i : Nat} (hi : i < 16) : (terminalCell color c).toBitVec.getLsbD i =
    if i < 8 then c.toBitVec.getLsbD i else (color.toBitVec.getLsbD (i - 8) || !decide (c < 0x80)) := by
  have hcell : (terminalCell color c).toBitVec.getLsbD i =
      (decide (i < 16) && !decide (i < 8) && (decide (i - 8 < 16) && color.toBitVec.getLsbD (i - 8)) ||
        decide (i < 16) && (charToUInt32 c).toBitVec.getLsbD i) := by
    simp [terminalCell]
  rw [hcell, charToUInt32_getLsbD, decide_eq_true hi, decide_eq_true (show i < 32 by omega),
    decide_eq_true (show i - 8 < 16 by omega)]
  by_cases h8 : i < 8
  · rw [if_pos h8, if_pos h8, decide_eq_true h8]
    simp only [Bool.not_true, Bool.and_false, Bool.true_and, Bool.false_and, Bool.false_or]
  · rw [if_neg h8, if_neg h8, decide_eq_false h8]
    simp only [Bool.not_false, Bool.true_and]

theorem terminalCell_low : (terminalCell color c).toUInt8 = c := by
  apply UInt8.toBitVec_inj.mp
  apply BitVec.eq_of_getLsbD_eq
  intro i hi
  rw [UInt16.toBitVec_toUInt8, BitVec.getLsbD_setWidth, terminalCell_getLsbD _ _ (by omega), if_pos hi,
    decide_eq_true hi, Bool.true_and]

theorem terminalCell_high :
    (terminalCell color c >>> 8).toUInt8 = if c < 0x80 then color.toUInt8 else 0xFF := by
  apply UInt8.toBitVec_inj.mp
  apply BitVec.eq_of_getLsbD_eq
  intro i hi
  have hshift : (terminalCell color c >>> 8).toUInt8.toBitVec.getLsbD i =
      (decide (i < 8) && (terminalCell color c).toBitVec.getLsbD (8 + i)) := by
    simp
  rw [hshift, terminalCell_getLsbD _ _ (by omega), if_neg (by omega), decide_eq_true hi, Bool.true_and,
    Nat.add_sub_cancel_left]
  by_cases hc : c < 0x80
  · rw [if_pos hc, decide_eq_true hc, UInt32.toBitVec_toUInt8, BitVec.getLsbD_setWidth, decide_eq_true hi]
    simp
  · have hones : (0xFF : UInt8).toBitVec = BitVec.allOnes 8 := rfl
    rw [if_neg hc, hones, BitVec.getLsbD_allOnes, decide_eq_false hc, decide_eq_true hi]
    simp

theorem cellBytes_eq (value : UInt16) : cellBytes value = (value.toUInt8, (value >>> 8).toUInt8) := by
  refine Prod.ext (UInt8.toNat_inj.mp ?_) (UInt8.toNat_inj.mp ?_)
  · simp [cellBytes, leBytes]
  · simp [cellBytes, leBytes, Nat.shiftRight_eq_div_pow]

/-- A cell as `putc` draws it: its attribute is the colour for ASCII characters only. -/
theorem cellBytes_terminalCell :
    cellBytes (terminalCell color c) = (c, if c < 0x80 then color.toUInt8 else 0xFF) := by
  rw [cellBytes_eq, terminalCell_low, terminalCell_high]

end Bits

/-! ## Stores to the screen -/

section Stores

variable {s : Console} {t : State Cell} {index color : UInt32} {value : UInt16} {k j : Nat} {c : UInt8}

theorem toNat_index {x y : UInt32} (hx : x.toNat < 80) (hy : y.toNat < 25) :
    (y * 80 + x).toNat = 80 * y.toNat + x.toNat := by
  simp only [UInt32.toNat_add, UInt32.toNat_mul, UInt32.reduceToNat]
  omega

/-- A store to `buffer` sets one cell. -/
theorem Console.screenCell_store (hindex : index.toNat < 2000) (hk : k < 2000) :
    screenCell (s.store index value).memory terminalBuffer k =
      if k = index.toNat then cellBytes value else screenCell s.memory terminalBuffer k := by
  have haddr : index * 2 = UInt32.ofNat (2 * index.toNat) := by
    apply UInt32.toNat_inj.mp
    simp only [UInt32.toNat_mul, UInt32.reduceToNat, UInt32.toNat_ofNat']
    ring_nf
  simp only [screenCell, Console.store, haddr]
  rw [Memory.store_add (by omega) (by omega), Memory.store_add (by omega) (by omega)]
  by_cases hki : k = index.toNat
  · rw [if_pos hki, dif_pos (by omega), dif_pos (by omega)]
    subst hki
    refine Prod.ext (congrArg (leBytes 2 value.toNat) (Fin.ext ?_)) (congrArg (leBytes 2 value.toNat) (Fin.ext ?_))
    · exact Nat.sub_self _
    · exact Nat.add_sub_cancel_left _ 1
  · rw [if_neg hki, dif_neg (by omega), dif_neg (by omega)]

/-- Consecutive stores of one value. -/
def Console.storeAll (s : Console) (value : UInt16) (indices : List Nat) : Console :=
  indices.foldl (fun s k => s.store (UInt32.ofNat k) value) s

theorem Console.storeAll_cons (i : Nat) (indices : List Nat) :
    s.storeAll value (i :: indices) = (s.store (UInt32.ofNat i) value).storeAll value indices := rfl

theorem Console.screenCell_storeAll {indices : List Nat} (hindices : ∀ i ∈ indices, i < 2000) (hk : k < 2000) :
    screenCell (s.storeAll value indices).memory terminalBuffer k =
      if k ∈ indices then cellBytes value else screenCell s.memory terminalBuffer k := by
  induction indices generalizing s with
  | nil => rfl
  | cons i indices ih =>
    have hi : (UInt32.ofNat i).toNat = i :=
      UInt32.toNat_ofNat_of_lt' ((hindices i List.mem_cons_self).trans (by decide))
    rw [storeAll_cons, ih fun j hj => hindices j (List.mem_cons_of_mem i hj),
      screenCell_store (hi.symm ▸ hindices i List.mem_cons_self) hk, hi]
    by_cases hm : k ∈ indices
    · simp [hm]
    · simp [hm]

theorem Console.storeAll_stores (indices : List Nat) : (s.storeAll value indices).stores =
    s.stores ++ indices.map fun k => (terminalBuffer + UInt32.ofNat k * 2, value) := by
  induction indices generalizing s with
  | nil => simp [storeAll]
  | cons i indices ih =>
    rw [storeAll_cons, ih]
    simp [store]

/-- The cells of the screen, row by row. -/
def screenIndices : List Nat := (List.range 25).flatMap fun y => (List.range 80).map fun x => y * 80 + x

theorem mem_screenIndices : k ∈ screenIndices ↔ k < 2000 := by
  simp only [screenIndices, List.mem_flatMap, List.mem_range, List.mem_map]
  constructor
  · rintro ⟨y, hy, x, hx, rfl⟩
    omega
  · intro hk
    exact ⟨k / 80, by omega, k % 80, by omega, by omega⟩

/-- The loops that blank the screen go through its cells. -/
theorem Console.blank_eq (s : Console) (color : UInt32) :
    s.blank color = s.storeAll (terminalCell color 32) screenIndices := by
  have hrow : ∀ (y : Nat) (s : Console), s.blankRow color y =
      ((List.range 80).map fun x => y * 80 + x).foldl
        (fun s k => s.store (UInt32.ofNat k) (terminalCell color 32)) s := by
    intro y s
    rw [List.foldl_map, blankRow]
    have hindex : ∀ x, UInt32.ofNat (y * 80 + x) = UInt32.ofNat y * 80 + UInt32.ofNat x := fun x => by
      rw [UInt32.ofNat_add, UInt32.ofNat_mul]
      rfl
    simp only [hindex]
  simp only [blank, hrow, storeAll, screenIndices, List.foldl_flatMap]

theorem Console.screenCell_blank (hk : k < 2000) :
    screenCell (s.blank color).memory terminalBuffer k = cellBytes (terminalCell color 32) := by
  rw [blank_eq, screenCell_storeAll (fun i hi => mem_screenIndices.mp hi) hk, if_pos (mem_screenIndices.mpr hk)]

/-! ## One character -/

theorem screenShape_newline : screenShape.newline (10, color) = true := rfl

theorem screenShape_glyph (hc : c ≠ 10) : screenShape.newline (c, color) = false := beq_false_of_ne hc

/-- A newline moves to the start of the next row. -/
theorem advance_row {row col pos : Nat} (hcol : col < 80) (hpos : 80 * row + col = pos) :
    screenShape.advance (10, color) pos = 80 * (row + 1) := by
  rw [advance_newline screenShape_newline]
  change (pos / 80 + 1) * 80 = _
  omega

/-- `putc` before it looks at the end of the screen. -/
def Console.putcAdvance (c : UInt8) (color : UInt32) (s : Console) : Console :=
  let s :=
    if c = 10 then s.moveTo 0 (s.cursor.y + 1)
    else (s.store (s.cursor.y * 80 + s.cursor.x) (terminalCell color c)).moveTo (s.cursor.x + 1) s.cursor.y
  if s.cursor.x ≥ 80 then s.moveTo 0 (s.cursor.y + 1) else s

theorem Console.putc_eq (c : UInt8) (color : UInt32) (s : Console) : s.putc c color =
    if (s.putcAdvance c color).cursor.y ≥ 25 then ((s.putcAdvance c color).blank color).moveTo 0 0
    else s.putcAdvance c color := rfl

/-- A newline moves the cursor only. -/
theorem Console.putcAdvance_newline : s.putcAdvance 10 color = s.moveTo 0 (s.cursor.y + 1) := by
  simp [Console.putcAdvance, Console.moveTo]

/-- Any other character is stored at the cursor. -/
theorem Console.putcAdvance_char (hc : c ≠ 10) : s.putcAdvance c color =
    if s.cursor.x + 1 ≥ 80 then
      (s.store (s.cursor.y * 80 + s.cursor.x) (terminalCell color c)).moveTo 0 (s.cursor.y + 1)
    else (s.store (s.cursor.y * 80 + s.cursor.x) (terminalCell color c)).moveTo (s.cursor.x + 1) s.cursor.y := by
  simp only [Console.putcAdvance, if_neg hc]
  rfl

theorem toNat_add_one {x : UInt32} (hx : x.toNat < 80) : (x + 1).toNat = x.toNat + 1 := by
  simp only [UInt32.toNat_add, UInt32.reduceToNat]
  omega

theorem Console.Refines.toNat_nextRow (h : s.Refines t) : (s.cursor.y + 1).toNat = s.cursor.y.toNat + 1 :=
  toNat_add_one (h.y.trans (by decide))

/-- A newline comes to the end of the screen from its last row. -/
theorem Console.Refines.putcAdvance_newline_end (h : s.Refines t) :
    (s.putcAdvance 10 color).cursor.y ≥ 25 ↔ 25 ≤ s.cursor.y.toNat + 1 := by
  rw [Console.putcAdvance_newline, Console.moveTo_cursor, ge_iff_le, UInt32.le_iff_toNat_le, h.toNat_nextRow]
  exact Iff.rfl

/-- The cursor behind the character, and the cells with it. -/
theorem Console.Refines.putcAdvance (h : s.Refines t) (c : UInt8) (color : UInt32) :
    (s.putcAdvance c color).cursor.x.toNat < 80 ∧
      80 * (s.putcAdvance c color).cursor.y.toNat + (s.putcAdvance c color).cursor.x.toNat =
        screenShape.advance (c, color) t.pos ∧
      ∀ k < 2000, screenCell (s.putcAdvance c color).memory terminalBuffer k =
        screenShape.put putcLook (c, color) t k := by
  have hy1 := h.toNat_nextRow
  obtain ⟨hx, hy, hpos, hcells⟩ := h
  have hx1 := toNat_add_one hx
  by_cases hc : c = 10
  · rw [hc, Console.putcAdvance_newline, Console.moveTo_cursor, Console.moveTo_memory, advance_row hx hpos,
      put_newline screenShape_newline, hy1]
    exact ⟨show (0 : UInt32).toNat < 80 by decide, rfl, hcells⟩
  · have hindex := toNat_index hx hy
    have hadvance : screenShape.advance (c, color) t.pos = t.pos + 1 := advance_glyph (screenShape_glyph hc)
    have hput : screenShape.put putcLook (c, color) t =
        Function.update t.grid t.pos (cellBytes (terminalCell color c)) := put_glyph (screenShape_glyph hc)
    -- the character is stored in the cell at the cursor
    have hstored : ∀ k < 2000, screenCell (s.store (s.cursor.y * 80 + s.cursor.x) (terminalCell color c)).memory
        terminalBuffer k = screenShape.put putcLook (c, color) t k := by
      intro k hk
      rw [Console.screenCell_store (by omega) hk, hput, hindex, hpos, hcells k hk]
      by_cases hkp : k = t.pos
      · rw [if_pos hkp, hkp, Function.update_self]
      · rw [if_neg hkp, Function.update_of_ne hkp]
    by_cases hwrap : s.cursor.x + 1 ≥ 80
    · have h80 : s.cursor.x.toNat + 1 = 80 := by
        have hge := UInt32.le_iff_toNat_le.mp hwrap
        rw [hx1] at hge
        simp only [UInt32.reduceToNat] at hge
        omega
      rw [Console.putcAdvance_char hc, if_pos hwrap, hadvance, Console.moveTo_cursor, Console.moveTo_memory]
      refine ⟨show (0 : UInt32).toNat < 80 by decide, ?_, hstored⟩
      simp only [hy1, UInt32.reduceToNat]
      omega
    · have h80 : s.cursor.x.toNat + 1 < 80 := by
        have hlt := UInt32.lt_iff_toNat_lt.mp (UInt32.not_le.mp hwrap)
        rwa [hx1] at hlt
      rw [Console.putcAdvance_char hc, if_neg hwrap, hadvance, Console.moveTo_cursor, Console.moveTo_memory]
      refine ⟨hx1 ▸ h80, ?_, hstored⟩
      simp only [hx1]
      omega

/-- **One character** is one input of the terminal. -/
theorem Console.Refines.putc (h : s.Refines t) (c : UInt8) (color : UInt32) :
    (s.putc c color).Refines (screenShape.step putcLook t (c, color)) := by
  obtain ⟨hx, hpos, hcells⟩ := h.putcAdvance c color
  have hend : (s.putcAdvance c color).cursor.y ≥ 25 ↔
      screenShape.width * screenShape.height ≤ screenShape.advance (c, color) t.pos := by
    rw [← hpos, ge_iff_le, UInt32.le_iff_toNat_le]
    simp only [screenShape, UInt32.reduceToNat]
    omega
  rw [Console.putc_eq, Shape.step]
  by_cases hblank : (s.putcAdvance c color).cursor.y ≥ 25
  · rw [if_pos hblank, if_pos (hend.mp hblank)]
    refine ⟨?_, ?_, ?_, fun k hk => ?_⟩
    · rw [Console.moveTo_cursor]
      decide
    · rw [Console.moveTo_cursor]
      decide
    · rw [Console.moveTo_cursor]
      rfl
    · rw [Console.moveTo_memory]
      exact Console.screenCell_blank hk
  · rw [if_neg hblank, if_neg fun hle => hblank (hend.mpr hle)]
    have hy := UInt32.lt_iff_toNat_lt.mp (UInt32.not_le.mp hblank)
    exact ⟨hx, hy, hpos, hcells⟩

/-- **Any characters** are inputs of the terminal. -/
theorem Console.Refines.print (h : s.Refines t) (glyphs : List Glyph) :
    (s.print glyphs).Refines (screenShape.run putcLook glyphs t) := by
  induction glyphs generalizing s t with
  | nil => exact h
  | cons g glyphs ih => exact ih (h.putc g.1 g.2)

/-- The terminal that a console with its cursor in the first cell shows. -/
def Console.terminal (s : Console) : State Cell := ⟨0, screenCell s.memory terminalBuffer⟩

theorem Console.refines_terminal (h : s.cursor = ⟨0, 0⟩) : s.Refines s.terminal := by
  refine ⟨?_, ?_, ?_, fun _ _ => rfl⟩
  · rw [h]
    decide
  · rw [h]
    decide
  · rw [h]
    rfl

end Stores

end Os2024
