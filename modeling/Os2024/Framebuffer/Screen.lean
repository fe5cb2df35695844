import Mathlib.Tactic.IntervalCases
import Os2024.Framebuffer.Framebuffer
import Os2024.Lib.Ports

/-!
# Screen and cursor

The rest of `ch1/framebuffer/framebuffer.c`: `framebuffer_clear` writes every cell, `framebuffer_set_cursor` sends a
position to the CRT controller, one byte after the other. Here: what one call does to the cells
(`shownAt_framebufferWrite`, `shownAt_framebufferClear`) and to the cursor (`framebufferSetCursor_location`).
-/

namespace Os2024

open Ports

/-! ## Cells -/

/-- One row of `framebuffer_clear`. -/
def framebufferClearRow (i : Nat) (mem : Memory) : Memory :=
  (List.range framebufferWidth).foldl
    (fun mem j => framebufferWrite (UInt8.ofNat i) (UInt8.ofNat j) 32 0x07 0x00 mem) mem

/-- `framebuffer_clear`. -/
def framebufferClear (mem : Memory) : Memory :=
  (List.range framebufferHeight).foldl (fun mem i => framebufferClearRow i mem) mem

/-- A character with the colours of it and behind it. -/
structure ScreenCell where
  char : UInt8
  fg : UInt8
  bg : UInt8
  deriving DecidableEq

/-- A cell of `framebuffer_clear`. -/
def ScreenCell.blank : ScreenCell := ⟨32, 7, 0⟩

/-- What two bytes show. -/
def ScreenCell.ofBytes (char colours : UInt8) : ScreenCell := ⟨char, colours &&& 0x0F, colours >>> 4⟩

/-- The cell in a row and a column. -/
def Memory.shownAt (mem : Memory) (row col : Nat) : ScreenCell :=
  .ofBytes (mem (framebufferMemoryOffset + UInt32.ofNat (2 * (80 * row + col))))
    (mem (framebufferMemoryOffset + UInt32.ofNat (2 * (80 * row + col) + 1)))

/-- A byte of the screen. -/
def OnFramebuffer (addr : UInt32) : Prop := 0xC00B8000 ≤ addr.toNat ∧ addr.toNat < 0xC00B8000 + 2 * 80 * 25

section Cells

variable {row col c fg bg : UInt8} {mem : Memory} {addr : UInt32} {i j n : Nat}

/-- An attribute holds the low halves of both colours. -/
theorem framebufferAttribute_colours (fg bg : UInt8) : framebufferAttribute fg bg &&& 0x0F = fg &&& 0x0F ∧
    framebufferAttribute fg bg >>> 4 = bg &&& 0x0F := by
  unfold framebufferAttribute
  constructor
  · apply UInt8.toBitVec_inj.mp
    ext k hk
    interval_cases k <;> simp
  · apply UInt8.toBitVec_inj.mp
    ext k hk
    interval_cases k <;> simp

/-- What a write leaves at an address of the screen. -/
theorem framebufferWrite_at (hrow : row.toNat < 25) (hcol : col.toNat < 80) (hn : n < 4000) :
    framebufferWrite row col c fg bg mem (framebufferMemoryOffset + UInt32.ofNat n) =
      if n = 2 * (80 * row.toNat + col.toNat) + 1 then framebufferAttribute fg bg
      else if n = 2 * (80 * row.toNat + col.toNat) then c else mem (framebufferMemoryOffset + UInt32.ofNat n) := by
  rw [framebufferWrite_eq hrow hcol]
  simp only [Function.update_apply, framebuffer_inj hn (show 2 * (80 * row.toNat + col.toNat) < 4000 by omega),
    framebuffer_inj hn (show 2 * (80 * row.toNat + col.toNat) + 1 < 4000 by omega)]

/-- **A write** is to its cell; off the screen there is none. -/
theorem Memory.shownAt_framebufferWrite (hi : i < 25) (hj : j < 80) :
    (framebufferWrite row col c fg bg mem).shownAt i j =
      if i = row.toNat ∧ j = col.toNat then ⟨c, fg &&& 0x0F, bg &&& 0x0F⟩ else mem.shownAt i j := by
  by_cases hout : row.toNat ≥ framebufferHeight ∨ col.toNat ≥ framebufferWidth
  · have hother : ¬ (i = row.toNat ∧ j = col.toNat) := by
      unfold framebufferHeight framebufferWidth at hout
      omega
    rw [if_neg hother, framebufferWrite, if_pos hout]
  · unfold framebufferHeight framebufferWidth at hout
    have hrow : row.toNat < 25 := by omega
    have hcol : col.toNat < 80 := by omega
    unfold Memory.shownAt
    rw [framebufferWrite_at hrow hcol (by omega), framebufferWrite_at hrow hcol (by omega)]
    by_cases hcell : i = row.toNat ∧ j = col.toNat
    · rw [if_pos hcell, hcell.1, hcell.2, if_pos rfl, if_neg (by omega), if_pos rfl,
        ScreenCell.ofBytes, (framebufferAttribute_colours fg bg).1, (framebufferAttribute_colours fg bg).2]
    · rw [if_neg hcell, if_neg (by omega), if_neg (by omega), if_neg (by omega), if_neg (by omega)]

/-- Columns of a row, cleared one after the other. -/
theorem shownAt_clearColumns (mem : Memory) {r : Nat} (hr : r < 25) (hn : n ≤ 80) (hi : i < 25) (hj : j < 80) :
    ((List.range n).foldl (fun mem k => framebufferWrite (UInt8.ofNat r) (UInt8.ofNat k) 32 0x07 0x00 mem)
      mem).shownAt i j = if i = r ∧ j < n then .blank else mem.shownAt i j := by
  induction n with
  | zero => rw [if_neg fun h => absurd h.2 (Nat.not_lt_zero j), List.range_zero, List.foldl_nil]
  | succ n ih =>
    rw [List.range_succ, List.foldl_append, List.foldl_cons, List.foldl_nil, Memory.shownAt_framebufferWrite hi hj,
      ih (by omega), UInt8.toNat_ofNat_of_lt' (by change _ < 256; omega),
      UInt8.toNat_ofNat_of_lt' (by change _ < 256; omega)]
    by_cases hlast : i = r ∧ j = n
    · rw [if_pos hlast, if_pos ⟨hlast.1, by omega⟩]
      rfl
    · rw [if_neg hlast]
      exact if_congr (by omega) rfl rfl

/-- Rows, cleared one after the other. -/
theorem shownAt_clearRows (mem : Memory) (hn : n ≤ 25) (hi : i < 25) (hj : j < 80) :
    ((List.range n).foldl (fun mem r => framebufferClearRow r mem) mem).shownAt i j =
      if i < n then .blank else mem.shownAt i j := by
  induction n with
  | zero => rw [if_neg (Nat.not_lt_zero i), List.range_zero, List.foldl_nil]
  | succ n ih =>
    rw [List.range_succ, List.foldl_append, List.foldl_cons, List.foldl_nil, framebufferClearRow, framebufferWidth,
      shownAt_clearColumns _ (by omega) le_rfl hi hj, ih (by omega)]
    by_cases hlast : i = n
    · rw [if_pos ⟨hlast, hj⟩, if_pos (by omega)]
    · rw [if_neg fun h => hlast h.1]
      exact if_congr (by omega) rfl rfl

/-- **The screen is blank** when it was cleared. -/
theorem shownAt_framebufferClear (hi : i < 25) (hj : j < 80) : (framebufferClear mem).shownAt i j = .blank := by
  rw [framebufferClear, framebufferHeight, shownAt_clearRows mem le_rfl hi hj, if_pos hi]

/-- Nothing but the screen is cleared. -/
theorem framebufferClear_range (h : ¬ OnFramebuffer addr) : framebufferClear mem addr = mem addr := by
  have hwrite : ∀ (r k : Nat) (mem : Memory),
      framebufferWrite (UInt8.ofNat r) (UInt8.ofNat k) 32 0x07 0x00 mem addr = mem addr := fun r k mem =>
    not_imp_comm.mp framebufferWrite_range h
  have hrow : ∀ (r : Nat) (mem : Memory), framebufferClearRow r mem addr = mem addr := fun r mem =>
    List.foldlRecOn (List.range framebufferWidth) _ (motive := fun m => m addr = mem addr) rfl fun m hm k _ =>
      (hwrite r k m).trans hm
  exact List.foldlRecOn (List.range framebufferHeight) _ (motive := fun m => m addr = mem addr) rfl fun m hm r _ =>
    (hrow r m).trans hm

end Cells

/-! ## The cursor -/

/-- `CURSOR_PORT_CMD`. -/
def cursorPortCmd : UInt16 := 0x03D4

/-- `CURSOR_PORT_DATA`. -/
def cursorPortData : UInt16 := 0x03D5

/-- The CRT controller: registers behind an index. -/
structure CrtController where
  index : UInt8
  registers : UInt8 → UInt8

/-- The accesses to it. -/
def crtBus : Bus UInt16 UInt8 CrtController where
  read port crt :=
    if port = cursorPortCmd then (crt.index, crt)
    else if port = cursorPortData then (crt.registers crt.index, crt)
    else (0, crt)
  write port value crt :=
    if port = cursorPortCmd then { crt with index := value }
    else if port = cursorPortData then { crt with registers := Function.update crt.registers crt.index value }
    else crt

/-- The cell with the cursor, counted row by row: two registers, high byte first. -/
def CrtController.location (crt : CrtController) : Nat :=
  256 * (crt.registers 0x0E).toNat + (crt.registers 0x0F).toNat

/-- `framebuffer_set_cursor`. -/
def framebufferSetCursor (r c : UInt8) : Program UInt16 UInt8 Unit :=
  let position : UInt16 := UInt16.ofNat (r.toNat * framebufferWidth + c.toNat)
  .outs [
    (cursorPortCmd, 0x0F), (cursorPortData, (position &&& 0xFF).toUInt8),
    (cursorPortCmd, 0x0E), (cursorPortData, ((position >>> 8) &&& 0xFF).toUInt8)]

/-- The two bytes of a position. -/
theorem bytes_position (p : UInt16) :
    256 * ((p >>> 8) &&& 0xFF).toUInt8.toNat + (p &&& 0xFF).toUInt8.toNat = p.toNat := by
  have hlow : p.toNat &&& 255 = p.toNat % 256 := Nat.and_two_pow_sub_one_eq_mod p.toNat 8
  have hhigh : p.toNat >>> 8 &&& 255 = p.toNat >>> 8 % 256 := Nat.and_two_pow_sub_one_eq_mod (p.toNat >>> 8) 8
  have hlt := p.toNat_lt
  rw [Nat.shiftRight_eq_div_pow] at hhigh
  simp only [UInt16.toNat_toUInt8, UInt16.toNat_and, UInt16.toNat_shiftRight]
  simp [Nat.shiftRight_eq_div_pow, hlow, hhigh]
  omega

/-- **The cursor is set**, and no other register changes. -/
theorem framebufferSetCursor_location (r c : UInt8) (crt : CrtController) :
    (crtBus.run (framebufferSetCursor r c) crt).2.location = 80 * r.toNat + c.toNat ∧
      ∀ i, i ≠ 0x0E → i ≠ 0x0F → (crtBus.run (framebufferSetCursor r c) crt).2.registers i = crt.registers i := by
  have hr := r.toNat_lt
  have hc := c.toNat_lt
  constructor
  · have hposition := bytes_position (UInt16.ofNat (r.toNat * 80 + c.toNat))
    rw [UInt16.toNat_ofNat_of_lt' (by change _ < 65536; omega)] at hposition
    rw [Nat.mul_comm 80, ← hposition]
    rfl
  · intro i hhigh hlow
    exact (Function.update_of_ne hhigh ..).trans (Function.update_of_ne hlow ..)

end Os2024
