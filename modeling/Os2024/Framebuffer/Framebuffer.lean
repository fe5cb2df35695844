import Os2024.Stdlib.String

/-!
# The framebuffer

`framebuffer_write` of `ch1/framebuffer/framebuffer.c`: a character and its colours are two bytes of the text-mode
screen, which the kernel reaches at `FRAMEBUFFER_MEMORY_OFFSET`.
-/

namespace Os2024

/-- `FRAMEBUFFER_MEMORY_OFFSET`. -/
def framebufferMemoryOffset : UInt32 := 0xC00B8000

def framebufferHeight : Nat := 25

def framebufferWidth : Nat := 80

/-- The attribute of a cell, `((bg << 4) & 0xF0) | (fg & 0x0F)`. -/
def framebufferAttribute (fg bg : UInt8) : UInt8 := ((bg <<< 4) &&& 0xF0) ||| (fg &&& 0x0F)

/-- `framebuffer_write`. -/
def framebufferWrite (row col c fg bg : UInt8) (mem : Memory) : Memory :=
  if row.toNat ≥ framebufferHeight ∨ col.toNat ≥ framebufferWidth then mem
  else
    let index : UInt16 := UInt16.ofNat ((row.toNat * framebufferWidth + col.toNat) * 2)
    let mem := Function.update mem (framebufferMemoryOffset + index.toUInt32) c
    Function.update mem (framebufferMemoryOffset + (index.toUInt32 + 1)) (framebufferAttribute fg bg)

/-- The two halves of a colour give its low byte back. -/
theorem framebufferAttribute_halves (k : UInt32) :
    framebufferAttribute (k &&& 0xF).toUInt8 (k >>> 4).toUInt8 = k.toUInt8 := by
  have hbyte : ∀ b < 256, b / 16 * 16 &&& 240 ||| b &&& 15 &&& 15 = b := by decide +kernel
  have hk := hbyte (k.toNat % 256) (Nat.mod_lt _ (by decide))
  have hhigh : (k.toNat / 16 % 256) * 16 % 256 = k.toNat % 256 / 16 * 16 := by omega
  apply UInt8.toNat_inj.mp
  simpa [framebufferAttribute, Nat.shiftRight_eq_div_pow, Nat.shiftLeft_eq, hhigh] using hk

section Addresses

variable {row col c fg bg : UInt8} {mem : Memory} {a b : Nat}

/-- No address of the screen wraps around. -/
theorem toNat_framebuffer (ha : a < 4000) : (framebufferMemoryOffset + UInt32.ofNat a).toNat = 0xC00B8000 + a := by
  have hmod : (0xC00B8000 + a % 2 ^ 32) % 2 ^ 32 = 0xC00B8000 + a := by omega
  rw [UInt32.toNat_add, UInt32.toNat_ofNat']
  exact hmod

theorem framebuffer_inj (ha : a < 4000) (hb : b < 4000) :
    framebufferMemoryOffset + UInt32.ofNat a = framebufferMemoryOffset + UInt32.ofNat b ↔ a = b := by
  rw [← UInt32.toNat_inj, toNat_framebuffer ha, toNat_framebuffer hb]
  omega

/-- The two bytes of a cell of the screen are written. -/
theorem framebufferWrite_eq (hrow : row.toNat < 25) (hcol : col.toNat < 80) :
    framebufferWrite row col c fg bg mem =
      Function.update
        (Function.update mem (framebufferMemoryOffset + UInt32.ofNat (2 * (80 * row.toNat + col.toNat))) c)
        (framebufferMemoryOffset + UInt32.ofNat (2 * (80 * row.toNat + col.toNat) + 1))
        (framebufferAttribute fg bg) := by
  have hindex : (UInt16.ofNat ((row.toNat * 80 + col.toNat) * 2)).toUInt32 =
      UInt32.ofNat (2 * (80 * row.toNat + col.toNat)) := by
    apply UInt32.toNat_inj.mp
    rw [UInt16.toNat_toUInt32, UInt16.toNat_ofNat_of_lt' (by change _ < 65536; omega),
      UInt32.toNat_ofNat_of_lt' (by change _ < 4294967296; omega)]
    omega
  have hsucc : UInt32.ofNat (2 * (80 * row.toNat + col.toNat)) + 1 =
      UInt32.ofNat (2 * (80 * row.toNat + col.toNat) + 1) := (UInt32.ofNat_add _ 1).symm
  unfold framebufferWrite framebufferHeight framebufferWidth
  rw [if_neg (by omega)]
  simp only [hindex, hsucc]

/-- Nothing but the screen is written to. -/
theorem framebufferWrite_range {addr : UInt32} (h : framebufferWrite row col c fg bg mem addr ≠ mem addr) :
    0xC00B8000 ≤ addr.toNat ∧ addr.toNat < 0xC00B8000 + 2 * 80 * 25 := by
  by_cases hout : row.toNat ≥ framebufferHeight ∨ col.toNat ≥ framebufferWidth
  · exact absurd (by rw [framebufferWrite, if_pos hout]) h
  · simp only [framebufferHeight, framebufferWidth, not_or, Nat.not_le] at hout
    rw [framebufferWrite_eq hout.1 hout.2, Function.update_apply, Function.update_apply] at h
    split at h
    · next hodd =>
      rw [hodd, toNat_framebuffer (by omega)]
      omega
    · split at h
      · next heven =>
        rw [heven, toNat_framebuffer (by omega)]
        omega
      · exact absurd rfl h

end Addresses

end Os2024
