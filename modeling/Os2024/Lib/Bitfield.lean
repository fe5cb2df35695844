import Mathlib.Algebra.Order.Ring.Nat

/-!
# Packed bit fields

Fields of any widths, packed into a number from the lowest bit upwards: `pack`. A field is cut out again by its offset
and its width (`field`), and what is cut out is what was packed: `field_pack`.
-/

namespace Bitfield

/-- A field with its width. -/
abbrev Field := Σ w : Nat, BitVec w

/-- The bits that fields take. -/
def width : List Field → Nat
  | [] => 0
  | f :: fields => f.1 + width fields

/-- The number that has the fields, the first one lowest. -/
def pack : List Field → Nat
  | [] => 0
  | f :: fields => f.2.toNat + 2 ^ f.1 * pack fields

/-- The field of `w` bits at an offset. -/
def field (offset w n : Nat) : BitVec w := BitVec.ofNat w (n / 2 ^ offset)

theorem pack_lt (fields : List Field) : pack fields < 2 ^ width fields := by
  induction fields with
  | nil => exact Nat.one_pos
  | cons f fields ih =>
    have hf := f.2.isLt
    have hmul : 2 ^ f.1 * (pack fields + 1) ≤ 2 ^ f.1 * 2 ^ width fields := Nat.mul_le_mul_left _ ih
    rw [pack, width, Nat.pow_add]
    rw [Nat.mul_add, Nat.mul_one] at hmul
    omega

/-- What lies behind the first field. -/
theorem pack_cons_div (f : Field) (fields : List Field) : pack (f :: fields) / 2 ^ f.1 = pack fields := by
  rw [pack, Nat.add_mul_div_left _ _ (Nat.two_pow_pos f.1), Nat.div_eq_of_lt f.2.isLt, Nat.zero_add]

/-- What lies behind any number of fields. -/
theorem pack_append_div (low high : List Field) : pack (low ++ high) / 2 ^ width low = pack high := by
  induction low with
  | nil => exact Nat.div_one _
  | cons f low ih => rw [List.cons_append, width, Nat.pow_add, ← Nat.div_div_eq_div_mul, pack_cons_div, ih]

/-- **A field is where it was packed.** -/
theorem field_pack (fields : List Field) (i : Nat) (h : i < fields.length) :
    field (width (fields.take i)) fields[i].1 (pack fields) = fields[i].2 := by
  apply BitVec.toNat_inj.mp
  have hsplit : fields.take i ++ fields[i] :: fields.drop (i + 1) = fields := by
    rw [← List.drop_eq_getElem_cons h, List.take_append_drop]
  have hdiv := pack_append_div (fields.take i) (fields[i] :: fields.drop (i + 1))
  rw [hsplit] at hdiv
  rw [field, hdiv, pack, BitVec.toNat_ofNat, Nat.add_mul_mod_self_left, Nat.mod_eq_of_lt fields[i].2.isLt]

end Bitfield
