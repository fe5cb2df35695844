import Os2024.Lib.Fuel
import Os2024.Stdlib.Strings

/-!
# Copies of overlapping buffers and of strings

`memmove` counts up or down, whichever never overwrites what it has still to read: `memmove_correct`. `strcpy` clears
the old string of its destination and writes no `'\0'` of its own, so the new string has an end where it should only if
the old one was as long, or a `'\0'` lay there before: `strcpy_equal_iff`.
-/

namespace Os2024

namespace Memory

open Fuel

section Copies

variable {mem : Memory} {dest src n a dst : UInt32} {i k : Nat}

/-- A copy in any order that does not destroy what it has still to read. -/
theorem load_copies (mem : Memory) (dst src : UInt32) {l : List Nat} (hl : ∀ i, i ∈ l ↔ i < k)
    (h : Copy.Ordered (fun i => dst + UInt32.ofNat i) (fun i => src + UInt32.ofNat i) l) :
    (∀ i < k, Copy.copies (fun i => dst + UInt32.ofNat i) (fun i => src + UInt32.ofNat i) l mem
        (dst + UInt32.ofNat i) = mem (src + UInt32.ofNat i)) ∧
      ∀ a, (∀ i < k, dst + UInt32.ofNat i ≠ a) →
        Copy.copies (fun i => dst + UInt32.ofNat i) (fun i => src + UInt32.ofNat i) l mem a = mem a := by
  constructor
  · intro i hi
    exact Copy.copies_of_mem h ((hl i).mpr hi)
  · intro a ha
    exact Copy.copies_of_notMem fun i hi => ha i ((hl i).mp hi)

/-- **`memmove` is right under any overlap.** -/
theorem memmove_correct (dest src n : UInt32) (mem : Memory) (hdest : dest.toNat + n.toNat ≤ 2 ^ 32)
    (hsrc : src.toNat + n.toNat ≤ 2 ^ 32) :
    (mem.memmove dest src n).load dest n.toNat = mem.load src n.toNat ∧
      ∀ a : UInt32, ¬ (dest.toNat ≤ a.toNat ∧ a.toNat < dest.toNat + n.toNat) → mem.memmove dest src n a = mem a := by
  -- either direction: what has still to be read lies ahead of what was written
  obtain ⟨hcopied, hkept⟩ : (∀ i < n.toNat, mem.memmove dest src n (dest + UInt32.ofNat i) =
      mem (src + UInt32.ofNat i)) ∧
      ∀ a, (∀ i < n.toNat, dest + UInt32.ofNat i ≠ a) → mem.memmove dest src n a = mem a := by
    by_cases hlt : dest < src
    · have hnat := UInt32.lt_iff_toNat_lt.mp hlt
      rw [memmove, if_pos hlt, copyUp_eq]
      refine load_copies mem dest src (fun i => List.mem_range) ?_
      refine List.pairwise_lt_range.imp_of_mem fun {i j} hi hj hij => ?_
      have hi := List.mem_range.mp hi
      have hj := List.mem_range.mp hj
      exact ⟨add_ne_add (by omega) (by omega) (by omega), add_ne_add (by omega) (by omega) (by omega)⟩
    · have hnat := UInt32.le_iff_toNat_le.mp (UInt32.not_lt.mp hlt)
      rw [memmove, if_neg hlt, copyDown_eq]
      refine load_copies mem dest src (fun i => by rw [List.mem_reverse, List.mem_range]) ?_
      refine List.pairwise_reverse.mpr (List.pairwise_lt_range.imp_of_mem fun {i j} hi hj hij => ?_)
      have hi := List.mem_range.mp hi
      have hj := List.mem_range.mp hj
      exact ⟨add_ne_add (by omega) (by omega) (by omega), add_ne_add (by omega) (by omega) (by omega)⟩
  constructor
  · funext i
    exact hcopied i i.isLt
  · intro a ha
    refine hkept a fun i hi heq => ha ?_
    rw [← heq, toNat_add_ofNat (by omega)]
    omega

/-- Three bytes, moved up by one. -/
theorem memmove_correct_overlap :
    (memmove 0x1001 0x1000 3 fun a => a.toUInt8).load 0x1001 3 = load (fun a => a.toUInt8) 0x1000 3 ∧
      memmove 0x1001 0x1000 3 (fun a => a.toUInt8) 0x1000 = 0 := by
  obtain ⟨hcopied, hkept⟩ := memmove_correct 0x1001 0x1000 3 (fun a => a.toUInt8) (by decide) (by decide)
  exact ⟨hcopied, hkept 0x1000 (by decide)⟩

end Copies

/-! ## `strcpy` -/

/-- The string at `dst` is the one of length `k` at `src`; `strcmp` can tell only of a source that ends with `'\0'`. -/
structure StringCopied (mem : Memory) (dst src : UInt32) (type : Int32) (k : Nat) : Prop where
  terminated : ∃ n, mem.EndsAt 0 dst n
  length : Returns (fun fuel => mem.strlen fuel dst) (some (UInt32.ofNat k))
  equal : type = 1 → Returns (fun fuel => mem.strcmp fuel dst src) (some 0)

section Strcpy

variable {mem : Memory} {dst src : UInt32} {type : Int32} {m k size : Nat}

/-- What `strcpy` returns: the source over the cleared destination. -/
theorem strcpy_returns (mem : Memory) (dst src : UInt32) (type : Int32) (m k : Nat) (hdst : mem.EndsAt 0 dst m)
    (hsrc : mem.EndsAt (strcpyStop type) src k) (hm : m < 2 ^ 32)
    (hapart : ∀ i < max m k, ∀ j ≤ k, dst + UInt32.ofNat i ≠ src + UInt32.ofNat j) :
    Returns (fun fuel => mem.strcpy fuel dst src type)
        (some ((mem.clear dst (UInt32.ofNat m)).copyUp dst src k)) ∧
      ∀ j ≤ k, mem.clear dst (UInt32.ofNat m) (src + UInt32.ofNat j) = mem (src + UInt32.ofNat j) := by
  have hlen : (UInt32.ofNat m).toNat = m := UInt32.toNat_ofNat_of_lt' hm
  have hcleared : ∀ j ≤ k, mem.clear dst (UInt32.ofNat m) (src + UInt32.ofNat j) = mem (src + UInt32.ofNat j) := by
    intro j hj
    exact clear_of_ne _ fun i hi => hapart i (lt_max_of_lt_left (hlen ▸ hi)) j hj
  have hsrc' : (mem.clear dst (UInt32.ofNat m)).EndsAt (strcpyStop type) src k := by
    refine ⟨fun i hi => ?_, ?_⟩
    · rw [hcleared i hi.le]
      exact hsrc.1 i hi
    · rw [hcleared k le_rfl]
      exact hsrc.2
  refine ⟨⟨m + k + 1, fun fuel hfuel => ?_⟩, hcleared⟩
  change mem.strcpy fuel dst src type = _
  rw [strcpy, strlen_of_endsAt hdst (by omega)]
  exact strcpyLoop_of_endsAt (i := 0) hsrc' (fun i hi => hapart i (lt_max_of_lt_right hi)) (Nat.zero_le k) (by omega)

/-- **`strcpy` makes the destination equal to the source** exactly when a `'\0'` is left where the copy ends: the old
string was as long as the source, or there was one before. -/
theorem strcpy_equal_iff (mem : Memory) (dst src : UInt32) (type : Int32) (m k size : Nat)
    (hdst : mem.EndsAt 0 dst m) (hsrc : mem.EndsAt (strcpyStop type) src k)
    (hnul : ∀ i < k, mem (src + UInt32.ofNat i) ≠ 0) (hm : m < size) (hk : k < size)
    (hroom : dst.toNat + size ≤ 2 ^ 32) (hspace : src.toNat + k < 2 ^ 32)
    (hapart : dst.toNat + size ≤ src.toNat ∨ src.toNat + k < dst.toNat) :
    ∃ mem', Returns (fun fuel => mem.strcpy fuel dst src type) (some mem') ∧
      (StringCopied mem' dst src type k ↔ k ≤ m ∨ mem (dst + UInt32.ofNat k) = 0) := by
  have hne : ∀ i < size, ∀ j ≤ k, dst + UInt32.ofNat i ≠ src + UInt32.ofNat j := by
    intro i hi j hj
    exact add_ne_add (by omega) (by omega) (by omega)
  obtain ⟨hreturns, hcleared⟩ := strcpy_returns mem dst src type m k hdst hsrc (by omega) fun i hi =>
    hne i (hi.trans (max_lt hm hk))
  refine ⟨_, hreturns, ?_⟩
  -- the bytes at both places, and the one where the copy ends
  obtain ⟨hcopied, hkept⟩ := load_copies (mem.clear dst (UInt32.ofNat m)) dst src
    (fun i => List.mem_range (n := k)) <| by
      refine List.pairwise_lt_range.imp_of_mem fun {i j} hi hj hij => ?_
      have hi := List.mem_range.mp hi
      have hj := List.mem_range.mp hj
      exact ⟨hne i (by omega) j (by omega), add_ne_add (by omega) (by omega) (by omega)⟩
  rw [← copyUp_eq] at hcopied hkept
  have hbytes : ∀ i < k, (mem.clear dst (UInt32.ofNat m)).copyUp dst src k (dst + UInt32.ofNat i) =
      mem (src + UInt32.ofNat i) := by
    intro i hi
    rw [hcopied i hi, hcleared i hi.le]
  have hsource : ∀ j ≤ k, (mem.clear dst (UInt32.ofNat m)).copyUp dst src k (src + UInt32.ofNat j) =
      mem (src + UInt32.ofNat j) := by
    intro j hj
    rw [hkept _ fun i hi => hne i (by omega) j hj, hcleared j hj]
  have hend : (mem.clear dst (UInt32.ofNat m)).copyUp dst src k (dst + UInt32.ofNat k) = 0 ↔
      k ≤ m ∨ mem (dst + UInt32.ofNat k) = 0 := by
    rw [hkept _ fun i hi => add_ne_add (by omega) (by omega) (by omega)]
    have hm32 : m < 2 ^ 32 := by omega
    have hlen : (UInt32.ofNat m).toNat = m := UInt32.toNat_ofNat_of_lt' hm32
    rcases Nat.lt_or_ge k m with hlt | hge
    · rw [clear_of_lt _ (hlen.symm ▸ hlt)]
      exact iff_of_true rfl (.inl hlt.le)
    · rw [clear_of_ne _ fun i hi => add_ne_add (by omega) (by omega) (by omega)]
      rcases Nat.lt_or_eq_of_le hge with hlt | rfl
      · exact (or_iff_right (Nat.not_le.mpr hlt)).symm
      · exact iff_of_true hdst.2 (.inl le_rfl)
  rw [← hend]
  constructor
  · rintro ⟨-, ⟨enough, hlength⟩, -⟩
    exact eq_zero_of_strlenLoop (hlength enough le_rfl)
  · intro hzero
    have hends : ((mem.clear dst (UInt32.ofNat m)).copyUp dst src k).EndsAt 0 dst k :=
      ⟨fun i hi => by rw [hbytes i hi]; exact hnul i hi, hzero⟩
    refine ⟨⟨k, hends⟩, ⟨k + 1, fun fuel hfuel => strlen_of_endsAt hends hfuel⟩, fun htype => ?_⟩
    have hstop : strcpyStop type = 0 := if_pos htype
    have hends' : ((mem.clear dst (UInt32.ofNat m)).copyUp dst src k).EndsAt 0 src k := by
      refine ⟨fun i hi => ?_, ?_⟩
      · rw [hsource i hi.le]
        exact hnul i hi
      · rw [hsource k le_rfl, hsrc.2, hstop]
    refine ⟨k + 1, fun fuel hfuel => strcmp_of_endsAt hends hends' (fun i hi => ?_) hfuel⟩
    rw [hbytes i hi, hsource i hi.le]

/-- `"a"` over an empty string with a `'\0'` behind it. -/
theorem strcpy_equal_clean :
    ∃ mem', Returns (fun fuel => Memory.strcpy fuel 0x1000 0x2000 1 fun a => if a = 0x2000 then 97 else 0)
        (some mem') ∧
      (StringCopied mem' 0x1000 0x2000 1 1 ↔
        1 ≤ 0 ∨ (fun a : UInt32 => if a = 0x2000 then (97 : UInt8) else 0) (0x1000 + UInt32.ofNat 1) = 0) :=
  strcpy_equal_iff (fun a => if a = 0x2000 then 97 else 0) 0x1000 0x2000 1 0 1 2 ⟨by simp, by decide⟩
    ⟨by decide, by decide⟩ (by decide) (by decide) (by decide) (by decide) (by decide) (by decide)

/-- `"a"` over an empty string with an `X` behind it makes `"aX"`. -/
theorem strcpy_leaves_rest :
    ∃ mem', Returns (fun fuel => Memory.strcpy fuel 0x1000 0x2000 1 fun a =>
        if a = 0x2000 then 97 else if a = 0x1001 then 88 else 0) (some mem') ∧
      (mem' 0x1000 = 97 ∧ mem' 0x1001 = 88 ∧ mem' 0x1002 = 0) ∧ Returns (fun fuel => mem'.strlen fuel 0x1000) (some 2) ∧
      ¬ StringCopied mem' 0x1000 0x2000 1 1 := by
  obtain ⟨hreturns, -⟩ := strcpy_returns (fun a => if a = 0x2000 then 97 else if a = 0x1001 then 88 else 0)
    0x1000 0x2000 1 0 1 ⟨by simp, by decide⟩ ⟨by decide, by decide⟩ (by decide) (by decide)
  refine ⟨_, hreturns, by decide +kernel, ⟨3, fun fuel hfuel => ?_⟩, fun h => ?_⟩
  · exact strlen_of_endsAt (n := 2) ⟨by decide +kernel, by decide +kernel⟩ hfuel
  · obtain ⟨enough, hlength⟩ := h.length
    exact absurd (eq_zero_of_strlenLoop (hlength enough le_rfl)) (by decide +kernel)

end Strcpy

end Memory

end Os2024
