import Os2024.Lib.Copy
import Os2024.Lib.Store
import Os2024.Stdlib.String

/-!
# Copies and strings in memory

`memmove`, `clear`, `strlen`, `strcmp` and `strcpy` of `ch0/stdlib/string.c`, byte by byte: source and destination may
be the same memory. The loops that look for the end of a string run on fuel and give `none` when that is used up;
`size_t` and pointers are 32 bits wide.
-/

namespace Os2024

namespace Memory

/-- `dst[i] = src[i]`. -/
def copyByte (dst src : UInt32) (mem : Memory) (i : UInt32) : Memory :=
  Function.update mem (dst + i) (mem (src + i))

/-- The loop of `memmove` that counts up. -/
def copyUp (dstbuf srcbuf : UInt32) (n : Nat) (mem : Memory) : Memory :=
  (List.range n).foldl (fun mem i => mem.copyByte dstbuf srcbuf (UInt32.ofNat i)) mem

/-- The loop of `memmove` that counts down. -/
def copyDown (dstbuf srcbuf : UInt32) : (i : Nat) → Memory → Memory
  | 0, mem => mem
  | i + 1, mem => copyDown dstbuf srcbuf i (mem.copyByte dstbuf srcbuf (UInt32.ofNat i))

/-- `memmove`; the result of the call is `dest`. -/
def memmove (dest src n : UInt32) (mem : Memory) : Memory :=
  if dest < src then mem.copyUp dest src n.toNat else mem.copyDown dest src n.toNat

/-- `clear`. -/
def clear (pointer n : UInt32) (mem : Memory) : Memory :=
  (List.range n.toNat).foldl (fun mem i => Function.update mem (pointer + UInt32.ofNat i) 0) mem

/-- The loop of `strlen`, from `i` on. -/
def strlenLoop (string : UInt32) (mem : Memory) : (fuel : Nat) → (i : UInt32) → Option UInt32
  | 0, _ => none
  | fuel + 1, i => if mem (string + i) ≠ 0 then strlenLoop string mem fuel (i + 1) else some i

/-- `strlen`. -/
def strlen (fuel : Nat) (string : UInt32) (mem : Memory) : Option UInt32 := strlenLoop string mem fuel 0

/-- The loop of `strcmp`, from `i` on. -/
def strcmpLoop (s1 s2 : UInt32) (mem : Memory) : (fuel : Nat) → (i : UInt32) → Option UInt8
  | 0, _ => none
  | fuel + 1, i =>
    if mem (s1 + i) ≠ 0 then
      if mem (s1 + i) ≠ mem (s2 + i) then some 1 else strcmpLoop s1 s2 mem fuel (i + 1)
    else some 0

/-- `strcmp`. -/
def strcmp (fuel : Nat) (s1 s2 : UInt32) (mem : Memory) : Option UInt8 := do
  let n1 ← mem.strlen fuel s1
  let n2 ← mem.strlen fuel s2
  if n1 = n2 then strcmpLoop s1 s2 mem fuel 0 else some 1

/-- A loop of `strcpy`, from `i` on: it ends at the first `stop` of `src`. -/
def strcpyLoop (stop : UInt8) (dst src : UInt32) : (fuel : Nat) → (i : UInt32) → Memory → Option Memory
  | 0, _, _ => none
  | fuel + 1, i, mem =>
    if mem (src + i) ≠ stop then strcpyLoop stop dst src fuel (i + 1) (mem.copyByte dst src i) else some mem

/-- The character that ends the source of `strcpy`. -/
def strcpyStop (type : Int32) : UInt8 := if type = 1 then 0 else 0xA

/-- `strcpy`. -/
def strcpy (fuel : Nat) (dst src : UInt32) (type : Int32) (mem : Memory) : Option Memory := do
  let n ← mem.strlen fuel dst
  strcpyLoop (strcpyStop type) dst src fuel 0 (mem.clear dst n)

/-- `n` bytes other than `stop`, then `stop`. -/
def EndsAt (stop : UInt8) (mem : Memory) (s : UInt32) (n : Nat) : Prop :=
  (∀ i < n, mem (s + UInt32.ofNat i) ≠ stop) ∧ mem (s + UInt32.ofNat n) = stop

/-! ## Addresses -/

section Loops

variable {mem mem' : Memory} {p q dst src s a : UInt32} {stop : UInt8} {type : Int32} {fuel i j k n : Nat}

theorem toNat_add_ofNat (h : p.toNat + i < 2 ^ 32) : (p + UInt32.ofNat i).toNat = p.toNat + i := by
  simp only [UInt32.toNat_add, UInt32.toNat_ofNat']
  omega

theorem add_ofNat_inj (hi : i < 2 ^ 32) (hj : j < 2 ^ 32) : p + UInt32.ofNat i = p + UInt32.ofNat j ↔ i = j := by
  rw [UInt32.add_right_inj, ← UInt32.toNat_inj, UInt32.toNat_ofNat_of_lt' hi, UInt32.toNat_ofNat_of_lt' hj]

/-- Bytes within the address space are at different addresses. -/
theorem add_ne_add (hp : p.toNat + i < 2 ^ 32) (hq : q.toNat + j < 2 ^ 32)
    (h : p.toNat + i ≠ q.toNat + j) : p + UInt32.ofNat i ≠ q + UInt32.ofNat j := by
  intro heq
  have hnat := congrArg UInt32.toNat heq
  rw [toNat_add_ofNat hp, toNat_add_ofNat hq] at hnat
  exact h hnat

/-! ## Copies -/

theorem copyUp_eq : mem.copyUp dst src n =
    Copy.copies (fun i => dst + UInt32.ofNat i) (fun i => src + UInt32.ofNat i) (List.range n) mem := rfl

theorem copyDown_eq : mem.copyDown dst src n =
    Copy.copies (fun i => dst + UInt32.ofNat i) (fun i => src + UInt32.ofNat i) (List.range n).reverse mem := by
  induction n generalizing mem with
  | zero => rfl
  | succ n ih =>
    rw [List.range_succ, List.reverse_append, List.reverse_singleton, List.singleton_append, Copy.copies_cons]
    exact ih

/-! ## `clear` -/

theorem clear_of_lt (n : UInt32) (hi : i < n.toNat) : mem.clear p n (p + UInt32.ofNat i) = 0 := by
  refine Store.foldl_update_of_mem (fun i => p + UInt32.ofNat i) (fun _ => 0) _ _ (fun j hj h => ?_)
    (List.mem_range.mpr hi)
  have hn := n.toNat_lt
  exact (add_ofNat_inj ((List.mem_range.mp hj).trans hn) (hi.trans hn)).mp h

theorem clear_of_ne (n : UInt32) (h : ∀ i < n.toNat, p + UInt32.ofNat i ≠ a) : mem.clear p n a = mem a :=
  Store.foldl_update_of_notMem (fun i => p + UInt32.ofNat i) (fun _ => 0) _ _ fun i hi => h i (List.mem_range.mp hi)

/-! ## `strlen` and `strcmp` -/

/-- The loop of `strlen` from within a string. -/
theorem strlenLoop_of_endsAt (h : mem.EndsAt 0 s n) (hi : i ≤ n) (hfuel : n - i < fuel) :
    strlenLoop s mem fuel (UInt32.ofNat i) = some (UInt32.ofNat n) := by
  induction fuel generalizing i with
  | zero => omega
  | succ fuel ih =>
    rw [strlenLoop]
    rcases Nat.lt_or_eq_of_le hi with hlt | rfl
    · have hnext := ih (i := i + 1) hlt (by omega)
      rw [UInt32.ofNat_add] at hnext
      rw [if_pos (h.1 i hlt)]
      exact hnext
    · rw [if_neg (not_not.mpr h.2)]

theorem strlen_of_endsAt (h : mem.EndsAt 0 s n) (hfuel : n < fuel) : mem.strlen fuel s = some (UInt32.ofNat n) :=
  strlenLoop_of_endsAt (i := 0) h (Nat.zero_le n) hfuel

/-- If there is a `'\0'` anywhere, every string has an end. -/
theorem exists_endsAt (h : mem a = 0) (s : UInt32) : ∃ n < 2 ^ 32, mem.EndsAt 0 s n := by
  have hdist : mem (s + UInt32.ofNat (a - s).toNat) = 0 := by
    rw [UInt32.ofNat_toNat, UInt32.add_comm, UInt32.sub_add_cancel, h]
  have hend : ∃ n, mem (s + UInt32.ofNat n) = 0 := ⟨_, hdist⟩
  have hlt : Nat.find hend < 2 ^ 32 := lt_of_le_of_lt (Nat.find_min' hend hdist) (a - s).toNat_lt
  exact ⟨Nat.find hend, hlt, fun i hi => Nat.find_min hend hi, Nat.find_spec hend⟩

/-- If there is none, `strlen` does not return. -/
theorem strlenLoop_eq_none (h : ∀ a, mem a ≠ 0) (fuel : Nat) (i : UInt32) : strlenLoop s mem fuel i = none := by
  induction fuel generalizing i with
  | zero => rfl
  | succ fuel ih => rw [strlenLoop, if_pos (h _), ih]

/-- The length of a string is where its `'\0'` is. -/
theorem eq_zero_of_strlenLoop {i n : UInt32} (h : strlenLoop s mem fuel i = some n) : mem (s + n) = 0 := by
  induction fuel generalizing i with
  | zero => cases h
  | succ fuel ih =>
    rw [strlenLoop] at h
    split at h
    · exact ih h
    · next hz =>
      obtain rfl := Option.some.inj h
      exact not_not.mp hz

/-- The loop of `strcmp` from within two strings that are the same. -/
theorem strcmpLoop_of_endsAt (hp : mem.EndsAt 0 p n)
    (heq : ∀ i < n, mem (p + UInt32.ofNat i) = mem (q + UInt32.ofNat i)) (hi : i ≤ n) (hfuel : n - i < fuel) :
    strcmpLoop p q mem fuel (UInt32.ofNat i) = some 0 := by
  induction fuel generalizing i with
  | zero => omega
  | succ fuel ih =>
    rw [strcmpLoop]
    rcases Nat.lt_or_eq_of_le hi with hlt | rfl
    · have hnext := ih (i := i + 1) hlt (by omega)
      rw [UInt32.ofNat_add] at hnext
      rw [if_pos (hp.1 i hlt), if_neg (not_not.mpr (heq i hlt))]
      exact hnext
    · rw [if_neg (not_not.mpr hp.2)]

/-- Strings of the same characters are equal for `strcmp`. -/
theorem strcmp_of_endsAt (hp : mem.EndsAt 0 p n) (hq : mem.EndsAt 0 q n)
    (heq : ∀ i < n, mem (p + UInt32.ofNat i) = mem (q + UInt32.ofNat i)) (hfuel : n < fuel) :
    mem.strcmp fuel p q = some 0 := by
  rw [strcmp, strlen_of_endsAt hp hfuel, strlen_of_endsAt hq hfuel]
  change (if UInt32.ofNat n = UInt32.ofNat n then _ else _) = _
  rw [if_pos rfl]
  exact strcmpLoop_of_endsAt (i := 0) hp heq (Nat.zero_le n) hfuel

/-! ## The loop of `strcpy` -/

/-- The loop copies the bytes before the stop, as long as it does not copy over its source. -/
theorem strcpyLoop_of_endsAt (h : mem.EndsAt stop src k)
    (hapart : ∀ i < k, ∀ j ≤ k, dst + UInt32.ofNat i ≠ src + UInt32.ofNat j) (hi : i ≤ k) (hfuel : k - i < fuel) :
    strcpyLoop stop dst src fuel (UInt32.ofNat i) (mem.copyUp dst src i) = some (mem.copyUp dst src k) := by
  induction fuel generalizing i with
  | zero => omega
  | succ fuel ih =>
    -- the source is as it was
    have hsource : mem.copyUp dst src i (src + UInt32.ofNat i) = mem (src + UInt32.ofNat i) := by
      rw [copyUp_eq]
      exact Copy.copies_of_notMem fun j hj => hapart j ((List.mem_range.mp hj).trans_le hi) i hi
    rw [strcpyLoop, hsource]
    rcases Nat.lt_or_eq_of_le hi with hlt | rfl
    · have hnext := ih (i := i + 1) hlt (by omega)
      rw [copyUp_eq, List.range_succ, Copy.copies_append, UInt32.ofNat_add] at hnext
      rw [if_pos (h.1 i hlt)]
      exact hnext
    · rw [if_neg (not_not.mpr h.2)]

end Loops

end Memory

end Os2024
