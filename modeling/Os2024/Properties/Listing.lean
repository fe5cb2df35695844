import Mathlib.Algebra.Order.BigOperators.Group.List
import Mathlib.Data.List.TakeWhile
import Os2024.Shell.Ls

/-!
# What a listing shows

A listing shows every entry by its full name: `listing`. `print_directory_table` prints that exactly for names of eight
characters or of one, and extensions of three: `print_table_iff`.
-/

namespace Os2024

open Fuel

/-- The characters before the first `'\0'`. -/
def untilNul (s : List UInt8) : List UInt8 := s.takeWhile (· ≠ 0)

namespace FAT32DirectoryEntry

/-- An entry by its full name, on a line. -/
def line (e : FAT32DirectoryEntry) : List UInt8 :=
  if e.occupied then
    untilNul (List.ofFn e.name) ++ (if e.showsExt then 46 :: untilNul (List.ofFn e.ext) else []) ++ [10]
  else []

/-- An extension of three characters, or none. -/
def ExtFits (e : FAT32DirectoryEntry) : Prop := e.showsExt → ∀ k, e.ext k ≠ 0

end FAT32DirectoryEntry

/-- The lines of the entries `1` to `63`. -/
def FAT32DirectoryTable.listing (t : FAT32DirectoryTable) : List UInt8 :=
  (List.finRange 63).flatMap fun i => (t.table i.succ).line

section Lines

variable {e : FAT32DirectoryEntry} {t : FAT32DirectoryTable}

theorem untilNul_eq_self {s : List UInt8} (h : ∀ c ∈ s, c ≠ 0) : untilNul s = s :=
  List.takeWhile_eq_self_iff.mpr fun c hc => decide_eq_true (h c hc)

theorem ne_zero_of_mem_untilNul {s : List UInt8} {c : UInt8} (h : c ∈ untilNul s) : c ≠ 0 := by
  have hdecide := List.mem_takeWhile_imp h
  exact of_decide_eq_true hdecide

theorem untilNul_cons_of_ne {c : UInt8} (h : c ≠ 0) (s : List UInt8) : untilNul (c :: s) = c :: untilNul s :=
  List.takeWhile_cons_of_pos (decide_eq_true h)

theorem untilNul_cons_zero (s : List UInt8) : untilNul (0 :: s) = [] := rfl

theorem ne_zero_of_mem_line {c : UInt8} (h : c ∈ e.line) : c ≠ 0 := by
  rw [FAT32DirectoryEntry.line] at h
  split at h
  · rcases List.mem_append.mp h with h | h
    · rcases List.mem_append.mp h with h | h
      · exact ne_zero_of_mem_untilNul h
      · split at h
        · rcases List.mem_cons.mp h with rfl | h
          · decide
          · exact ne_zero_of_mem_untilNul h
        · cases h
    · rw [List.mem_singleton.mp h]
      decide
  · cases h

/-- Eight characters or one, as they are printed. -/
theorem untilNul_name_of_fits (h : e.NameFits) :
    untilNul (List.ofFn e.name) = if e.name 7 ≠ 0 then List.ofFn e.name else [e.name 0] := by
  rcases h with hall | ⟨h0, h1, h7⟩
  · rw [if_pos (hall 7)]
    exact untilNul_eq_self (List.forall_mem_ofFn_iff.mpr hall)
  · rw [if_neg (not_not.mpr h7), List.ofFn_succ, List.ofFn_succ, untilNul_cons_of_ne h0, Fin.succ_zero_eq_one, h1,
      untilNul_cons_zero]

theorem untilNul_ext_of_fits (h : e.ExtFits) : (if e.showsExt then 46 :: untilNul (List.ofFn e.ext) else []) =
    if e.showsExt then 46 :: List.ofFn e.ext else [] := by
  split
  · next hshows => rw [untilNul_eq_self (List.forall_mem_ofFn_iff.mpr (h hshows))]
  · rfl

theorem line_of_fits (hname : e.occupied → e.NameFits) (hext : e.occupied → e.ExtFits) : e.printed = e.line := by
  rw [FAT32DirectoryEntry.printed, FAT32DirectoryEntry.line]
  split
  · next hused =>
    rw [untilNul_name_of_fits (hname hused), untilNul_ext_of_fits (hext hused)]
  · rfl

/-- If no `'\0'` is printed of a name, it is no shorter than what is printed, and no longer only if it fits. -/
theorem name_length_le (h : ∀ c ∈ if e.name 7 ≠ 0 then List.ofFn e.name else [e.name 0], c ≠ 0) :
    (if e.name 7 ≠ 0 then List.ofFn e.name else [e.name 0]).length ≤ (untilNul (List.ofFn e.name)).length ∧
      ((untilNul (List.ofFn e.name)).length ≤ (if e.name 7 ≠ 0 then List.ofFn e.name else [e.name 0]).length →
        e.NameFits) := by
  by_cases h7 : e.name 7 = 0
  · rw [if_neg (not_not.mpr h7)] at h ⊢
    have h0 : e.name 0 ≠ 0 := h _ (List.mem_singleton_self _)
    rw [List.ofFn_succ, untilNul_cons_of_ne h0]
    refine ⟨Nat.le_add_left 1 _, fun hlen => Or.inr ⟨h0, ?_, h7⟩⟩
    by_contra h1
    rw [List.ofFn_succ, Fin.succ_zero_eq_one, untilNul_cons_of_ne h1] at hlen
    exact absurd (Nat.le_of_succ_le_succ hlen) (Nat.not_succ_le_zero _)
  · rw [if_pos h7] at h ⊢
    have hall := List.forall_mem_ofFn_iff.mp h
    rw [untilNul_eq_self h]
    exact ⟨le_refl _, fun _ => Or.inl hall⟩

/-- If no `'\0'` is printed of an entry, its line is no shorter than what is printed, and no longer only if it fits. -/
theorem printed_length_le (h : ∀ c ∈ e.printed, c ≠ 0) :
    e.printed.length ≤ e.line.length ∧
      (e.line.length ≤ e.printed.length → e.occupied → e.NameFits ∧ e.ExtFits) := by
  rw [FAT32DirectoryEntry.printed] at h ⊢
  rw [FAT32DirectoryEntry.line]
  split at h
  · next hused =>
    obtain ⟨hle, hfits⟩ := name_length_le fun c hc => h c (List.mem_append_left _ (List.mem_append_left _ hc))
    have hext : e.ExtFits := by
      intro hshows k
      rw [if_pos hshows] at h
      exact h _ (List.mem_append_left _ (List.mem_append_right _ (List.mem_cons_of_mem _ (List.mem_ofFn.mpr ⟨k, rfl⟩))))
    rw [if_pos hused, if_pos hused, untilNul_ext_of_fits hext]
    simp only [List.length_append, Nat.add_le_add_iff_right]
    exact ⟨hle, fun hlen _ => ⟨hfits hlen, hext⟩⟩
  · next hfree =>
    rw [if_neg hfree, if_neg hfree]
    exact ⟨le_refl _, fun _ hused => absurd hused hfree⟩

/-- **What is printed is the listing** only if every entry fits. -/
theorem fits_of_printed_eq (h : t.printed = t.listing) (i : Fin 63) (hused : (t.table i.succ).occupied) :
    (t.table i.succ).NameFits ∧ (t.table i.succ).ExtFits := by
  have hclean : ∀ j : Fin 63, ∀ c ∈ (t.table j.succ).printed, c ≠ 0 := by
    intro j c hc
    have hmem : c ∈ t.listing := h ▸ List.mem_flatMap_of_mem (List.mem_finRange j) hc
    obtain ⟨j', -, hline⟩ := List.mem_flatMap.mp hmem
    exact ne_zero_of_mem_line hline
  refine (printed_length_le (hclean i)).2 ?_ hused
  -- no line is longer than what is printed, since all together are as long
  by_contra hlt
  have hsum := List.sum_lt_sum (l := List.finRange 63) (fun j : Fin 63 => (t.table j.succ).printed.length)
    (fun j : Fin 63 => (t.table j.succ).line.length) (fun j _ => (printed_length_le (hclean j)).1)
    ⟨i, List.mem_finRange i, Nat.lt_of_not_le hlt⟩
  have hlen := congrArg List.length h
  rw [FAT32DirectoryTable.printed, FAT32DirectoryTable.listing, List.length_flatMap, List.length_flatMap] at hlen
  exact hsum.ne hlen

variable {mem : Memory} {dirTable : UInt32}

/-- The listing is printed only if every entry in use fits. -/
theorem fits_of_returns (h : Returns (fun fuel => printDirectoryTable fuel mem dirTable)
    (some (inColor lightBlue (mem.tableAt dirTable).listing))) (i : Fin 63)
    (hused : ((mem.tableAt dirTable).table i.succ).occupied) :
    ((mem.tableAt dirTable).table i.succ).NameFits ∧ ((mem.tableAt dirTable).table i.succ).ExtFits ∧
      (((mem.tableAt dirTable).table i.succ).isDirectory = false → ∃ a, mem a = 0) := by
  obtain ⟨enough, henough⟩ := h
  have hreturned : printDirectoryTable (max enough (2 ^ 32)) mem dirTable = _ := henough _ (le_max_left ..)
  have hlistable : ∀ i : Fin 63, Listable mem ((mem.tableAt dirTable).table i.succ) := by
    intro i hused hfile
    by_contra hnone
    rw [printDirectoryTable_eq_none (not_exists.mp hnone) i hused hfile] at hreturned
    cases hreturned
  rw [printDirectoryTable_eq (le_max_right ..) hlistable, Option.some_inj] at hreturned
  have hsame : (mem.tableAt dirTable).printed = (mem.tableAt dirTable).listing :=
    List.map_injective_iff.mpr (fun _ _ hc => congrArg Prod.fst hc) hreturned
  obtain ⟨hname, hext⟩ := fits_of_printed_eq hsame i hused
  exact ⟨hname, hext, hlistable i hused⟩

end Lines

/-- **The listing is printed** exactly if every entry in use has a name of eight characters or of one and, if it is a
file with an extension, one of three; and, if it is a file at all, there is a `'\0'` in memory for `strlen` to find. -/
theorem print_table_iff (mem : Memory) (dirTable : UInt32) :
    Returns (fun fuel => printDirectoryTable fuel mem dirTable)
        (some (inColor lightBlue (mem.tableAt dirTable).listing)) ↔
      ∀ i : Fin 63, ((mem.tableAt dirTable).table i.succ).occupied →
        ((mem.tableAt dirTable).table i.succ).NameFits ∧ ((mem.tableAt dirTable).table i.succ).ExtFits ∧
          (((mem.tableAt dirTable).table i.succ).isDirectory = false → ∃ a, mem a = 0) := by
  refine ⟨fits_of_returns, fun h => Returns.of_ge (2 ^ 32) fun fuel hfuel => ?_⟩
  have hsame : (mem.tableAt dirTable).printed = (mem.tableAt dirTable).listing := by
    refine congrArg (List.flatMap · (List.finRange 63)) (funext fun i => ?_)
    exact line_of_fits (fun hused => (h i hused).1) fun hused => (h i hused).2.1
  rw [printDirectoryTable_eq hfuel fun i hused => (h i hused).2.2, hsame]

/-- The table of a fresh folder `a` of the root, at address `0`. -/
def freshFolderMemory : Memory :=
  Memory.store (fun _ => 0) 0 (initDirectoryTable ![97, 0, 0, 0, 0, 0, 0, 0] rootClusterNumber).bytes

/-- Of the entry `..` only one dot is printed. -/
theorem listing_cuts_dots : ¬ Returns (fun fuel => printDirectoryTable fuel freshFolderMemory 0)
    (some (inColor lightBlue (freshFolderMemory.tableAt 0).listing)) := by
  intro h
  have htable : freshFolderMemory.tableAt 0 = initDirectoryTable ![97, 0, 0, 0, 0, 0, 0, 0] rootClusterNumber := by
    rw [Memory.tableAt, freshFolderMemory, Memory.load_store (by decide), FAT32DirectoryTable.ofBytes_bytes]
  have hfits := (fits_of_returns h 0 (htable ▸ rfl)).1
  rw [htable] at hfits
  rcases hfits with hall | ⟨-, h1, -⟩
  · exact hall 7 rfl
  · exact absurd h1 (by decide)

end Os2024
