import Os2024.Lib.Fuel
import Os2024.Shell.Shell

/-!
# Listing a directory

`print_directory_table` of `ch2/user-shell/ls.c` with `dir_table` at an address. What it prints of an entry is
`printed`, if there is a `'\0'` in memory for `strlen` to find: `printDirectoryTable_eq`.
-/

namespace Os2024

open Fuel

/-- `attribute != ATTR_SUBDIRECTORY && strlen(ext) != 0` of the entry at an address. -/
def hasExt (fuel : Nat) (mem : Memory) (entry : UInt32) : Option Bool :=
  if mem (entry + 11) ≠ attrSubdirectory then (mem.strlen fuel (entry + 8)).map (· != 0) else some false

/-- A round of `print_directory_table`; the last entry has a copy of it. -/
def printEntry (fuel : Nat) (mem : Memory) (entry : UInt32) : Option (List Glyph) :=
  if mem (entry + 12) = uattrNotEmpty then do
    let name := inColor lightBlue (if mem (entry + 7) ≠ 0 then mem.putsText entry 8 else mem.putsText entry 1)
    let ext ← hasExt fuel mem entry
    -- '.' and '\n'
    some (name ++ (if ext then inColor lightBlue (46 :: mem.putsText (entry + 8) 3) else []) ++ [(10, lightBlue)])
  else some []

/-- The loop of `print_directory_table`: `n` rounds from round `i` on. -/
def printEntries (fuel : Nat) (mem : Memory) (dirTable : UInt32) : (n i : Nat) → Option (List Glyph)
  | 0, _ => some []
  | n + 1, i => do
    let text ← printEntry fuel mem (dirTable + UInt32.ofNat (32 * i))
    let rest ← printEntries fuel mem dirTable n (i + 1)
    some (text ++ rest)

/-- `print_directory_table`. -/
def printDirectoryTable (fuel : Nat) (mem : Memory) (dirTable : UInt32) : Option (List Glyph) := do
  let text ← printEntries fuel mem dirTable 62 1
  let last ← printEntry fuel mem (dirTable + UInt32.ofNat (32 * 63))
  some (text ++ last)

namespace FAT32DirectoryEntry

/-- A file with an extension. -/
def showsExt (e : FAT32DirectoryEntry) : Bool := !e.isDirectory && e.ext 0 != 0

/-- What `print_directory_table` prints of an entry. -/
def printed (e : FAT32DirectoryEntry) : List UInt8 :=
  if e.occupied then
    (if e.name 7 ≠ 0 then List.ofFn e.name else [e.name 0]) ++
      (if e.showsExt then 46 :: List.ofFn e.ext else []) ++ [10]
  else []

/-- A name of eight characters, or of one. -/
def NameFits (e : FAT32DirectoryEntry) : Prop :=
  (∀ k, e.name k ≠ 0) ∨ (e.name 0 ≠ 0 ∧ e.name 1 = 0 ∧ e.name 7 = 0)

end FAT32DirectoryEntry

/-- The line of a folder. -/
def folderLine (name : Name) : List UInt8 := (if name 7 ≠ 0 then List.ofFn name else [name 0]) ++ [10]

theorem printed_of_folder {e : FAT32DirectoryEntry} (hused : e.occupied = true) (hdir : e.isDirectory = true) :
    e.printed = folderLine e.name := by
  have hext : e.showsExt = false := by rw [FAT32DirectoryEntry.showsExt, hdir, Bool.not_true, Bool.false_and]
  rw [FAT32DirectoryEntry.printed, if_pos hused, hext, if_neg Bool.false_ne_true, List.append_nil, folderLine]

/-- What `print_directory_table` prints of a table. -/
def FAT32DirectoryTable.printed (t : FAT32DirectoryTable) : List UInt8 :=
  (List.finRange 63).flatMap fun i => (t.table i.succ).printed

section Returns

variable {mem : Memory} {entry dirTable a : UInt32} {fuel n i : Nat}

/-- `strlen` is not `0` if the first character is not. -/
theorem strlen_ne_zero (h : mem a = 0) (hfuel : 2 ^ 32 ≤ fuel) (s : UInt32) :
    (mem.strlen fuel s).map (· != 0) = some (mem s != 0) := by
  obtain ⟨n, hn, hend⟩ := Memory.exists_endsAt h s
  rw [Memory.strlen_of_endsAt hend (by omega), Option.map_some, Option.some_inj, Bool.eq_iff_iff, bne_iff_ne,
    bne_iff_ne, ne_eq, ne_eq, not_iff_not]
  cases n with
  | zero => exact iff_of_true rfl (UInt32.add_zero s ▸ hend.2)
  | succ n =>
    refine iff_of_false (fun hlen => ?_) (UInt32.add_zero s ▸ hend.1 0 (Nat.succ_pos n))
    have hnat := congrArg UInt32.toNat hlen
    rw [UInt32.toNat_ofNat_of_lt' hn] at hnat
    exact Nat.succ_ne_zero n hnat

/-- If the entry is a file, there is a `'\0'` for `strlen` to find. -/
def Listable (mem : Memory) (e : FAT32DirectoryEntry) : Prop := e.occupied → e.isDirectory = false → ∃ a, mem a = 0

theorem hasExt_eq (hused : (mem.entryAt entry).occupied) (h : Listable mem (mem.entryAt entry))
    (hfuel : 2 ^ 32 ≤ fuel) : hasExt fuel mem entry = some (mem.entryAt entry).showsExt := by
  by_cases hattr : mem (entry + 11) = attrSubdirectory
  · have hdirectory : (mem.entryAt entry).isDirectory = true := beq_iff_eq.mpr hattr
    rw [hasExt, if_neg (not_not.mpr hattr), FAT32DirectoryEntry.showsExt, hdirectory]
    rfl
  · have hfile : (mem.entryAt entry).isDirectory = false := beq_eq_false_iff_ne.mpr hattr
    obtain ⟨a, ha⟩ := h hused hfile
    rw [hasExt, if_pos hattr, strlen_ne_zero ha hfuel, FAT32DirectoryEntry.showsExt, hfile, Memory.entryAt_ext]
    exact congrArg (fun p => some (mem p != 0)) (UInt32.add_zero _).symm

theorem printEntry_eq (h : Listable mem (mem.entryAt entry)) (hfuel : 2 ^ 32 ≤ fuel) :
    printEntry fuel mem entry = some (inColor lightBlue (mem.entryAt entry).printed) := by
  have hname : mem.putsText entry 8 = List.ofFn (mem.entryAt entry).name := by
    rw [Memory.putsText_eq_ofFn (n := 8) rfl]
    exact congrArg List.ofFn (funext fun k => (Memory.entryAt_name k).symm)
  have hfirst : mem.putsText entry 1 = [(mem.entryAt entry).name 0] := by
    rw [Memory.putsText_eq_ofFn (n := 1) rfl, Memory.entryAt_name]
    rfl
  have hext : mem.putsText (entry + 8) 3 = List.ofFn (mem.entryAt entry).ext := by
    rw [Memory.putsText_eq_ofFn (n := 3) rfl]
    exact congrArg List.ofFn (funext fun k => (Memory.entryAt_ext k).symm)
  have hlast : (mem.entryAt entry).name 7 = mem (entry + 7) := Memory.entryAt_name 7
  rw [printEntry, FAT32DirectoryEntry.printed, hname, hfirst, hext, hlast]
  by_cases hused : mem (entry + 12) = uattrNotEmpty
  · have hoccupied : (mem.entryAt entry).occupied = true := beq_iff_eq.mpr hused
    rw [if_pos hused, hasExt_eq hoccupied h hfuel, if_pos hoccupied]
    cases (mem.entryAt entry).showsExt <;> simp only [inColor, List.map_append] <;> rfl
  · have hfree : ¬ (mem.entryAt entry).occupied = true := fun hbeq => hused (beq_iff_eq.mp hbeq)
    rw [if_neg hused, if_neg hfree]
    rfl

theorem printEntries_eq (hfuel : 2 ^ 32 ≤ fuel)
    (h : ∀ j, i ≤ j → j < i + n → Listable mem (mem.entryAt (dirTable + UInt32.ofNat (32 * j)))) :
    printEntries fuel mem dirTable n i = some (inColor lightBlue
      ((List.range' i n).flatMap fun i => (mem.entryAt (dirTable + UInt32.ofNat (32 * i))).printed)) := by
  induction n generalizing i with
  | zero => rfl
  | succ n ih =>
    rw [printEntries, printEntry_eq (h i (le_refl i) (by omega)) hfuel,
      ih fun j hij hj => h j (by omega) (by omega), List.range'_succ, List.flatMap_cons, inColor, inColor, inColor,
      List.map_append]
    rfl

/-- **What is printed** of a table. -/
theorem printDirectoryTable_eq (hfuel : 2 ^ 32 ≤ fuel)
    (h : ∀ i : Fin 63, Listable mem ((mem.tableAt dirTable).table i.succ)) :
    printDirectoryTable fuel mem dirTable = some (inColor lightBlue (mem.tableAt dirTable).printed) := by
  have htable : (mem.tableAt dirTable).printed =
      (List.range' 1 63).flatMap fun i => (mem.entryAt (dirTable + UInt32.ofNat (32 * i))).printed := by
    rw [show List.range' 1 63 = (List.finRange 63).map fun i => i.val + 1 from rfl, List.flatMap_map,
      FAT32DirectoryTable.printed]
    simp only [Memory.tableAt_table, Fin.val_succ]
  have hentry : ∀ j, 1 ≤ j → j < 1 + 63 → Listable mem (mem.entryAt (dirTable + UInt32.ofNat (32 * j))) := by
    intro j h1 hj
    have hfin := h ⟨j - 1, by omega⟩
    rw [Memory.tableAt_table, Fin.val_succ, show j - 1 + 1 = j by omega] at hfin
    exact hfin
  rw [printDirectoryTable, printEntries_eq hfuel fun j h1 hj => hentry j h1 (by omega),
    printEntry_eq (hentry 63 (by decide) (by decide)) hfuel, htable,
    show List.range' 1 63 = List.range' 1 62 ++ [63] from rfl, List.flatMap_append, inColor, inColor, inColor,
    List.map_append, List.flatMap_singleton]
  rfl

theorem printEntry_eq_none (h : ∀ a, mem a ≠ 0) (hused : (mem.entryAt entry).occupied)
    (hfile : (mem.entryAt entry).isDirectory = false) : printEntry fuel mem entry = none := by
  have hused' : mem (entry + 12) = uattrNotEmpty := beq_iff_eq.mp hused
  have hfile' : mem (entry + 11) ≠ attrSubdirectory := beq_eq_false_iff_ne.mp hfile
  rw [printEntry, if_pos hused', hasExt, if_pos hfile', Memory.strlen, Memory.strlenLoop_eq_none h]
  rfl

theorem printEntries_eq_none {j : Nat} (hj : i ≤ j ∧ j < i + n)
    (hnone : printEntry fuel mem (dirTable + UInt32.ofNat (32 * j)) = none) :
    printEntries fuel mem dirTable n i = none := by
  induction n generalizing i with
  | zero => omega
  | succ n ih =>
    rw [printEntries]
    rcases Nat.lt_or_eq_of_le hj.1 with hlt | rfl
    · rw [ih (i := i + 1) ⟨hlt, by omega⟩]
      cases printEntry fuel mem (dirTable + UInt32.ofNat (32 * i)) <;> rfl
    · rw [hnone]
      rfl

/-- If there is none, and a file in the table, it does not return. -/
theorem printDirectoryTable_eq_none (h : ∀ a, mem a ≠ 0) (j : Fin 63)
    (hused : ((mem.tableAt dirTable).table j.succ).occupied)
    (hfile : ((mem.tableAt dirTable).table j.succ).isDirectory = false) :
    printDirectoryTable fuel mem dirTable = none := by
  rw [Memory.tableAt_table] at hused hfile
  have hnone : printEntry fuel mem (dirTable + UInt32.ofNat (32 * (j + 1))) = none := printEntry_eq_none h hused hfile
  rw [printDirectoryTable]
  rcases Nat.lt_or_eq_of_le (Nat.le_of_lt_succ j.isLt) with hlt | hlast
  · rw [printEntries_eq_none ⟨Nat.le_add_left 1 j, by omega⟩ hnone]
    rfl
  · rw [hlast] at hnone
    rw [hnone]
    cases printEntries fuel mem dirTable 62 1 <;> rfl

end Returns

end Os2024
