import Mathlib.Data.List.GetD
import Mathlib.Data.List.TakeWhile
import Os2024.Lib.Fuel
import Os2024.Lib.Scan
import Os2024.Lib.Splice
import Os2024.Shell.Shell

/-!
# Changing the directory

`cd` of `ch2/user-shell/cd.c`, with `findEntry` and `updateDirectoryTable` of `user-shell.c`; `tables` are the directory
tables on the disk by cluster. All components of the path are looked up in the `dir_table` there is when `cd` begins:
`cdLoop_eq`. The path is in memory and its loops run on fuel; a component of `13` characters or more overruns `name`,
and the model has no result for it.
-/

namespace Os2024

open Scan Splice

/-- `findEntry`; there is none for `-1`. -/
def findEntry (dirTable : FAT32DirectoryTable) (name : Name) : Option (Fin 64) :=
  firstFrom 0 fun i => memcmp (List.ofFn (dirTable.table i).name) (List.ofFn name) == 0

/-- `updateDirectoryTable`. -/
def Shell.updateDirectoryTable (tables : UInt32 → FAT32DirectoryTable) (clusterNumber : UInt32) (s : Shell) : Shell :=
  { s with dirTable := tables clusterNumber }

/-- What `cd` fails with inside its loop. -/
inductive CdError where
  | noSuchFile
  | notDirectory

/-- What it prints then. -/
def CdError.message : CdError → List UInt8
  | noSuchFile => (literal "cd: no such file or directory\n").take 30
  | notDirectory => (literal "cd: not a directory\n").take 21

/-- The loop that looks for the end of a component. -/
def componentEnd (mem : Memory) (path : UInt32) : (fuel j : Nat) → Option Nat
  | 0, _ => none
  | fuel + 1, j =>
    if mem (path + UInt32.ofNat j) ≠ 47 ∧ mem (path + UInt32.ofNat j) ≠ 0 then componentEnd mem path fuel (j + 1)
    else some j

/-- `name` after `memset`, `memcpy` and the store of the `'\0'`. -/
def nameBuffer (mem : Memory) (path : UInt32) (i j : Nat) : Buffer :=
  Function.update (splice (fun _ => 0) 0 (j - i) fun k => mem (path + UInt32.ofNat (i + k))) (j - i) 0

/-- The loop of `cd`, from index `i` on. -/
def cdLoop (mem : Memory) (path : UInt32) (dirTable : FAT32DirectoryTable) :
    (fuel i : Nat) → (clusterNumber : UInt32) → Option (Except CdError UInt32)
  | 0, _, _ => none
  | fuel + 1, i, clusterNumber =>
    if mem (path + UInt32.ofNat i) = 0 then some (.ok clusterNumber)
    else if mem (path + UInt32.ofNat i) = 47 then cdLoop mem path dirTable fuel (i + 1) clusterNumber -- '/'
    else
      match componentEnd mem path fuel i with
      | none => none
      | some j =>
        if j - i ≥ 13 then none
        else
          match findEntry dirTable fun k => nameBuffer mem path i j k with
          | none => some (.error .noSuchFile)
          | some entry =>
            if (dirTable.table entry).attr &&& attrSubdirectory ≠ 0 then
              cdLoop mem path dirTable fuel j (dirTable.table entry).clusterLow.toUInt32
            else some (.error .notDirectory)

/-- What comes after the loop. -/
def Shell.arrive (tables : UInt32 → FAT32DirectoryTable) (s : Shell) : Except CdError UInt32 → Shell × List Glyph
  | .error e => (s, inColor red e.message)
  | .ok clusterNumber => ({ s with currentDirectory := clusterNumber }.updateDirectoryTable tables clusterNumber, [])

/-- `cd`: the variables afterwards, and what is printed. -/
def cd (fuel : Nat) (mem : Memory) (tables : UInt32 → FAT32DirectoryTable) (args : Arguments) (s : Shell) :
    Option (Shell × List Glyph) :=
  if args.count = 2 then
    let path := args.address 1
    let (clusterNumber, path) := if mem path = 47 then (rootClusterNumber, path + 1) else (s.currentDirectory, path)
    (cdLoop mem path s.dirTable fuel 0 clusterNumber).map (s.arrive tables)
  else if args.count > 2 then some (s, inColor red ((literal "cd: too many arguments\n").take 23))
  else some (s, inColor red ((literal "cd: missing argument\n").take 21))

/-! ## Paths -/

/-- The string from index `i` on, and its `'\0'`. -/
def Memory.Spells (mem : Memory) (path : UInt32) : (i : Nat) → List UInt8 → Prop
  | i, [] => mem (path + UInt32.ofNat i) = 0
  | i, c :: s => mem (path + UInt32.ofNat i) = c ∧ c ≠ 0 ∧ mem.Spells path (i + 1) s

instance Memory.decidableSpells (mem : Memory) (path : UInt32) : ∀ i s, Decidable (mem.Spells path i s)
  | i, [] => inferInstanceAs (Decidable (mem (path + UInt32.ofNat i) = 0))
  | i, c :: s =>
    have := decidableSpells mem path (i + 1) s
    inferInstanceAs (Decidable (mem (path + UInt32.ofNat i) = c ∧ c ≠ 0 ∧ mem.Spells path (i + 1) s))

/-- The components of a path. -/
def components (path : List UInt8) : List (List UInt8) := (path.splitOn 47).filter (· ≠ [])

/-- A name, padded with NUL. -/
def nameOf (component : List UInt8) : Name := fun k => component.getD k 0

/-- A round of `cd` for a component. -/
def FAT32DirectoryTable.enter (t : FAT32DirectoryTable) (component : List UInt8) : Except CdError UInt32 :=
  match findEntry t (nameOf component) with
  | none => .error .noSuchFile
  | some i =>
    if (t.table i).attr &&& attrSubdirectory ≠ 0 then .ok (t.table i).clusterLow.toUInt32 else .error .notDirectory

section Paths

variable {mem : Memory} {path : UInt32} {fuel i : Nat} {s w : List UInt8} {c : UInt8} {dirTable : FAT32DirectoryTable}
  {clusterNumber : UInt32}

theorem components_slash (s : List UInt8) : components (47 :: s) = components s := by
  rw [components, List.splitOn_cons_eq_if_modifyHead]
  rfl

/-- The first component of a path. -/
theorem components_append (hw : w ≠ []) (hnot : 47 ∉ w) (hs : ∀ c ∈ s.head?, c = 47) :
    components (w ++ s) = w :: components s := by
  have hkept : ∀ l : List (List UInt8), (w :: l).filter (· ≠ []) = w :: l.filter (· ≠ []) :=
    fun l => List.filter_cons_of_pos (decide_eq_true hw)
  cases s with
  | nil =>
    rw [List.append_nil, components, List.splitOn_eq_singleton hnot, hkept]
    rfl
  | cons c s =>
    obtain rfl := hs c rfl
    rw [components_slash, components, List.splitOn_append_cons_self_of_not_mem hnot, hkept]
    rfl

/-- A path from its first component on. -/
theorem exists_component (hc : c ≠ 47) (s : List UInt8) :
    ∃ w rest, c :: s = w ++ rest ∧ w ≠ [] ∧ 47 ∉ w ∧ ∀ c ∈ rest.head?, c = 47 := by
  refine ⟨(c :: s).takeWhile (· ≠ 47), (c :: s).dropWhile (· ≠ 47), List.takeWhile_append_dropWhile.symm, ?_, ?_, ?_⟩
  · have hkept : (c :: s).takeWhile (· ≠ 47) = c :: s.takeWhile (· ≠ 47) :=
      List.takeWhile_cons_of_pos (decide_eq_true hc)
    rw [hkept]
    exact List.cons_ne_nil _ _
  · intro hmem
    have hne := List.mem_takeWhile_imp hmem
    simp at hne
  · intro c' hc'
    have hhead := List.head?_dropWhile_not (· ≠ 47) (c :: s)
    rw [Option.mem_def] at hc'
    rw [hc'] at hhead
    simpa using hhead

theorem Memory.Spells.append (h : mem.Spells path i (w ++ s)) : mem.Spells path (i + w.length) s := by
  induction w generalizing i with
  | nil => exact h
  | cons c w ih =>
    have hrest := ih h.2.2
    rwa [Nat.add_assoc, Nat.add_comm 1] at hrest

/-- The characters of the first component. -/
theorem Memory.Spells.getD (h : mem.Spells path i (w ++ s)) {k : Nat} (hk : k < w.length) :
    mem (path + UInt32.ofNat (i + k)) = w.getD k 0 := by
  induction w generalizing i k with
  | nil => exact absurd hk (Nat.not_lt_zero k)
  | cons c w ih =>
    cases k with
    | zero => exact h.1
    | succ k =>
      have hrest := ih h.2.2 (Nat.lt_of_succ_lt_succ hk)
      rwa [Nat.add_assoc, Nat.add_comm 1] at hrest

theorem componentEnd_eq (h : mem.Spells path i (w ++ s)) (hnot : 47 ∉ w) (hs : ∀ c ∈ s.head?, c = 47)
    (hfuel : w.length < fuel) : componentEnd mem path fuel i = some (i + w.length) := by
  induction fuel generalizing i w with
  | zero => exact absurd hfuel (Nat.not_lt_zero _)
  | succ fuel ih =>
    rw [componentEnd]
    cases w with
    | nil =>
      refine if_neg fun hne => ?_
      cases s with
      | nil => exact hne.2 h
      | cons c s => exact hne.1 (h.1.trans (hs c rfl))
    | cons c w =>
      have hc : c ≠ 47 := fun heq => hnot (heq ▸ List.mem_cons_self)
      have hlt : w.length < fuel := Nat.lt_of_succ_lt_succ hfuel
      rw [if_pos ⟨h.1.trans_ne hc, h.1.trans_ne h.2.1⟩, ih h.2.2 (fun hmem => hnot (List.mem_cons_of_mem _ hmem)) hlt,
        List.length_cons, Nat.add_assoc, Nat.add_comm 1]

/-- `name` holds the component. -/
theorem nameBuffer_eq (h : mem.Spells path i (w ++ s)) :
    (fun k : Fin 8 => nameBuffer mem path i (i + w.length) k) = nameOf w := by
  funext k
  rw [nameBuffer, nameOf, Nat.add_sub_cancel_left]
  rcases Nat.lt_trichotomy k w.length with hlt | heq | hgt
  · have hin : splice (fun _ => 0) 0 w.length (fun k => mem (path + UInt32.ofNat (i + k))) (0 + k) =
        mem (path + UInt32.ofNat (i + k)) := splice_add hlt
    rw [Nat.zero_add] at hin
    rw [Function.update_of_ne hlt.ne, hin, h.getD hlt]
  · rw [heq, Function.update_self, List.getD_eq_default _ _ (le_refl _)]
  · rw [Function.update_of_ne hgt.ne', splice_of_notMem (by omega), List.getD_eq_default _ _ hgt.le]

/-- **The loop of `cd`** looks up every component in the same table. -/
theorem cdLoop_eq (h : mem.Spells path i s) (hlen : ∀ w ∈ components s, w.length ≤ 12) (hfuel : s.length + 1 < fuel) :
    cdLoop mem path dirTable fuel i clusterNumber =
      some ((components s).foldlM (fun _ w => dirTable.enter w) clusterNumber) := by
  induction fuel generalizing i s clusterNumber with
  | zero => exact absurd hfuel (Nat.not_lt_zero _)
  | succ fuel ih =>
    have hlt := Nat.lt_of_succ_lt_succ hfuel
    rw [cdLoop]
    cases s with
    | nil => exact if_pos h
    | cons c s =>
      rw [if_neg (h.1.trans_ne h.2.1)]
      by_cases hc : c = 47
      · subst hc
        rw [components_slash] at hlen ⊢
        rw [if_pos h.1]
        exact ih h.2.2 hlen hlt
      · obtain ⟨w, rest, hsplit, hw, hnot, hrest⟩ := exists_component hc s
        rw [if_neg (h.1.trans_ne hc)]
        rw [hsplit] at h hlen hlt ⊢
        rw [components_append hw hnot hrest] at hlen ⊢
        rw [List.length_append] at hlt
        have hshort := hlen w List.mem_cons_self
        have hpos := List.length_pos_of_ne_nil hw
        rw [componentEnd_eq h hnot hrest (by omega)]
        dsimp only
        rw [if_neg (by omega), nameBuffer_eq h, List.foldlM_cons, FAT32DirectoryTable.enter]
        cases hfind : findEntry dirTable (nameOf w) with
        | none => rfl
        | some entry =>
          dsimp only
          split
          · exact ih h.append (fun w hmem => hlen w (List.mem_cons_of_mem _ hmem)) (by omega)
          · rfl

/-- The cluster a path starts from. -/
def pathStart (path : List UInt8) (currentDirectory : UInt32) : UInt32 :=
  if path.head? = some 47 then rootClusterNumber else currentDirectory

theorem Memory.Spells.load_zero (h : mem.Spells path 0 s) : mem path = 47 ↔ s.head? = some 47 := by
  cases s with
  | nil =>
    have h0 : mem (path + 0) = 0 := h
    rw [UInt32.add_zero] at h0
    rw [h0]
    decide
  | cons c s =>
    have hc : mem (path + 0) = c := h.1
    rw [UInt32.add_zero] at hc
    rw [hc, List.head?_cons, Option.some_inj]

theorem Memory.Spells.tail (h : mem.Spells path (i + 1) s) : mem.Spells (path + 1) i s := by
  have haddress : ∀ i, path + 1 + UInt32.ofNat i = path + UInt32.ofNat (i + 1) := by
    intro i
    rw [UInt32.add_assoc, UInt32.ofNat_add, UInt32.add_comm 1]
    rfl
  induction s generalizing i with
  | nil => exact (congrArg mem (haddress i)).trans h
  | cons c s ih => exact ⟨(congrArg mem (haddress i)).trans h.1, h.2.1, ih h.2.2⟩

/-- **`cd`** looks up every component in the table there is when it begins. -/
theorem cd_eq {tables : UInt32 → FAT32DirectoryTable} {args : Arguments} {shell : Shell} (hcount : args.count = 2)
    (h : mem.Spells (args.address 1) 0 s) (hlen : ∀ w ∈ components s, w.length ≤ 12) (hfuel : s.length + 1 < fuel) :
    cd fuel mem tables args shell = some (shell.arrive tables
      ((components s).foldlM (fun _ w => shell.dirTable.enter w) (pathStart s shell.currentDirectory))) := by
  rw [cd, if_pos hcount]
  dsimp only
  by_cases hslash : s.head? = some 47
  · obtain ⟨s, rfl⟩ : ∃ t, s = 47 :: t := ⟨s.tail, (List.cons_head?_tail hslash).symm⟩
    rw [components_slash] at hlen ⊢
    rw [if_pos (h.load_zero.mpr hslash), pathStart, if_pos hslash]
    exact congrArg (Option.map _) (cdLoop_eq h.2.2.tail hlen (Nat.lt_of_succ_lt hfuel))
  · rw [if_neg fun hload => hslash (h.load_zero.mp hload), pathStart, if_neg hslash]
    exact congrArg (Option.map _) (cdLoop_eq h hlen hfuel)

end Paths

end Os2024
