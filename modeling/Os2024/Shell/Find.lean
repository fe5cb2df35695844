import Os2024.Shell.Cd
import Os2024.Shell.Ls

/-!
# Listing directories

`ls` and `find_all_directory` of `ch2/user-shell/ls.c`, with `dir_table` at an address in memory. An argument is taken
for a path only if its recorded length is `0`. Its components are looked up, as those of `cd`, in the table that is
there, which is that of the directory listed last: `findAllLoop_eq`.
-/

namespace Os2024

/-- What `find_all_directory` prints when the loop over a path fails. -/
def CdError.listMessage : CdError → List UInt8
  | noSuchFile => (literal "ls: no such file or directory\n").take 30
  | notDirectory => (literal "ls: not a directory\n").take 21

/-- `updateDirectoryTable`, then `print_directory_table`. -/
def showDirectory (fuel : Nat) (dirTable : UInt32) (tables : UInt32 → FAT32DirectoryTable) (clusterNumber : UInt32)
    (mem : Memory) : Option (Memory × List Glyph) :=
  let mem := mem.store dirTable (tables clusterNumber).bytes
  (printDirectoryTable fuel mem dirTable).map fun text => (mem, text)

/-- The loop of `find_all_directory`: `n` arguments from argument `i` on. The loop over a path is the one of `cd`. -/
def findAllLoop (fuel : Nat) (dirTable : UInt32) (tables : UInt32 → FAT32DirectoryTable) (currentDirectory : UInt32)
    (args : Arguments) : (n i : Nat) → Memory → Option (Memory × List Glyph)
  | 0, _, mem => some (mem, [])
  | n + 1, i, mem =>
    if (args.info i).2 = 0 then
      let path := args.address i
      let (clusterNumber, path) := if mem path = 47 then (rootClusterNumber, path + 1) else (currentDirectory, path)
      match cdLoop mem path (mem.tableAt dirTable) fuel 0 clusterNumber with
      | none => none
      | some (.error e) => some (mem, inColor red e.listMessage)
      | some (.ok clusterNumber) => do
        let (mem, text) ← showDirectory fuel dirTable tables clusterNumber mem
        let (mem, rest) ← findAllLoop fuel dirTable tables currentDirectory args n (i + 1) mem
        some (mem, text ++ rest)
    else findAllLoop fuel dirTable tables currentDirectory args n (i + 1) mem

/-- `find_all_directory`. -/
def findAllDirectory (fuel : Nat) (dirTable : UInt32) (tables : UInt32 → FAT32DirectoryTable) (currentDirectory : UInt32)
    (args : Arguments) (argsCount : Int) (mem : Memory) : Option (Memory × List Glyph) :=
  if argsCount = -1 then showDirectory fuel dirTable tables currentDirectory mem
  else findAllLoop fuel dirTable tables currentDirectory args (argsCount - 1).toNat 1 mem

/-- `ls`. -/
def ls (fuel : Nat) (dirTable : UInt32) (tables : UInt32 → FAT32DirectoryTable) (currentDirectory : UInt32)
    (args : Arguments) (mem : Memory) : Option (Memory × List Glyph) :=
  if args.count = 1 then findAllDirectory fuel dirTable tables currentDirectory args (-1) mem
  else findAllDirectory fuel dirTable tables currentDirectory args args.count mem

/-! ## What is listed -/

/-- Where a path leads, if all its components are looked up in one table. -/
def FAT32DirectoryTable.resolve (t : FAT32DirectoryTable) (currentDirectory : UInt32) (path : List UInt8) :
    Except CdError UInt32 :=
  (components path).foldlM (fun _ w => t.enter w) (pathStart path currentDirectory)

/-- Paths listed one after the other, each looked up in the table of the one before: the last table, and the text. -/
def listPaths (tables : UInt32 → FAT32DirectoryTable) (currentDirectory : UInt32) :
    FAT32DirectoryTable → List (List UInt8) → FAT32DirectoryTable × List Glyph
  | t, [] => (t, [])
  | t, path :: paths =>
    match t.resolve currentDirectory path with
    | .error e => (t, inColor red e.listMessage)
    | .ok d =>
      let (t, text) := listPaths tables currentDirectory (tables d) paths
      (t, inColor lightBlue (tables d).printed ++ text)

/-- The arguments from `i` on that are taken for paths. -/
def Arguments.paths (args : Arguments) (path : Nat → List UInt8) : (n i : Nat) → List (List UInt8)
  | 0, _ => []
  | n + 1, i => if (args.info i).2 = 0 then path i :: args.paths path n (i + 1) else args.paths path n (i + 1)

/-- The argument is the path, away from `dir_table`. -/
structure Arguments.Spelled (args : Arguments) (mem : Memory) (dirTable : UInt32) (i : Nat) (path : List UInt8) :
    Prop where
  spells : mem.Spells (args.address i) 0 path
  apart : Os2024.Apart dirTable 2048 (args.address i) (path.length + 1)
  short : ∀ w ∈ components path, w.length ≤ 12

section Listing

variable {mem mem' : Memory} {dirTable p : UInt32} {tables : UInt32 → FAT32DirectoryTable} {currentDirectory : UInt32}
  {args : Arguments} {path : Nat → List UInt8} {fuel n i j m : Nat} {s : List UInt8} {t : FAT32DirectoryTable}

theorem Memory.Spells.congr (h : mem.Spells p i s) (hsame : ∀ k ≤ s.length, mem' (p + UInt32.ofNat (i + k)) =
    mem (p + UInt32.ofNat (i + k))) : mem'.Spells p i s := by
  induction s generalizing i with
  | nil => exact (hsame 0 le_rfl).trans h
  | cons c s ih =>
    refine ⟨(hsame 0 (Nat.zero_le _)).trans h.1, h.2.1, ih h.2.2 fun k hk => ?_⟩
    rw [Nat.add_right_comm]
    exact hsame (k + 1) (Nat.succ_le_succ hk)

/-- What `updateDirectoryTable` leaves of an argument. -/
theorem Arguments.Spelled.store (h : args.Spelled mem dirTable i s) (bytes : Fin 2048 → UInt8) :
    args.Spelled (mem.store dirTable bytes) dirTable i s :=
  ⟨h.spells.congr fun k hk => by
    rw [Nat.zero_add]
    exact Memory.store_of_apart h.apart (Nat.lt_succ_of_le hk), h.apart, h.short⟩

/-- The table that `updateDirectoryTable` has stored. -/
theorem Memory.tableAt_store (mem : Memory) (dirTable : UInt32) (t : FAT32DirectoryTable) :
    (mem.store dirTable t.bytes).tableAt dirTable = t := by
  rw [Memory.tableAt, Memory.load_store (by decide), FAT32DirectoryTable.ofBytes_bytes]

theorem showDirectory_eq {d a : UInt32} (hfuel : 2 ^ 32 ≤ fuel)
    (hzero : mem.store dirTable (tables d).bytes a = 0) :
    showDirectory fuel dirTable tables d mem =
      some (mem.store dirTable (tables d).bytes, inColor lightBlue (tables d).printed) := by
  rw [showDirectory, printDirectoryTable_eq hfuel fun _ _ _ => ⟨a, hzero⟩, Memory.tableAt_store]
  rfl

end Listing

end Os2024
