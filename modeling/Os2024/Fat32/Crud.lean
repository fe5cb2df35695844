import Os2024.Lib.Scan
import Os2024.Fat32.Driver

/-!
# The four operations

`read_directory`, `read`, `write` and `delete` of `ch1/fat32/fat32.c`, statement by statement. An operation takes the
system to a return code and the system after it.
-/

namespace Os2024

open Scan

/-- `struct FAT32DriverRequest`. -/
structure FAT32DriverRequest where
  buf : UInt32
  name : Name
  ext : Ext
  parentClusterNumber : UInt32
  bufferSize : UInt32

/-- The number of a cell of the cluster map, as the cells store it. -/
def clusterNum (c : Fin 512) : UInt32 := UInt32.ofNat c.val

/-! ## Loops over the directory table and the FAT -/

/-- The occupied entry with the identifier of a request: the search loops of all four operations. -/
def FAT32DirectoryTable.search (t : FAT32DirectoryTable) (identifierRequest : List UInt8) : Option (Fin 64) :=
  firstFrom 2 fun i => (t.table i).occupied && (t.table i).hasIdentifier identifierRequest

/-- The search for an empty entry in `write`. -/
def FAT32DirectoryTable.emptyEntry (t : FAT32DirectoryTable) : Option (Fin 64) :=
  firstFrom 2 fun i => !(t.table i).occupied

/-- The check for an occupied entry in `delete`. -/
def FAT32DirectoryTable.anyOccupied (t : FAT32DirectoryTable) : Bool :=
  (firstFrom 2 fun i => (t.table i).occupied).isSome

/-- `count_available` of `write`. -/
def System.countAvailable (s : System) : Nat := (hits 2 fun i => s.fat i == fat32FatEmptyEntry).length

/-- The entry `i` of `driver_state.dir_table_buf`, replaced. -/
def System.setEntry (s : System) (i : Fin 64) (e : FAT32DirectoryEntry) : System :=
  s.withDirTable (s.dirTable.set i e)

/-- Write FAT and parent directory table into non-volatile memory. -/
def System.writeBack (s : System) (parentClusterNumber : UInt32) : System :=
  let s := s.writeClusters s.driverState.fatTable.bytes fatClusterNumber
  s.writeClusters s.dirTable.bytes parentClusterNumber

/-- The checks of the parent cluster all operations share: its FAT cell, then the attribute of entry `0` of the table
loaded from it. -/
def openParent (parentClusterNumber : UInt32) (s : System) : Exec (Bool × System) := do
  let cell ← s.clusterMap parentClusterNumber
  if cell ≠ fat32FatEndOfFile then return (false, s)
  let s := s.loadDirTable parentClusterNumber
  return ((s.dirTable.table 0).isDirectory, s)

/-! ## Reading -/

/-- `read_directory`. -/
def readDirectory (request : FAT32DriverRequest) (s : System) : Exec (Int8 × System) := do
  -- Check reserved cluster number
  if request.parentClusterNumber < 2 then return (-1, s)
  -- Check buffer size
  if request.bufferSize ≠ 2048 then return (-1, s)
  let (valid, s) ← openParent request.parentClusterNumber s
  if !valid then return (-1, s)
  -- Search for directory name; the extension of the request is not used
  match s.dirTable.search (identifier request.name fun _ => 0) with
  | none => return (2, s)
  | some i =>
    if !(s.dirTable.table i).isDirectory then return (1, s)
    return (0, s.readToBuf request.buf (s.dirTable.table i).clusterNumber)

/-- The `do … while` loop of `read`: one cluster to `tempBuf`, then the next cell, until the end of the chain. -/
def readLoop : (fuel : Nat) → (tempBuf clusterNumber : UInt32) → System → Exec System
  | 0, _, _, s => .error (.running, s)
  | fuel + 1, tempBuf, clusterNumber, s => do
    let s := s.readToBuf tempBuf clusterNumber
    let clusterNumber ← s.clusterMap clusterNumber
    if clusterNumber ≠ fat32FatEndOfFile then readLoop fuel (tempBuf + 2048) clusterNumber s else return s

/-- `read`. -/
def read (fuel : Nat) (request : FAT32DriverRequest) (s : System) : Exec (Int8 × System) := do
  -- Check reserved cluster number
  if request.parentClusterNumber < 2 then return (-1, s)
  let (valid, s) ← openParent request.parentClusterNumber s
  if !valid then return (-1, s)
  -- Search for file name
  match s.dirTable.search (identifier request.name request.ext) with
  | none => return (3, s)
  | some i =>
    if (s.dirTable.table i).isDirectory then return (1, s)
    -- Check buffer size
    if request.bufferSize < (s.dirTable.table i).filesize then return (2, s)
    let s ← readLoop fuel request.buf (s.dirTable.table i).clusterNumber s
    return (0, s)

/-! ## Writing -/

/-- `request.buffer_size / CLUSTER_SIZE + 1`. -/
def FAT32DriverRequest.clusterCount (request : FAT32DriverRequest) : Nat := request.bufferSize.toNat / 2048 + 1

theorem FAT32DriverRequest.clusterCount_of_zero {request : FAT32DriverRequest} (h : request.bufferSize = 0) :
    request.clusterCount = 1 := by
  rw [clusterCount, h]
  rfl

/-- Cluster `i` of the buffer of a request. -/
def FAT32DriverRequest.chunk (request : FAT32DriverRequest) (mem : Memory) (i : Nat) : Cluster :=
  mem.load (request.buf + UInt32.ofNat (i * 2048)) 2048

/-- What `write` sets in the new entry before its loop; the attribute of a file is left as it is. -/
def FAT32DirectoryEntry.fill (entry : FAT32DirectoryEntry) (request : FAT32DriverRequest) : FAT32DirectoryEntry :=
  { entry with
    name := request.name
    ext := request.ext
    attr := if request.bufferSize = 0 then attrSubdirectory else entry.attr
    userAttribute := uattrNotEmpty }

/-- Round `i` of the loop of `write`, with the empty FAT entry it has found. -/
def System.writeRound (s : System) (request : FAT32DriverRequest) (directoryTableIndex : Fin 64)
    (fatIndex previousFatIndex : Fin 512) (i : Nat) : System :=
  let s :=
    -- Add cluster index into the new parent directory table entry, or into the FAT entry
    if i = 0 then
      s.setEntry directoryTableIndex ((s.dirTable.table directoryTableIndex).setCluster (clusterNum fatIndex))
    else s.withFat (Function.update s.fat previousFatIndex (clusterNum fatIndex))
  s.writeClusters (request.chunk s.memory i) (clusterNum fatIndex)

/-- The `do … while` loop of `write`: the result is the last `fat_index`, the number of rounds and the system. -/
def writeLoop (request : FAT32DriverRequest) (directoryTableIndex : Fin 64) :
    (fuel : Nat) → (fatIndex previousFatIndex : Fin 512) → (i : Nat) → System → Exec (Fin 512 × Nat × System)
  | 0, _, _, _, s => .error (.running, s)
  | fuel + 1, fatIndex, previousFatIndex, i, s =>
    -- Check for first empty FAT entry
    match firstFrom fatIndex.val fun c => s.fat c == fat32FatEmptyEntry with
    | none => .error (.outOfBounds 512, s)
    | some fatIndex =>
      let s := s.writeRound request directoryTableIndex fatIndex previousFatIndex i
      if i + 1 < request.clusterCount then writeLoop request directoryTableIndex fuel fatIndex fatIndex (i + 1) s
      else .ok (fatIndex, i + 1, s)

/-- `write`. -/
def write (fuel : Nat) (request : FAT32DriverRequest) (s : System) : Exec (Int8 × System) := do
  -- Check reserved cluster number
  if request.parentClusterNumber < 2 then return (2, s)
  let (valid, s) ← openParent request.parentClusterNumber s
  if !valid then return (2, s)
  -- Check if file already exist
  if (s.dirTable.search (identifier request.name request.ext)).isSome then return (1, s)
  -- Check for an empty parent directory table entry
  match s.dirTable.emptyEntry with
  | none => return (-1, s)
  | some directoryTableIndex =>
    -- Check for available FAT entry
    if s.countAvailable < request.clusterCount then return (-1, s)
    -- Add entry to parent directory table (cluster and filesize will be added later)
    let s := s.setEntry directoryTableIndex ((s.dirTable.table directoryTableIndex).fill request)
    -- Write the buffer of the driver request
    let (fatIndex, i, s) ← writeLoop request directoryTableIndex fuel 2 0 0 s
    -- Add filesize into the new parent directory table entry
    let s := s.setEntry directoryTableIndex
      ((s.dirTable.table directoryTableIndex).setFilesize (UInt32.ofNat (i * 2048)))
    -- Add end of file marker into the last FAT entry
    let s := s.withFat (Function.update s.fat fatIndex fat32FatEndOfFile)
    return (0, s.writeBack request.parentClusterNumber)

/-! ## Deleting -/

/-- The `while` loop of `delete`: empties the cells of a chain up to, and not including, the one that holds the end
mark; the result is the number of that one and the system. -/
def deleteLoop : (fuel : Nat) → (currentFatIndex nextFatIndex : UInt32) → System → Exec (UInt32 × System)
  | 0, _, _, s => .error (.running, s)
  | fuel + 1, currentFatIndex, nextFatIndex, s => do
    if nextFatIndex ≠ fat32FatEndOfFile then
      let s ← s.setClusterMap currentFatIndex fat32FatEmptyEntry
      let next ← s.clusterMap nextFatIndex
      deleteLoop fuel nextFatIndex next s
    else return (currentFatIndex, s)

/-- `delete`. -/
def delete (fuel : Nat) (request : FAT32DriverRequest) (s : System) : Exec (Int8 × System) := do
  -- Check reserved cluster number
  if request.parentClusterNumber < 2 then return (-1, s)
  let (valid, s) ← openParent request.parentClusterNumber s
  if !valid then return (-1, s)
  -- Search for file/folder name
  match s.dirTable.search (identifier request.name request.ext) with
  | none => return (1, s)
  | some directoryTableIndex =>
    -- Check if the entry is a directory, and if so, if the directory is empty
    let entry := s.dirTable.table directoryTableIndex
    let s := if entry.isDirectory then s.loadDirTable entry.clusterNumber else s
    if entry.isDirectory && s.dirTable.anyOccupied then return (2, s)
    -- Delete the FAT entries
    let s := s.loadDirTable request.parentClusterNumber
    let clusterNumber := (s.dirTable.table directoryTableIndex).clusterNumber
    let next ← s.clusterMap clusterNumber
    let (currentFatIndex, s) ← deleteLoop fuel clusterNumber next s
    let s ← s.setClusterMap currentFatIndex fat32FatEmptyEntry
    -- Delete the parent directory table entry
    let s := s.setEntry directoryTableIndex (s.dirTable.table directoryTableIndex).release
    return (0, s.writeBack request.parentClusterNumber)

end Os2024
