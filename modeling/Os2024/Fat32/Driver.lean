import Os2024.Fat32.Layout

/-!
# The state of the driver and its cluster I/O

`driver_state`, the disk and the caller's memory form one `System`; `accesses` lists the clusters the operations have
read and written so far, oldest first, and exists for the statements only. A cell of `cluster_map` outside
`0 … CLUSTER_MAP_SIZE - 1` is not part of the array: reaching for one ends the execution with `outOfBounds`. A loop
whose end depends on the contents of the FAT runs on fuel and ends with `running` when that is used up.
-/

namespace Os2024

open Bytes

/-! ## Clusters on the disk -/

/-- `cluster_to_lba`: one cluster is four blocks. -/
def clusterToLba (cluster : UInt32) : UInt32 := cluster * 4

/-- One round of the loop of `write_clusters`. -/
def writeCluster (data : Cluster) (clusterNumber : UInt32) (disk : Disk) : Disk :=
  writeBlocks (n := 4) data (clusterToLba clusterNumber) disk

/-- One round of the loop of `read_clusters`. -/
def readCluster (disk : Disk) (clusterNumber : UInt32) : Cluster := readBlocks disk (clusterToLba clusterNumber) 4

section Clusters

variable {n : Nat}

/-- `write_clusters` of a buffer of `n` clusters. -/
def writeClusters (ptr : Fin (n * 2048) → UInt8) (clusterNumber : UInt32) (disk : Disk) : Disk :=
  if n > 63 then disk
  else (List.finRange n).foldl
    (fun d (i : Fin n) => writeCluster (chunk ptr i) (clusterNumber + UInt32.ofNat i) d) disk

/-- `read_clusters` into a buffer of `n` clusters. -/
def readClusters (ptr : Fin (n * 2048) → UInt8) (clusterNumber : UInt32) (disk : Disk) : Fin (n * 2048) → UInt8 :=
  if n > 63 then ptr
  else flatten fun i : Fin n => readCluster disk (clusterNumber + UInt32.ofNat i)

end Clusters

/-! ## The system -/

/-- `driver_state`; its `cluster_buf` is never used. -/
structure FAT32DriverState where
  fatTable : FAT32FileAllocationTable
  dirTableBuf : FAT32DirectoryTable

/-- A cluster read or written with `read_clusters` or `write_clusters`. -/
inductive DiskAccess where
  | read (clusterNumber : UInt32)
  | write (clusterNumber : UInt32) (data : Cluster)

structure System where
  memory : Memory
  disk : Disk
  driverState : FAT32DriverState
  accesses : List DiskAccess

/-- Why an execution did not return. -/
inductive Halt where
  | outOfBounds (index : UInt32)
  | running

/-- An execution returns, or stops in some state. -/
abbrev Exec (α : Type) := Except (Halt × System) α

namespace System

/-- `driver_state.fat_table.cluster_map`. -/
abbrev fat (s : System) : Fin 512 → UInt32 := s.driverState.fatTable.clusterMap

/-- `driver_state.dir_table_buf`. -/
abbrev dirTable (s : System) : FAT32DirectoryTable := s.driverState.dirTableBuf

/-- `cluster_map[index]`. -/
def clusterMap (s : System) (index : UInt32) : Exec UInt32 :=
  if h : index.toNat < 512 then .ok (s.fat ⟨index.toNat, h⟩) else .error (.outOfBounds index, s)

def withFat (s : System) (map : Fin 512 → UInt32) : System :=
  { s with driverState := { s.driverState with fatTable := ⟨map⟩ } }

def withDirTable (s : System) (t : FAT32DirectoryTable) : System :=
  { s with driverState := { s.driverState with dirTableBuf := t } }

section Fields

variable (s : System) (map map' : Fin 512 → UInt32) (t t' : FAT32DirectoryTable)

@[simp] theorem withFat_fat : (s.withFat map).fat = map := rfl
@[simp] theorem withFat_dirTable : (s.withFat map).dirTable = s.dirTable := rfl
@[simp] theorem withFat_disk : (s.withFat map).disk = s.disk := rfl
@[simp] theorem withFat_memory : (s.withFat map).memory = s.memory := rfl
@[simp] theorem withFat_withFat : (s.withFat map).withFat map' = s.withFat map' := rfl
@[simp] theorem withFat_fatTable : (s.withFat map).driverState.fatTable = ⟨map⟩ := rfl
@[simp] theorem withDirTable_fat : (s.withDirTable t).fat = s.fat := rfl
@[simp] theorem withDirTable_dirTable : (s.withDirTable t).dirTable = t := rfl
@[simp] theorem withDirTable_disk : (s.withDirTable t).disk = s.disk := rfl
@[simp] theorem withDirTable_memory : (s.withDirTable t).memory = s.memory := rfl
@[simp] theorem withDirTable_withDirTable : (s.withDirTable t).withDirTable t' = s.withDirTable t' := rfl

end Fields

/-- `cluster_map[index] = value`. -/
def setClusterMap (s : System) (index value : UInt32) : Exec System :=
  if h : index.toNat < 512 then .ok (s.withFat (Function.update s.fat ⟨index.toNat, h⟩ value))
  else .error (.outOfBounds index, s)

/-- `write_clusters(data, cluster_number, 1)`. -/
def writeClusters (s : System) (data : Cluster) (clusterNumber : UInt32) : System :=
  { s with
    disk := Os2024.writeClusters (n := 1) data clusterNumber s.disk
    accesses := s.accesses ++ [.write clusterNumber data] }

/-- `read_clusters(driver_state.dir_table_buf.table, cluster_number, 1)`. -/
def loadDirTable (s : System) (clusterNumber : UInt32) : System :=
  { s with
    driverState := { s.driverState with
      dirTableBuf := .ofBytes (readClusters (n := 1) s.dirTable.bytes clusterNumber s.disk) }
    accesses := s.accesses ++ [.read clusterNumber] }

/-- `read_clusters(buf, cluster_number, 1)` into the caller's memory. -/
def readToBuf (s : System) (buf clusterNumber : UInt32) : System :=
  { s with
    memory := s.memory.store buf (readClusters (n := 1) (s.memory.load buf 2048) clusterNumber s.disk)
    accesses := s.accesses ++ [.read clusterNumber] }

end System

/-! ## Mounting -/

/-- `is_empty_storage`: the boot sector differs from the signature. -/
def isEmptyStorage (disk : Disk) : Bool :=
  memcmp (List.ofFn (readBlocks disk bootSector 1)) (List.ofFn fsSignature) != 0

/-- The FAT of a new file system. -/
def newFat : FAT32FileAllocationTable where
  clusterMap i :=
    if i = 0 then cluster0Value
    else if i = 1 then cluster1Value
    else if i = 2 then fat32FatEndOfFile
    else fat32FatEmptyEntry

/-- The root directory table of a new file system. -/
def newRootDirectoryTable : FAT32DirectoryTable where
  table i :=
    if i = 0 then
      { FAT32DirectoryEntry.zero with
        name := ![114, 111, 111, 116, 0, 0, 0, 0] -- "root"
        attr := attrSubdirectory
        userAttribute := uattrNotEmpty
        clusterLow := rootClusterNumber.toUInt16 }
    else if i = 1 then
      { FAT32DirectoryEntry.zero with
        name := dotDot
        attr := attrSubdirectory
        userAttribute := uattrNotEmpty
        clusterLow := rootClusterNumber.toUInt16 }
    else FAT32DirectoryEntry.zero

/-- `create_fat32`: boot sector, FAT and root directory table of a new file system. -/
def createFat32 (disk : Disk) : Disk :=
  let disk := writeBlocks (n := 1) fsSignature bootSector disk
  let disk := writeClusters (n := 1) newFat.bytes fatClusterNumber disk
  writeClusters (n := 1) newRootDirectoryTable.bytes rootClusterNumber disk

/-- `initialize_filesystem_fat32`. -/
def initializeFilesystemFat32 (s : System) : System :=
  let disk := if isEmptyStorage s.disk then createFat32 s.disk else s.disk
  { s with
    disk := disk
    driverState :=
      { fatTable := .ofBytes (readClusters (n := 1) s.driverState.fatTable.bytes fatClusterNumber disk)
        dirTableBuf := .ofBytes (readClusters (n := 1) s.dirTable.bytes rootClusterNumber disk) } }

/-! ## Clusters as an array store

Clusters below `2 ^ 30` occupy different blocks. -/

section Store

variable {data : Cluster} {disk : Disk} {c c' a : UInt32}

@[simp] theorem writeClusters_one (data : Cluster) (c : UInt32) (disk : Disk) :
    writeClusters (n := 1) data c disk = writeCluster data c disk := by
  have hchunk : chunk (n := 1) (m := 2048) data 0 = data := funext fun k => chunk_one _ _ k
  have hc : c + UInt32.ofNat 0 = c := by simp
  rw [writeClusters, if_neg (by omega), show List.finRange 1 = [0] from rfl, List.foldl_cons, List.foldl_nil, hchunk,
    Fin.val_zero, hc]

@[simp] theorem readClusters_one (data : Cluster) (c : UInt32) (disk : Disk) :
    readClusters (n := 1) data c disk = readCluster disk c := by
  have hc : c + UInt32.ofNat 0 = c := by simp
  rw [readClusters, if_neg (by omega)]
  funext k
  rw [flatten_one, Fin.val_zero, hc]
  rfl

theorem toNat_clusterToLba_add (hc : c.toNat < 2 ^ 30) (i : Fin 4) :
    (clusterToLba c + UInt32.ofNat i).toNat = 4 * c.toNat + i := by
  simp only [clusterToLba, UInt32.toNat_add, UInt32.toNat_mul, UInt32.toNat_ofNat', UInt32.reduceToNat]
  omega

theorem clusterToLba_add_inj (hc : c.toNat < 2 ^ 30) (hc' : c'.toNat < 2 ^ 30) {i j : Fin 4}
    (h : clusterToLba c + UInt32.ofNat i = clusterToLba c' + UInt32.ofNat j) : c = c' := by
  have ht := congrArg UInt32.toNat h
  rw [toNat_clusterToLba_add hc, toNat_clusterToLba_add hc'] at ht
  exact UInt32.toNat_inj.mp (by omega)

/-- A cluster reads back as it was written. -/
@[simp] theorem readCluster_writeCluster_self : readCluster (writeCluster data c disk) c = data :=
  readBlocks_writeBlocks (n := 4) (by omega)

/-- Writing one cluster leaves the others alone. -/
theorem readCluster_writeCluster_of_ne (hc : c.toNat < 2 ^ 30) (hc' : c'.toNat < 2 ^ 30) (h : c' ≠ c) :
    readCluster (writeCluster data c disk) c' = readCluster disk c' :=
  readBlocks_congr (n := 4) fun _ => writeBlocks_of_notMem (n := 4) fun _ e => h (clusterToLba_add_inj hc hc' e).symm

/-- Writing a cluster other than cluster `0` leaves the boot sector alone. -/
theorem writeCluster_bootSector (hc : c.toNat < 2 ^ 30) (h : c ≠ 0) :
    writeCluster data c disk bootSector = disk bootSector :=
  writeBlocks_of_notMem (n := 4) fun _ e =>
    h (clusterToLba_add_inj (j := 0) hc (by simp) (by simpa [clusterToLba, bootSector] using e))

end Store

/-! ## A mounted disk -/

section Mount

variable {disk : Disk} {s : System}

theorem isEmptyStorage_eq_false : isEmptyStorage disk = false ↔ disk bootSector = fsSignature := by
  have hblock : readBlocks disk bootSector 1 = disk bootSector := by
    funext k
    rw [readBlocks, flatten_one]
    rfl
  have hlen : (List.ofFn (disk bootSector)).length = (List.ofFn fsSignature).length := by
    rw [List.length_ofFn, List.length_ofFn]
  rw [isEmptyStorage, hblock, bne_eq_false_iff_eq, memcmp_eq_zero hlen]
  exact List.ofFn_inj

theorem createFat32_bootSector : createFat32 disk bootSector = fsSignature := by
  simp only [createFat32, writeClusters_one]
  rw [writeCluster_bootSector (by decide) (by decide), writeCluster_bootSector (by decide) (by decide)]
  exact (writeBlocks_run (n := 1) (by omega) 0).trans (funext fun k => chunk_one _ _ k)

@[simp] theorem readCluster_createFat32_fat : readCluster (createFat32 disk) fatClusterNumber = newFat.bytes := by
  simp only [createFat32, writeClusters_one]
  rw [readCluster_writeCluster_of_ne (by decide) (by decide) (by decide), readCluster_writeCluster_self]

@[simp] theorem readCluster_createFat32_root :
    readCluster (createFat32 disk) rootClusterNumber = newRootDirectoryTable.bytes := by
  simp only [createFat32, writeClusters_one, readCluster_writeCluster_self]

/-- A disk with the signature is not touched by mounting it. -/
theorem initializeFilesystemFat32_disk (h : s.disk bootSector = fsSignature) :
    (initializeFilesystemFat32 s).disk = s.disk := by
  simp [initializeFilesystemFat32, isEmptyStorage_eq_false.mpr h]

theorem initializeFilesystemFat32_fat (h : s.disk bootSector = fsSignature) :
    (initializeFilesystemFat32 s).fat =
      (FAT32FileAllocationTable.ofBytes (readCluster s.disk fatClusterNumber)).clusterMap := by
  simp [initializeFilesystemFat32, isEmptyStorage_eq_false.mpr h]

end Mount

end Os2024
