import Os2024.Lib.Chain
import Os2024.Fat32.Crud

/-!
# Clusters, cells and tables

Facts the operations share: the numbers of the 512 cells, the directory table a cluster holds, and the effect of a
sequence of cluster writes on the disk. Clusters below `2 ^ 30`, and so all that a cell of the FAT numbers, are an array
store (`readCluster_applyWrites_concat`).
-/

namespace Os2024

open Bytes Scan LinkTable

/-! ## Numbers of cells -/

section Cells

variable {c d : Fin 512}

@[simp] theorem toNat_clusterNum (c : Fin 512) : (clusterNum c).toNat = c.val := by
  rw [clusterNum, UInt32.toNat_ofNat_of_lt' (by rw [UInt32.size]; omega)]

theorem clusterNum_injective : Function.Injective clusterNum := fun c d h =>
  Fin.ext (by simpa using congrArg UInt32.toNat h)

@[simp] theorem clusterNum_inj : clusterNum c = clusterNum d ↔ c = d := clusterNum_injective.eq_iff

theorem clusterNum_ne_endOfFile (c : Fin 512) : clusterNum c ≠ fat32FatEndOfFile := fun h => by
  have ht := congrArg UInt32.toNat h
  simp only [toNat_clusterNum, fat32FatEndOfFile, UInt32.reduceToNat] at ht
  omega

theorem clusterNum_ne_emptyEntry (hc : 2 ≤ c.val) : clusterNum c ≠ fat32FatEmptyEntry := fun h => by
  have ht := congrArg UInt32.toNat h
  simp only [toNat_clusterNum, fat32FatEmptyEntry, UInt32.reduceToNat] at ht
  omega

/-- A number below `CLUSTER_MAP_SIZE` is that of a cell. -/
theorem exists_clusterNum {v : UInt32} (h : v.toNat < 512) : ∃ c : Fin 512, v = clusterNum c ∧ c.val = v.toNat :=
  ⟨⟨v.toNat, h⟩, UInt32.toNat_inj.mp (by simp), rfl⟩

theorem clusterNum_lt (c : Fin 512) : (clusterNum c).toNat < 2 ^ 30 := by
  rw [toNat_clusterNum]
  omega

theorem rootClusterNumber_eq : rootClusterNumber = clusterNum 2 := rfl

theorem fatClusterNumber_eq : fatClusterNumber = clusterNum 1 := rfl

theorem clusterNum_lt_two_iff : clusterNum c < 2 ↔ c.val < 2 := by
  rw [UInt32.lt_iff_toNat_lt, toNat_clusterNum]
  rfl

end Cells

/-- Following a FAT from a cluster number. -/
abbrev FatChain (fat : Fin 512 → UInt32) : UInt32 → List (Fin 512) → Prop :=
  Chain clusterNum fat32FatEndOfFile fat

namespace FatChain

variable {fat : Fin 512 → UInt32} {v w : UInt32} {c : Fin 512} {l l' : List (Fin 512)}

theorem unique (h : FatChain fat v l) (h' : FatChain fat v l') : l = l' :=
  Chain.unique clusterNum_injective clusterNum_ne_endOfFile h h'

theorem nodup (h : FatChain fat v l) : l.Nodup := Chain.nodup clusterNum_injective clusterNum_ne_endOfFile h

theorem length_le (h : FatChain fat v l) : l.length ≤ 512 := by
  simpa using h.nodup.length_le_card

/-- The cells of a chain are not empty. -/
theorem ne_emptyEntry (h : FatChain fat v l) (h2 : ∀ c ∈ l, 2 ≤ c.val) (hc : c ∈ l) : fat c ≠ fat32FatEmptyEntry := by
  rcases h.next_mem hc with he | ⟨d, hd, he⟩
  · rw [he]; decide
  · rw [he]; exact clusterNum_ne_emptyEntry (h2 d hd)

end FatChain

/-! ## Tables and writes -/

/-- The directory table in a cluster. -/
def tableAt (disk : Disk) (clusterNumber : UInt32) : FAT32DirectoryTable := .ofBytes (readCluster disk clusterNumber)

/-- A sequence of `write_clusters` calls, each of one cluster, on the disk. -/
def applyWrites (disk : Disk) (writes : List (UInt32 × Cluster)) : Disk :=
  writes.foldl (fun d w => writeCluster w.2 w.1 d) disk

section Writes

variable {disk : Disk} {writes : List (UInt32 × Cluster)} {w : UInt32 × Cluster} {c : UInt32}

@[simp] theorem applyWrites_nil : applyWrites disk [] = disk := rfl

theorem applyWrites_singleton (b : UInt32) (data : Cluster) : applyWrites disk [(b, data)] = writeCluster data b disk :=
  rfl

theorem applyWrites_append (writes' : List (UInt32 × Cluster)) :
    applyWrites disk (writes ++ writes') = applyWrites (applyWrites disk writes) writes' := by
  simp [applyWrites]

theorem applyWrites_concat : applyWrites disk (writes ++ [w]) = writeCluster w.2 w.1 (applyWrites disk writes) := by
  simp [applyWrites]

/-- The last write to a cluster counts. -/
theorem readCluster_applyWrites_concat {b : UInt32} {data : Cluster} (hc : c.toNat < 2 ^ 30)
    (hb : b.toNat < 2 ^ 30) :
    readCluster (applyWrites disk (writes ++ [(b, data)])) c =
      if c = b then data else readCluster (applyWrites disk writes) c := by
  rw [applyWrites_concat]
  split
  · next h => rw [h, readCluster_writeCluster_self]
  · next h => exact readCluster_writeCluster_of_ne hb hc h

/-- A cluster nothing is written to is left alone. -/
theorem readCluster_applyWrites_of_notMem (hc : c.toNat < 2 ^ 30)
    (h : ∀ w ∈ writes, w.1.toNat < 2 ^ 30 ∧ w.1 ≠ c) : readCluster (applyWrites disk writes) c = readCluster disk c := by
  induction writes using List.reverseRecOn with
  | nil => rfl
  | append_singleton ws w ih =>
    obtain ⟨hw, hne⟩ := h w (by simp)
    rw [← Prod.mk.eta (p := w), readCluster_applyWrites_concat hc hw, if_neg hne.symm]
    exact ih fun x hx => h x (List.mem_append_left _ hx)

/-- Both `write` and `delete` end with the FAT and the parent's table. -/
theorem readCluster_applyWrites_finish {parent : UInt32} {fatBytes tableBytes : Cluster} (hc : c.toNat < 2 ^ 30)
    (hp : parent.toNat < 2 ^ 30) :
    readCluster (applyWrites disk (writes ++ [(fatClusterNumber, fatBytes), (parent, tableBytes)])) c =
      if c = parent then tableBytes
      else if c = fatClusterNumber then fatBytes
      else readCluster (applyWrites disk writes) c := by
  rw [List.append_cons, readCluster_applyWrites_concat hc hp, readCluster_applyWrites_concat hc (by decide)]

/-- The boot sector lies in cluster `0`. -/
theorem applyWrites_bootSector (h : ∀ w ∈ writes, w.1.toNat < 2 ^ 30 ∧ w.1 ≠ 0) :
    applyWrites disk writes bootSector = disk bootSector := by
  induction writes using List.reverseRecOn with
  | nil => rfl
  | append_singleton ws w ih =>
    obtain ⟨hw, hne⟩ := h w (by simp)
    rw [applyWrites_concat, writeCluster_bootSector hw hne]
    exact ih fun x hx => h x (List.mem_append_left _ hx)

theorem tableAt_congr {disk' : Disk} (h : readCluster disk' c = readCluster disk c) : tableAt disk' c = tableAt disk c := by
  rw [tableAt, h, tableAt]

end Writes

/-- The system after a sequence of `write_clusters` calls. -/
def System.writeAll (s : System) (writes : List (UInt32 × Cluster)) : System :=
  { s with
    disk := applyWrites s.disk writes
    accesses := s.accesses ++ writes.map fun w => .write w.1 w.2 }

namespace System

variable {s : System}

theorem writeClusters_eq (data : Cluster) (c : UInt32) : s.writeClusters data c = s.writeAll [(c, data)] := by
  simp [System.writeClusters, writeAll, applyWrites]

theorem writeAll_writeAll (ws ws' : List (UInt32 × Cluster)) : (s.writeAll ws).writeAll ws' = s.writeAll (ws ++ ws') := by
  simp [writeAll, applyWrites_append]

theorem writeBack_eq (parent : UInt32) :
    s.writeBack parent =
      s.writeAll [(fatClusterNumber, s.driverState.fatTable.bytes), (parent, s.dirTable.bytes)] := by
  simp only [writeBack, writeClusters_eq, writeAll_writeAll]
  rfl

@[simp] theorem writeAll_driverState (ws : List (UInt32 × Cluster)) : (s.writeAll ws).driverState = s.driverState := rfl
@[simp] theorem writeAll_memory (ws : List (UInt32 × Cluster)) : (s.writeAll ws).memory = s.memory := rfl
@[simp] theorem writeAll_disk (ws : List (UInt32 × Cluster)) : (s.writeAll ws).disk = applyWrites s.disk ws := rfl

theorem withFat_writeAll (ws : List (UInt32 × Cluster)) (map : Fin 512 → UInt32) :
    (s.writeAll ws).withFat map = (s.withFat map).writeAll ws := rfl

theorem loadDirTable_eq (c : UInt32) :
    s.loadDirTable c =
      { s with
        driverState := { s.driverState with dirTableBuf := tableAt s.disk c }
        accesses := s.accesses ++ [.read c] } := by
  simp [loadDirTable, tableAt]

@[simp] theorem loadDirTable_fat (c : UInt32) : (s.loadDirTable c).fat = s.fat := rfl
@[simp] theorem loadDirTable_disk (c : UInt32) : (s.loadDirTable c).disk = s.disk := rfl
@[simp] theorem loadDirTable_memory (c : UInt32) : (s.loadDirTable c).memory = s.memory := rfl
@[simp] theorem loadDirTable_dirTable (c : UInt32) : (s.loadDirTable c).dirTable = tableAt s.disk c := by
  simp [loadDirTable_eq]

theorem readToBuf_eq (buf c : UInt32) :
    s.readToBuf buf c =
      { s with
        memory := s.memory.store buf (readCluster s.disk c)
        accesses := s.accesses ++ [.read c] } := by
  simp [readToBuf]

theorem clusterMap_clusterNum (c : Fin 512) : s.clusterMap (clusterNum c) = .ok (s.fat c) := by
  have hc := c.isLt
  simp only [clusterMap, toNat_clusterNum, hc, dif_pos, Fin.eta]

theorem setClusterMap_clusterNum (c : Fin 512) (v : UInt32) :
    s.setClusterMap (clusterNum c) v = .ok (s.withFat (Function.update s.fat c v)) := by
  have hc := c.isLt
  simp only [setClusterMap, toNat_clusterNum, hc, dif_pos, Fin.eta]

theorem clusterMap_of_le {v : UInt32} (h : 512 ≤ v.toNat) : s.clusterMap v = .error (.outOfBounds v, s) :=
  dif_neg (by omega)

end System

end Os2024
