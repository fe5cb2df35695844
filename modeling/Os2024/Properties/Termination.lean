import Os2024.Fat32.Outcome
import Os2024.Fat32.Fresh

/-!
# Any image

Nothing but the boot sector of a disk is checked when it is mounted, and a walk along a chain has the end mark for its
only stop. `mounted_outcomes` says for every image what comes of a request: `write` and `read_directory` return, and
so do `read` and `delete` unless they come to a walk that does not end. The image `loopedDisk`, with a file whose only
cluster is followed by itself, keeps `read` going forever (`looped_read_diverges`).
-/

namespace Os2024

open LinkTable Exec

/-- What comes of a call, for any parent below `CLUSTER_MAP_SIZE`. -/
structure Call.Outcomes (call : Call) (s : System) : Prop where
  returns : Returns (call.exec · s) ↔
    ∀ v, call.op.WalksFrom (call.start s) call.request v → call.op.WalkEnds s.fat v
  leaves : Leaves (call.exec · s) ↔
    ∃ v, call.op.WalksFrom (call.start s) call.request v ∧ call.op.WalkExits s.fat v
  diverges : Diverges (call.exec · s) ↔
    ∃ v, call.op.WalksFrom (call.start s) call.request v ∧ call.op.WalkCycles s.fat v

theorem Call.outcomes (call : Call) (s : System) (hp : call.request.parentClusterNumber.toNat < 512) :
    call.Outcomes s :=
  ⟨Op.returns_iff hp, Op.leaves_iff hp, Op.diverges_iff hp⟩

/-- **What comes of a call** to a disk with the signature and any contents else. -/
theorem mounted_outcomes (call : Call) (s : System) (hboot : s.disk bootSector = fsSignature)
    (hp : call.request.parentClusterNumber.toNat < 512) :
    (initializeFilesystemFat32 s).disk = s.disk ∧
      (initializeFilesystemFat32 s).fat =
        (FAT32FileAllocationTable.ofBytes (readCluster s.disk fatClusterNumber)).clusterMap ∧
      call.Outcomes (initializeFilesystemFat32 s) :=
  ⟨initializeFilesystemFat32_disk hboot, initializeFilesystemFat32_fat hboot, call.outcomes _ hp⟩

/-! ## A cluster followed by itself -/

/-- The FAT of a new file system, with cell `3` pointing to itself. -/
def loopedFat : FAT32FileAllocationTable := ⟨Function.update newFat.clusterMap 3 (clusterNum 3)⟩

/-- A disk with one file of one byte, and `loopedFat`. -/
def loopedDisk : Disk :=
  writeCluster loopedFat.bytes fatClusterNumber
    (blankMachine.firstWrite (writeCall (fun _ => 97) 1 fun _ => 0)).system.disk

theorem loopedDisk_bootSector : loopedDisk bootSector = fsSignature := by
  have hm := blankMachine_fresh.firstWrite_reachable (writeCall_fitsRoot (fun _ => 97) 1 (fun _ => 0)
    (by decide)) (writeCall_folderOk (by decide))
  rw [loopedDisk, writeCluster_bootSector (by decide) (by decide)]
  exact hm.sound.represents.boot

theorem loopedDisk_table : tableAt loopedDisk rootClusterNumber =
    tableAt (blankMachine.firstWrite (writeCall (fun _ => 97) 1 fun _ => 0)).system.disk rootClusterNumber :=
  tableAt_congr (readCluster_writeCluster_of_ne (by decide) (by decide) (by decide))

/-- A mounted `loopedDisk`. -/
theorem looped_mounted {s : System} (h : s.disk = loopedDisk) :
    (initializeFilesystemFat32 s).disk = loopedDisk ∧ (initializeFilesystemFat32 s).fat = loopedFat.clusterMap := by
  have hboot : s.disk bootSector = fsSignature := h ▸ loopedDisk_bootSector
  refine ⟨(initializeFilesystemFat32_disk hboot).trans h, ?_⟩
  rw [initializeFilesystemFat32_fat hboot, h, loopedDisk, readCluster_writeCluster_self,
    FAT32FileAllocationTable.ofBytes_bytes]

/-- `read` of the file comes to its walk. -/
theorem looped_walksFrom {s : System} (hdisk : s.disk = loopedDisk) (hfat : s.fat = loopedFat.clusterMap) :
    Op.WalksFrom s (readCall (fun _ => 97) 2048 fun _ => 0).request (clusterNum 3) .read := by
  have hfits := writeCall_fitsRoot (fun _ => 97) 1 (fun _ => 0) (by decide)
  have hm := blankMachine_fresh.firstWrite_reachable hfits (writeCall_folderOk (by decide))
  have hlists := blankMachine_fresh.firstWrite_lists hfits
  have hentry := blankMachine_fresh.firstWrite_entry hfits
  have hdir := blankMachine_fresh.firstWrite_isDirectory hfits
  have hfirst : ((writeCall (fun _ => 97) 1 fun _ => 0).start blankMachine.system).fat = newFat.clusterMap :=
    blankMachine_fresh.fat
  have htable := loopedDisk_table
  generalize blankMachine.firstWrite (writeCall (fun _ => 97) 1 fun _ => 0) = m at *
  have h := hm.sound.represents
  have hroot : tableAt s.disk rootClusterNumber = tableAt m.system.disk rootClusterNumber := by rw [hdisk, htable]
  have he : (tableAt s.disk rootClusterNumber).table 2 =
      ((writeCall (fun _ => 97) 1 fun _ => 0).start blankMachine.system).writtenEntry
        (writeCall (fun _ => 97) 1 fun _ => 0).request 2 := by
    rw [hroot]
    exact hentry
  have hnames : (readCall (fun _ => 97) 2048 fun _ => 0).request.Names m.system.disk (rootClusterNumber, 2) := by
    rw [FAT32DriverRequest.Names, hentry]
    rfl
  have hfound : s.found (readCall (fun _ => 97) 2048 fun _ => 0).request = some 2 :=
    (congrArg (FAT32DirectoryTable.search · _) hroot).trans (h.found_of_names hlists hnames).2
  refine ⟨⟨2, rfl, le_rfl, ?_, ?_⟩, 2, hfound, ?_, ?_, ?_⟩
  · rw [hfat]
    rfl
  · exact (congrArg (fun t : FAT32DirectoryTable => (t.table 0).isDirectory) hroot).trans (h.table _ (Live.root _))
  · exact (congrArg (fun t : FAT32DirectoryTable => (t.table 2).isDirectory) hroot).trans hdir
  · change ¬ (2048 : UInt32) < ((tableAt s.disk rootClusterNumber).table 2).filesize
    rw [he, System.writtenEntry_filesize]
    decide
  · change ((tableAt s.disk rootClusterNumber).table 2).clusterNumber = clusterNum 3
    rw [he, System.writtenEntry_clusterNumber, hfirst, freeCell_newFat]

/-- The walk goes round. -/
theorem looped_cycles : Cycles clusterNum loopedFat.clusterMap (clusterNum 3) := by
  have hself : loopedFat.clusterMap 3 = clusterNum 3 := by simp [loopedFat]
  exact ⟨[3], 3, List.nodup_singleton 3, List.mem_singleton_self 3, .cons (hself ▸ .nil)⟩

/-- A driver, not yet initialised, with `loopedDisk`. -/
def loopedSystem : System where
  memory := fun _ => 0
  disk := loopedDisk
  driverState := ⟨⟨fun _ => 0⟩, ⟨fun _ => .zero⟩⟩
  accesses := []

/-- What comes of `read` of the file of `loopedDisk`. -/
theorem mounted_outcomes_looped :
    (readCall (fun _ => 97) 2048 fun _ => 0).Outcomes (initializeFilesystemFat32 loopedSystem) :=
  (mounted_outcomes (readCall (fun _ => 97) 2048 fun _ => 0) loopedSystem loopedDisk_bootSector (by decide)).2.2

/-- It never returns. -/
theorem looped_read_diverges :
    loopedSystem.disk bootSector = fsSignature ∧
      2 ≤ (readCall (fun _ => 97) 2048 fun _ => 0).request.parentClusterNumber.toNat ∧
      (readCall (fun _ => 97) 2048 fun _ => 0).request.parentClusterNumber.toNat < 512 ∧
      Diverges ((readCall (fun _ => 97) 2048 fun _ => 0).exec · (initializeFilesystemFat32 loopedSystem)) := by
  refine ⟨loopedDisk_bootSector, by decide, by decide, ?_⟩
  obtain ⟨hdisk, hfat⟩ := looped_mounted (s := loopedSystem) rfl
  generalize initializeFilesystemFat32 loopedSystem = m at *
  have hstart : ((readCall (fun _ => 97) 2048 fun _ => 0).start m).fat = loopedFat.clusterMap := hfat
  exact Op.diverges_of_walkCycles (looped_walksFrom hdisk hfat) (hstart ▸ looped_cycles)

end Os2024
