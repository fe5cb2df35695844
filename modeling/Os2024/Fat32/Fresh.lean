import Mathlib.Order.Interval.Finset.Fin
import Os2024.Fat32.Runs

/-!
# The first write

A freshly created file system has `509` free cells and takes any `write` to the root that fits them
(`Machine.Fresh.exec_write`), and another one behind it (`Machine.Fresh.canWrite_next`).
-/

namespace Os2024

open LinkTable Scan

variable {m : Machine} {call : Call}

theorem mem_freeCells_newFat {c : Fin 512} : c ∈ freeCells newFat.clusterMap ↔ 3 ≤ c.val := by
  rw [mem_freeCells]
  constructor
  · rintro ⟨h2, he⟩
    refine Nat.lt_of_le_of_ne h2 fun hne => ?_
    obtain rfl : c = 2 := Fin.ext hne.symm
    exact absurd he (by decide)
  · intro h3
    refine ⟨by omega, by_contra fun he => ?_⟩
    rcases noLeak_fresh c he with h | ⟨r, hr, -⟩
    · omega
    · cases hr

theorem length_freeCells_newFat : (freeCells newFat.clusterMap).length = 509 := by
  have hset : (freeCells newFat.clusterMap).toFinset = Finset.Ici (3 : Fin 512) := by
    ext c
    simp only [List.mem_toFinset, mem_freeCells_newFat, Finset.mem_Ici]
    rfl
  rw [← List.toFinset_card_of_nodup (freeCells_nodup _), hset, Fin.card_Ici]
  rfl

theorem freeCell_newFat : freeCell newFat.clusterMap 0 = 3 := by
  have hmem : freeCell newFat.clusterMap 0 ∈ freeCells newFat.clusterMap :=
    freeCell_mem (by rw [length_freeCells_newFat]; omega)
  have h3 : (3 : Fin 512) ∈ freeCells newFat.clusterMap := mem_freeCells_newFat.mpr (by decide)
  exact le_antisymm (freeCell_zero_le h3) (Fin.le_def.mpr (mem_freeCells_newFat.mp hmem))

theorem newRootDirectoryTable_emptyEntry : newRootDirectoryTable.emptyEntry = some 2 := by
  refine firstFrom_eq_some.mpr ⟨le_rfl, by rw [newRootDirectoryTable_isEmpty.2 2 le_rfl]; rfl, fun j hj hlt => ?_⟩
  omega

theorem Machine.Fresh.fat (h : m.Fresh) : m.system.fat = newFat.clusterMap := by
  obtain ⟨s, he, rfl⟩ := h
  simp [initializeFilesystemFat32, he]

theorem Machine.Fresh.history (h : m.Fresh) : m.history = [] := by
  obtain ⟨s, -, rfl⟩ := h
  rfl

theorem Machine.Fresh.countAvailable (h : m.Fresh) : m.system.countAvailable = 509 := by
  rw [countAvailable_eq, h.fat, length_freeCells_newFat]

/-- A `write` to the root of at most as many clusters as a fresh file system has free. -/
structure Call.FitsRoot (call : Call) : Prop where
  op : call.op = .write
  root : call.request.parentClusterNumber = rootClusterNumber
  count : call.request.clusterCount ≤ 509

/-- The machine after such a `write`: it takes entry `2` of the root. -/
def Machine.firstWrite (m : Machine) (call : Call) : Machine :=
  m.after call 0 ((call.start m.system).written call.request 2)

namespace Machine.Fresh

variable (h : m.Fresh)
include h

theorem root_table : tableAt m.system.disk rootClusterNumber = newRootDirectoryTable := by
  obtain ⟨s, he, rfl⟩ := h
  simp only [initializeFilesystemFat32, he, if_true, tableAt_createFat32_root]

variable (hc : call.FitsRoot)
include hc

theorem parent_table : tableAt m.system.disk call.request.parentClusterNumber = newRootDirectoryTable :=
  hc.root ▸ h.root_table

theorem canWrite : CanWrite (call.start m.system) call.request 2 := by
  have hfat : (call.start m.system).fat = newFat.clusterMap := h.fat
  have htable : tableAt (call.start m.system).disk call.request.parentClusterNumber = newRootDirectoryTable :=
    h.parent_table hc
  refine ⟨h.sound.represents.parentValid rfl rfl (hc.root ▸ Live.root _), ?_, ?_, ?_⟩
  · rw [htable]
    exact search_eq_none.mpr fun i hi => absurd hi.2 (by simp [newRootDirectoryTable_isEmpty.2 i hi.1])
  · rw [htable, newRootDirectoryTable_emptyEntry]
  · rw [hfat, length_freeCells_newFat]
    exact hc.count

theorem exec_write : call.exec 512 m.system = .ok (0, (call.start m.system).written call.request 2) :=
  Call.exec_write hc.op (h.canWrite hc)

theorem reaches_firstWrite (hfolder : call.FolderOk) : Reaches Allowed m (m.firstWrite call) :=
  .single (.call ⟨hc.root ▸ Live.root _, hfolder⟩ (h.exec_write hc))

theorem firstWrite_reachable (hfolder : call.FolderOk) : (m.firstWrite call).Reachable :=
  ⟨m, h, h.reaches_firstWrite hc hfolder⟩

theorem firstWrite_entry : entryAt (m.firstWrite call).system.disk (rootClusterNumber, 2) =
    (call.start m.system).writtenEntry call.request 2 := by
  have htable := (h.canWrite hc).written_parent
  rw [hc.root] at htable
  exact (congrArg (fun t : FAT32DirectoryTable => t.table 2) htable).trans (FAT32DirectoryTable.set_table_self _ _ _)

theorem writtenEntry_isDirectory :
    ((call.start m.system).writtenEntry call.request 2).isDirectory = (call.request.bufferSize == 0) := by
  have htable : tableAt (call.start m.system).disk call.request.parentClusterNumber = newRootDirectoryTable :=
    h.parent_table hc
  have hzero : (newRootDirectoryTable.table 2).isDirectory = false := by decide
  rw [System.writtenEntry_isDirectory, htable, hzero, Bool.or_false]

theorem firstWrite_isDirectory :
    (entryAt (m.firstWrite call).system.disk (rootClusterNumber, 2)).isDirectory = (call.request.bufferSize == 0) := by
  rw [h.firstWrite_entry hc, h.writtenEntry_isDirectory hc]

theorem firstWrite_lists :
    Lists (m.firstWrite call).system.disk (catalog (m.firstWrite call).history) (rootClusterNumber, 2) :=
  ⟨Live.root _, le_rfl, congrArg FAT32DirectoryEntry.occupied (h.firstWrite_entry hc)⟩

/-- A first file, or a first folder that lists nothing, can be deleted. -/
theorem canDelete_firstWrite {d : Call} (hkey : d.request.key = call.request.key)
    (hempty : call.request.bufferSize = 0 →
      (tableAt (m.firstWrite call).system.disk (clusterNum (freeCell m.system.fat 0))).anyOccupied = false) :
    CanDelete (d.start (m.firstWrite call).system) d.request 2 ((call.start m.system).writtenCells call.request) := by
  refine (h.canWrite hc).canDelete_written rfl rfl hkey fun hd => hempty ?_
  rw [h.writtenEntry_isDirectory hc] at hd
  exact beq_iff_eq.mp hd

/-- A first file or folder of one cluster is in cluster `3`. -/
theorem firstWrite_chain (hone : call.request.clusterCount = 1) :
    FatChain (m.firstWrite call).system.fat (clusterNum 3) [3] := by
  have hw := h.canWrite hc
  have hfirst : freeCell (call.start m.system).fat 0 = 3 := (congrArg (freeCell · 0) h.fat).trans freeCell_newFat
  have hchain := hw.chain
  have hlen := hw.length_writtenCells
  rw [hone] at hlen
  obtain ⟨c, hcell⟩ := List.length_eq_one_iff.mp hlen
  have hcons := hw.writtenCells_eq_cons
  rw [hcell, hfirst] at hcons
  obtain rfl := (List.cons.inj hcons).1
  rwa [hcell, hfirst] at hchain

theorem firstWrite_table : tableAt (m.firstWrite call).system.disk rootClusterNumber =
    newRootDirectoryTable.set 2 ((call.start m.system).writtenEntry call.request 2) := by
  have htable := (h.canWrite hc).written_parent
  rw [hc.root, System.writtenTable, ← hc.root, show tableAt (call.start m.system).disk _ = _ from h.parent_table hc]
    at htable
  rw [← hc.root]
  exact htable

/-- What is written to the root next, under another name, takes entry `3`. -/
theorem canWrite_next (next : Call) (hfolder : call.FolderOk)
    (hroot : next.request.parentClusterNumber = rootClusterNumber) (hkey : next.request.key ≠ call.request.key)
    (hroom : next.request.clusterCount + (call.request.clusterCount + 1) / 2 ≤ 509) :
    CanWrite (next.start (m.firstWrite call).system) next.request 3 := by
  have hdisk : (next.start (m.firstWrite call).system).disk = (m.firstWrite call).system.disk := rfl
  have hfree : (freeCells (next.start (m.firstWrite call).system).fat).length + (call.request.clusterCount + 1) / 2 =
      509 := (h.canWrite hc).length_freeCells_written.trans h.countAvailable
  have hother : ∀ j : Fin 64, 2 ≤ j.val → j ≠ 2 →
      ((tableAt (m.firstWrite call).system.disk rootClusterNumber).table j).occupied = false := by
    intro j hj hne
    rw [h.firstWrite_table hc, FAT32DirectoryTable.set_table_of_ne hne]
    exact newRootDirectoryTable_isEmpty.2 j hj
  refine ⟨(h.firstWrite_reachable hc hfolder).sound.represents.parentValid rfl rfl (hroot ▸ Live.root _), ?_, ?_,
    by omega⟩
  · rw [hroot, hdisk, search_eq_none]
    rintro j ⟨hj, ho⟩ ⟨hname, hext⟩
    obtain rfl : j = 2 := by_contra fun hne => Bool.false_ne_true ((hother j hj hne).symm.trans ho)
    rw [h.firstWrite_table hc, FAT32DirectoryTable.set_table_self] at hname hext
    exact hkey (FAT32DriverRequest.key_eq_iff.mpr ⟨hroot.trans hc.root.symm, hname.symm, hext.symm⟩)
  · rw [hroot, hdisk]
    refine firstFrom_eq_some.mpr ⟨by decide, by rw [hother 3 (by decide) (by decide)]; rfl, fun j hj hlt => ?_⟩
    have hlt : j.val < 3 := hlt
    obtain rfl : j = 2 := Fin.ext (show j.val = 2 by omega)
    rw [h.firstWrite_table hc, FAT32DirectoryTable.set_table_self]
    rfl

end Machine.Fresh

/-! ## A disk of zeros -/

/-- A disk of zeros, mounted. -/
def blankMachine : Machine where
  system := initializeFilesystemFat32
    { memory := fun _ => 0
      disk := fun _ _ => 0
      driverState := ⟨⟨fun _ => 0⟩, ⟨fun _ => .zero⟩⟩
      accesses := [] }
  history := []

theorem blankMachine_fresh : blankMachine.Fresh := by
  refine ⟨_, ?_, rfl⟩
  by_contra h
  have hboot := isEmptyStorage_eq_false.mp (Bool.eq_false_iff.mpr h)
  exact absurd (congrFun hboot 0) (by decide)

/-- A `write` of `bufferSize` bytes at address `0` to the name `name` in the root. -/
def writeCall (name : Name) (bufferSize : UInt32) (memory : Memory) : Call where
  op := .write
  request :=
    { buf := 0
      name := name
      ext := fun _ => 0
      parentClusterNumber := rootClusterNumber
      bufferSize := bufferSize }
  memory := memory

/-- A `read` of the name `name` in the root, to address `0`. -/
def readCall (name : Name) (bufferSize : UInt32) (memory : Memory) : Call where
  op := .read
  request :=
    { buf := 0
      name := name
      ext := fun _ => 0
      parentClusterNumber := rootClusterNumber
      bufferSize := bufferSize }
  memory := memory

/-- A `delete` of the name `name` in the root. -/
def deleteCall (name : Name) : Call where
  op := .delete
  request :=
    { buf := 0
      name := name
      ext := fun _ => 0
      parentClusterNumber := rootClusterNumber
      bufferSize := 0 }
  memory := fun _ => 0

/-- The creation of the folder `name` in the root, with a table made by `init_directory_table` at address `0`. -/
def mkdirCall (name : Name) : Call :=
  writeCall name 0 (Memory.store (fun _ => 0) 0 (initDirectoryTable name rootClusterNumber).bytes)

theorem initDirectoryTable_isEmpty (name : Name) (parent : UInt32) : (initDirectoryTable name parent).IsEmpty := by
  refine ⟨rfl, fun i hi => ?_⟩
  have h0 : i ≠ 0 := fun h => absurd (h ▸ hi) (by decide)
  have h1 : i ≠ 1 := fun h => absurd (h ▸ hi) (by decide)
  simp only [initDirectoryTable, if_neg h0, if_neg h1]
  decide

theorem mkdirCall_table (name : Name) :
    .ofBytes ((mkdirCall name).request.chunk (mkdirCall name).memory 0) = initDirectoryTable name rootClusterNumber :=
  (congrArg FAT32DirectoryTable.ofBytes (Memory.load_store (by decide))).trans
    (FAT32DirectoryTable.ofBytes_bytes _)

theorem mkdirCall_folderOk (name : Name) : (mkdirCall name).FolderOk := by
  intro _ _
  rw [mkdirCall_table]
  exact initDirectoryTable_isEmpty name rootClusterNumber

theorem writeCall_folderOk {name : Name} {bufferSize : UInt32} {memory : Memory} (h : bufferSize ≠ 0) :
    (writeCall name bufferSize memory).FolderOk := fun _ h0 => absurd h0 h

theorem writeCall_fitsRoot (name : Name) (bufferSize : UInt32) (memory : Memory) (h : bufferSize.toNat < 509 * 2048) :
    (writeCall name bufferSize memory).FitsRoot := by
  refine ⟨rfl, rfl, ?_⟩
  change bufferSize.toNat / 2048 + 1 ≤ 509
  omega

theorem deleteCall_folderOk (name : Name) : (deleteCall name).FolderOk := fun hop => by cases hop

theorem mkdirCall_fitsRoot (name : Name) : (mkdirCall name).FitsRoot := writeCall_fitsRoot name 0 _ (by decide)

end Os2024
