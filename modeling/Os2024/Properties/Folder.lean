import Os2024.Fat32.Fresh

/-!
# New folders

`write` with `buffer_size` `0` stores the cluster at `buf` and nothing else in the new folder: it never calls
`init_directory_table`. So the folder is usable exactly when memory happens to hold a proper table there, and, because
`read_directory` looks for a name without extension, the folder has none (`folder_usable_iff`, for any state).
-/

namespace Os2024

open LinkTable Scan

/-- What `init_directory_table` makes, as far as anyone looks: an empty table whose entry `0` names the folder and whose
entry `1` is `..` with the number of the parent. -/
structure ProperTable (t : FAT32DirectoryTable) (name : Name) (parent : UInt32) : Prop where
  name : (t.table 0).name = name
  isDirectory : (t.table 0).isDirectory = true
  dotDot : (t.table 1).name = dotDot
  parent : (t.table 1).clusterNumber = parent
  empty : ∀ i, ¬ t.Occupied i

/-- The folder `request` has just created in cluster `c` can be used. -/
structure UsableFolder (s : System) (request : FAT32DriverRequest) (c : UInt32) : Prop where
  table : ProperTable (tableAt s.disk c) request.name request.parentClusterNumber
  parent : ∀ call : Call, call.op ≠ .readDirectory → call.request.parentClusterNumber = c →
    ∃ code t, call.exec 512 s = .ok (code, t) ∧ code ≠ call.op.invalidParent
  listed : ∀ call : Call, call.op = .readDirectory →
    call.request.parentClusterNumber = request.parentClusterNumber → call.request.name = request.name →
    call.request.bufferSize = 2048 → ∃ t, call.exec 512 s = .ok (0, t) ∧
      t.accesses = [.read request.parentClusterNumber, .read c] ∧
      t.memory = call.memory.store call.request.buf (readCluster s.disk c)
  deletable : ∀ call : Call, call.op = .delete → call.request.key = request.key → ∃ t, call.exec 512 s = .ok (0, t)

/-- What `read_directory` finds under a name. -/
abbrev FAT32DirectoryTable.searchName (t : FAT32DirectoryTable) (name : Name) : Option (Fin 64) :=
  t.search (identifier name fun _ => 0)

/-! ## The new folder -/

section Folders

variable {s s' : System} {call : Call} {request : FAT32DriverRequest} {i : Fin 64} {fuel : Nat}

namespace CanWrite

variable (h : CanWrite s request i) (hsize : request.bufferSize = 0)
include h hsize

/-- The cluster of a new folder is a copy of the one at `buf`. -/
theorem written_folder : readCluster (s.written request i).disk (clusterNum (freeCell s.fat 0)) =
    request.chunk s.memory 0 := by
  have hcount := FAT32DriverRequest.clusterCount_of_zero hsize
  have hdata := h.written_freeCell (k := 0) (by omega)
  rwa [hcount] at hdata

theorem folder_chain : FatChain (s.written request i).fat (clusterNum (freeCell s.fat 0)) [freeCell s.fat 0] := by
  have hchain := h.chain
  rw [h.writtenCells_eq_map, FAT32DriverRequest.clusterCount_of_zero hsize] at hchain
  exact hchain

/-- A request with the new folder as its parent passes the parent checks, if the table starts with a folder's entry. -/
theorem parentValid_folder
    (hdir : ((FAT32DirectoryTable.ofBytes (request.chunk s.memory 0)).table 0).isDirectory = true) :
    ParentValid (s.written request i) (clusterNum (freeCell s.fat 0)) := by
  have hlast := h.last_lt
  refine ⟨freeCell s.fat 0, rfl, two_le_freeCell (by omega), (h.folder_chain hsize).tail.start_nil, ?_⟩
  rwa [tableAt, h.written_folder hsize]

/-- A new folder whose table lists nothing can be deleted. -/
theorem exec_delete_folder (hempty : ∀ j, ¬ (FAT32DirectoryTable.ofBytes (request.chunk s.memory 0)).Occupied j)
    {rc : Call} (hop : rc.op = .delete) (hkey : rc.request.key = request.key) :
    ∃ t, rc.exec 512 (s.written request i) = .ok (0, t) := by
  have hcan : CanDelete (rc.start (s.written request i)) rc.request i (s.writtenCells request) := by
    refine h.canDelete_written rfl rfl hkey fun _ => ?_
    rw [tableAt, h.written_folder hsize]
    exact anyOccupied_eq_false.mpr hempty
  exact ⟨_, Call.exec_delete hop hcan⟩

/-- What `read_directory` answers about the name of a new folder. -/
theorem exec_readDirectory_folder (rc : Call) (hop : rc.op = .readDirectory)
    (hparent : rc.request.parentClusterNumber = request.parentClusterNumber) (hname : rc.request.name = request.name)
    (hbuf : rc.request.bufferSize = 2048) :
    (∃ t, rc.exec 512 (s.written request i) = .ok (0, t) ∧
      t.accesses = [.read request.parentClusterNumber, .read (clusterNum (freeCell s.fat 0))] ∧
      t.memory = rc.memory.store rc.request.buf
        (readCluster (s.written request i).disk (clusterNum (freeCell s.fat 0)))) ↔
      request.ext = (fun _ => 0) ∨
        ∃ j, (tableAt s.disk request.parentClusterNumber).searchName request.name = some j ∧
          ((tableAt s.disk request.parentClusterNumber).table j).isDirectory = true ∧
          ((tableAt s.disk request.parentClusterNumber).table j).clusterNumber = clusterNum (freeCell s.fat 0) := by
  have hv : ParentValid (rc.start (s.written request i)) rc.request.parentClusterNumber :=
    hparent ▸ h.parentValid_written
  have htable : tableAt (rc.start (s.written request i)).disk rc.request.parentClusterNumber =
      s.writtenTable request i := hparent ▸ h.written_parent
  rw [Call.exec, hop, Op.run, readDirectory_of_valid hv hbuf]
  dsimp only
  rw [System.loadDirTable_dirTable, htable, hname]
  by_cases hext : request.ext = fun _ => 0
  · have hfound : (s.writtenTable request i).search (identifier request.name fun _ => 0) = some i := by
      rw [← hext, ← h.written_parent]
      exact h.found_written
    have hself : (s.writtenTable request i).table i = s.writtenEntry request i :=
      FAT32DirectoryTable.set_table_self _ _ _
    rw [hfound]
    dsimp only
    rw [hself, System.writtenEntry_isDirectory_folder s i hsize, System.writtenEntry_clusterNumber,
      System.readToBuf_eq, ← hparent]
    exact ⟨fun _ => .inl hext, fun _ => ⟨_, rfl, rfl, rfl⟩⟩
  · have hsearch : (s.writtenTable request i).search (identifier request.name fun _ => 0) =
        (tableAt s.disk request.parentClusterNumber).searchName request.name :=
      search_set (emptyEntry_eq_some h.emptyEntry).2 fun _ hid => hext hid.2
    rw [hsearch]
    cases hs : (tableAt s.disk request.parentClusterNumber).searchName request.name with
    | none => simp [hext]
    | some j =>
      have hji : j ≠ i := by
        rintro rfl
        have hocc := (search_eq_some hs).1.2
        rw [(emptyEntry_eq_some h.emptyEntry).2] at hocc
        cases hocc
      have hself : (s.writtenTable request i).table j = (tableAt s.disk request.parentClusterNumber).table j :=
        FAT32DirectoryTable.set_table_of_ne hji
      dsimp only
      rw [hself]
      cases hd : ((tableAt s.disk request.parentClusterNumber).table j).isDirectory with
      | false => simp [hext, hd]
      | true =>
        simp only [Bool.not_true, Bool.false_eq_true, if_false, System.readToBuf_eq, hext, false_or, Option.some.injEq,
          exists_eq_left', hd, true_and]
        constructor
        · rintro ⟨t, ht, hacc, -⟩
          cases ht
          rw [hparent] at hacc
          simpa [Call.start, System.loadDirTable_eq] using hacc
        · intro hc
          rw [hc, ← hparent]
          exact ⟨_, rfl, rfl, rfl⟩

/-- The parent checks of a new folder. -/
theorem exec_parent_folder (ht : (FAT32DirectoryTable.ofBytes (request.chunk s.memory 0)).IsEmpty) {rc : Call}
    (hop : rc.op ≠ .readDirectory) (hparent : rc.request.parentClusterNumber = clusterNum (freeCell s.fat 0)) :
    ∃ code t, rc.exec 512 (s.written request i) = .ok (code, t) ∧ code ≠ rc.op.invalidParent := by
  have hv : ParentValid (rc.start (s.written request i)) rc.request.parentClusterNumber :=
    hparent ▸ h.parentValid_folder hsize ht.1
  have htable : tableAt (rc.start (s.written request i)).disk rc.request.parentClusterNumber =
      FAT32DirectoryTable.ofBytes (request.chunk s.memory 0) := by
    rw [hparent]
    exact congrArg _ (h.written_folder hsize)
  have hnone : (tableAt (rc.start (s.written request i)).disk rc.request.parentClusterNumber).search
      (identifier rc.request.name rc.request.ext) = none := by
    rw [htable]
    exact search_eq_none.mpr fun j hj => absurd hj.2 (by rw [ht.2 j hj.1]; exact Bool.false_ne_true)
  rw [Call.exec]
  cases ho : rc.op with
  | read =>
    refine ⟨3, (rc.start (s.written request i)).loadDirTable rc.request.parentClusterNumber, ?_, by decide⟩
    rw [Op.run, read_of_valid hv]
    dsimp only
    rw [System.loadDirTable_dirTable, hnone]
  | readDirectory => exact absurd ho hop
  | write =>
    rcases write_returns hv.lt (le_refl 512) with ⟨code, t, hw, -⟩ | ⟨j, -, hw⟩
    · exact ⟨code, t, hw, write_ne_two hv hw⟩
    · exact ⟨0, _, hw, write_ne_two hv hw⟩
  | delete =>
    refine ⟨1, (rc.start (s.written request i)).loadDirTable rc.request.parentClusterNumber, ?_, by decide⟩
    rw [Op.run, delete_of_valid hv]
    dsimp only
    rw [System.loadDirTable_dirTable, hnone]

end CanWrite

/-- **A new folder is usable** exactly when memory holds a proper table at `buf` and `read_directory` can name it. -/
theorem folder_usable_iff (hop : call.op = .write) (hsize : call.request.bufferSize = 0)
    (hexec : call.exec fuel s = .ok (0, s')) :
    UsableFolder s' call.request (firstWritten s'.accesses) ↔
      ProperTable (.ofBytes (call.request.chunk call.memory 0)) call.request.name call.request.parentClusterNumber ∧
      (call.request.ext = (fun _ => 0) ∨
        ∃ j, (tableAt s.disk call.request.parentClusterNumber).searchName call.request.name = some j ∧
          ((tableAt s.disk call.request.parentClusterNumber).table j).isDirectory = true ∧
          ((tableAt s.disk call.request.parentClusterNumber).table j).clusterNumber =
            clusterNum (freeCell s.fat 0)) := by
  obtain ⟨i, hw, rfl⟩ := Call.exec_write_ok hop hexec
  have hfirst : firstWritten ((call.start s).written call.request i).accesses =
      clusterNum (freeCell (call.start s).fat 0) := System.firstWritten_written rfl
  have htable : tableAt ((call.start s).written call.request i).disk (clusterNum (freeCell (call.start s).fat 0)) =
      .ofBytes (call.request.chunk call.memory 0) := congrArg _ (hw.written_folder hsize)
  rw [hfirst]
  constructor
  · rintro ⟨ht, -, hl, -⟩
    rw [htable] at ht
    refine ⟨ht, ?_⟩
    let rc : Call := ⟨.readDirectory, { call.request with bufferSize := 2048 }, call.memory⟩
    exact (hw.exec_readDirectory_folder hsize rc rfl rfl rfl rfl).mp (hl rc rfl rfl rfl rfl)
  · rintro ⟨ht, hname⟩
    refine ⟨htable ▸ ht, fun rc hrc hp => hw.exec_parent_folder hsize ⟨ht.isDirectory, fun j hj => ?_⟩ hrc hp,
      fun rc hrc hp hn hb => (hw.exec_readDirectory_folder hsize rc hrc hp hn hb).mpr hname,
      fun rc hrc hk => hw.exec_delete_folder hsize ht.empty hrc hk⟩
    exact Bool.eq_false_iff.mpr fun ho => ht.empty j ⟨hj, ho⟩

/-- `init_directory_table` makes proper tables. -/
theorem initDirectoryTable_proper (name : Name) (parent : UInt32) :
    ProperTable (initDirectoryTable name parent) name parent where
  name := rfl
  isDirectory := rfl
  dotDot := rfl
  parent := FAT32DirectoryEntry.clusterNumber_setCluster
    { FAT32DirectoryEntry.zero with
      name := dotDot
      attr := attrSubdirectory
      userAttribute := uattrNotEmpty } parent
  empty := fun i hi => by
    have hocc := hi.2
    rw [(initDirectoryTable_isEmpty name parent).2 i hi.1] at hocc
    cases hocc

/-- A folder created from such a table. -/
theorem folder_usable_mkdir :
    UsableFolder (((mkdirCall fun _ => 98).start blankMachine.system).written (mkdirCall fun _ => 98).request 2)
      (mkdirCall fun _ => 98).request
      (firstWritten (((mkdirCall fun _ => 98).start blankMachine.system).written
        (mkdirCall fun _ => 98).request 2).accesses) := by
  refine (folder_usable_iff rfl rfl (blankMachine_fresh.exec_write (mkdirCall_fitsRoot _))).mpr ⟨?_, .inl rfl⟩
  rw [mkdirCall_table]
  exact initDirectoryTable_proper (fun _ => 98) rootClusterNumber

/-- `mkdir` passes address `0`; with zeros there the new folder is not usable. -/
theorem folder_unusable_mkdir :
    blankMachine.Reachable ∧ Live (catalog blankMachine.history) rootClusterNumber ∧
      (writeCall (fun _ => 98) 0 fun _ => 0).exec 512 blankMachine.system = .ok (0,
        ((writeCall (fun _ => 98) 0 fun _ => 0).start blankMachine.system).written
          (writeCall (fun _ => 98) 0 fun _ => 0).request 2) ∧
      ¬ UsableFolder
        (((writeCall (fun _ => 98) 0 fun _ => 0).start blankMachine.system).written
          (writeCall (fun _ => 98) 0 fun _ => 0).request 2)
        (writeCall (fun _ => 98) 0 fun _ => 0).request
        (firstWritten (((writeCall (fun _ => 98) 0 fun _ => 0).start blankMachine.system).written
          (writeCall (fun _ => 98) 0 fun _ => 0).request 2).accesses) := by
  have hfits := writeCall_fitsRoot (fun _ => 98) 0 (fun _ => 0) (by decide)
  have hw := blankMachine_fresh.canWrite hfits
  refine ⟨⟨blankMachine, blankMachine_fresh, .refl⟩, Live.root _, blankMachine_fresh.exec_write hfits, fun h => ?_⟩
  have hdir := h.table.isDirectory
  rw [System.firstWritten_written rfl, tableAt, hw.written_folder rfl] at hdir
  exact absurd hdir (show ¬ ((FAT32DirectoryTable.ofBytes fun _ => 0).table 0).isDirectory = true by decide)

end Folders

end Os2024
