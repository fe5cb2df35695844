import Os2024.Properties.Structure

/-!
# Folders with an extension

`write` compares eleven bytes of name and extension, and creates a folder under any of them. `read_directory` takes a
name of eight bytes and puts three zeros behind it. So a folder is found by its name exactly when it was created
without an extension: `folder_found_iff`. What is found is the folder's current table.
-/

namespace Os2024

/-- Every `read_directory` with the parent and the name answers with the table of the folder in cluster `c`. -/
def FindsFolder (m : Machine) (parent : UInt32) (name : Name) (c : UInt32) : Prop :=
  ∀ (rc : Call) (fuel : Nat), rc.op = .readDirectory → rc.request.parentClusterNumber = parent →
    rc.request.name = name → rc.request.bufferSize = 2048 → ∃ (t : System) (table : FAT32DirectoryTable),
      rc.exec fuel m.system = .ok (0, t) ∧ t.memory = rc.memory.store rc.request.buf table.bytes ∧
        ListsExactly table m.history c

/-- Every `read_directory` with the parent and the name answers that there is no such folder. -/
def MissesFolder (m : Machine) (parent : UInt32) (name : Name) : Prop :=
  ∀ (rc : Call) (fuel : Nat), rc.op = .readDirectory → rc.request.parentClusterNumber = parent →
    rc.request.name = name → rc.request.bufferSize = 2048 →
      ∃ t, rc.exec fuel m.system = .ok (2, t) ∧ t.memory = rc.memory

section Folders

variable {m : Machine} {parent c : UInt32} {name : Name} {ext : Ext} {e : Event} {p : UInt32 × Fin 64}

theorem FindsFolder.not_misses (h : FindsFolder m parent name c) : ¬ MissesFolder m parent name := by
  intro hmiss
  let rc : Call :=
    { op := .readDirectory
      request :=
        { buf := 0
          name := name
          ext := fun _ => 0
          parentClusterNumber := parent
          bufferSize := 2048 }
      memory := fun _ => 0 }
  obtain ⟨t, -, ht, -⟩ := h rc 0 rfl rfl rfl rfl
  obtain ⟨u, hu, -⟩ := hmiss rc 0 rfl rfl rfl rfl
  cases ht.symm.trans hu

/-- A folder without an extension is found, and its table follows the history. -/
theorem Represents.findsFolder (h : Represents m.system.disk m.system.fat (catalog m.history))
    (hp : Lists m.system.disk (catalog m.history) p) (hdir : (entryAt m.system.disk p).isDirectory = true)
    (hext : (entryAt m.system.disk p).ext = fun _ => 0)
    (hlive : Live (catalog m.history) (entryAt m.system.disk p).clusterNumber) :
    FindsFolder m p.1 (entryAt m.system.disk p).name (entryAt m.system.disk p).clusterNumber := by
  intro rc fuel hop hparent hname hsize
  have h' := h.start rc
  have hv := h'.parentValid (s := rc.start m.system) rfl rfl hp.1
  have hnames : FAT32DriverRequest.Names { rc.request with ext := fun _ => 0 } (rc.start m.system).disk p :=
    FAT32DriverRequest.key_eq_iff.mpr ⟨hparent, hname, hext.symm⟩
  obtain ⟨-, hfound⟩ := h'.found_of_names hp hnames
  have hentry : (tableAt (rc.start m.system).disk rc.request.parentClusterNumber).table p.2 =
      entryAt m.system.disk p := by
    rw [hparent]
    rfl
  have hexec := readDirectory_of_found (hparent ▸ hv) hsize hfound (hentry ▸ hdir)
  rw [hentry] at hexec
  refine ⟨((rc.start m.system).loadDirTable rc.request.parentClusterNumber).readToBuf rc.request.buf
    (entryAt m.system.disk p).clusterNumber, tableAt m.system.disk (entryAt m.system.disk p).clusterNumber, ?_, ?_,
    h.listsExactly hlive⟩
  · rw [Call.exec, hop]
    exact hexec
  · rw [System.readToBuf_eq, tableAt, FAT32DirectoryTable.bytes_ofBytes]
    rfl

/-- A name under which every entry has an extension is not found. -/
theorem Represents.missesFolder (h : Represents m.system.disk m.system.fat (catalog m.history))
    (hlive : Live (catalog m.history) parent)
    (hext : ∀ i, (tableAt m.system.disk parent).Occupied i → ((tableAt m.system.disk parent).table i).name = name →
      ((tableAt m.system.disk parent).table i).ext ≠ fun _ => 0) : MissesFolder m parent name := by
  rintro rc fuel hop rfl rfl hsize
  have h' := h.start rc
  have hv := h'.parentValid (s := rc.start m.system) rfl rfl hlive
  have hnone : (tableAt (rc.start m.system).disk rc.request.parentClusterNumber).search
      (identifier rc.request.name fun _ => 0) = none :=
    search_eq_none.mpr fun i hi hid => hext i hi hid.1 hid.2
  refine ⟨(rc.start m.system).loadDirTable rc.request.parentClusterNumber, ?_, rfl⟩
  rw [Call.exec, hop, Op.run, readDirectory_of_valid hv hsize]
  simp only [System.loadDirTable_dirTable, hnone]

/-- **A folder is found by its name** exactly when it has no extension, and otherwise never. -/
theorem folder_found_iff (hm : m.Reachable) (he : PutAndKept m.history parent name ext e)
    (hfolder : e.call.request.bufferSize = 0)
    (honly : ∀ i j, (tableAt m.system.disk parent).Occupied i → (tableAt m.system.disk parent).Occupied j →
      ((tableAt m.system.disk parent).table i).name = name → ((tableAt m.system.disk parent).table j).name = name →
        i = j) :
    (FindsFolder m parent name (firstWritten e.accesses) ↔ ext = fun _ => 0) ∧
      (ext ≠ (fun _ => 0) → MissesFolder m parent name) := by
  have h := hm.sound.represents
  obtain ⟨hparent, hname, hext⟩ := FAT32DriverRequest.key_eq_iff.mp he.key
  obtain ⟨hlive, i, hi, hd⟩ := h.record _ he.record
  have hrecord : (e.call.request.record (firstWritten e.accesses)).folder = true := beq_iff_eq.mpr hfolder
  subst hparent hname hext
  have hmisses : e.call.request.ext ≠ (fun _ => 0) → MissesFolder m e.call.request.parentClusterNumber
      e.call.request.name := by
    intro hne
    refine h.missesFolder hlive fun j hj hn hx => hne ?_
    obtain rfl := honly i j hi hj hd.name hn
    exact hd.ext.symm.trans hx
  refine ⟨⟨fun hfinds => ?_, fun h0 => ?_⟩, hmisses⟩
  · by_contra hne
    exact hfinds.not_misses (hmisses hne)
  · have hfinds := h.findsFolder (p := (e.call.request.parentClusterNumber, i)) ⟨hlive, hi⟩ (hd.folder hrecord)
      (hd.ext.trans h0) (hd.first ▸ .inr ⟨_, he.record, hrecord, rfl⟩)
    have hfirst : (entryAt m.system.disk (e.call.request.parentClusterNumber, i)).clusterNumber =
        firstWritten e.accesses := hd.first
    have hname : (entryAt m.system.disk (e.call.request.parentClusterNumber, i)).name = e.call.request.name := hd.name
    rwa [hfirst, hname] at hfinds

/-! ## A first folder -/

/-- The creation of the folder `name` with the extension `ext`. -/
def mkdirExtCall (name : Name) (ext : Ext) : Call :=
  { mkdirCall name with request := { (mkdirCall name).request with ext := ext } }

theorem mkdirExtCall_fitsRoot (name : Name) (ext : Ext) : (mkdirExtCall name ext).FitsRoot :=
  ⟨rfl, rfl, (mkdirCall_fitsRoot name).count⟩

theorem mkdirExtCall_folderOk (name : Name) (ext : Ext) : (mkdirExtCall name ext).FolderOk := mkdirCall_folderOk name

/-- The root lists the first folder alone. -/
theorem Machine.Fresh.occupied_firstWrite {call : Call} {i : Fin 64} (h : m.Fresh) (hc : call.FitsRoot)
    (hi : (tableAt (m.firstWrite call).system.disk rootClusterNumber).Occupied i) : i = 2 := by
  have htable := (h.canWrite hc).written_parent
  rw [System.writtenTable, show tableAt (call.start m.system).disk call.request.parentClusterNumber =
    newRootDirectoryTable from h.parent_table hc, hc.root] at htable
  by_contra hne
  have hocc := hi.2
  rw [show tableAt (m.firstWrite call).system.disk rootClusterNumber = _ from htable,
    FAT32DirectoryTable.set_table_of_ne hne, newRootDirectoryTable_isEmpty.2 i hi.1] at hocc
  cases hocc

theorem Call.FitsRoot.putAndKept {call : Call} (hc : call.FitsRoot) :
    PutAndKept (m.firstWrite call).history rootClusterNumber call.request.name call.request.ext
      ⟨call, 0, (m.firstWrite call).system.memory, (m.firstWrite call).system.accesses⟩ :=
  ⟨[], m.history, rfl, ⟨hc.op, rfl, FAT32DriverRequest.key_eq_iff.mpr ⟨hc.root, rfl, rfl⟩⟩, by simp⟩

/-- A folder without an extension. -/
theorem folder_found_without_ext :
    FindsFolder (blankMachine.firstWrite (mkdirExtCall (fun _ => 98) fun _ => 0)) rootClusterNumber (fun _ => 98)
      (firstWritten (blankMachine.firstWrite (mkdirExtCall (fun _ => 98) fun _ => 0)).system.accesses) := by
  have hfits := mkdirExtCall_fitsRoot (fun _ => 98) fun _ => 0
  have hfresh := blankMachine_fresh
  generalize blankMachine = m at hfresh ⊢
  exact (folder_found_iff (hfresh.firstWrite_reachable hfits (mkdirExtCall_folderOk _ _))
    (hfits.putAndKept) rfl fun i j hi hj _ _ =>
      (hfresh.occupied_firstWrite hfits hi).trans (hfresh.occupied_firstWrite hfits hj).symm).1.mpr rfl

/-- A folder with the extension `1 1 1` is created, kept, and not found. -/
theorem folder_missed_with_ext :
    ∃ (m : Machine) (e : Event), m.Reachable ∧ PutAndKept m.history rootClusterNumber (fun _ => 98) (fun _ => 1) e ∧
      e.call.request.bufferSize = 0 ∧
      (∀ i j, (tableAt m.system.disk rootClusterNumber).Occupied i →
        (tableAt m.system.disk rootClusterNumber).Occupied j → i = j) ∧
      ¬ FindsFolder m rootClusterNumber (fun _ => 98) (firstWritten e.accesses) := by
  have hfits := mkdirExtCall_fitsRoot (fun _ => 98) fun _ => 1
  have hfresh := blankMachine_fresh
  generalize blankMachine = m at hfresh
  have hreach := hfresh.firstWrite_reachable hfits (mkdirExtCall_folderOk _ _)
  refine ⟨_, _, hreach, hfits.putAndKept, rfl, fun i j hi hj =>
    (hfresh.occupied_firstWrite hfits hi).trans (hfresh.occupied_firstWrite hfits hj).symm, fun hfinds => ?_⟩
  have h := hreach.sound.represents
  refine hfinds.not_misses (h.missesFolder (Live.root _) fun i hi _ => ?_)
  obtain rfl := hfresh.occupied_firstWrite hfits hi
  have hentry := hfresh.firstWrite_entry hfits
  rw [show ((tableAt (m.firstWrite (mkdirExtCall (fun _ => 98) fun _ => 1)).system.disk rootClusterNumber).table 2) = _
    from hentry, System.writtenEntry_ext]
  exact fun he => absurd (congrFun he 0) (by decide)

end Folders

end Os2024
