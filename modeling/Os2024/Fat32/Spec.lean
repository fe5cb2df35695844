import Os2024.Fat32.Alloc
import Os2024.Fat32.Walk

/-!
# What the operations do

One equation for each operation and each outcome, for any state of the driver:

* `openParent_of_valid`, `openParent_of_not_valid`, `openParent_of_le`: the parent checks;
* `read_of_valid`, `readDirectory_of_valid`: the answers of the two readers;
* `write_of_canWrite`, `write_cases`: a `write` that returns `0` has done `System.written`, and any other changes
  neither the disk nor the FAT;
* `delete_of_canDelete`, `delete_cases`: the same for `delete`, when the chain of the entry ends.
-/

namespace Os2024

open LinkTable Scan

/-- The parent checks succeed: an end mark in the cell and a folder's entry `0` in the cluster. -/
def ParentValid (s : System) (parent : UInt32) : Prop :=
  ∃ p : Fin 512, parent = clusterNum p ∧ 2 ≤ p.val ∧ s.fat p = fat32FatEndOfFile ∧
    ((tableAt s.disk parent).table 0).isDirectory = true

/-- `s'` has the disk and the FAT of `s`, and nothing was written on the way. -/
structure System.Kept (s s' : System) : Prop where
  disk : s'.disk = s.disk
  fat : s'.fat = s.fat
  accesses : ∃ reads : List UInt32, s'.accesses = s.accesses ++ reads.map .read

/-! ## The parent checks -/

section Parent

variable {s : System} {parent : UInt32}

theorem System.Kept.refl (s : System) : s.Kept s := ⟨rfl, rfl, [], by simp⟩

theorem System.Kept.load {s' : System} (h : s.Kept s') (c : UInt32) : s.Kept (s'.loadDirTable c) := by
  obtain ⟨reads, hr⟩ := h.accesses
  exact ⟨h.disk, h.fat, reads ++ [c], by simp [System.loadDirTable_eq, hr]⟩

theorem System.Kept.readToBuf {s' : System} (h : s.Kept s') (buf c : UInt32) : s.Kept (s'.readToBuf buf c) := by
  obtain ⟨reads, hr⟩ := h.accesses
  exact ⟨h.disk, h.fat, reads ++ [c], by simp [System.readToBuf_eq, hr]⟩

theorem ParentValid.not_lt_two (h : ParentValid s parent) : ¬ parent < 2 := by
  obtain ⟨p, rfl, h2, -⟩ := h
  rw [clusterNum_lt_two_iff]
  omega

/-- Whether a parent is valid depends on the disk and the FAT only. -/
theorem ParentValid.of_same {t : System} (hdisk : t.disk = s.disk) (hfat : t.fat = s.fat) (h : ParentValid s parent) :
    ParentValid t parent := by
  obtain ⟨p, hp, h2, hend, hdir⟩ := h
  exact ⟨p, hp, h2, hfat ▸ hend, hdisk ▸ hdir⟩

theorem openParent_of_valid (h : ParentValid s parent) :
    openParent parent s = .ok (true, s.loadDirTable parent) := by
  obtain ⟨p, rfl, -, hend, hdir⟩ := h
  simp [openParent, System.clusterMap_clusterNum, hend, hdir, pure, Except.pure, bind, Except.bind]

/-- `s'` is `s`, or what loading the table of `parent` makes of it. -/
def System.Opened (s s' : System) (parent : UInt32) : Prop := s' = s ∨ s' = s.loadDirTable parent

theorem System.Opened.kept {s' : System} (h : s.Opened s' parent) : s.Kept s' := by
  rcases h with rfl | rfl
  · exact .refl s'
  · exact (System.Kept.refl s).load parent

theorem openParent_of_not_valid (h2 : ¬ parent < 2) (h : ¬ ParentValid s parent) (hlt : parent.toNat < 512) :
    ∃ s', openParent parent s = .ok (false, s') ∧ s.Opened s' parent := by
  obtain ⟨p, rfl, -⟩ := exists_clusterNum hlt
  by_cases hend : s.fat p = fat32FatEndOfFile
  · have hdir : ((tableAt s.disk (clusterNum p)).table 0).isDirectory = false := by
      by_contra hd
      rw [clusterNum_lt_two_iff] at h2
      exact h ⟨p, rfl, by omega, hend, by simpa using hd⟩
    exact ⟨s.loadDirTable (clusterNum p),
      by simp [openParent, System.clusterMap_clusterNum, hend, hdir, pure, Except.pure, bind, Except.bind], .inr rfl⟩
  · exact ⟨s, by simp [openParent, System.clusterMap_clusterNum, hend, pure, Except.pure, bind, Except.bind],
      .inl rfl⟩

theorem not_lt_two_of_le (h : 512 ≤ parent.toNat) : ¬ parent < 2 := by
  rw [UInt32.lt_iff_toNat_lt]
  exact Nat.not_lt.mpr (le_trans (by decide) h)

theorem openParent_of_le (h : 512 ≤ parent.toNat) : openParent parent s = .error (.outOfBounds parent, s) := by
  simp [openParent, System.clusterMap_of_le h, bind, Except.bind]

/-- The four ways the parent checks can go. -/
theorem parent_cases (s : System) (parent : UInt32) :
    parent < 2 ∨ (¬ parent < 2 ∧ ∃ s', openParent parent s = .ok (false, s') ∧ s.Opened s' parent) ∨
      (512 ≤ parent.toNat ∧ openParent parent s = .error (.outOfBounds parent, s)) ∨ ParentValid s parent := by
  by_cases h2 : parent < 2
  · exact .inl h2
  · by_cases hv : ParentValid s parent
    · exact .inr (.inr (.inr hv))
    · rcases Nat.lt_or_ge parent.toNat 512 with hlt | hge
      · exact .inr (.inl ⟨h2, openParent_of_not_valid h2 hv hlt⟩)
      · exact .inr (.inr (.inl ⟨hge, openParent_of_le hge⟩))

end Parent

/-! ## The readers -/

section Read

variable {s s' : System} {request : FAT32DriverRequest} {fuel : Nat} {code : Int8}

theorem read_of_valid (h : ParentValid s request.parentClusterNumber) :
    read fuel request s =
      let s := s.loadDirTable request.parentClusterNumber
      match s.dirTable.search (identifier request.name request.ext) with
      | none => .ok (3, s)
      | some i =>
        if (s.dirTable.table i).isDirectory then .ok (1, s)
        else if request.bufferSize < (s.dirTable.table i).filesize then .ok (2, s)
        else readLoop fuel request.buf (s.dirTable.table i).clusterNumber s >>= fun s => .ok (0, s) := by
  simp only [read, if_neg h.not_lt_two, openParent_of_valid h]
  rfl

theorem readDirectory_of_valid (h : ParentValid s request.parentClusterNumber) (hsize : request.bufferSize = 2048) :
    readDirectory request s =
      let s := s.loadDirTable request.parentClusterNumber
      match s.dirTable.search (identifier request.name fun _ => 0) with
      | none => .ok (2, s)
      | some i =>
        if !(s.dirTable.table i).isDirectory then .ok (1, s)
        else .ok (0, s.readToBuf request.buf (s.dirTable.table i).clusterNumber) := by
  simp only [readDirectory, if_neg h.not_lt_two, hsize, ne_eq, not_true_eq_false, if_false, openParent_of_valid h]
  rfl

theorem readDirectory_of_found {i : Fin 64} (h : ParentValid s request.parentClusterNumber)
    (hsize : request.bufferSize = 2048)
    (hs : (tableAt s.disk request.parentClusterNumber).search (identifier request.name fun _ => 0) = some i)
    (hdir : ((tableAt s.disk request.parentClusterNumber).table i).isDirectory = true) :
    readDirectory request s = .ok (0, (s.loadDirTable request.parentClusterNumber).readToBuf request.buf
      ((tableAt s.disk request.parentClusterNumber).table i).clusterNumber) := by
  rw [readDirectory_of_valid h hsize]
  simp only [System.loadDirTable_dirTable, hs, hdir, Bool.not_true, Bool.false_eq_true, if_false]

/-- What the search of an operation finds in the parent's table. -/
abbrev System.found (s : System) (request : FAT32DriverRequest) : Option (Fin 64) :=
  (tableAt s.disk request.parentClusterNumber).search (identifier request.name request.ext)

/-- An entry that the search of an operation finds in a valid parent has a chain that ends. -/
def System.ChainsEnd (s : System) (request : FAT32DriverRequest) : Prop :=
  ParentValid s request.parentClusterNumber → ∀ i, s.found request = some i → ∃ l, l ≠ [] ∧
    FatChain s.fat ((tableAt s.disk request.parentClusterNumber).table i).clusterNumber l

theorem read_of_lt_two (h : request.parentClusterNumber < 2) : read fuel request s = .ok (-1, s) := by
  simp only [read, if_pos h]
  rfl

theorem read_of_refused (h2 : ¬ request.parentClusterNumber < 2)
    (ho : openParent request.parentClusterNumber s = .ok (false, s')) : read fuel request s = .ok (-1, s') := by
  simp only [read, if_neg h2, ho]
  rfl

theorem read_of_le (h : 512 ≤ request.parentClusterNumber.toNat) :
    read fuel request s = .error (.outOfBounds request.parentClusterNumber, s) := by
  simp only [read, if_neg (not_lt_two_of_le h), openParent_of_le h]
  rfl

theorem read_mono {fuel' : Nat} (h : (read fuel request s).Final) (hle : fuel ≤ fuel') :
    read fuel' request s = read fuel request s := by
  rcases parent_cases s request.parentClusterNumber with h2 | ⟨h2, t, ho, -⟩ | ⟨hge, -⟩ | hv
  · rw [read_of_lt_two h2, read_of_lt_two h2]
  · rw [read_of_refused h2 ho, read_of_refused h2 ho]
  · rw [read_of_le hge, read_of_le hge]
  · rw [read_of_valid hv] at h ⊢
    rw [read_of_valid hv]
    dsimp only at h ⊢
    cases hs : (s.loadDirTable request.parentClusterNumber).dirTable.search
        (identifier request.name request.ext) with
    | none => rfl
    | some i =>
      simp only [hs] at h ⊢
      split
      · rfl
      · next hd =>
        rw [if_neg hd] at h
        split
        · rfl
        · next hb =>
          rw [if_neg hb] at h
          rw [readLoop_mono h.of_bind hle]

/-- **`read`** returns, and keeps the volume. -/
theorem read_returns (hp : request.parentClusterNumber.toNat < 512) (hc : s.ChainsEnd request) (hfuel : 512 ≤ fuel) :
    ∃ code s', read fuel request s = .ok (code, s') ∧ s.Kept s' := by
  rcases parent_cases s request.parentClusterNumber with h2 | ⟨h2, t, ho, hk⟩ | ⟨hge, -⟩ | hv
  · exact ⟨-1, s, read_of_lt_two h2, .refl s⟩
  · exact ⟨-1, t, read_of_refused h2 ho, hk.kept⟩
  · omega
  · have hload := (System.Kept.refl s).load request.parentClusterNumber
    rw [read_of_valid hv]
    dsimp only
    rw [System.loadDirTable_dirTable]
    cases hs : (tableAt s.disk request.parentClusterNumber).search (identifier request.name request.ext) with
    | none => exact ⟨3, _, rfl, hload⟩
    | some i =>
      dsimp only
      split
      · exact ⟨1, _, rfl, hload⟩
      · split
        · exact ⟨2, _, rfl, hload⟩
        · obtain ⟨l, hl, hchain⟩ := hc hv i hs
          rw [readLoop_chain (s := s.loadDirTable request.parentClusterNumber) hchain hl
            (hchain.length_le.trans hfuel)]
          obtain ⟨reads, hr⟩ := hload.accesses
          exact ⟨0, _, rfl, rfl, rfl, reads ++ l.map clusterNum, by simp [System.readChain, hr]⟩

theorem read_kept (hc : s.ChainsEnd request) (h : read fuel request s = .ok (code, s')) : s.Kept s' := by
  rcases Nat.lt_or_ge request.parentClusterNumber.toNat 512 with hp | hge
  · obtain ⟨code', t, ht, hk⟩ := read_returns hp hc (Nat.le_max_right fuel 512)
    rw [read_mono (h ▸ Exec.final_ok _) (Nat.le_max_left fuel 512), h] at ht
    cases ht
    exact hk
  · cases (read_of_le hge).symm.trans h

theorem readDirectory_of_le (h : 512 ≤ request.parentClusterNumber.toNat) (hsize : request.bufferSize = 2048) :
    readDirectory request s = .error (.outOfBounds request.parentClusterNumber, s) := by
  simp only [readDirectory, if_neg (not_lt_two_of_le h), hsize, ne_eq, not_true_eq_false, if_false, openParent_of_le h]
  rfl

theorem readDirectory_of_lt_two (h : request.parentClusterNumber < 2) : readDirectory request s = .ok (-1, s) := by
  simp only [readDirectory, if_pos h]
  rfl

theorem readDirectory_of_refused (h2 : ¬ request.parentClusterNumber < 2) (hsize : request.bufferSize = 2048)
    (ho : openParent request.parentClusterNumber s = .ok (false, s')) : readDirectory request s = .ok (-1, s') := by
  simp only [readDirectory, if_neg h2, hsize, ne_eq, not_true_eq_false, if_false, ho]
  rfl

theorem readDirectory_of_size (hsize : request.bufferSize ≠ 2048) : readDirectory request s = .ok (-1, s) := by
  by_cases h2 : request.parentClusterNumber < 2 <;> simp [readDirectory, h2, hsize, pure, Except.pure]

/-- **`read_directory`** returns, and keeps the volume. -/
theorem readDirectory_returns (hp : request.parentClusterNumber.toNat < 512) :
    ∃ code s', readDirectory request s = .ok (code, s') ∧ s.Kept s' := by
  by_cases hsize : request.bufferSize = 2048
  · rcases parent_cases s request.parentClusterNumber with h2 | ⟨h2, t, ho, hk⟩ | ⟨hge, -⟩ | hv
    · exact ⟨-1, s, readDirectory_of_lt_two h2, .refl s⟩
    · exact ⟨-1, t, readDirectory_of_refused h2 hsize ho, hk.kept⟩
    · omega
    · have hload := (System.Kept.refl s).load request.parentClusterNumber
      rw [readDirectory_of_valid hv hsize]
      dsimp only
      split
      · exact ⟨2, _, rfl, hload⟩
      · split
        · exact ⟨1, _, rfl, hload⟩
        · exact ⟨0, _, rfl, hload.readToBuf _ _⟩
  · exact ⟨-1, s, readDirectory_of_size hsize, .refl s⟩

theorem readDirectory_kept (h : readDirectory request s = .ok (code, s')) : s.Kept s' := by
  rcases Nat.lt_or_ge request.parentClusterNumber.toNat 512 with hp | hge
  · obtain ⟨code', t, ht, hk⟩ := readDirectory_returns hp (s := s)
    cases ht.symm.trans h
    exact hk
  · by_cases hsize : request.bufferSize = 2048
    · cases (readDirectory_of_le hge hsize).symm.trans h
    · cases (readDirectory_of_size hsize).symm.trans h
      exact .refl s

end Read

/-! ## Writing -/

section Write

variable {s s' : System} {request : FAT32DriverRequest} {i : Fin 64} {fuel : Nat} {code : Int8}

/-- `write` gets as far as adding an entry, and the entry is `i`. -/
structure CanWrite (s : System) (request : FAT32DriverRequest) (i : Fin 64) : Prop where
  valid : ParentValid s request.parentClusterNumber
  search : (tableAt s.disk request.parentClusterNumber).search (identifier request.name request.ext) = none
  emptyEntry : (tableAt s.disk request.parentClusterNumber).emptyEntry = some i
  room : request.clusterCount ≤ (freeCells s.fat).length

/-- Whether there is room does not depend on memory and on where the data lies in it. -/
theorem CanWrite.of_same {t : System} {buf : UInt32} (hdisk : t.disk = s.disk) (hfat : t.fat = s.fat)
    (h : CanWrite s request i) : CanWrite t { request with buf := buf } i :=
  ⟨h.valid.of_same hdisk hfat, hdisk ▸ h.search, hdisk ▸ h.emptyEntry, hfat ▸ h.room⟩

/-- The entry a successful `write` leaves at index `i`. -/
def System.writtenEntry (s : System) (request : FAT32DriverRequest) (i : Fin 64) : FAT32DirectoryEntry :=
  ((((tableAt s.disk request.parentClusterNumber).table i).fill request).setCluster
    (clusterNum (freeCell s.fat 0))).setFilesize (UInt32.ofNat (request.clusterCount * 2048))

section WrittenEntry

variable (s : System) (request : FAT32DriverRequest) (i : Fin 64)

@[simp] theorem System.writtenEntry_name : (s.writtenEntry request i).name = request.name := rfl
@[simp] theorem System.writtenEntry_ext : (s.writtenEntry request i).ext = request.ext := rfl
@[simp] theorem System.writtenEntry_occupied : (s.writtenEntry request i).occupied = true := rfl
@[simp] theorem System.writtenEntry_filesize :
    (s.writtenEntry request i).filesize = UInt32.ofNat (request.clusterCount * 2048) := rfl
@[simp] theorem System.writtenEntry_clusterNumber :
    (s.writtenEntry request i).clusterNumber = clusterNum (freeCell s.fat 0) :=
  FAT32DirectoryEntry.clusterNumber_setCluster
    (((tableAt s.disk request.parentClusterNumber).table i).fill request) _

/-- The attribute of a folder is set, that of a file is what the entry had. -/
theorem System.writtenEntry_isDirectory : (s.writtenEntry request i).isDirectory =
    (request.bufferSize == 0 || ((tableAt s.disk request.parentClusterNumber).table i).isDirectory) := by
  simp only [System.writtenEntry, FAT32DirectoryEntry.isDirectory, FAT32DirectoryEntry.setFilesize,
    FAT32DirectoryEntry.setCluster, FAT32DirectoryEntry.fill]
  by_cases h : request.bufferSize = 0 <;> simp [h]

variable {request}

theorem System.writtenEntry_isDirectory_folder (hsize : request.bufferSize = 0) :
    (s.writtenEntry request i).isDirectory = true := by
  rw [System.writtenEntry_isDirectory, hsize]
  rfl

theorem System.writtenEntry_isDirectory_file (hsize : request.bufferSize ≠ 0) :
    (s.writtenEntry request i).isDirectory =
      ((tableAt s.disk request.parentClusterNumber).table i).isDirectory := by
  rw [System.writtenEntry_isDirectory, beq_eq_false_iff_ne.mpr hsize, Bool.false_or]

end WrittenEntry

/-- The cells a successful `write` takes: one for every two rounds. -/
def System.writtenCells (s : System) (request : FAT32DriverRequest) : List (Fin 512) :=
  (freeCells s.fat).take ((request.clusterCount + 1) / 2)

/-- The FAT a successful `write` leaves. -/
def System.writtenFat (s : System) (request : FAT32DriverRequest) : Fin 512 → UInt32 :=
  link clusterNum s.fat fat32FatEndOfFile (s.writtenCells request)

/-- The parent table a successful `write` leaves. -/
def System.writtenTable (s : System) (request : FAT32DriverRequest) (i : Fin 64) : FAT32DirectoryTable :=
  (tableAt s.disk request.parentClusterNumber).set i (s.writtenEntry request i)

/-- The `write_clusters` calls of a successful `write`. -/
def System.writtenCalls (s : System) (request : FAT32DriverRequest) (i : Fin 64) : List (UInt32 × Cluster) :=
  dataWrites request s request.clusterCount ++
    [(fatClusterNumber, FAT32FileAllocationTable.bytes ⟨s.writtenFat request⟩),
      (request.parentClusterNumber, (s.writtenTable request i).bytes)]

/-- The system after a successful `write` into entry `i`. -/
def System.written (s : System) (request : FAT32DriverRequest) (i : Fin 64) : System :=
  (((s.loadDirTable request.parentClusterNumber).withDirTable (s.writtenTable request i)).withFat
    (s.writtenFat request)).writeAll (s.writtenCalls request i)

theorem write_of_valid (h : ParentValid s request.parentClusterNumber) :
    write fuel request s =
      let s := s.loadDirTable request.parentClusterNumber
      if (s.dirTable.search (identifier request.name request.ext)).isSome then .ok (1, s)
      else match s.dirTable.emptyEntry with
      | none => .ok (-1, s)
      | some i =>
        if s.countAvailable < request.clusterCount then .ok (-1, s)
        else
          writeLoop request i fuel 2 0 0 (s.setEntry i ((s.dirTable.table i).fill request)) >>= fun r =>
            let s := r.2.2.setEntry i ((r.2.2.dirTable.table i).setFilesize (UInt32.ofNat (r.2.1 * 2048)))
            let s := s.withFat (Function.update s.fat r.1 fat32FatEndOfFile)
            .ok (0, s.writeBack request.parentClusterNumber) := by
  simp only [write, if_neg h.not_lt_two, openParent_of_valid h]
  rfl

/-- What `write` does after its loop, to a system with table `t.set i e` and FAT `map`. -/
theorem finish_write (s : System) (t : FAT32DirectoryTable) (e : FAT32DirectoryEntry) (map : Fin 512 → UInt32)
    (ws : List (UInt32 × Cluster)) (c : Fin 512) (filesize parent : UInt32) :
    let r := ((s.withDirTable (t.set i e)).withFat map).writeAll ws
    ((r.setEntry i ((r.dirTable.table i).setFilesize filesize)).withFat
        (Function.update r.fat c fat32FatEndOfFile)).writeBack parent =
      ((s.withDirTable (t.set i (e.setFilesize filesize))).withFat (Function.update map c fat32FatEndOfFile)).writeAll
        (ws ++ [(fatClusterNumber, FAT32FileAllocationTable.bytes ⟨Function.update map c fat32FatEndOfFile⟩),
          (parent, (t.set i (e.setFilesize filesize)).bytes)]) := by
  intro r
  have htable : r.dirTable = t.set i e := rfl
  have hset : r.setEntry i (e.setFilesize filesize) =
      ((s.withDirTable (t.set i (e.setFilesize filesize))).withFat map).writeAll ws := by
    rw [System.setEntry, htable, FAT32DirectoryTable.set_set]
    rfl
  rw [htable, FAT32DirectoryTable.set_table_self, hset, System.withFat_writeAll, System.writeBack_eq,
    System.writeAll_writeAll]
  rfl

theorem write_of_canWrite (h : CanWrite s request i) (hfuel : request.clusterCount ≤ fuel) :
    write fuel request s = .ok (0, s.written request i) := by
  have hpos : 0 < request.clusterCount := Nat.succ_pos _
  have hroom : (request.clusterCount - 1) / 2 < (freeCells s.fat).length := by
    have hroom := h.room
    omega
  let loaded := s.loadDirTable request.parentClusterNumber
  let table := tableAt s.disk request.parentClusterNumber
  have hloop := writeLoop_rounds (i := i) (s := loaded.setEntry i ((table.table i).fill request)) hfuel hroom
  have hrounds : (loaded.setEntry i ((table.table i).fill request)).afterRounds request i request.clusterCount =
      ((loaded.withDirTable (table.set i (((table.table i).fill request).setCluster
        (clusterNum (freeCell s.fat 0))))).withFat (fatAfter s.fat request.clusterCount)).writeAll
          (dataWrites request s request.clusterCount) := by
    rw [System.afterRounds, if_neg hpos.ne']
    simp only [System.setEntry, System.withDirTable_dirTable, FAT32DirectoryTable.set_table_self,
      FAT32DirectoryTable.set_set, System.withDirTable_withDirTable, loaded, table, System.loadDirTable_dirTable]
    rfl
  rw [write_of_valid h.valid]
  simp only [System.loadDirTable_dirTable, h.search, h.emptyEntry, countAvailable_eq, System.loadDirTable_fat,
    if_neg (Nat.not_lt.mpr h.room), Option.isSome_none, Bool.false_eq_true, if_false]
  rw [hloop, hrounds]
  have hfinish := finish_write (i := i) loaded table
    (((table.table i).fill request).setCluster (clusterNum (freeCell s.fat 0))) (fatAfter s.fat request.clusterCount)
    (dataWrites request s request.clusterCount) (freeCell s.fat ((request.clusterCount - 1) / 2))
    (UInt32.ofNat (request.clusterCount * 2048)) request.parentClusterNumber
  rw [fatAfter_endOfFile hpos hroom] at hfinish
  exact congrArg (fun x => Except.ok ((0 : Int8), x)) hfinish

theorem write_of_lt_two (h : request.parentClusterNumber < 2) : write fuel request s = .ok (2, s) := by
  simp only [write, if_pos h]
  rfl

theorem write_of_refused (h2 : ¬ request.parentClusterNumber < 2)
    (ho : openParent request.parentClusterNumber s = .ok (false, s')) : write fuel request s = .ok (2, s') := by
  simp only [write, if_neg h2, ho]
  rfl

theorem write_of_le (h : 512 ≤ request.parentClusterNumber.toNat) :
    write fuel request s = .error (.outOfBounds request.parentClusterNumber, s) := by
  simp only [write, if_neg (not_lt_two_of_le h), openParent_of_le h]
  rfl

theorem write_mono {fuel' : Nat} (h : (write fuel request s).Final) (hle : fuel ≤ fuel') :
    write fuel' request s = write fuel request s := by
  rcases parent_cases s request.parentClusterNumber with h2 | ⟨h2, t, ho, -⟩ | ⟨hge, -⟩ | hv
  · rw [write_of_lt_two h2, write_of_lt_two h2]
  · rw [write_of_refused h2 ho, write_of_refused h2 ho]
  · rw [write_of_le hge, write_of_le hge]
  · rw [write_of_valid hv] at h ⊢
    rw [write_of_valid hv]
    dsimp only at h ⊢
    split
    · rfl
    · next hs =>
      rw [if_neg hs] at h
      cases he : (s.loadDirTable request.parentClusterNumber).dirTable.emptyEntry with
      | none => rfl
      | some i =>
        simp only [he] at h ⊢
        split
        · rfl
        · next hroom =>
          rw [if_neg hroom] at h
          rw [writeLoop_mono h.of_bind hle]

/-- `write` does not call a valid parent invalid. -/
theorem write_ne_two (hv : ParentValid s request.parentClusterNumber) (h : write fuel request s = .ok (code, s')) :
    code ≠ 2 := by
  rw [write_of_valid hv] at h
  dsimp only at h
  split at h
  · cases h
    decide
  · cases he : (s.loadDirTable request.parentClusterNumber).dirTable.emptyEntry with
    | none =>
      rw [he] at h
      cases h
      decide
    | some i =>
      rw [he] at h
      dsimp only at h
      split at h
      · cases h
        decide
      · obtain ⟨r, -, hr⟩ := Exec.bind_eq_ok.mp h
        cases hr
        decide

/-- `write` of a name that is taken. -/
theorem write_of_found (hv : ParentValid s request.parentClusterNumber) (hs : s.found request = some i) :
    write fuel request s = .ok (1, s.loadDirTable request.parentClusterNumber) := by
  rw [write_of_valid hv]
  simp only [System.loadDirTable_dirTable, hs, Option.isSome_some, if_true]

/-- `write` without a free entry, or without enough free cells. -/
theorem write_of_noRoom (hv : ParentValid s request.parentClusterNumber) (hs : s.found request = none)
    (hroom : ∀ i, (tableAt s.disk request.parentClusterNumber).emptyEntry = some i →
      (freeCells s.fat).length < request.clusterCount) :
    write fuel request s = .ok (-1, s.loadDirTable request.parentClusterNumber) := by
  rw [write_of_valid hv]
  simp only [System.loadDirTable_dirTable, hs, Option.isSome_none, Bool.false_eq_true, if_false]
  cases he : (tableAt s.disk request.parentClusterNumber).emptyEntry with
  | none => rfl
  | some i =>
    dsimp only
    rw [if_pos]
    rw [countAvailable_eq, System.loadDirTable_fat]
    exact hroom i he

theorem clusterCount_le (h : CanWrite s request i) : request.clusterCount ≤ 512 :=
  h.room.trans (by simpa using (freeCells_nodup s.fat).length_le_card)

/-- **`write`** returns: it has done everything, or nothing that lasts. -/
theorem write_returns (hp : request.parentClusterNumber.toNat < 512) (hfuel : 512 ≤ fuel) :
    (∃ code s', write fuel request s = .ok (code, s') ∧ code ≠ 0 ∧ s.Kept s') ∨
      ∃ i, CanWrite s request i ∧ write fuel request s = .ok (0, s.written request i) := by
  rcases parent_cases s request.parentClusterNumber with h2 | ⟨h2, t, ho, hk⟩ | ⟨hge, -⟩ | hv
  · exact .inl ⟨2, s, write_of_lt_two h2, by decide, .refl s⟩
  · exact .inl ⟨2, t, write_of_refused h2 ho, by decide, hk.kept⟩
  · omega
  · have hload := (System.Kept.refl s).load request.parentClusterNumber
    cases hs : s.found request with
    | some j => exact .inl ⟨1, _, write_of_found hv hs, by decide, hload⟩
    | none =>
      by_cases hfit : ∃ i, CanWrite s request i
      · obtain ⟨i, hc⟩ := hfit
        exact .inr ⟨i, hc, write_of_canWrite hc ((clusterCount_le hc).trans hfuel)⟩
      · refine .inl ⟨-1, _, write_of_noRoom hv hs fun i he => ?_, by decide, hload⟩
        by_contra hroom
        exact hfit ⟨i, hv, hs, he, Nat.not_lt.mp hroom⟩

theorem write_cases (h : write fuel request s = .ok (code, s')) :
    (code ≠ 0 ∧ s.Kept s') ∨ (code = 0 ∧ ∃ i, CanWrite s request i ∧ s' = s.written request i) := by
  rcases Nat.lt_or_ge request.parentClusterNumber.toNat 512 with hp | hge
  · have hmono := write_mono (h ▸ Exec.final_ok _) (Nat.le_max_left fuel 512)
    rw [h] at hmono
    rcases write_returns (s := s) hp (Nat.le_max_right fuel 512) with ⟨code', t, ht, hne, hk⟩ | ⟨i, hc, ht⟩
    · cases hmono.symm.trans ht
      exact .inl ⟨hne, hk⟩
    · cases hmono.symm.trans ht
      exact .inr ⟨rfl, i, hc, rfl⟩
  · cases (write_of_le hge).symm.trans h

/-- The name is new, but there is no entry for it or there are not enough cells. -/
structure NoRoom (s : System) (request : FAT32DriverRequest) : Prop where
  valid : ParentValid s request.parentClusterNumber
  search : s.found request = none
  full : ∀ i, (tableAt s.disk request.parentClusterNumber).emptyEntry = some i →
    (freeCells s.fat).length < request.clusterCount

theorem NoRoom.not_canWrite (h : NoRoom s request) : ¬ CanWrite s request i := fun hc =>
  absurd hc.room (Nat.not_le.mpr (h.full i hc.emptyEntry))

/-- Whether there is room depends on the volume only. -/
theorem NoRoom.of_same {t : System} (h : NoRoom s request) (hdisk : t.disk = s.disk) (hfat : t.fat = s.fat) :
    NoRoom t request := by
  refine ⟨h.valid.of_same hdisk hfat, ?_, ?_⟩
  · rw [System.found, hdisk]
    exact h.search
  · rw [hdisk, hfat]
    exact h.full

/-- What a `write` that fails answers: it loads the table at most, and says `-1` if there is no room. -/
theorem write_failed (h : write fuel request s = .ok (code, s')) (hne : code ≠ 0) :
    s.Opened s' request.parentClusterNumber ∧ (code < 0 ↔ NoRoom s request) := by
  rcases parent_cases s request.parentClusterNumber with h2 | ⟨h2, t, ho, hk⟩ | ⟨hge, -⟩ | hv
  · cases (write_of_lt_two h2).symm.trans h
    exact ⟨.inl rfl, iff_of_false (by decide) fun hroom => hroom.valid.not_lt_two h2⟩
  · cases (write_of_refused h2 ho).symm.trans h
    refine ⟨hk, iff_of_false (by decide) fun hroom => ?_⟩
    rw [openParent_of_valid hroom.valid] at ho
    cases ho
  · cases (write_of_le hge).symm.trans h
  · cases hs : s.found request with
    | some i =>
      cases (write_of_found hv hs).symm.trans h
      exact ⟨.inr rfl, iff_of_false (by decide) fun hroom => nomatch hroom.search.symm.trans hs⟩
    | none =>
      have hroom : ∀ i, (tableAt s.disk request.parentClusterNumber).emptyEntry = some i →
          (freeCells s.fat).length < request.clusterCount := by
        intro i he
        by_contra hroom
        have hc : CanWrite s request i := ⟨hv, hs, he, Nat.not_lt.mp hroom⟩
        have hmono := write_mono (h ▸ Exec.final_ok _) (Nat.le_max_left fuel 512)
        rw [h, write_of_canWrite hc ((clusterCount_le hc).trans (Nat.le_max_right fuel 512))] at hmono
        cases hmono
        exact hne rfl
      cases (write_of_noRoom hv hs hroom).symm.trans h
      exact ⟨.inr rfl, iff_of_true (by decide) ⟨hv, hs, hroom⟩⟩

/-- A negative answer of `write` says that there is no room. -/
theorem write_neg_iff (h : write fuel request s = .ok (code, s')) : code < 0 ↔ NoRoom s request := by
  rcases write_cases h with ⟨hne, -⟩ | ⟨rfl, i, hc, -⟩
  · exact (write_failed h hne).2
  · exact iff_of_false (by decide) fun hroom => hroom.not_canWrite hc

/-- `write` stores nothing in memory. -/
theorem write_memory (h : write fuel request s = .ok (code, s')) : s'.memory = s.memory := by
  rcases write_cases h with ⟨hne, -⟩ | ⟨-, i, -, rfl⟩
  · rcases (write_failed h hne).1 with rfl | rfl <;> rfl
  · rfl

end Write

/-! ## Deleting -/

section Delete

variable {s s' : System} {request : FAT32DriverRequest} {i : Fin 64} {l : List (Fin 512)} {fuel : Nat} {code : Int8}

/-- `delete` gets as far as emptying the cells `l` of entry `i`. -/
structure CanDelete (s : System) (request : FAT32DriverRequest) (i : Fin 64) (l : List (Fin 512)) : Prop where
  valid : ParentValid s request.parentClusterNumber
  search : (tableAt s.disk request.parentClusterNumber).search (identifier request.name request.ext) = some i
  empty : ((tableAt s.disk request.parentClusterNumber).table i).isDirectory = true →
    (tableAt s.disk ((tableAt s.disk request.parentClusterNumber).table i).clusterNumber).anyOccupied = false
  chain : FatChain s.fat ((tableAt s.disk request.parentClusterNumber).table i).clusterNumber l
  ne_nil : l ≠ []

/-- The system after the loads of `delete`: the parent, the folder to be deleted if it is one, the parent again. -/
def System.reloaded (s : System) (request : FAT32DriverRequest) (i : Fin 64) : System :=
  let entry := (tableAt s.disk request.parentClusterNumber).table i
  let s := s.loadDirTable request.parentClusterNumber
  (if entry.isDirectory then s.loadDirTable entry.clusterNumber else s).loadDirTable request.parentClusterNumber

@[simp] theorem System.reloaded_fat : (s.reloaded request i).fat = s.fat := by
  dsimp only [System.reloaded]
  split <;> rfl

@[simp] theorem System.reloaded_disk : (s.reloaded request i).disk = s.disk := by
  dsimp only [System.reloaded]
  split <;> rfl

@[simp] theorem System.reloaded_dirTable :
    (s.reloaded request i).dirTable = tableAt s.disk request.parentClusterNumber := by
  dsimp only [System.reloaded]
  split <;> simp

/-- The parent table a successful `delete` leaves. -/
def System.deletedTable (s : System) (request : FAT32DriverRequest) (i : Fin 64) : FAT32DirectoryTable :=
  (tableAt s.disk request.parentClusterNumber).set i
    ((tableAt s.disk request.parentClusterNumber).table i).release

/-- The FAT a successful `delete` of the chain `l` leaves. -/
def System.deletedFat (s : System) (l : List (Fin 512)) : Fin 512 → UInt32 := clear fat32FatEmptyEntry s.fat l

/-- The `write_clusters` calls of a successful `delete`. -/
def System.deletedCalls (s : System) (request : FAT32DriverRequest) (i : Fin 64) (l : List (Fin 512)) :
    List (UInt32 × Cluster) :=
  [(fatClusterNumber, FAT32FileAllocationTable.bytes ⟨s.deletedFat l⟩),
    (request.parentClusterNumber, (s.deletedTable request i).bytes)]

/-- The system after a successful `delete` of entry `i` with the chain `l`. -/
def System.deleted (s : System) (request : FAT32DriverRequest) (i : Fin 64) (l : List (Fin 512)) : System :=
  (((s.reloaded request i).withDirTable (s.deletedTable request i)).withFat (s.deletedFat l)).writeAll
    (s.deletedCalls request i l)

theorem delete_of_lt_two (h : request.parentClusterNumber < 2) : delete fuel request s = .ok (-1, s) := by
  simp only [delete, if_pos h]
  rfl

theorem delete_of_refused (h2 : ¬ request.parentClusterNumber < 2)
    (ho : openParent request.parentClusterNumber s = .ok (false, s')) : delete fuel request s = .ok (-1, s') := by
  simp only [delete, if_neg h2, ho]
  rfl

theorem delete_of_le (h : 512 ≤ request.parentClusterNumber.toNat) :
    delete fuel request s = .error (.outOfBounds request.parentClusterNumber, s) := by
  simp only [delete, if_neg (not_lt_two_of_le h), openParent_of_le h]
  rfl

theorem delete_of_valid (h : ParentValid s request.parentClusterNumber) :
    delete fuel request s =
      let s := s.loadDirTable request.parentClusterNumber
      match s.dirTable.search (identifier request.name request.ext) with
      | none => .ok (1, s)
      | some i =>
        let entry := s.dirTable.table i
        let s := if entry.isDirectory then s.loadDirTable entry.clusterNumber else s
        if entry.isDirectory && s.dirTable.anyOccupied then .ok (2, s)
        else
          let s := s.loadDirTable request.parentClusterNumber
          s.clusterMap (s.dirTable.table i).clusterNumber >>= fun next =>
          deleteLoop fuel (s.dirTable.table i).clusterNumber next s >>= fun r =>
          r.2.setClusterMap r.1 fat32FatEmptyEntry >>= fun s =>
          .ok (0, (s.setEntry i (s.dirTable.table i).release).writeBack request.parentClusterNumber) := by
  simp only [delete, if_neg h.not_lt_two, openParent_of_valid h]
  rfl

/-- `delete` once it has found an entry, with the folder in it empty if there is one. -/
theorem delete_of_found (hv : ParentValid s request.parentClusterNumber) (hs : s.found request = some i)
    (hempty : ((tableAt s.disk request.parentClusterNumber).table i).isDirectory = true →
      (tableAt s.disk ((tableAt s.disk request.parentClusterNumber).table i).clusterNumber).anyOccupied = false) :
    delete fuel request s =
      let s := s.reloaded request i
      s.clusterMap (s.dirTable.table i).clusterNumber >>= fun next =>
      deleteLoop fuel (s.dirTable.table i).clusterNumber next s >>= fun r =>
      r.2.setClusterMap r.1 fat32FatEmptyEntry >>= fun s =>
      .ok (0, (s.setEntry i (s.dirTable.table i).release).writeBack request.parentClusterNumber) := by
  rw [delete_of_valid hv]
  dsimp only [System.reloaded]
  simp only [System.loadDirTable_dirTable, hs]
  cases hd : ((tableAt s.disk request.parentClusterNumber).table i).isDirectory with
  | false => simp
  | true => simp [hempty hd]

/-- `delete` of a folder that is not empty. -/
theorem delete_of_full (hv : ParentValid s request.parentClusterNumber) (hs : s.found request = some i)
    (hdir : ((tableAt s.disk request.parentClusterNumber).table i).isDirectory = true)
    (hfull : (tableAt s.disk ((tableAt s.disk request.parentClusterNumber).table i).clusterNumber).anyOccupied = true) :
    delete fuel request s = .ok (2, (s.loadDirTable request.parentClusterNumber).loadDirTable
      ((tableAt s.disk request.parentClusterNumber).table i).clusterNumber) := by
  rw [delete_of_valid hv]
  simp only [System.loadDirTable_dirTable, hs, if_pos hdir]
  simp [hdir, hfull]

theorem delete_of_canDelete (h : CanDelete s request i l) (hfuel : l.length ≤ fuel) :
    delete fuel request s = .ok (0, s.deleted request i l) := by
  obtain ⟨a, l, rfl⟩ := List.exists_cons_of_ne_nil h.ne_nil
  have hstart := h.chain.start_cons
  have hloop := deleteLoop_chain (s := s.reloaded request i)
    (show FatChain (s.reloaded request i).fat (clusterNum a) (a :: l) by
      rw [System.reloaded_fat, ← hstart]
      exact h.chain) hfuel
  rw [delete_of_found h.valid h.search h.empty]
  simp only [System.reloaded_dirTable, hstart, System.clusterMap_clusterNum, bind, Except.bind, hloop,
    System.setClusterMap_clusterNum, System.withFat_withFat, System.withFat_fat, update_clear_dropLast]
  rw [System.deleted, System.deletedCalls, System.writeBack_eq, System.setEntry, System.withFat_dirTable,
    System.reloaded_dirTable, System.reloaded_fat]
  rfl

theorem delete_mono {fuel' : Nat} (h : (delete fuel request s).Final) (hle : fuel ≤ fuel') :
    delete fuel' request s = delete fuel request s := by
  rcases parent_cases s request.parentClusterNumber with h2 | ⟨h2, t, ho, -⟩ | ⟨hge, -⟩ | hv
  · rw [delete_of_lt_two h2, delete_of_lt_two h2]
  · rw [delete_of_refused h2 ho, delete_of_refused h2 ho]
  · rw [delete_of_le hge, delete_of_le hge]
  · rw [delete_of_valid hv] at h ⊢
    rw [delete_of_valid hv]
    dsimp only at h ⊢
    cases hs : (s.loadDirTable request.parentClusterNumber).dirTable.search (identifier request.name request.ext) with
    | none => rfl
    | some i =>
      simp only [hs] at h ⊢
      generalize ite (((s.loadDirTable request.parentClusterNumber).dirTable.table i).isDirectory = true)
        (System.loadDirTable _ _) _ = t at h ⊢
      split
      · rfl
      · next he =>
        rw [if_neg he] at h
        generalize t.loadDirTable request.parentClusterNumber = t at h ⊢
        cases hn : t.clusterMap (t.dirTable.table i).clusterNumber with
        | error e => rfl
        | ok next =>
          simp only [hn, Exec.ok_bind] at h ⊢
          rw [deleteLoop_mono h.of_bind hle]

/-- **`delete`** returns: it has done everything, or nothing that lasts. -/
theorem delete_returns (hp : request.parentClusterNumber.toNat < 512) (hc : s.ChainsEnd request) (hfuel : 512 ≤ fuel) :
    (∃ code s', delete fuel request s = .ok (code, s') ∧ code ≠ 0 ∧ s.Kept s') ∨
      ∃ i l, CanDelete s request i l ∧ delete fuel request s = .ok (0, s.deleted request i l) := by
  rcases parent_cases s request.parentClusterNumber with h2 | ⟨h2, t, ho, hk⟩ | ⟨hge, -⟩ | hv
  · exact .inl ⟨-1, s, delete_of_lt_two h2, by decide, .refl s⟩
  · exact .inl ⟨-1, t, delete_of_refused h2 ho, by decide, hk.kept⟩
  · omega
  · have hload := (System.Kept.refl s).load request.parentClusterNumber
    cases hs : s.found request with
    | none =>
      refine .inl ⟨1, _, ?_, by decide, hload⟩
      rw [delete_of_valid hv]
      simp only [System.loadDirTable_dirTable, hs]
    | some i =>
      by_cases he : ((tableAt s.disk request.parentClusterNumber).table i).isDirectory = true ∧
          (tableAt s.disk ((tableAt s.disk request.parentClusterNumber).table i).clusterNumber).anyOccupied = true
      · exact .inl ⟨2, _, delete_of_full hv hs he.1 he.2, by decide,
          hload.load ((tableAt s.disk request.parentClusterNumber).table i).clusterNumber⟩
      · obtain ⟨l, hl, hchain⟩ := hc hv i hs
        have hcan : CanDelete s request i l := by
          refine ⟨hv, hs, fun hd => ?_, hchain, hl⟩
          rw [not_and, Bool.not_eq_true] at he
          exact he hd
        exact .inr ⟨i, l, hcan, delete_of_canDelete hcan (hchain.length_le.trans hfuel)⟩

theorem delete_cases (hc : s.ChainsEnd request) (h : delete fuel request s = .ok (code, s')) :
    (code ≠ 0 ∧ s.Kept s') ∨ (code = 0 ∧ ∃ i l, CanDelete s request i l ∧ s' = s.deleted request i l) := by
  rcases Nat.lt_or_ge request.parentClusterNumber.toNat 512 with hp | hge
  · have hmono := delete_mono (h ▸ Exec.final_ok _) (Nat.le_max_left fuel 512)
    rw [h] at hmono
    rcases delete_returns hp hc (Nat.le_max_right fuel 512) with ⟨code', t, ht, hne, hk⟩ | ⟨i, l, hd, ht⟩
    · cases hmono.symm.trans ht
      exact .inl ⟨hne, hk⟩
    · cases hmono.symm.trans ht
      exact .inr ⟨rfl, i, l, hd, rfl⟩
  · cases (delete_of_le hge).symm.trans h

end Delete

end Os2024
