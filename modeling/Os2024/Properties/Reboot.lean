import Os2024.Fat32.Fresh

/-!
# Mounting again is invisible

Every operation loads `dir_table_buf` before it looks at it, so two systems that differ in that buffer only answer alike
(`Call.exec_alike`, `Machine.Reaches.alike`). `initialize_filesystem_fat32` in a state of a run changes nothing else
(`Represents.remount_alike`); with the coherence of the cached FAT this gives `remount_invisible`.
-/

namespace Os2024

/-- The two systems differ at most in `dir_table_buf`. -/
structure System.Alike (s t : System) : Prop where
  memory : s.memory = t.memory
  disk : s.disk = t.disk
  fatTable : s.driverState.fatTable = t.driverState.fatTable
  accesses : s.accesses = t.accesses

/-- The machine after `initialize_filesystem_fat32`. -/
def Machine.remount (m : Machine) : Machine := { m with system := initializeFilesystemFat32 m.system }

theorem Machine.remount_history (m : Machine) : m.remount.history = m.history := by
  unfold Machine.remount
  rfl

/-! ## One call -/

section Step

variable {s s' t : System} {call : Call} {request : FAT32DriverRequest} {fuel : Nat} {code : Int8} {c : UInt32}

namespace System.Alike

theorem refl (s : System) : s.Alike s := ⟨rfl, rfl, rfl, rfl⟩

theorem symm (h : s.Alike t) : t.Alike s := ⟨h.memory.symm, h.disk.symm, h.fatTable.symm, h.accesses.symm⟩

variable (h : s.Alike t)
include h

/-- Loading the buffer makes them equal. -/
theorem load (c : UInt32) : s.loadDirTable c = t.loadDirTable c := by
  obtain ⟨memory, disk, ⟨fatTable, dirTable⟩, accesses⟩ := s
  obtain ⟨memory', disk', ⟨fatTable', dirTable'⟩, accesses'⟩ := t
  obtain ⟨rfl, rfl, rfl, rfl⟩ := h
  simp only [System.loadDirTable_eq]

theorem fat : s.fat = t.fat := congrArg FAT32FileAllocationTable.clusterMap h.fatTable

theorem parentValid (hv : ParentValid s c) : ParentValid t c := by
  obtain ⟨p, hp, h2, hend, hdir⟩ := hv
  exact ⟨p, hp, h2, h.fat ▸ hend, h.disk ▸ hdir⟩

theorem clusterMap_ok {v : UInt32} (hs : s.clusterMap c = .ok v) : t.clusterMap c = .ok v := by
  unfold System.clusterMap at hs ⊢
  split at hs
  · rw [dif_pos ‹_›, ← h.fat]
    exact hs
  · cases hs

theorem openParent {valid : Bool} (hs : openParent c s = .ok (valid, s')) :
    ∃ t', Os2024.openParent c t = .ok (valid, t') ∧ s'.Alike t' := by
  simp only [Os2024.openParent, Exec.bind_eq_ok] at hs
  obtain ⟨cell, hcell, hs⟩ := hs
  simp only [Os2024.openParent, h.clusterMap_ok hcell, Exec.ok_bind]
  split at hs
  · cases hs
    rw [if_pos ‹_›]
    exact ⟨t, rfl, h⟩
  · cases hs
    rw [if_neg ‹_›, ← h.load c]
    exact ⟨_, rfl, .refl _⟩

/-- The operations answer alike. -/
theorem run {op : Op} (hs : op.run fuel request s = .ok (code, s')) :
    ∃ t', op.run fuel request t = .ok (code, t') ∧ s'.Alike t' := by
  have hload := h.load request.parentClusterNumber
  rcases parent_cases s request.parentClusterNumber with h2 | ⟨h2, s₁, ho, -⟩ | ⟨hge, -⟩ | hv
  · cases op with
    | read => cases (read_of_lt_two h2).symm.trans hs; exact ⟨t, read_of_lt_two h2, h⟩
    | readDirectory => cases (readDirectory_of_lt_two h2).symm.trans hs; exact ⟨t, readDirectory_of_lt_two h2, h⟩
    | write => cases (write_of_lt_two h2).symm.trans hs; exact ⟨t, write_of_lt_two h2, h⟩
    | delete => cases (delete_of_lt_two h2).symm.trans hs; exact ⟨t, delete_of_lt_two h2, h⟩
  · obtain ⟨t₁, ht, h₁⟩ := h.openParent ho
    cases op with
    | read => cases (read_of_refused h2 ho).symm.trans hs; exact ⟨t₁, read_of_refused h2 ht, h₁⟩
    | readDirectory =>
      by_cases hsize : request.bufferSize = 2048
      · cases (readDirectory_of_refused h2 hsize ho).symm.trans hs
        exact ⟨t₁, readDirectory_of_refused h2 hsize ht, h₁⟩
      · cases (readDirectory_of_size hsize).symm.trans hs
        exact ⟨t, readDirectory_of_size hsize, h⟩
    | write => cases (write_of_refused h2 ho).symm.trans hs; exact ⟨t₁, write_of_refused h2 ht, h₁⟩
    | delete => cases (delete_of_refused h2 ho).symm.trans hs; exact ⟨t₁, delete_of_refused h2 ht, h₁⟩
  · cases op with
    | read => cases (read_of_le hge).symm.trans hs
    | readDirectory =>
      by_cases hsize : request.bufferSize = 2048
      · cases (readDirectory_of_le hge hsize).symm.trans hs
      · cases (readDirectory_of_size hsize).symm.trans hs
        exact ⟨t, readDirectory_of_size hsize, h⟩
    | write => cases (write_of_le hge).symm.trans hs
    | delete => cases (delete_of_le hge).symm.trans hs
  · -- from here on the two are equal
    have hvt := h.parentValid hv
    cases op with
    | read =>
      refine ⟨s', ?_, .refl _⟩
      rw [← hs, Op.run, read_of_valid hv, read_of_valid hvt, hload]
    | readDirectory =>
      by_cases hsize : request.bufferSize = 2048
      · refine ⟨s', ?_, .refl _⟩
        rw [← hs, Op.run, readDirectory_of_valid hv hsize, readDirectory_of_valid hvt hsize, hload]
      · cases (readDirectory_of_size hsize).symm.trans hs
        exact ⟨t, readDirectory_of_size hsize, h⟩
    | write =>
      refine ⟨s', ?_, .refl _⟩
      rw [← hs, Op.run, write_of_valid hv, write_of_valid hvt, hload]
    | delete =>
      refine ⟨s', ?_, .refl _⟩
      rw [← hs, Op.run, delete_of_valid hv, delete_of_valid hvt, hload]

end System.Alike

theorem Call.exec_alike (h : s.Alike t) (hs : call.exec fuel s = .ok (code, s')) :
    ∃ t', call.exec fuel t = .ok (code, t') ∧ s'.Alike t' :=
  System.Alike.run (s := call.start s) (t := call.start t) ⟨rfl, h.disk, h.fatTable, rfl⟩ hs

end Step

/-! ## Whole runs -/

section Runs

variable {m m' n : Machine}

/-- Runs from two systems that are alike give the same histories and disks. -/
theorem Machine.Reaches.alike (hn : Reaches Allowed m n) (h : m.system.Alike m'.system) (hh : m'.history = m.history) :
    ∃ n', Reaches Allowed m' n' ∧ n.system.Alike n'.system ∧ n'.history = n.history := by
  induction hn with
  | refl => exact ⟨m', .refl, h, hh⟩
  | tail _ hstep ih =>
    obtain ⟨n', hn', halike, hhist⟩ := ih
    cases hstep with
    | @call call fuel code s ha hexec =>
      obtain ⟨t, ht, hst⟩ := Call.exec_alike halike hexec
      refine ⟨n'.after call code t, hn'.tail (.call (hhist ▸ ha) ht), hst, ?_⟩
      rw [Machine.after, Machine.after, hst.memory, hst.accesses, hhist]

/-- Mounting a disk that holds a catalog changes `dir_table_buf` only. -/
theorem Represents.remount_alike {cat : List Record} (h : Represents m.system.disk m.system.fat cat) :
    m.system.Alike m.remount.system := by
  have he : isEmptyStorage m.system.disk = false := isEmptyStorage_eq_false.mpr h.boot
  constructor <;> simp [Machine.remount, initializeFilesystemFat32, he, h.stored]

/-- **The cached FAT is the stored one, and mounting again is invisible.** -/
theorem remount_invisible (hm : m.Reachable) :
    readCluster m.system.disk fatClusterNumber = m.system.driverState.fatTable.bytes ∧
      m.system.disk bootSector = fsSignature ∧
      isEmptyStorage m.system.disk = false ∧ m.remount.system.disk = m.system.disk ∧
      (∀ n, Machine.Reaches Allowed m n → ∃ n', Machine.Reaches Allowed m.remount n' ∧
        n'.history = n.history ∧ n'.system.disk = n.system.disk) ∧
      ∀ n', Machine.Reaches Allowed m.remount n' → ∃ n, Machine.Reaches Allowed m n ∧
        n.history = n'.history ∧ n.system.disk = n'.system.disk := by
  have h := hm.sound.represents
  have halike := h.remount_alike
  refine ⟨h.stored, h.boot, isEmptyStorage_eq_false.mpr h.boot, halike.disk.symm, ?_, ?_⟩
  · intro n hn
    obtain ⟨n', hn', ha, hh⟩ := hn.alike halike m.remount_history
    exact ⟨n', hn', hh, ha.disk.symm⟩
  · intro n' hn'
    obtain ⟨n, hn, ha, hh⟩ := hn'.alike halike.symm m.remount_history.symm
    exact ⟨n, hn, hh, ha.disk.symm⟩

/-- With a folder in the root, a disk is not formatted again. -/
theorem remount_invisible_mkdir : (blankMachine.firstWrite (mkdirCall fun _ => 98)).remount.system.disk =
    (blankMachine.firstWrite (mkdirCall fun _ => 98)).system.disk :=
  (remount_invisible (blankMachine_fresh.firstWrite_reachable (mkdirCall_fitsRoot _)
    (mkdirCall_folderOk _))).2.2.2.1

end Runs

end Os2024
