import Os2024.Fat32.Entries
import Os2024.Fat32.Fresh

/-!
# Sizes

`write` counts `buffer_size / CLUSTER_SIZE + 1` clusters, one more than a multiple of `CLUSTER_SIZE` needs, stores that
many, and takes one cell for every two of them. So the room it asks for, the cells it takes and the clusters a file
needs agree for the smallest files only (`allocates_exactly_iff`), and the size it records, a multiple of `CLUSTER_SIZE`
above `buffer_size`, is never the size of the file (`size_never_recorded`).
-/

namespace Os2024

open LinkTable

/-- The clusters that the bytes of a request fill, the last one perhaps in part. -/
def FAT32DriverRequest.clustersNeeded (request : FAT32DriverRequest) : Nat := (request.bufferSize.toNat + 2047) / 2048

/-! ## The cells of a file -/

section Cells

variable {m : Machine} {s t : System} {call : Call} {i : Fin 64}

/-- The call returns `0` exactly when the clusters of its file are free, and makes a chain of as many cells. -/
structure AllocatesExactly (s : System) (call : Call) : Prop where
  returns_iff : (∃ t, call.exec 512 s = .ok (0, t)) ↔ call.request.clustersNeeded ≤ s.countAvailable
  takes : ∀ t, call.exec 512 s = .ok (0, t) → t.countAvailable + call.request.clustersNeeded = s.countAvailable
  chain : ∀ t, call.exec 512 s = .ok (0, t) → ∃ j l, t.found call.request = some j ∧
    FatChain t.fat ((tableAt t.disk call.request.parentClusterNumber).table j).clusterNumber l ∧
    l.length = call.request.clustersNeeded

/-- A `write` of a new name, with an entry for it, returns `0` exactly when the clusters it counts are free. -/
theorem Call.exec_write_zero_iff (hop : call.op = .write)
    (hv : ParentValid (call.start s) call.request.parentClusterNumber) (hnew : s.found call.request = none)
    (he : (tableAt s.disk call.request.parentClusterNumber).emptyEntry = some i) :
    call.exec 512 s = .ok (0, t) ↔
      call.request.clusterCount ≤ s.countAvailable ∧ t = (call.start s).written call.request i := by
  constructor
  · intro hexec
    obtain ⟨j, hw, ht⟩ := Call.exec_write_ok hop hexec
    obtain rfl : i = j := Option.some.inj (he.symm.trans hw.emptyEntry)
    exact ⟨hw.room, ht⟩
  · rintro ⟨hroom, rfl⟩
    exact Call.exec_write hop ⟨hv, hnew, he, hroom⟩

/-- **Allocation is exact** when the file does not fit anyway, and otherwise for at most one cluster, or two full
ones, with a cell more than they need. -/
theorem allocates_exactly_iff (hm : m.Reachable) (hop : call.op = .write) (hsize : call.request.bufferSize ≠ 0)
    (hlive : Live (catalog m.history) call.request.parentClusterNumber)
    (hfree : (tableAt m.system.disk call.request.parentClusterNumber).emptyEntry.isSome)
    (hnew : m.system.found call.request = none) :
    AllocatesExactly m.system call ↔
      m.system.countAvailable < call.request.clustersNeeded ∨
        (call.request.bufferSize.toNat / 2048 + 1 ≤ m.system.countAvailable ∧
          (call.request.bufferSize.toNat ≤ 2048 ∨ call.request.bufferSize.toNat = 4096)) := by
  obtain ⟨i, he⟩ := Option.isSome_iff_exists.mp hfree
  have hv : ParentValid (call.start m.system) call.request.parentClusterNumber :=
    hm.sound.represents.parentValid rfl rfl hlive
  have hzero : ∀ t, call.exec 512 m.system = .ok (0, t) ↔ call.request.clusterCount ≤ m.system.countAvailable ∧
      t = (call.start m.system).written call.request i := fun t => Call.exec_write_zero_iff hop hv hnew he
  have hpos : 0 < call.request.bufferSize.toNat := Nat.pos_of_ne_zero fun h => hsize (UInt32.toNat_inj.mp h)
  have hcount : call.request.clusterCount = call.request.bufferSize.toNat / 2048 + 1 := rfl
  have hneed : call.request.clustersNeeded = (call.request.bufferSize.toNat + 2047) / 2048 := rfl
  -- what a successful `write` takes
  have htaken : call.request.clusterCount ≤ m.system.countAvailable →
      ((call.start m.system).written call.request i).countAvailable + (call.request.clusterCount + 1) / 2 =
        m.system.countAvailable := fun hroom =>
    CanWrite.countAvailable_written (s := call.start m.system) ⟨hv, hnew, he, hroom⟩
  constructor
  · rintro ⟨hreturns, htakes, -⟩
    by_cases hroom : call.request.clusterCount ≤ m.system.countAvailable
    · have hdrop := htakes _ ((hzero _).mpr ⟨hroom, rfl⟩)
      have htaken := htaken hroom
      exact .inr ⟨hroom, by omega⟩
    · refine .inl (Nat.lt_of_not_le fun hle => hroom ?_)
      obtain ⟨t, ht⟩ := hreturns.mpr hle
      exact ((hzero t).mp ht).1
  · intro hcond
    refine ⟨?_, ?_, ?_⟩
    · constructor
      · rintro ⟨t, ht⟩
        have hroom := ((hzero t).mp ht).1
        omega
      · intro hle
        exact ⟨_, (hzero _).mpr ⟨by omega, rfl⟩⟩
    · intro t ht
      obtain ⟨hroom, rfl⟩ := (hzero t).mp ht
      omega
    · intro t ht
      obtain ⟨hroom, rfl⟩ := (hzero t).mp ht
      have hw : CanWrite (call.start m.system) call.request i := ⟨hv, hnew, he, hroom⟩
      refine ⟨i, (call.start m.system).writtenCells call.request, hw.found_written, ?_, ?_⟩
      · rw [hw.written_table_self, System.writtenEntry_clusterNumber]
        exact hw.chain
      · rw [hw.length_writtenCells]
        omega

/-- A new file of one full cluster takes one cell. -/
theorem allocates_exactly_one_cluster : AllocatesExactly blankMachine.system (writeCall (fun _ => 97) 2048 fun _ => 0) := by
  have hfresh := blankMachine_fresh
  generalize blankMachine = m at hfresh ⊢
  have hw := hfresh.canWrite (writeCall_fitsRoot (fun _ => 97) 2048 (fun _ => 0) (by decide))
  have hfree := hfresh.countAvailable
  exact (allocates_exactly_iff ⟨m, hfresh, .refl⟩ rfl (by decide) (Live.root _) (Option.isSome_of_eq_some hw.emptyEntry)
    hw.search).mpr (.inr ⟨hfree ▸ by decide, .inl (by decide)⟩)

/-- A new file of one cluster and a byte takes one cell, and needs two. -/
theorem allocates_one_for_two :
    blankMachine.Reachable ∧ Live (catalog blankMachine.history) rootClusterNumber ∧
      (tableAt blankMachine.system.disk rootClusterNumber).emptyEntry = some 2 ∧
      blankMachine.system.found (writeCall (fun _ => 97) 2049 fun _ => 0).request = none ∧
      ¬ AllocatesExactly blankMachine.system (writeCall (fun _ => 97) 2049 fun _ => 0) := by
  have hfresh := blankMachine_fresh
  generalize blankMachine = m at hfresh ⊢
  have hfits := writeCall_fitsRoot (fun _ => 97) 2049 (fun _ => 0) (by decide)
  have hw := hfresh.canWrite hfits
  refine ⟨⟨m, hfresh, .refl⟩, Live.root _, hw.emptyEntry, hw.search, fun h => ?_⟩
  have htaken := hw.countAvailable_written
  have hdrop := h.takes _ (hfresh.exec_write hfits)
  have hcount : (writeCall (fun _ => 97) 2049 fun _ => 0).request.clusterCount = 2 := by decide
  have hneed : (writeCall (fun _ => 97) 2049 fun _ => 0).request.clustersNeeded = 2 := by decide
  have hstart : ((writeCall (fun _ => 97) 2049 fun _ => 0).start m.system).countAvailable =
      m.system.countAvailable := rfl
  rw [hcount, hstart] at htaken
  rw [hneed] at hdrop
  omega

end Cells

/-! ## The size of a file -/

section FileSize

variable {s s' : System} {call : Call} {request : FAT32DriverRequest} {i : Fin 64} {fuel : Nat}

/-- The entry of the request records the size of its buffer. -/
def RecordsSize (s : System) (request : FAT32DriverRequest) : Prop :=
  ∃ i, s.found request = some i ∧
    ((tableAt s.disk request.parentClusterNumber).table i).filesize = request.bufferSize

/-- A `read` of the entry returns `0` with a buffer of the size of the request or more, and `2` with less. -/
def ReadsAtSize (s : System) (request : FAT32DriverRequest) : Prop :=
  ∀ rc : Call, rc.op = .read → rc.request.key = request.key →
    ∃ t, rc.exec 512 s = .ok (if rc.request.bufferSize < request.bufferSize then 2 else 0, t)

/-- The size recorded is that of the clusters counted, more than the buffer. -/
theorem CanWrite.bufferSize_lt_filesize (h : CanWrite s request i) :
    request.bufferSize < (s.writtenEntry request i).filesize := by
  have hcount := clusterCount_le h
  have hlt : request.clusterCount * 2048 < UInt32.size := by
    rw [UInt32.size]
    omega
  rw [System.writtenEntry_filesize, UInt32.lt_iff_toNat_lt, UInt32.toNat_ofNat_of_lt' hlt,
    FAT32DriverRequest.clusterCount]
  omega

/-- **The size of a file is never recorded**, and no file reads back with a buffer of its size. -/
theorem size_never_recorded (hop : call.op = .write) (hexec : call.exec fuel s = .ok (0, s')) :
    ¬ RecordsSize s' call.request ∧ ¬ ReadsAtSize s' call.request := by
  obtain ⟨i, hw, rfl⟩ := Call.exec_write_ok hop hexec
  have hlt := hw.bufferSize_lt_filesize
  constructor
  · rintro ⟨j, hj, hsize⟩
    obtain rfl := Option.some.inj (hw.found_written.symm.trans hj)
    rw [hw.written_table_self] at hsize
    exact (UInt32.ne_of_lt hlt) hsize.symm
  · intro h
    let rc : Call := ⟨.read, call.request, call.memory⟩
    obtain ⟨t, ht⟩ := h rc rfl rfl
    obtain ⟨-, -, t', ht', -⟩ := hw.exec_read rc rfl rfl
    rw [ht, if_neg (UInt32.lt_irrefl _)] at ht'
    cases hd : ((call.start s).writtenEntry call.request i).isDirectory with
    | true =>
      rw [readAnswer_folder hd] at ht'
      cases ht'
    | false =>
      have hbuf : rc.request.bufferSize < ((call.start s).writtenEntry call.request i).filesize := hlt
      rw [readAnswer_small hd hbuf] at ht'
      cases ht'

/-- A file of one byte, in a slot that was never used. -/
theorem size_never_recorded_byte :
    ¬ RecordsSize (blankMachine.firstWrite (writeCall (fun _ => 97) 1 fun _ => 7)).system
        (writeCall (fun _ => 97) 1 fun _ => 7).request ∧
      ¬ ReadsAtSize (blankMachine.firstWrite (writeCall (fun _ => 97) 1 fun _ => 7)).system
        (writeCall (fun _ => 97) 1 fun _ => 7).request := by
  have hfresh := blankMachine_fresh
  generalize blankMachine = m at hfresh ⊢
  exact size_never_recorded rfl (hfresh.exec_write (writeCall_fitsRoot (fun _ => 97) 1 (fun _ => 7) (by decide)))

/-- The file of one byte is recorded with `2048`, and a `read` with a buffer of one byte finds it too large. -/
theorem byte_too_large :
    blankMachine.Reachable ∧ Allowed blankMachine.history (writeCall (fun _ => 97) 1 fun _ => 7) ∧
      newRootDirectoryTable = tableAt blankMachine.system.disk rootClusterNumber ∧
      ∃ s' t, (writeCall (fun _ => 97) 1 fun _ => 7).exec 512 blankMachine.system = .ok (0, s') ∧
        s'.found (writeCall (fun _ => 97) 1 fun _ => 7).request = some 2 ∧
        ((tableAt s'.disk rootClusterNumber).table 2).filesize = 2048 ∧
        (readCall (fun _ => 97) 1 fun _ => 0).exec 512 s' = .ok (2, t) := by
  have hfresh := blankMachine_fresh
  generalize blankMachine = m at hfresh ⊢
  have hfits := writeCall_fitsRoot (fun _ => 97) 1 (fun _ => 7) (by decide)
  have hw := hfresh.canWrite hfits
  obtain ⟨hfound, hself, t, ht, -⟩ := hw.exec_read (readCall (fun _ => 97) 1 fun _ => 0) rfl rfl
  have hsize : (((writeCall (fun _ => 97) 1 fun _ => 7).start m.system).writtenEntry
      (writeCall (fun _ => 97) 1 fun _ => 7).request 2).filesize = 2048 := by
    rw [System.writtenEntry_filesize]
    decide
  have hd : (((writeCall (fun _ => 97) 1 fun _ => 7).start m.system).writtenEntry
      (writeCall (fun _ => 97) 1 fun _ => 7).request 2).isDirectory = false := hfresh.writtenEntry_isDirectory hfits
  rw [readAnswer_small hd (hsize ▸ by decide)] at ht
  exact ⟨⟨m, hfresh, .refl⟩, ⟨Live.root _, writeCall_folderOk (by decide)⟩, hfresh.root_table.symm, _, t,
    hfresh.exec_write hfits, hfound, hself ▸ hsize, ht⟩

end FileSize

end Os2024
