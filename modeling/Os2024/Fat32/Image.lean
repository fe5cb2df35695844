import Os2024.Fat32.Spec

/-!
# The disk after `write` and `delete`

Cluster by cluster, what the calls of `write_clusters` leave: the FAT, the parent's table, and for `write` the data.
Free cell number `k` holds cluster `2 * k + 1` of the buffer, or the last one if there are fewer
(`readCluster_dataWrites`); clusters of other cells are as before (`written_of_ne`, `deleted_of_ne`).
-/

namespace Os2024

open LinkTable

/-! ## The data of `write` -/

section Data

variable {s : System} {request : FAT32DriverRequest} {disk : Disk} {k n : Nat} {w : UInt32 × Cluster}

theorem chunk_apply (request : FAT32DriverRequest) (mem : Memory) (i : Nat) (j : Fin 2048) :
    request.chunk mem i j = mem (request.buf + UInt32.ofNat (i * 2048 + j.val)) := by
  rw [FAT32DriverRequest.chunk, Memory.load, UInt32.ofNat_add, UInt32.add_assoc]

theorem mem_dataWrites (hw : w ∈ dataWrites request s n) :
    ∃ i, i < n ∧ w = (clusterNum (freeCell s.fat (i / 2)), request.chunk s.memory i) := by
  simpa [dataWrites, eq_comm] using hw

/-- What the first `n` rounds leave in free cell number `k`. -/
theorem readCluster_dataWrites (hroom : (n - 1) / 2 < (freeCells s.fat).length) (hk : k < (n + 1) / 2) :
    readCluster (applyWrites disk (dataWrites request s n)) (clusterNum (freeCell s.fat k)) =
      request.chunk s.memory (min (2 * k + 1) (n - 1)) := by
  induction n with
  | zero => omega
  | succ n ih =>
    rw [Nat.add_sub_cancel] at hroom
    have hle : k ≤ n / 2 := by omega
    rw [dataWrites_succ, readCluster_applyWrites_concat (clusterNum_lt _) (clusterNum_lt _)]
    rcases Nat.eq_or_lt_of_le hle with rfl | hlt
    · rw [if_pos rfl, show min (2 * (n / 2) + 1) (n + 1 - 1) = n by omega]
    · have hne : clusterNum (freeCell s.fat k) ≠ clusterNum (freeCell s.fat (n / 2)) := fun h =>
        hlt.ne (freeCell_inj (hlt.trans hroom) hroom (clusterNum_injective h))
      rw [if_neg hne, ih (by omega) (by omega),
        show min (2 * k + 1) (n + 1 - 1) = min (2 * k + 1) (n - 1) by omega]

end Data

/-! ## `write` -/

section Write

variable {s : System} {request : FAT32DriverRequest} {i : Fin 64} {a : Fin 512} {c : UInt32} {k : Nat}

theorem clusterCount_pos (request : FAT32DriverRequest) : 0 < request.clusterCount := Nat.succ_pos _

theorem ParentValid.ne_one (h : ParentValid s c) : c ≠ fatClusterNumber := by
  rintro rfl
  exact h.not_lt_two (by decide)

theorem ParentValid.ne_zero (h : ParentValid s c) : c ≠ 0 := by
  rintro rfl
  exact h.not_lt_two (by decide)

theorem ParentValid.lt (h : ParentValid s c) : c.toNat < 512 := by
  obtain ⟨p, rfl, -⟩ := h
  rw [toNat_clusterNum]
  exact p.isLt

/-- The calls both operations end with write neither cluster `0` nor one that is not a cell's. -/
theorem ParentValid.finish_ok (h : ParentValid s c) {fatBytes tableBytes : Cluster} {w : UInt32 × Cluster}
    (hw : w ∈ [(fatClusterNumber, fatBytes), (c, tableBytes)]) : w.1.toNat < 2 ^ 30 ∧ w.1 ≠ 0 := by
  rcases List.mem_cons.mp hw with rfl | hw
  · exact show fatClusterNumber.toNat < 2 ^ 30 ∧ fatClusterNumber ≠ 0 by decide
  · obtain rfl := List.mem_singleton.mp hw
    exact ⟨h.lt.trans (by decide), h.ne_zero⟩

theorem mem_writtenCells (ha : a ∈ s.writtenCells request) : 2 ≤ a.val ∧ s.fat a = fat32FatEmptyEntry :=
  mem_freeCells.mp (List.mem_of_mem_take ha)

theorem writtenFat_of_notMem (ha : a ∉ s.writtenCells request) : s.writtenFat request a = s.fat a := link_of_notMem ha

theorem fatCluster_ne_writtenCells (s : System) (request : FAT32DriverRequest) :
    ∀ a ∈ s.writtenCells request, clusterNum a ≠ fatClusterNumber := by
  rintro a ha he
  rw [fatClusterNumber_eq, clusterNum_inj] at he
  have h2 := (mem_writtenCells ha).1
  rw [he] at h2
  exact absurd h2 (by decide)

theorem writtenCells_nodup (s : System) (request : FAT32DriverRequest) : (s.writtenCells request).Nodup :=
  (freeCells_nodup s.fat).sublist (List.take_sublist _ _)

/-- The parent's cluster is not one of the cells taken. -/
theorem ParentValid.ne_writtenCells (h : ParentValid s c) (ha : a ∈ s.writtenCells request) : clusterNum a ≠ c := by
  obtain ⟨p, rfl, -, hend, -⟩ := h
  rw [ne_eq, clusterNum_inj]
  rintro rfl
  exact absurd (hend.symm.trans (mem_writtenCells ha).2) (by decide)

namespace CanWrite

variable (h : CanWrite s request i)
include h

theorem last_lt : (request.clusterCount - 1) / 2 < (freeCells s.fat).length := by
  have hroom := h.room
  have hpos := clusterCount_pos request
  omega

theorem length_writtenCells : (s.writtenCells request).length = (request.clusterCount + 1) / 2 := by
  have hroom := h.room
  rw [System.writtenCells, List.length_take, Nat.min_eq_left (by omega)]

theorem writtenCells_eq_map :
    s.writtenCells request = (List.range ((request.clusterCount + 1) / 2)).map (freeCell s.fat) := by
  have hlast := h.last_lt
  have hlen := h.length_writtenCells
  refine List.ext_getElem (by simpa using hlen) fun k hk _ => ?_
  rw [List.getElem_map, List.getElem_range, freeCell_eq (by omega)]
  simp only [System.writtenCells, List.getElem_take]

theorem freeCell_mem_writtenCells (hk : k < (request.clusterCount + 1) / 2) :
    freeCell s.fat k ∈ s.writtenCells request := by
  rw [h.writtenCells_eq_map]
  exact List.mem_map_of_mem (List.mem_range.mpr hk)

theorem writtenCells_eq_cons : s.writtenCells request = freeCell s.fat 0 :: (s.writtenCells request).tail := by
  obtain ⟨n, hn⟩ : ∃ n, (request.clusterCount + 1) / 2 = n + 1 :=
    ⟨(request.clusterCount + 1) / 2 - 1, by have hpos := clusterCount_pos request; omega⟩
  rw [h.writtenCells_eq_map, hn, List.range_succ_eq_map]
  rfl

/-- The chain of the new entry. -/
theorem chain : FatChain (s.writtenFat request) (clusterNum (freeCell s.fat 0)) (s.writtenCells request) := by
  have hc : FatChain (s.writtenFat request) (start clusterNum fat32FatEndOfFile (s.writtenCells request))
      (s.writtenCells request) := chain_link (writtenCells_nodup s request)
  have hs : start clusterNum fat32FatEndOfFile (s.writtenCells request) = clusterNum (freeCell s.fat 0) := by
    rw [h.writtenCells_eq_cons]
    rfl
  rwa [hs] at hc

theorem call_fst_mem {w : UInt32 × Cluster} (hw : w ∈ dataWrites request s request.clusterCount) :
    ∃ a ∈ s.writtenCells request, w.1 = clusterNum a := by
  obtain ⟨j, hj, rfl⟩ := mem_dataWrites hw
  exact ⟨_, h.freeCell_mem_writtenCells (by omega), rfl⟩

/-- The data is written to the cells taken. -/
theorem readCluster_dataPrefix {n : Nat} (hc : c.toNat < 2 ^ 30)
    (hcells : ∀ a ∈ s.writtenCells request, clusterNum a ≠ c) :
    readCluster (applyWrites s.disk ((dataWrites request s request.clusterCount).take n)) c = readCluster s.disk c :=
  readCluster_applyWrites_of_notMem hc fun w hm => by
    obtain ⟨a, ha, he⟩ := h.call_fst_mem (List.mem_of_mem_take hm)
    exact he ▸ ⟨clusterNum_lt a, hcells a ha⟩

theorem dataPrefix_bootSector {n : Nat} :
    applyWrites s.disk ((dataWrites request s request.clusterCount).take n) bootSector = s.disk bootSector :=
  applyWrites_bootSector fun w hm => by
    obtain ⟨a, ha, he⟩ := h.call_fst_mem (List.mem_of_mem_take hm)
    exact he ▸ ⟨clusterNum_lt a, clusterNum_ne_emptyEntry (mem_writtenCells ha).1⟩

/-- The disk of `write` before its last call. -/
theorem readCluster_linked (hc : c.toNat < 2 ^ 30) (h1 : c ≠ fatClusterNumber)
    (hcells : ∀ a ∈ s.writtenCells request, clusterNum a ≠ c) :
    readCluster (applyWrites s.disk (dataWrites request s request.clusterCount ++
      [(fatClusterNumber, FAT32FileAllocationTable.bytes ⟨s.writtenFat request⟩)])) c = readCluster s.disk c := by
  have htake := h.readCluster_dataPrefix (n := (dataWrites request s request.clusterCount).length) hc hcells
  rw [List.take_length] at htake
  rw [readCluster_applyWrites_concat hc (by decide), if_neg h1, htake]

/-- The disk after a `write`, but for the data. -/
theorem readCluster_written (hc : c.toNat < 2 ^ 30) :
    readCluster (s.written request i).disk c =
      if c = request.parentClusterNumber then (s.writtenTable request i).bytes
      else if c = fatClusterNumber then FAT32FileAllocationTable.bytes ⟨s.writtenFat request⟩
      else readCluster (applyWrites s.disk (dataWrites request s request.clusterCount)) c :=
  readCluster_applyWrites_finish hc (h.valid.lt.trans (by decide))

theorem written_parent : tableAt (s.written request i).disk request.parentClusterNumber = s.writtenTable request i := by
  rw [tableAt, h.readCluster_written (h.valid.lt.trans (by decide)), if_pos rfl, FAT32DirectoryTable.ofBytes_bytes]

theorem written_of_ne (hc : c.toNat < 2 ^ 30) (h1 : c ≠ fatClusterNumber) (hp : c ≠ request.parentClusterNumber)
    (hcells : ∀ a ∈ s.writtenCells request, clusterNum a ≠ c) :
    readCluster (s.written request i).disk c = readCluster s.disk c := by
  rw [h.readCluster_written hc, if_neg hp, if_neg h1]
  have htake := h.readCluster_dataPrefix (n := (dataWrites request s request.clusterCount).length) hc hcells
  rwa [List.take_length] at htake

/-- What `write` leaves in free cell number `k`. -/
theorem written_freeCell (hk : k < (request.clusterCount + 1) / 2) :
    readCluster (s.written request i).disk (clusterNum (freeCell s.fat k)) =
      request.chunk s.memory (min (2 * k + 1) (request.clusterCount - 1)) := by
  have hmem := h.freeCell_mem_writtenCells hk
  rw [h.readCluster_written (clusterNum_lt _), if_neg (h.valid.ne_writtenCells hmem),
    if_neg (fatCluster_ne_writtenCells s request _ hmem),
    readCluster_dataWrites h.last_lt hk]

/-- The cells that stay free are those behind the ones taken. -/
theorem freeCells_written :
    freeCells (s.writtenFat request) = (freeCells s.fat).drop ((request.clusterCount + 1) / 2) := by
  have hsplit := List.take_append_drop ((request.clusterCount + 1) / 2) (freeCells s.fat)
  have hdisjoint := List.disjoint_take_drop (freeCells_nodup s.fat) (le_refl ((request.clusterCount + 1) / 2))
  refine List.SortedLT.eq_of_mem_iff (freeCells_pairwise _).sortedLT
    ((freeCells_pairwise s.fat).sublist (List.drop_sublist _ _)).sortedLT fun a => ?_
  by_cases ha : a ∈ s.writtenCells request
  · have hused := h.chain.ne_emptyEntry (fun c hc => (mem_writtenCells hc).1) ha
    exact iff_of_false (fun hm => hused (mem_freeCells.mp hm).2) (hdisjoint ha)
  · rw [mem_freeCells, writtenFat_of_notMem ha, ← mem_freeCells]
    constructor
    · intro hm
      rw [← hsplit, List.mem_append] at hm
      exact hm.resolve_left ha
    · exact List.mem_of_mem_drop

theorem length_freeCells_written : (freeCells (s.writtenFat request)).length + (request.clusterCount + 1) / 2 =
    (freeCells s.fat).length := by
  have hroom := h.room
  rw [h.freeCells_written, List.length_drop, Nat.sub_add_cancel (by omega)]

theorem countAvailable_written :
    (s.written request i).countAvailable + (request.clusterCount + 1) / 2 = s.countAvailable :=
  h.length_freeCells_written

end CanWrite

end Write

/-! ## `delete` -/

section Delete

variable {s : System} {request : FAT32DriverRequest} {i : Fin 64} {l : List (Fin 512)} {c : UInt32}

namespace CanDelete

theorem deleted_disk :
    (s.deleted request i l).disk = applyWrites s.disk (s.deletedCalls request i l) := by
  rw [System.deleted, System.writeAll_disk, System.withFat_disk, System.withDirTable_disk, System.reloaded_disk]

variable (h : CanDelete s request i l)
include h

/-- The disk after a `delete`. -/
theorem readCluster_deleted (hc : c.toNat < 2 ^ 30) :
    readCluster (s.deleted request i l).disk c =
      if c = request.parentClusterNumber then (s.deletedTable request i).bytes
      else if c = fatClusterNumber then FAT32FileAllocationTable.bytes ⟨s.deletedFat l⟩
      else readCluster s.disk c := by
  rw [deleted_disk, System.deletedCalls, ← List.nil_append [(fatClusterNumber, _), _]]
  exact readCluster_applyWrites_finish hc (h.valid.lt.trans (by decide))

theorem deleted_fatCluster : readCluster (s.deleted request i l).disk fatClusterNumber =
    FAT32FileAllocationTable.bytes ⟨s.deletedFat l⟩ := by
  rw [h.readCluster_deleted (by decide), if_neg h.valid.ne_one.symm, if_pos rfl]

theorem deleted_parent :
    tableAt (s.deleted request i l).disk request.parentClusterNumber = s.deletedTable request i := by
  rw [tableAt, h.readCluster_deleted (h.valid.lt.trans (by decide)), if_pos rfl, FAT32DirectoryTable.ofBytes_bytes]

theorem deleted_of_ne (hc : c.toNat < 2 ^ 30) (h1 : c ≠ fatClusterNumber) (hp : c ≠ request.parentClusterNumber) :
    readCluster (s.deleted request i l).disk c = readCluster s.disk c := by
  rw [h.readCluster_deleted hc, if_neg hp, if_neg h1]

theorem deleted_bootSector : (s.deleted request i l).disk bootSector = s.disk bootSector := by
  rw [deleted_disk]
  exact applyWrites_bootSector fun w hw => h.valid.finish_ok hw

end CanDelete

end Delete

end Os2024
