import Os2024.Fat32.Entries
import Os2024.Fat32.Fresh

/-!
# Reading back what was written

Cell `j` of a new file holds cluster `2 * j + 1` of the buffer, where cluster `j` should be. What a `read` copies agrees
with the buffer on its first `n` bytes, whatever the reader's memory was, only when `RoundTrips` holds (`readBack_iff`):
for less than a cluster, and for one or two clusters that repeat. Together with the attribute byte, which `write` does
not clear, this is `round_trip_iff`.
-/

namespace Os2024

open LinkTable Scan

/-! ## The bytes of the buffer -/

section Bytes

variable {request : FAT32DriverRequest} {mem mem' : Memory} {buf : UInt32} {n : Nat}

/-- A `write` of `request` from the memory `mem` can be read back: the clusters of the buffer that end up in the wrong
place are equal to the ones they replace. -/
def RoundTrips (request : FAT32DriverRequest) (mem : Memory) : Prop :=
  request.bufferSize.toNat < 2048 ∨
    (request.bufferSize.toNat = 2048 ∧ request.chunk mem 1 = request.chunk mem 0) ∨
    (request.bufferSize.toNat = 4096 ∧ request.chunk mem 1 = request.chunk mem 0 ∧
      request.chunk mem 2 = request.chunk mem 1)

theorem length_writtenData : (writtenData request mem).length = (request.clusterCount + 1) / 2 := by
  simp [writtenData]

/-- Byte `k` of a buffer at `buf` after `writtenData` has been copied there. -/
theorem storeClusters_writtenData (hcount : request.clusterCount ≤ 512) {k : Nat} (hk : k < 2 ^ 32) :
    mem'.storeClusters buf (writtenData request mem) (buf + UInt32.ofNat k) =
      if k < (request.clusterCount + 1) / 2 * 2048 then
        request.chunk mem (min (2 * (k / 2048) + 1) (request.clusterCount - 1)) ⟨k % 2048, Nat.mod_lt _ (by omega)⟩
      else mem' (buf + UInt32.ofNat k) := by
  have hlen : (writtenData request mem).length = (request.clusterCount + 1) / 2 := length_writtenData
  have hoff : (buf + UInt32.ofNat k - buf).toNat = k := by
    rw [UInt32.add_comm, UInt32.add_sub_cancel, UInt32.toNat_ofNat_of_lt' hk]
  rw [Memory.storeClusters_apply (by rw [hlen]; omega), hoff, hlen]
  refine if_ctx_congr Iff.rfl (fun h => ?_) fun _ => rfl
  have hj : k / 2048 < (request.clusterCount + 1) / 2 := by omega
  rw [writtenData, List.getD_eq_getElem?_getD, List.getElem?_map, List.getElem?_range hj]
  rfl

/-- The copy of a file agrees with what was written on its first `n` bytes, for every state of the reader's memory,
exactly when `RoundTrips` holds. -/
theorem readBack_iff (hcount : request.clusterCount ≤ 512) :
    (∀ (mem' : Memory) (buf : UInt32), ∀ k < request.bufferSize.toNat, mem'.storeClusters buf (writtenData request mem)
      (buf + UInt32.ofNat k) = mem (request.buf + UInt32.ofNat k)) ↔ RoundTrips request mem := by
  obtain ⟨n, hn⟩ : ∃ n, request.bufferSize.toNat = n := ⟨_, rfl⟩
  have hc : request.clusterCount = n / 2048 + 1 := by rw [FAT32DriverRequest.clusterCount, hn]
  have hbyte : ∀ k, mem (request.buf + UInt32.ofNat k) =
      request.chunk mem (k / 2048) ⟨k % 2048, Nat.mod_lt _ (by omega)⟩ := by
    intro k
    have hk : k / 2048 * 2048 + k % 2048 = k := by omega
    rw [chunk_apply, hk]
  constructor
  · intro h
    -- the reader's memory may differ in any byte that is not copied
    have hall : n ≤ (request.clusterCount + 1) / 2 * 2048 := by
      by_contra hgt
      rw [not_le] at hgt
      have hk := h (fun _ => mem (request.buf + UInt32.ofNat ((request.clusterCount + 1) / 2 * 2048)) + 1) 0 _
        (hn ▸ hgt)
      rw [storeClusters_writtenData hcount (by omega), if_neg (lt_irrefl _)] at hk
      simp at hk
    -- cluster `j` of the buffer is replaced by the one in cell `j`
    have hcell : ∀ j, (j + 1) * 2048 ≤ n →
        request.chunk mem (min (2 * j + 1) (request.clusterCount - 1)) = request.chunk mem j := by
      intro j hj
      funext b
      have hk := h mem 0 (j * 2048 + b.val) (by omega)
      have hdiv : (j * 2048 + b.val) / 2048 = j := by omega
      have hmod : (j * 2048 + b.val) % 2048 = b.val := by omega
      rw [storeClusters_writtenData hcount (by omega), if_pos (by omega), hbyte] at hk
      simpa only [hdiv, hmod] using hk
    rw [hc] at hall hcell
    rw [RoundTrips, hn]
    have hcases : n < 2048 ∨ n = 2048 ∨ n = 4096 := by omega
    rcases hcases with h0 | rfl | rfl
    · exact .inl h0
    · exact .inr (.inl ⟨rfl, hcell 0 (by omega)⟩)
    · exact .inr (.inr ⟨rfl, hcell 0 (by omega), hcell 1 (by omega)⟩)
  · rintro h mem' buf k hk
    rw [hn] at hk
    rw [storeClusters_writtenData hcount (by omega), hbyte]
    rw [RoundTrips, hn] at h
    rcases h with h0 | ⟨rfl, h10⟩ | ⟨rfl, h10, h21⟩
    · have hk0 : k / 2048 = 0 := by omega
      have hc1 : request.clusterCount = 1 := by omega
      rw [if_pos (by omega), hc1, hk0]
      rfl
    · have hk0 : k / 2048 = 0 := by omega
      have hc2 : request.clusterCount = 2 := by omega
      rw [if_pos (by omega), hc2, hk0]
      exact congrFun h10 _
    · have hc3 : request.clusterCount = 3 := by omega
      rw [if_pos (by omega), hc3]
      have hk01 : k / 2048 = 0 ∨ k / 2048 = 1 := by omega
      rcases hk01 with hk0 | hk1
      · rw [hk0]
        exact congrFun h10 _
      · rw [hk1]
        exact congrFun h21 _

end Bytes

/-! ## The file -/

section Files

variable {s s' : System} {call : Call} {request : FAT32DriverRequest} {i : Fin 64} {fuel : Nat}

/-- **A file reads back as it was written** only if its entry is not marked as a folder and `RoundTrips` holds. -/
theorem round_trip_iff (hop : call.op = .write) (hsize : call.request.bufferSize ≠ 0)
    (hexec : call.exec fuel s = .ok (0, s')) :
    (∀ rc : Call, rc.op = .read → rc.request.key = call.request.key →
      (∀ j, s'.found rc.request = some j →
        ((tableAt s'.disk rc.request.parentClusterNumber).table j).filesize ≤ rc.request.bufferSize) →
      ∃ t, rc.exec 512 s' = .ok (0, t) ∧ ∀ k < call.request.bufferSize.toNat,
        t.memory (rc.request.buf + UInt32.ofNat k) = call.memory (call.request.buf + UInt32.ofNat k)) ↔
      (∀ j, (tableAt s.disk call.request.parentClusterNumber).emptyEntry = some j →
        ((tableAt s.disk call.request.parentClusterNumber).table j).isDirectory = false) ∧
      RoundTrips call.request call.memory := by
  obtain ⟨i, hw, rfl⟩ := Call.exec_write_ok hop hexec
  have hdir : ((call.start s).writtenEntry call.request i).isDirectory =
      ((tableAt s.disk call.request.parentClusterNumber).table i).isDirectory :=
    System.writtenEntry_isDirectory_file _ i hsize
  have hempty : (∀ j, (tableAt s.disk call.request.parentClusterNumber).emptyEntry = some j →
      ((tableAt s.disk call.request.parentClusterNumber).table j).isDirectory = false) ↔
      ((call.start s).writtenEntry call.request i).isDirectory = false := by
    rw [hdir]
    have he : (tableAt s.disk call.request.parentClusterNumber).emptyEntry = some i := hw.emptyEntry
    rw [he]
    exact ⟨fun h => h i rfl, fun h j hj => Option.some.inj hj ▸ h⟩
  rw [hempty]
  constructor
  · intro h
    -- a `read` with any memory and place, and a buffer large enough for every file
    have hread : ∀ (mem' : Memory) (buf : UInt32),
        ((call.start s).writtenEntry call.request i).isDirectory = false ∧
        ∀ k < call.request.bufferSize.toNat, mem'.storeClusters buf (writtenData call.request call.memory)
          (buf + UInt32.ofNat k) = call.memory (call.request.buf + UInt32.ofNat k) := by
      intro mem' buf
      let rc : Call := ⟨.read, { call.request with buf := buf, bufferSize := -1 }, mem'⟩
      obtain ⟨-, -, t, ht, htm⟩ := hw.exec_read rc rfl rfl
      obtain ⟨t', ht', hbytes⟩ := h rc rfl rfl fun j _ => le_largestSize _
      cases hd : ((call.start s).writtenEntry call.request i).isDirectory with
      | true =>
        rw [readAnswer_folder hd] at ht
        cases ht.symm.trans ht'
      | false =>
        have hbuf : ((call.start s).writtenEntry call.request i).filesize ≤ rc.request.bufferSize := le_largestSize _
        rw [readAnswer_file hd hbuf] at ht htm
        cases ht.symm.trans ht'
        refine ⟨rfl, fun k hk => ?_⟩
        rw [← hbytes k hk, htm]
        rfl
    exact ⟨(hread call.memory 0).1, (readBack_iff (clusterCount_le hw)).mp fun mem' buf k hk => (hread mem' buf).2 k hk⟩
  · rintro ⟨hd, hrt⟩ rc hrop hkey hfits
    obtain ⟨hfound, hself, t, ht, htm⟩ := hw.exec_read rc hrop hkey
    rw [readAnswer_file hd (hself ▸ hfits i hfound)] at ht htm
    refine ⟨t, ht, fun k hk => ?_⟩
    rw [htm]
    exact (readBack_iff (clusterCount_le hw)).mpr hrt rc.memory rc.request.buf k hk

/-- One byte in a new file is read back. -/
theorem round_trip_byte :
    ∃ s' t, (writeCall (fun _ => 97) 1 fun _ => 7).exec 512 blankMachine.system = .ok (0, s') ∧
      (readCall (fun _ => 97) 2048 fun _ => 0).exec 512 s' = .ok (0, t) ∧ t.memory (0 + UInt32.ofNat 0) = 7 := by
  have hfits := writeCall_fitsRoot (fun _ => 97) 1 (fun _ => 7) (by decide)
  have hw := blankMachine_fresh.canWrite hfits
  have hexec := blankMachine_fresh.exec_write hfits
  have htable := blankMachine_fresh.root_table
  generalize blankMachine.system = s at *
  obtain ⟨t, ht, hbytes⟩ := (round_trip_iff rfl (by decide) hexec).mpr ⟨fun j hj => by
    obtain rfl := Option.some.inj (hw.emptyEntry.symm.trans hj)
    rw [show (writeCall (fun _ => 97) 1 fun _ => 7).request.parentClusterNumber = rootClusterNumber from rfl, htable]
    decide, .inl (by decide)⟩ (readCall (fun _ => 97) 2048 fun _ => 0) rfl rfl fun j hj => by
      obtain ⟨hfound, hself, -⟩ := hw.exec_read (readCall (fun _ => 97) 2048 fun _ => 0) rfl rfl
      obtain rfl := Option.some.inj (hfound.symm.trans hj)
      rw [hself, System.writtenEntry_filesize]
      decide
  exact ⟨_, t, hexec, ht, hbytes 0 (by decide)⟩

/-- A cluster of ones, with zeros behind it. -/
def oneCluster : Memory := fun a => if a < 2048 then 1 else 0

/-- The cluster of ones, written to a new file, reads back as zeros. -/
theorem round_trip_fails :
    blankMachine.Reachable ∧ Allowed blankMachine.history (writeCall (fun _ => 97) 2048 oneCluster) ∧
      ∃ s' t, (writeCall (fun _ => 97) 2048 oneCluster).exec 512 blankMachine.system =
          .ok (0, s') ∧
        (tableAt s'.disk rootClusterNumber).search (identifier (fun _ => 97) fun _ => 0) = some 2 ∧
        ((tableAt s'.disk rootClusterNumber).table 2).filesize ≤ 4096 ∧
        (readCall (fun _ => 97) 4096 fun _ => 0).exec 512 s' = .ok (0, t) ∧
        oneCluster (0 + UInt32.ofNat 0) = 1 ∧ t.memory (0 + UInt32.ofNat 0) = 0 := by
  have hfits := writeCall_fitsRoot (fun _ => 97) 2048 oneCluster (by decide)
  have hw := blankMachine_fresh.canWrite hfits
  have hexec := blankMachine_fresh.exec_write hfits
  have htable := blankMachine_fresh.root_table
  refine ⟨⟨blankMachine, blankMachine_fresh, .refl⟩, ⟨Live.root _, writeCall_folderOk (by decide)⟩, ?_⟩
  generalize blankMachine.system = s at *
  obtain ⟨hfound, hself, t, ht, htm⟩ := hw.exec_read (readCall (fun _ => 97) 4096 fun _ => 0) rfl rfl
  have hcount : (writeCall (fun _ => 97) 2048 oneCluster).request.clusterCount = 2 := rfl
  have hsize : (((writeCall (fun _ => 97) 2048 oneCluster).start s).writtenEntry
      (writeCall (fun _ => 97) 2048 oneCluster).request 2).filesize ≤
        (readCall (fun _ => 97) 4096 fun _ => 0).request.bufferSize := by
    rw [System.writtenEntry_filesize, hcount]
    decide
  have hd : (((writeCall (fun _ => 97) 2048 oneCluster).start s).writtenEntry
      (writeCall (fun _ => 97) 2048 oneCluster).request 2).isDirectory = false := by
    have hzero : (newRootDirectoryTable.table 2).isDirectory = false := by decide
    rw [System.writtenEntry_isDirectory, ← hzero, ← htable]
    rfl
  rw [readAnswer_file hd hsize] at ht htm
  refine ⟨_, t, hexec, hfound, hself ▸ hsize, ht, by decide, ?_⟩
  rw [htm]
  refine (storeClusters_writtenData (by rw [hcount]; decide) (by decide)).trans ?_
  rw [hcount, if_pos (by decide), chunk_apply]
  exact show oneCluster (0 + UInt32.ofNat (min (2 * (0 / 2048) + 1) (2 - 1) * 2048 + 0 % 2048)) = 0 by decide

end Files

end Os2024
