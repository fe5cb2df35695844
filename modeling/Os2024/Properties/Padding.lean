import Os2024.Fat32.Fresh

/-!
# What reaches the disk

`write` stores whole clusters, `buffer_size / CLUSTER_SIZE + 1` of them, and so at least one byte from behind the
buffer, whatever its size. Two executions that differ behind the buffer answer alike (`write_code_congr`), but leave the
same disk only if the bytes up to the end of the last cluster are the same (`written_disk_iff`); `persisted_iff` is the
exact condition, for any state.
-/

namespace Os2024

open LinkTable Scan

/-- From `lo` up to `hi` the memories hold the same bytes behind two buffers. -/
def SameBytes (mem mem' : Memory) (buf buf' : UInt32) (lo hi : Nat) : Prop :=
  ∀ k, lo ≤ k → k < hi → mem' (buf' + UInt32.ofNat k) = mem (buf + UInt32.ofNat k)

/-- Both executions of `write` return, with one code and one disk. -/
def PersistsAlike (s t : System) (request request' : FAT32DriverRequest) : Prop :=
  ∃ code s' t', write 512 request s = .ok (code, s') ∧ write 512 request' t = .ok (code, t') ∧ t'.disk = s'.disk

/-! ## Two executions -/

section Executions

variable {s t : System} {request : FAT32DriverRequest} {buf : UInt32} {i : Fin 64}

theorem SameBytes.chunk {mem mem' : Memory} {n : Nat}
    (h : SameBytes mem mem' request.buf buf 0 (n * 2048)) {k : Nat} (hk : k < n) :
    FAT32DriverRequest.chunk { request with buf := buf } mem' k = request.chunk mem k := by
  funext j
  rw [chunk_apply, chunk_apply]
  exact h (k * 2048 + j.val) (Nat.zero_le _) (by omega)

variable (hdisk : t.disk = s.disk) (hfat : t.fat = s.fat)
include hdisk hfat

/-- Two executions that can write persist the same calls, but for the data. -/
theorem writtenCalls_of_same (hdata : SameBytes s.memory t.memory request.buf buf 0 (request.clusterCount * 2048)) :
    t.writtenCalls { request with buf := buf } i = s.writtenCalls request i := by
  have hwrites : dataWrites { request with buf := buf } t request.clusterCount =
      dataWrites request s request.clusterCount := by
    refine List.map_congr_left fun k hk => ?_
    rw [hfat, hdata.chunk (List.mem_range.mp hk)]
  have hcells : t.writtenFat { request with buf := buf } = s.writtenFat request := by
    rw [System.writtenFat, System.writtenFat, System.writtenCells, System.writtenCells, hfat]
    rfl
  have htable : t.writtenTable { request with buf := buf } i = s.writtenTable request i := by
    rw [System.writtenTable, System.writtenTable, System.writtenEntry, System.writtenEntry, hdisk, hfat]
    rfl
  rw [System.writtenCalls, System.writtenCalls, hcells, htable]
  exact congrArg (· ++ _) hwrites

/-- The disk depends on all bytes of the clusters stored. -/
theorem written_disk_iff (h : CanWrite s request i)
    (hagree : SameBytes s.memory t.memory request.buf buf 0 request.bufferSize.toNat) :
    (t.written { request with buf := buf } i).disk = (s.written request i).disk ↔
      SameBytes s.memory t.memory request.buf buf request.bufferSize.toNat (request.clusterCount * 2048) := by
  have h' : CanWrite t { request with buf := buf } i := h.of_same hdisk hfat
  have hcount : request.clusterCount = request.bufferSize.toNat / 2048 + 1 := rfl
  constructor
  · intro he k hlo hhi
    -- the last cell holds the last cluster
    have hk : (request.clusterCount + 1) / 2 - 1 < (request.clusterCount + 1) / 2 := by omega
    have hlast : min (2 * ((request.clusterCount + 1) / 2 - 1) + 1) (request.clusterCount - 1) =
        request.clusterCount - 1 := by omega
    have hs := h.written_freeCell hk
    have ht := h'.written_freeCell hk
    rw [he, hfat, hs, hlast] at ht
    have hbyte := congrFun ht ⟨k % 2048, Nat.mod_lt _ (by omega)⟩
    rw [show FAT32DriverRequest.clusterCount { request with buf := buf } = request.clusterCount from rfl, hlast,
      chunk_apply, chunk_apply] at hbyte
    have hoff : (request.clusterCount - 1) * 2048 + k % 2048 = k := by omega
    simpa only [hoff] using hbyte.symm
  · intro hrest
    have hall : SameBytes s.memory t.memory request.buf buf 0 (request.clusterCount * 2048) := by
      intro k _ hhi
      rcases Nat.lt_or_ge k request.bufferSize.toNat with hlt | hge
      · exact hagree k (Nat.zero_le _) hlt
      · exact hrest k hge hhi
    change applyWrites t.disk _ = applyWrites s.disk _
    rw [hdisk, writtenCalls_of_same hdisk hfat hall]

/-- A `write` that is refused is refused with the same code, whatever memory holds. -/
theorem write_code_congr (buf : UInt32) {fuel : Nat} (hp : request.parentClusterNumber.toNat < 512)
    (hno : ∀ i, ¬ CanWrite s request i) : ∃ code s' t', write fuel request s = .ok (code, s') ∧
      write fuel { request with buf := buf } t = .ok (code, t') ∧ s'.disk = s.disk ∧ t'.disk = t.disk := by
  by_cases hv : ParentValid s request.parentClusterNumber
  · have hv' : ParentValid t request.parentClusterNumber := hv.of_same hdisk hfat
    cases hs : s.found request with
    | some j =>
      have hs' : t.found { request with buf := buf } = some j := by
        rw [System.found, hdisk]
        exact hs
      exact ⟨1, _, _, write_of_found hv hs, write_of_found hv' hs', rfl, rfl⟩
    | none =>
      have hs' : t.found { request with buf := buf } = none := by
        rw [System.found, hdisk]
        exact hs
      have hroom : ∀ i, (tableAt s.disk request.parentClusterNumber).emptyEntry = some i →
          (freeCells s.fat).length < request.clusterCount := by
        intro i he
        by_contra hle
        exact hno i ⟨hv, hs, he, Nat.not_lt.mp hle⟩
      exact ⟨-1, _, _, write_of_noRoom hv hs hroom, write_of_noRoom hv' hs' (hdisk ▸ hfat ▸ hroom), rfl, rfl⟩
  · have hv' : ¬ ParentValid t request.parentClusterNumber := fun h => hv (h.of_same hdisk.symm hfat.symm)
    obtain ⟨s', hs', hk⟩ := Op.run_of_not_valid .write fuel hp hv
    have hp' : ({ request with buf := buf } : FAT32DriverRequest).parentClusterNumber.toNat < 512 := hp
    obtain ⟨t', ht', hk'⟩ := Op.run_of_not_valid .write fuel hp' hv'
    exact ⟨2, s', t', hs', ht', hk.kept.disk, hk'.kept.disk⟩

end Executions

/-- **What `write` persists depends only on the bytes of the request** exactly when it is refused, or the memories agree
up to the end of the last cluster too. -/
theorem persisted_iff (s t : System) (request : FAT32DriverRequest) (buf : UInt32) (hdisk : t.disk = s.disk)
    (hfat : t.driverState.fatTable = s.driverState.fatTable)
    (hagree : SameBytes s.memory t.memory request.buf buf 0 request.bufferSize.toNat) :
    PersistsAlike s t request { request with buf := buf } ↔ request.parentClusterNumber.toNat < 512 ∧
      ((∃ i, CanWrite s request i) →
        SameBytes s.memory t.memory request.buf buf request.bufferSize.toNat (request.clusterCount * 2048)) := by
  have hcells : t.fat = s.fat := congrArg FAT32FileAllocationTable.clusterMap hfat
  constructor
  · rintro ⟨code, s', t', hs, ht, he⟩
    refine ⟨Nat.lt_of_not_le fun hge => ?_, ?_⟩
    · cases (write_of_le hge).symm.trans hs
    · rintro ⟨i, hw⟩
      have hw' : CanWrite t { request with buf := buf } i := hw.of_same hdisk hcells
      cases (write_of_canWrite hw (clusterCount_le hw)).symm.trans hs
      cases (write_of_canWrite hw' (clusterCount_le hw')).symm.trans ht
      exact (written_disk_iff hdisk hcells hw hagree).mp he
  · rintro ⟨hp, hbytes⟩
    by_cases hfit : ∃ i, CanWrite s request i
    · obtain ⟨i, hw⟩ := hfit
      have hw' : CanWrite t { request with buf := buf } i := hw.of_same hdisk hcells
      exact ⟨0, _, _, write_of_canWrite hw (clusterCount_le hw), write_of_canWrite hw' (clusterCount_le hw'),
        (written_disk_iff hdisk hcells hw hagree).mpr (hbytes ⟨i, hw⟩)⟩
    · obtain ⟨code, s', t', hs, ht, hsd, htd⟩ := write_code_congr hdisk hcells buf hp (not_exists.mp hfit)
      exact ⟨code, s', t', hs, ht, htd.trans (hdisk.trans hsd.symm)⟩

/-- Zeros, but for one byte. -/
def oneByte (address : UInt32) : Memory := fun a => if a = address then 1 else 0

theorem oneByte_sameBytes {address : UInt32} {lo hi : Nat} (hhi : hi ≤ 2 ^ 32)
    (h : address.toNat < lo ∨ hi ≤ address.toNat) : SameBytes (fun _ => 0) (oneByte address) 0 0 lo hi := by
  intro k hlo hk
  refine if_neg fun he => ?_
  have hto := congrArg UInt32.toNat he
  rw [UInt32.zero_add, UInt32.toNat_ofNat_of_lt' (show k < UInt32.size from hk.trans_le hhi)] at hto
  omega

/-- A byte behind the cluster of a file of one byte does not matter. -/
theorem persisted_one_cluster :
    PersistsAlike ((writeCall (fun _ => 97) 1 fun _ => 0).start blankMachine.system)
      ((writeCall (fun _ => 97) 1 (oneByte 2048)).start blankMachine.system)
      (writeCall (fun _ => 97) 1 fun _ => 0).request (writeCall (fun _ => 97) 1 (oneByte 2048)).request := by
  have hagree : SameBytes (fun _ => 0) (oneByte 2048) 0 0 0 1 := oneByte_sameBytes (by decide) (.inr (by decide))
  have hrest : SameBytes (fun _ => 0) (oneByte 2048) 0 0 1 2048 := oneByte_sameBytes (by decide) (.inr (by decide))
  generalize blankMachine.system = m
  exact (persisted_iff ((writeCall (fun _ => 97) 1 fun _ => 0).start m)
    ((writeCall (fun _ => 97) 1 (oneByte 2048)).start m) (writeCall (fun _ => 97) 1 fun _ => 0).request 0 rfl rfl
    hagree).mpr ⟨by decide, fun _ => hrest⟩

/-- The byte behind a file of one byte reaches the disk. -/
theorem byte_behind_persisted :
    SameBytes (fun _ => 0) (oneByte 1) 0 0 0 1 ∧
      ¬ PersistsAlike ((writeCall (fun _ => 97) 1 fun _ => 0).start blankMachine.system)
        ((writeCall (fun _ => 97) 1 (oneByte 1)).start blankMachine.system)
        (writeCall (fun _ => 97) 1 fun _ => 0).request (writeCall (fun _ => 97) 1 (oneByte 1)).request := by
  have hagree : SameBytes (fun _ => 0) (oneByte 1) 0 0 0 1 := oneByte_sameBytes (by decide) (.inr (by decide))
  refine ⟨hagree, ?_⟩
  rintro ⟨code, s', t', hs, ht, he⟩
  have hw := blankMachine_fresh.canWrite (writeCall_fitsRoot (fun _ => 97) 1 (fun _ => 0) (by decide))
  have hw' := blankMachine_fresh.canWrite (writeCall_fitsRoot (fun _ => 97) 1 (oneByte 1) (by decide))
  generalize blankMachine.system = m at *
  cases (write_of_canWrite hw (by decide)).symm.trans hs
  cases (write_of_canWrite hw' (by decide)).symm.trans ht
  have hbytes := (written_disk_iff (s := (writeCall (fun _ => 97) 1 fun _ => 0).start m)
    (t := (writeCall (fun _ => 97) 1 (oneByte 1)).start m) rfl rfl hw hagree).mp he
  have hbyte : oneByte 1 (0 + UInt32.ofNat 1) = 0 := hbytes 1 (by decide) (by decide)
  exact absurd hbyte (by decide)

end Os2024
