import Os2024.Fat32.Catalog

/-!
# Failing

A call that answers with an error code has changed neither the disk nor the cached FAT (`Call.kept_of_ne_zero`), and a
`write` that has counted enough free cells does not fail any more: each round of its loop finds a cell, and the loop
ends after `buffer_size / CLUSTER_SIZE + 1` rounds (`writeLoop_running`, `writeLoop_rounds`). `failures_keep` has both,
for any disk and any FAT.
-/

namespace Os2024

open LinkTable Scan

/-! ## Error codes -/

section Codes

variable {s s' : System} {request : FAT32DriverRequest} {call : Call} {fuel : Nat} {code : Int8}

theorem read_kept_of_ne_zero (h : read fuel request s = .ok (code, s')) (hne : code ≠ 0) : s.Kept s' := by
  have hload := (System.Kept.refl s).load request.parentClusterNumber
  rcases parent_cases s request.parentClusterNumber with h2 | ⟨h2, t, ho, hk⟩ | ⟨hge, -⟩ | hv
  · cases (read_of_lt_two h2).symm.trans h
    exact .refl s
  · cases (read_of_refused h2 ho).symm.trans h
    exact hk.kept
  · cases (read_of_le hge).symm.trans h
  · rw [read_of_valid hv] at h
    dsimp only at h
    split at h
    · cases h
      exact hload
    · split at h
      · cases h
        exact hload
      · split at h
        · cases h
          exact hload
        · -- from the walk on the code is `0`
          obtain ⟨t, -, ht⟩ := Exec.bind_eq_ok.mp h
          cases ht
          exact absurd rfl hne

theorem delete_kept_of_ne_zero (h : delete fuel request s = .ok (code, s')) (hne : code ≠ 0) : s.Kept s' := by
  have hload := (System.Kept.refl s).load request.parentClusterNumber
  rcases parent_cases s request.parentClusterNumber with h2 | ⟨h2, t, ho, hk⟩ | ⟨hge, -⟩ | hv
  · cases (delete_of_lt_two h2).symm.trans h
    exact .refl s
  · cases (delete_of_refused h2 ho).symm.trans h
    exact hk.kept
  · cases (delete_of_le hge).symm.trans h
  · rw [delete_of_valid hv] at h
    dsimp only at h
    split at h
    · cases h
      exact hload
    · next i _ =>
      have hentry : s.Kept (if ((s.loadDirTable request.parentClusterNumber).dirTable.table i).isDirectory = true then
          (s.loadDirTable request.parentClusterNumber).loadDirTable
            ((s.loadDirTable request.parentClusterNumber).dirTable.table i).clusterNumber
          else s.loadDirTable request.parentClusterNumber) := by
        split
        · exact hload.load _
        · exact hload
      generalize ite (((s.loadDirTable request.parentClusterNumber).dirTable.table i).isDirectory = true)
        (System.loadDirTable _ _) _ = t at hentry h
      split at h
      · cases h
        exact hentry
      · -- from the walk on the code is `0`
        obtain ⟨_, -, h⟩ := Exec.bind_eq_ok.mp h
        obtain ⟨_, -, h⟩ := Exec.bind_eq_ok.mp h
        obtain ⟨_, -, h⟩ := Exec.bind_eq_ok.mp h
        cases h
        exact absurd rfl hne

/-- A call that answers with an error code has only read. -/
theorem Call.kept_of_ne_zero (h : call.exec fuel s = .ok (code, s')) (hne : code ≠ 0) : (call.start s).Kept s' := by
  unfold Call.exec Op.run at h
  cases ho : call.op with
  | read =>
    rw [ho] at h
    exact read_kept_of_ne_zero h hne
  | readDirectory =>
    rw [ho] at h
    exact readDirectory_kept h
  | write =>
    rw [ho] at h
    rcases write_cases h with ⟨-, hk⟩ | ⟨h0, -⟩
    · exact hk
    · exact absurd h0 hne
  | delete =>
    rw [ho] at h
    exact delete_kept_of_ne_zero h hne

end Codes

/-! ## The loop of `write` -/

section Loop

variable {s : System} {request : FAT32DriverRequest} {i : Fin 64}

/-- The loop from round `n` on, stopped before it is done. -/
theorem writeLoop_running_from (n fuel : Nat) (prev : Fin 512)
    (hprev : n ≠ 0 → prev = searchStart s.fat n) (hfuel : n + fuel < request.clusterCount)
    (hfree : (request.clusterCount - 1) / 2 < (freeCells s.fat).length) :
    writeLoop request i fuel (searchStart s.fat n) prev n (s.afterRounds request i n) =
      .error (.running, s.afterRounds request i (n + fuel)) := by
  induction fuel generalizing n prev with
  | zero => rfl
  | succ fuel ih =>
    have hn : n / 2 < (freeCells s.fat).length := by omega
    have hmore : n + 1 < request.clusterCount := by omega
    have hs : searchStart s.fat (n + 1) = freeCell s.fat (n / 2) := by simp [searchStart]
    have hrec := ih (n + 1) (freeCell s.fat (n / 2)) (fun _ => hs.symm) (by omega)
    rw [hs, show n + 1 + fuel = n + (fuel + 1) by omega] at hrec
    simp only [writeLoop, System.afterRounds_fat, search_fatAfter hn, System.writeRound_afterRounds hprev hn,
      if_pos hmore, hrec]

/-- Stopped after fewer rounds than it needs, the loop has found a cell in each. -/
theorem writeLoop_running {fuel : Nat} (hfuel : fuel < request.clusterCount)
    (hfree : (request.clusterCount - 1) / 2 < (freeCells s.fat).length) :
    writeLoop request i fuel 2 0 0 s = .error (.running, s.afterRounds request i fuel) := by
  have h := writeLoop_running_from (i := i) 0 fuel 0 (fun h => absurd rfl h) (by omega) hfree
  rwa [System.afterRounds_zero, Nat.zero_add] at h

end Loop

/-- **Failed calls change nothing, and a `write` that starts does not fail.** The loop of `write` is still running after
any number of rounds below `buffer_size / CLUSTER_SIZE + 1`, and done after that many. -/
theorem failures_keep (call : Call) (s : System) :
    (∀ fuel code t, call.exec fuel s = .ok (code, t) → code ≠ 0 →
      t.disk = s.disk ∧ t.driverState.fatTable = s.driverState.fatTable) ∧
    ∀ i, CanWrite (call.start s) call.request i →
      (∀ t : System, t.fat = s.fat → ∀ rounds < call.request.clusterCount, ∃ t',
        writeLoop call.request i rounds 2 0 0 t = .error (.running, t')) ∧
      (∀ t : System, t.fat = s.fat → ∃ c t', ∀ rounds ≥ call.request.clusterCount,
        writeLoop call.request i rounds 2 0 0 t = .ok (c, call.request.clusterCount, t')) ∧
      (call.op = .write → ∃ t, ∀ fuel ≥ call.request.clusterCount, call.exec fuel s = .ok (0, t)) := by
  constructor
  · intro fuel code t h hne
    have hk := Call.kept_of_ne_zero h hne
    exact ⟨hk.disk, congrArg FAT32FileAllocationTable.mk hk.fat⟩
  · intro i hw
    have hroom : ∀ t : System, t.fat = s.fat → (call.request.clusterCount - 1) / 2 < (freeCells t.fat).length := by
      intro t ht
      have hroom : call.request.clusterCount ≤ (freeCells t.fat).length := ht ▸ hw.room
      have hpos : 0 < call.request.clusterCount := Nat.succ_pos _
      omega
    refine ⟨?_, ?_, ?_⟩
    · intro t ht rounds hlt
      exact ⟨_, writeLoop_running hlt (hroom t ht)⟩
    · intro t ht
      exact ⟨_, _, fun rounds hge => writeLoop_rounds hge (hroom t ht)⟩
    · intro hop
      refine ⟨(call.start s).written call.request i, fun fuel hge => ?_⟩
      rw [Call.exec, hop]
      exact write_of_canWrite hw hge

end Os2024
