import Os2024.Lib.Walk
import Os2024.Fat32.Catalog

/-!
# Where an operation leads

On any contents of the FAT and of the tables an operation returns, reaches for a cell outside of `cluster_map`, or runs
forever. Which of the three it is, is decided by the walk from the first cluster of the entry it has found:
`Op.returns_iff`, `Op.leaves_iff`, `Op.diverges_iff`. The walk of `read` goes where the FAT leads. That of `delete`
empties the cells behind it; on a cycle it comes to an empty cell, takes `FAT32_FAT_EMPTY_ENTRY` for the number of cell
`0`, and goes on from there.
-/

namespace Os2024

open LinkTable

/-! ## Executions with fuel -/

namespace Exec

variable {α β : Type} {run run' : Nat → Exec α} {f : α → Exec β}

/-- More fuel than enough changes nothing. -/
def Stable (run : Nat → Exec α) : Prop := ∀ fuel fuel', (run fuel).Final → fuel ≤ fuel' → run fuel' = run fuel

/-- The execution returns. -/
def Returns (run : Nat → Exec α) : Prop := ∃ fuel a, run fuel = .ok a

/-- The execution looks up a cell outside of `cluster_map`. -/
def Leaves (run : Nat → Exec α) : Prop := ∃ fuel index s, run fuel = .error (.outOfBounds index, s)

/-- The execution goes on forever. -/
def Diverges (run : Nat → Exec α) : Prop := ∀ fuel, ∃ s, run fuel = .error (.running, s)

theorem Returns.not_leaves (h : Returns run) (hrun : Stable run) : ¬ Leaves run := by
  obtain ⟨fuel, a, ha⟩ := h
  rintro ⟨fuel', index, s, hs⟩
  have h1 := hrun fuel (max fuel fuel') (ha ▸ final_ok a) (Nat.le_max_left _ _)
  have h2 := hrun fuel' (max fuel fuel') (by rw [hs]; intro t ht; cases ht) (Nat.le_max_right _ _)
  rw [h1, ha, hs] at h2
  cases h2

theorem Diverges.not_returns (h : Diverges run) : ¬ Returns run := by
  rintro ⟨fuel, a, ha⟩
  obtain ⟨s, hs⟩ := h fuel
  cases ha.symm.trans hs

theorem Diverges.not_leaves (h : Diverges run) : ¬ Leaves run := by
  rintro ⟨fuel, index, s, hs⟩
  obtain ⟨t, ht⟩ := h fuel
  cases hs.symm.trans ht

/-- The same execution after some more steps. -/
def After (run run' : Nat → Exec α) : Prop := ∃ k, ∀ fuel, run (fuel + k) = run' fuel

theorem After.trans {run'' : Nat → Exec α} (h : After run run') (h' : After run' run'') : After run run'' := by
  obtain ⟨k, hk⟩ := h
  obtain ⟨k', hk'⟩ := h'
  exact ⟨k' + k, fun fuel => by rw [← Nat.add_assoc, hk, hk']⟩

theorem Leaves.before (h : Leaves run') (hrun : After run run') : Leaves run := by
  obtain ⟨k, hk⟩ := hrun
  obtain ⟨fuel, index, s, hs⟩ := h
  exact ⟨fuel + k, index, s, (hk fuel).trans hs⟩

theorem Diverges.before (h : Diverges run') (hstable : Stable run) (hrun : After run run') : Diverges run := by
  obtain ⟨k, hk⟩ := hrun
  intro fuel
  by_contra hfinal
  obtain ⟨s, hs⟩ := h fuel
  have hmore := hstable fuel (fuel + k) (fun s hs => hfinal ⟨s, hs⟩) (Nat.le_add_right _ _)
  exact hfinal ⟨s, hmore.symm.trans ((hk fuel).trans hs)⟩

theorem Leaves.bind (h : Leaves run) : Leaves fun fuel => run fuel >>= f := by
  obtain ⟨fuel, index, s, hs⟩ := h
  exact ⟨fuel, index, s, by simp only [hs, Bind.bind, Except.bind]⟩

theorem Diverges.bind (h : Diverges run) : Diverges fun fuel => run fuel >>= f := by
  intro fuel
  obtain ⟨s, hs⟩ := h fuel
  exact ⟨s, by simp only [hs, Bind.bind, Except.bind]⟩

end Exec

open Exec

theorem Op.run_stable {op : Op} {request : FAT32DriverRequest} {s : System} : Stable (op.run · request s) := fun _ _ => Op.run_mono

/-! ## The walk of `read` -/

section Read

variable {s : System} {v w buf : UInt32} {a : Fin 512} {l : List (Fin 512)} {fuel : Nat}

/-- `read` goes along any chain. -/
theorem readLoop_segment (buf : UInt32) (h : Chain clusterNum w s.fat v l) (hw : w ≠ fat32FatEndOfFile) :
    ∃ buf' s', s'.fat = s.fat ∧ After (readLoop · buf v s) (readLoop · buf' w s') := by
  generalize hfat : s.fat = fat at h
  induction h generalizing s buf with
  | nil => exact ⟨buf, s, hfat, 0, fun _ => rfl⟩
  | @cons a l ht ih =>
    obtain ⟨buf', s', hs', k, hk⟩ : ∃ buf' s', s'.fat = fat ∧
        After (readLoop · (buf + 2048) (fat a) (s.readToBuf buf (clusterNum a))) (readLoop · buf' w s') := ih (buf + 2048) hfat
    have hnext : fat a ≠ fat32FatEndOfFile := by
      cases l with
      | nil => exact ht.start_nil ▸ hw
      | cons b l => exact ht.start_cons ▸ clusterNum_ne_endOfFile b
    refine ⟨buf', s', hs', k + 1, ?_⟩
    intro fuel
    have hs : (s.readToBuf buf (clusterNum a)).fat = fat := hfat
    simp only [readLoop, System.clusterMap_clusterNum, hs, bind, Except.bind, if_pos hnext]
    exact hk fuel

theorem toNat_of_outside (h : Outside clusterNum v) : 512 ≤ v.toNat := by
  by_contra hlt
  obtain ⟨c, hc, -⟩ := exists_clusterNum (Nat.lt_of_not_le hlt)
  exact h c hc.symm

theorem readLoop_leaves (h : Exits clusterNum fat32FatEndOfFile s.fat v) : Leaves (readLoop · buf v s) := by
  obtain ⟨w, l, hw, hl, hwl⟩ := h
  have hstop : ∀ (buf : UInt32) (s : System), Leaves (readLoop · buf w s) := by
    intro buf s
    refine ⟨1, w, s.readToBuf buf w, ?_⟩
    simp only [readLoop, System.clusterMap_of_le (toNat_of_outside hw), bind, Except.bind]
  by_cases he : w = fat32FatEndOfFile
  · obtain rfl := hwl he
    obtain rfl := hl.start_nil
    exact hstop buf s
  · obtain ⟨buf', s', -, hafter⟩ := readLoop_segment buf hl he
    exact (hstop buf' s').before hafter

/-- Cells that lead to each other only keep `read` going. -/
theorem readLoop_running (hclosed : ∀ c ∈ l, ∃ b ∈ l, s.fat c = clusterNum b) (ha : a ∈ l) :
    ∃ t, readLoop fuel buf (clusterNum a) s = .error (.running, t) := by
  induction fuel generalizing s buf a with
  | zero => exact ⟨s, rfl⟩
  | succ fuel ih =>
    obtain ⟨b, hb, hn⟩ := hclosed a ha
    obtain ⟨t, ht⟩ : ∃ t, readLoop fuel (buf + 2048) (clusterNum b) (s.readToBuf buf (clusterNum a)) =
        .error (.running, t) := ih hclosed hb
    have hs : (s.readToBuf buf (clusterNum a)).fat a = clusterNum b := hn
    refine ⟨t, ?_⟩
    simp only [readLoop, System.clusterMap_clusterNum, hs, bind, Except.bind, if_pos (clusterNum_ne_endOfFile b), ht]

theorem readLoop_diverges (h : Cycles clusterNum s.fat v) : Diverges (readLoop · buf v s) := by
  obtain ⟨l, ⟨a, ha, rfl⟩, hclosed⟩ := h.closed
  exact fun fuel => readLoop_running hclosed ha

end Read

/-! ## The walk of `delete` -/

/-- The walk of `delete` from the cluster number `v`. -/
def deleteWalk (v : UInt32) (s : System) (fuel : Nat) : Exec (UInt32 × System) :=
  s.clusterMap v >>= fun next => deleteLoop fuel v next s

section Delete

variable {s : System} {v w : UInt32} {a : Fin 512} {l : List (Fin 512)} {fuel : Nat}

theorem deleteWalk_stable : Stable (deleteWalk v s) := by
  intro fuel fuel' hfinal hle
  rw [deleteWalk] at hfinal ⊢
  rw [deleteWalk]
  cases hv : s.clusterMap v with
  | error e => rfl
  | ok next =>
    rw [hv] at hfinal
    exact deleteLoop_mono hfinal hle

theorem deleteWalk_clusterNum : deleteWalk (clusterNum a) s fuel = deleteLoop fuel (clusterNum a) (s.fat a) s := by
  rw [deleteWalk, System.clusterMap_clusterNum]
  rfl

/-- `delete` goes along any chain without repetition and empties its cells. -/
theorem deleteWalk_segment (h : Chain clusterNum w s.fat v l) (hnodup : l.Nodup) (hne : l ≠ [])
    (hw : w ≠ fat32FatEndOfFile) :
    After (deleteWalk v s) (deleteWalk w (s.withFat (clear fat32FatEmptyEntry s.fat l))) := by
  induction l generalizing s v with
  | nil => exact absurd rfl hne
  | cons a l ih =>
    obtain rfl := h.start_cons
    obtain ⟨ha, hl⟩ := List.nodup_cons.mp hnodup
    have hnext : s.fat a ≠ fat32FatEndOfFile := by
      cases l with
      | nil => exact h.tail.start_nil ▸ hw
      | cons b l => exact h.tail.start_cons ▸ clusterNum_ne_endOfFile b
    -- one round leads to the walk from the next cell, in the table without the cell `a`
    have hround : After (deleteWalk (clusterNum a) s)
        (deleteWalk (s.fat a) (s.withFat (Function.update s.fat a fat32FatEmptyEntry))) := by
      refine ⟨1, ?_⟩
      intro fuel
      simp only [deleteWalk_clusterNum, deleteLoop, if_pos hnext, System.setClusterMap_clusterNum]
      rfl
    have hrest : Chain clusterNum w (Function.update s.fat a fat32FatEmptyEntry) (s.fat a) l :=
      h.tail.congr fun c hc => Function.update_of_ne (ne_of_mem_of_not_mem hc ha) _ _
    cases l with
    | nil =>
      obtain rfl := hrest.start_nil
      rw [← clear_update, clear_nil]
      exact hround
    | cons b l =>
      have hrec := ih (s := s.withFat (Function.update s.fat a fat32FatEmptyEntry)) hrest hl (List.cons_ne_nil b l)
      rw [System.withFat_withFat, System.withFat_fat, clear_update] at hrec
      exact hround.trans hrec

theorem deleteWalk_returns (h : Ends clusterNum fat32FatEndOfFile s.fat v) :
    ∃ fuel c map, deleteWalk v s fuel = .ok (clusterNum c, s.withFat map) := by
  obtain ⟨l, hne, hl⟩ := h
  obtain ⟨a, l, rfl⟩ := List.exists_cons_of_ne_nil hne
  obtain rfl := hl.start_cons
  exact ⟨_, _, _, deleteWalk_clusterNum.trans (deleteLoop_chain hl le_rfl)⟩

theorem deleteWalk_leaves (h : Exits clusterNum fat32FatEndOfFile s.fat v) : Leaves (deleteWalk v s) := by
  obtain ⟨w, l, hw, hl, hwl⟩ := h
  have hstop : ∀ s : System, Leaves (deleteWalk w s) := by
    intro s
    refine ⟨0, w, s, ?_⟩
    rw [deleteWalk, System.clusterMap_of_le (toNat_of_outside hw)]
    rfl
  rcases eq_or_ne l [] with rfl | hne
  · obtain rfl := hl.start_nil
    exact hstop s
  · have hend : w ≠ fat32FatEndOfFile := fun he => hne (hwl he)
    exact (hstop _).before (deleteWalk_segment hl (hl.nodup clusterNum_injective hw) hne hend)

/-- A walk that empties a cycle goes on from cell `0`. -/
theorem deleteWalk_cycles (h : Cycles clusterNum s.fat v) :
    ∃ l : List (Fin 512), (∃ a ∈ l, v = clusterNum a) ∧ (∀ a ∈ l, ∃ c ∈ l, s.fat a = clusterNum c) ∧
      After (deleteWalk v s) (deleteWalk (clusterNum 0) (s.withFat (clear (clusterNum 0) s.fat l))) := by
  obtain ⟨l, b, hnodup, hb, hl⟩ := h
  obtain ⟨a, m, rfl⟩ := List.exists_cons_of_ne_nil (List.ne_nil_of_mem hb)
  have hseg := deleteWalk_segment hl hnodup (List.cons_ne_nil a m) (clusterNum_ne_endOfFile b)
  have hempty : (s.withFat (clear fat32FatEmptyEntry s.fat (a :: m))).fat b = clusterNum 0 := clear_of_mem hb
  have hsame : Function.update (clear fat32FatEmptyEntry s.fat (a :: m)) b fat32FatEmptyEntry =
      clear fat32FatEmptyEntry s.fat (a :: m) := Function.update_eq_self_iff.mpr hempty.symm
  refine ⟨a :: m, ⟨a, List.mem_cons_self, hl.start_cons⟩, fun x hx => hl.closed_of_cycle hb hx, hseg.trans ⟨1, ?_⟩⟩
  intro fuel
  rw [deleteWalk_clusterNum, hempty]
  simp only [deleteLoop, if_pos (clusterNum_ne_endOfFile 0), System.setClusterMap_clusterNum, System.withFat_fat, hsame]
  rfl

/-- Cell `0` of an emptied table leads back to itself. -/
theorem deleteWalk_stuck (h : s.fat 0 = clusterNum 0) : Diverges (deleteWalk (clusterNum 0) s) := by
  intro fuel
  rw [deleteWalk_clusterNum, h]
  induction fuel generalizing s with
  | zero => exact ⟨s, rfl⟩
  | succ fuel ih =>
    have hnext : (s.withFat (Function.update s.fat 0 fat32FatEmptyEntry)).fat 0 = clusterNum 0 := by
      rw [System.withFat_fat, Function.update_self]
      rfl
    obtain ⟨t, ht⟩ := ih hnext
    refine ⟨t, ?_⟩
    simp only [deleteLoop, if_pos (clusterNum_ne_endOfFile 0), System.setClusterMap_clusterNum,
      System.clusterMap_clusterNum, hnext, bind, Except.bind, ht]

/-- The walk of `delete` ends: at once, or from cell `0` when it has come round. -/
def EraseEnds (fat : Fin 512 → UInt32) (v : UInt32) : Prop :=
  Ends clusterNum fat32FatEndOfFile fat v ∨
    (Cycles clusterNum fat v ∧ Ends clusterNum fat32FatEndOfFile fat (clusterNum 0))

/-- The walk of `delete` leaves the table: at once, or from cell `0` when it has come round. -/
def EraseExits (fat : Fin 512 → UInt32) (v : UInt32) : Prop :=
  Exits clusterNum fat32FatEndOfFile fat v ∨
    (Cycles clusterNum fat v ∧ Exits clusterNum fat32FatEndOfFile fat (clusterNum 0))

/-- The walk of `delete` comes round, and from cell `0` once more. -/
def EraseCycles (fat : Fin 512 → UInt32) (v : UInt32) : Prop :=
  Cycles clusterNum fat v ∧ Cycles clusterNum fat (clusterNum 0)

theorem deleteWalk_of_eraseEnds (h : EraseEnds s.fat v) :
    ∃ fuel c map, deleteWalk v s fuel = .ok (clusterNum c, s.withFat map) := by
  rcases h with h | ⟨h, h0⟩
  · exact deleteWalk_returns h
  · obtain ⟨l, -, hclosed, k, hk⟩ := deleteWalk_cycles h
    obtain ⟨fuel, c, map, hret⟩ := deleteWalk_returns (s := s.withFat (clear (clusterNum 0) s.fat l))
      ((ends_clear_iff clusterNum_injective clusterNum_ne_endOfFile hclosed).mpr h0)
    exact ⟨fuel + k, c, map, (hk fuel).trans hret⟩

theorem deleteWalk_of_eraseExits (h : EraseExits s.fat v) : Leaves (deleteWalk v s) := by
  rcases h with h | ⟨h, h0⟩
  · exact deleteWalk_leaves h
  · obtain ⟨l, -, hclosed, hafter⟩ := deleteWalk_cycles h
    exact (deleteWalk_leaves (s := s.withFat (clear (clusterNum 0) s.fat l))
      ((exits_clear_iff clusterNum_injective hclosed).mpr h0)).before hafter

theorem deleteWalk_of_eraseCycles (h : EraseCycles s.fat v) : Diverges (deleteWalk v s) := by
  obtain ⟨l, -, hclosed, hafter⟩ := deleteWalk_cycles h.1
  -- the second round empties cell `0`
  obtain ⟨m, ⟨a, ha, hz⟩, -, hagain⟩ := deleteWalk_cycles (s := s.withFat (clear (clusterNum 0) s.fat l))
    (h.2.clear clusterNum_injective clusterNum_ne_endOfFile hclosed)
  obtain rfl := clusterNum_injective hz
  exact (deleteWalk_stuck (clear_of_mem ha)).before deleteWalk_stable (hafter.trans hagain)

end Delete

/-! ## The operations -/

/-- The operation comes to its walk along a chain, from the cluster number `v`. -/
def Op.WalksFrom (s : System) (request : FAT32DriverRequest) (v : UInt32) : Op → Prop
  | .read => ParentValid s request.parentClusterNumber ∧ ∃ i, s.found request = some i ∧
      let entry := (tableAt s.disk request.parentClusterNumber).table i
      entry.isDirectory = false ∧ ¬ request.bufferSize < entry.filesize ∧ entry.clusterNumber = v
  | .delete => ParentValid s request.parentClusterNumber ∧ ∃ i, s.found request = some i ∧
      let entry := (tableAt s.disk request.parentClusterNumber).table i
      (entry.isDirectory = true → (tableAt s.disk entry.clusterNumber).anyOccupied = false) ∧ entry.clusterNumber = v
  | _ => False

/-- The walk of the operation from `v` comes to an end mark. -/
def Op.WalkEnds (fat : Fin 512 → UInt32) (v : UInt32) : Op → Prop
  | .delete => EraseEnds fat v
  | _ => Ends clusterNum fat32FatEndOfFile fat v

/-- The walk of the operation from `v` comes to a value that is no cell's number. -/
def Op.WalkExits (fat : Fin 512 → UInt32) (v : UInt32) : Op → Prop
  | .delete => EraseExits fat v
  | _ => Exits clusterNum fat32FatEndOfFile fat v

/-- The walk of the operation from `v` goes on forever. -/
def Op.WalkCycles (fat : Fin 512 → UInt32) (v : UInt32) : Op → Prop
  | .delete => EraseCycles fat v
  | _ => Cycles clusterNum fat v

theorem Op.walk_cases (op : Op) (fat : Fin 512 → UInt32) (v : UInt32) :
    op.WalkEnds fat v ∨ op.WalkExits fat v ∨ op.WalkCycles fat v := by
  have hv := LinkTable.walk_cases clusterNum fat32FatEndOfFile fat v
  have h0 := LinkTable.walk_cases clusterNum fat32FatEndOfFile fat (clusterNum 0)
  cases op with
  | delete =>
    simp only [Op.WalkEnds, Op.WalkExits, Op.WalkCycles, EraseEnds, EraseExits, EraseCycles]
    tauto
  | _ => exact hv

section Operations

variable {op : Op} {s : System} {request : FAT32DriverRequest} {v : UInt32} {i : Fin 64}

theorem read_of_walksFrom (h : Op.WalksFrom s request v .read) : ∃ t, t.fat = s.fat ∧
    ∀ fuel, read fuel request s = readLoop fuel request.buf v t >>= fun s => .ok (0, s) := by
  obtain ⟨hv, i, hs, hdir, hsize, rfl⟩ := h
  refine ⟨s.loadDirTable request.parentClusterNumber, rfl, ?_⟩
  intro fuel
  rw [read_of_valid hv]
  simp only [System.loadDirTable_dirTable, hs, hdir, Bool.false_eq_true, if_false, if_neg hsize]

/-- A walk of `read` that returns went along a chain. -/
theorem readLoop_eq_ok {t t' : System} {buf : UInt32} {fuel : Nat} (h : readLoop fuel buf v t = .ok t') :
    ∃ l, l ≠ [] ∧ FatChain t.fat v l ∧ t' = t.readChain buf l := by
  have hreturns : Returns (readLoop · buf v t) := ⟨fuel, t', h⟩
  have hstable : Stable (readLoop · buf v t) := fun _ _ => readLoop_mono
  rcases LinkTable.walk_cases clusterNum fat32FatEndOfFile t.fat v with ⟨l, hl, hchain⟩ | hexit | hcycle
  · refine ⟨l, hl, hchain, ?_⟩
    have hmore := readLoop_mono (h ▸ Exec.final_ok t') (Nat.le_max_left fuel l.length)
    rw [h, readLoop_chain hchain hl (Nat.le_max_right fuel l.length)] at hmore
    exact (Except.ok.inj hmore).symm
  · exact absurd (readLoop_leaves hexit) (hreturns.not_leaves hstable)
  · exact absurd hreturns (readLoop_diverges hcycle).not_returns

/-- What a `read` that returns has done: it was refused its parent, it came to no walk, or it has copied the clusters of
a chain. -/
theorem read_cases {s' : System} {code : Int8} {fuel : Nat} (h : read fuel request s = .ok (code, s')) :
    (¬ ParentValid s request.parentClusterNumber ∧ code = -1 ∧ s.Opened s' request.parentClusterNumber) ∨
      (ParentValid s request.parentClusterNumber ∧ (∀ v, ¬ Op.read.WalksFrom s request v) ∧ 0 < code ∧
        s.Opened s' request.parentClusterNumber) ∨
      ∃ v l, Op.read.WalksFrom s request v ∧ l ≠ [] ∧ FatChain s.fat v l ∧ code = 0 ∧
        s' = (s.loadDirTable request.parentClusterNumber).readChain request.buf l := by
  rcases parent_cases s request.parentClusterNumber with h2 | ⟨h2, t, ho, hk⟩ | ⟨hge, -⟩ | hv
  · cases (read_of_lt_two h2).symm.trans h
    exact .inl ⟨fun hv => hv.not_lt_two h2, rfl, .inl rfl⟩
  · cases (read_of_refused h2 ho).symm.trans h
    refine .inl ⟨fun hv => ?_, rfl, hk⟩
    rw [openParent_of_valid hv] at ho
    cases ho
  · cases (read_of_le hge).symm.trans h
  · refine .inr ?_
    rw [read_of_valid hv] at h
    dsimp only at h
    rw [System.loadDirTable_dirTable] at h
    cases hs : (tableAt s.disk request.parentClusterNumber).search (identifier request.name request.ext) with
    | none =>
      rw [hs] at h
      cases h
      refine .inl ⟨hv, ?_, by decide, .inr rfl⟩
      rintro v ⟨-, i, hi, -⟩
      cases hs.symm.trans hi
    | some i =>
      rw [hs] at h
      dsimp only at h
      split at h
      · next hdir =>
        cases h
        refine .inl ⟨hv, ?_, by decide, .inr rfl⟩
        rintro v ⟨-, j, hj, hfile, -⟩
        obtain rfl := Option.some.inj (hs.symm.trans hj)
        exact Bool.false_ne_true (hfile.symm.trans hdir)
      · next hdir =>
        split at h
        · next hsmall =>
          cases h
          refine .inl ⟨hv, ?_, by decide, .inr rfl⟩
          rintro v ⟨-, j, hj, -, hfits, -⟩
          obtain rfl := Option.some.inj (hs.symm.trans hj)
          exact hfits hsmall
        · next hsmall =>
          obtain ⟨t, hloop, hcode⟩ := Exec.bind_eq_ok.mp h
          cases hcode
          obtain ⟨l, hl, hchain, ht⟩ := readLoop_eq_ok hloop
          exact .inr ⟨_, l, ⟨hv, i, hs, Bool.eq_false_iff.mpr hdir, hsmall, rfl⟩, hl, hchain, rfl, ht⟩

/-- What `delete` does after its walk. -/
def finishDelete (request : FAT32DriverRequest) (i : Fin 64) (r : UInt32 × System) : Exec (Int8 × System) :=
  r.2.setClusterMap r.1 fat32FatEmptyEntry >>= fun s =>
  .ok (0, (s.setEntry i (s.dirTable.table i).release).writeBack request.parentClusterNumber)

theorem delete_of_walksFrom (h : Op.WalksFrom s request v .delete) : ∃ i t, t.fat = s.fat ∧
    ∀ fuel, delete fuel request s = deleteWalk v t fuel >>= finishDelete request i := by
  obtain ⟨hv, i, hs, hempty, rfl⟩ := h
  refine ⟨i, s.reloaded request i, System.reloaded_fat, ?_⟩
  intro fuel
  rw [delete_of_found hv hs hempty]
  dsimp only
  rw [System.reloaded_dirTable, deleteWalk, bind_assoc]
  rfl

/-- An operation that does not come to a walk returns. -/
theorem Op.returns_of_not_walksFrom (hp : request.parentClusterNumber.toNat < 512)
    (h : ∀ v, ¬ op.WalksFrom s request v) : Returns (op.run · request s) := by
  by_cases hv : ParentValid s request.parentClusterNumber
  · cases op with
    | read =>
      refine ⟨0, ?_⟩
      dsimp only [Op.run]
      rw [read_of_valid hv]
      simp only [System.loadDirTable_dirTable]
      cases hs : (tableAt s.disk request.parentClusterNumber).search (identifier request.name request.ext) with
      | none => exact ⟨_, rfl⟩
      | some i =>
        dsimp only
        split
        · exact ⟨_, rfl⟩
        · next hdir =>
          split
          · exact ⟨_, rfl⟩
          · next hsize => exact absurd ⟨hv, i, hs, by simpa using hdir, hsize, rfl⟩ (h _)
    | readDirectory =>
      obtain ⟨code, s', hret, -⟩ := readDirectory_returns (s := s) hp
      exact ⟨0, _, hret⟩
    | write =>
      rcases write_returns (s := s) hp le_rfl with ⟨code, s', hret, -⟩ | ⟨i, -, hret⟩
      · exact ⟨512, _, hret⟩
      · exact ⟨512, _, hret⟩
    | delete =>
      refine ⟨0, ?_⟩
      dsimp only [Op.run]
      cases hs : s.found request with
      | none =>
        rw [delete_of_valid hv]
        simp only [System.loadDirTable_dirTable, hs]
        exact ⟨_, rfl⟩
      | some i =>
        by_cases he : ((tableAt s.disk request.parentClusterNumber).table i).isDirectory = true ∧
            (tableAt s.disk ((tableAt s.disk request.parentClusterNumber).table i).clusterNumber).anyOccupied = true
        · exact ⟨_, delete_of_full hv hs he.1 he.2⟩
        · rw [not_and, Bool.not_eq_true] at he
          exact absurd ⟨hv, i, hs, he, rfl⟩ (h _)
  · obtain ⟨s', hret, -⟩ := Op.run_of_not_valid op 0 hp hv
    exact ⟨0, _, hret⟩

theorem Op.returns_of_walkEnds (h : op.WalksFrom s request v) (hend : op.WalkEnds s.fat v) :
    Returns (op.run · request s) := by
  cases op with
  | read =>
    obtain ⟨t, ht, hread⟩ := read_of_walksFrom h
    obtain ⟨l, hl, hchain⟩ : Ends clusterNum fat32FatEndOfFile t.fat v := ht ▸ hend
    refine ⟨l.length, (0, t.readChain request.buf l), (hread l.length).trans ?_⟩
    rw [readLoop_chain hchain hl le_rfl]
    rfl
  | readDirectory => exact h.elim
  | write => exact h.elim
  | delete =>
    obtain ⟨i, t, ht, hdelete⟩ := delete_of_walksFrom h
    obtain ⟨fuel, c, map, hwalk⟩ := deleteWalk_of_eraseEnds (s := t) (v := v) (ht ▸ hend)
    refine ⟨fuel, ?_⟩
    dsimp only [Op.run]
    rw [hdelete, hwalk, Exec.ok_bind, finishDelete, System.setClusterMap_clusterNum]
    exact ⟨_, rfl⟩

theorem Op.leaves_of_walkExits (h : op.WalksFrom s request v) (hexit : op.WalkExits s.fat v) :
    Leaves (op.run · request s) := by
  cases op with
  | read =>
    obtain ⟨t, ht, hread⟩ := read_of_walksFrom h
    have hwalk : Exits clusterNum fat32FatEndOfFile t.fat v := ht ▸ hexit
    simp only [Op.run, hread]
    exact (readLoop_leaves hwalk).bind
  | readDirectory => exact h.elim
  | write => exact h.elim
  | delete =>
    obtain ⟨i, t, ht, hdelete⟩ := delete_of_walksFrom h
    have hwalk : EraseExits t.fat v := ht ▸ hexit
    simp only [Op.run, hdelete]
    exact (deleteWalk_of_eraseExits hwalk).bind

theorem Op.diverges_of_walkCycles (h : op.WalksFrom s request v) (hcycle : op.WalkCycles s.fat v) :
    Diverges (op.run · request s) := by
  cases op with
  | read =>
    obtain ⟨t, ht, hread⟩ := read_of_walksFrom h
    have hwalk : Cycles clusterNum t.fat v := ht ▸ hcycle
    simp only [Op.run, hread]
    exact (readLoop_diverges hwalk).bind
  | readDirectory => exact h.elim
  | write => exact h.elim
  | delete =>
    obtain ⟨i, t, ht, hdelete⟩ := delete_of_walksFrom h
    have hwalk : EraseCycles t.fat v := ht ▸ hcycle
    simp only [Op.run, hdelete]
    exact (deleteWalk_of_eraseCycles hwalk).bind

theorem Op.WalksFrom.unique {w : UInt32} (h : op.WalksFrom s request v) (h' : op.WalksFrom s request w) : v = w := by
  cases op with
  | read =>
    obtain ⟨-, i, hs, -, -, rfl⟩ := h
    obtain ⟨-, j, hs', -, -, rfl⟩ := h'
    obtain rfl := Option.some.inj (hs.symm.trans hs')
    rfl
  | readDirectory => exact h.elim
  | write => exact h.elim
  | delete =>
    obtain ⟨-, i, hs, -, rfl⟩ := h
    obtain ⟨-, j, hs', -, rfl⟩ := h'
    obtain rfl := Option.some.inj (hs.symm.trans hs')
    rfl

/-- The three ways an operation can go. -/
theorem Op.outcome (op : Op) (s : System) (hp : request.parentClusterNumber.toNat < 512) :
    (Returns (op.run · request s) ∧ ∀ v, op.WalksFrom s request v → op.WalkEnds s.fat v) ∨
      (Leaves (op.run · request s) ∧ ∃ v, op.WalksFrom s request v ∧ op.WalkExits s.fat v) ∨
      (Diverges (op.run · request s) ∧ ∃ v, op.WalksFrom s request v ∧ op.WalkCycles s.fat v) := by
  by_cases hw : ∃ v, op.WalksFrom s request v
  · obtain ⟨v, hw⟩ := hw
    rcases op.walk_cases s.fat v with hend | hexit | hcycle
    · exact .inl ⟨Op.returns_of_walkEnds hw hend, fun w hw' => hw.unique hw' ▸ hend⟩
    · exact .inr (.inl ⟨Op.leaves_of_walkExits hw hexit, v, hw, hexit⟩)
    · exact .inr (.inr ⟨Op.diverges_of_walkCycles hw hcycle, v, hw, hcycle⟩)
  · have hw' : ∀ v, ¬ op.WalksFrom s request v := fun v h => hw ⟨v, h⟩
    exact .inl ⟨Op.returns_of_not_walksFrom hp hw', fun v h => absurd h (hw' v)⟩

/-- **An operation returns** exactly when its walk ends, if it comes to one. -/
theorem Op.returns_iff (hp : request.parentClusterNumber.toNat < 512) :
    Returns (op.run · request s) ↔ ∀ v, op.WalksFrom s request v → op.WalkEnds s.fat v := by
  constructor
  · intro hret
    rcases op.outcome s hp with ⟨-, h⟩ | ⟨h, -⟩ | ⟨h, -⟩
    · exact h
    · exact absurd h (hret.not_leaves Op.run_stable)
    · exact absurd hret h.not_returns
  · intro hends
    rcases op.outcome s hp with ⟨h, -⟩ | ⟨-, v, hw, -⟩ | ⟨-, v, hw, -⟩
    · exact h
    · exact Op.returns_of_walkEnds hw (hends v hw)
    · exact Op.returns_of_walkEnds hw (hends v hw)

/-- **An operation looks outside of `cluster_map`** exactly when it comes to a walk that leaves it. -/
theorem Op.leaves_iff (hp : request.parentClusterNumber.toNat < 512) :
    Leaves (op.run · request s) ↔ ∃ v, op.WalksFrom s request v ∧ op.WalkExits s.fat v := by
  constructor
  · intro hleaves
    rcases op.outcome s hp with ⟨h, -⟩ | ⟨-, h⟩ | ⟨h, -⟩
    · exact absurd hleaves (h.not_leaves Op.run_stable)
    · exact h
    · exact absurd hleaves h.not_leaves
  · rintro ⟨v, hw, hexit⟩
    exact Op.leaves_of_walkExits hw hexit

/-- **An operation goes on forever** exactly when it comes to a walk that does. -/
theorem Op.diverges_iff (hp : request.parentClusterNumber.toNat < 512) :
    Diverges (op.run · request s) ↔ ∃ v, op.WalksFrom s request v ∧ op.WalkCycles s.fat v := by
  constructor
  · intro hdiverges
    rcases op.outcome s hp with ⟨h, -⟩ | ⟨h, -⟩ | ⟨-, h⟩
    · exact absurd h hdiverges.not_returns
    · exact absurd h hdiverges.not_leaves
    · exact h
  · rintro ⟨v, hw, hcycle⟩
    exact Op.diverges_of_walkCycles hw hcycle

end Operations

end Os2024
