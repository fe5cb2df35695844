import Os2024.Fat32.Fresh
import Os2024.Fat32.Outcome

/-!
# Requests from user space

The parent of a request is compared with `2` and not with `CLUSTER_MAP_SIZE`, and no cluster number that comes from a
table or from the FAT is compared with anything. `bounded_iff` says exactly when a call stays within `cluster_map` and
the clusters it numbers; `unbounded_parent` is the smallest parent that does not.
-/

namespace Os2024

open LinkTable Exec

/-- The cluster an access goes to. -/
def DiskAccess.clusterNumber : DiskAccess → UInt32
  | .read c => c
  | .write c _ => c

/-- Only clusters below `CLUSTER_MAP_SIZE` have been read or written. -/
def System.Within (s : System) : Prop := ∀ a ∈ s.accesses, a.clusterNumber.toNat < 512

/-- The state in which an execution has returned or stopped. -/
def Exec.state {α : Type} (sys : α → System) : Exec α → System
  | .ok a => sys a
  | .error (_, s) => s

/-- The call stays within `cluster_map` and its clusters, and refuses a parent beyond them. -/
structure Call.Bounded (call : Call) (s : System) : Prop where
  indices : ¬ Leaves (call.exec · s)
  clusters : ∀ fuel, ((call.exec fuel s).state (·.2)).Within
  refused : 512 ≤ call.request.parentClusterNumber.toNat → ∀ fuel, ∃ t,
    call.exec fuel s = .ok (call.op.invalidParent, t) ∧ t.disk = s.disk ∧ t.fat = s.fat

/-- The operation loads the folder it has found, from the cluster `v`. -/
def Op.Opens (s : System) (request : FAT32DriverRequest) (v : UInt32) : Op → Prop
  | .readDirectory => request.bufferSize = 2048 ∧ ParentValid s request.parentClusterNumber ∧
      let table := tableAt s.disk request.parentClusterNumber
      ∃ i, table.search (identifier request.name fun _ => 0) = some i ∧ (table.table i).isDirectory = true ∧
        (table.table i).clusterNumber = v
  | .delete => ParentValid s request.parentClusterNumber ∧ ∃ i, s.found request = some i ∧
      let entry := (tableAt s.disk request.parentClusterNumber).table i
      entry.isDirectory = true ∧ entry.clusterNumber = v
  | _ => False

/-! ## Clusters an operation touches -/

section Within

variable {α β : Type} {s t : System} {request : FAT32DriverRequest} {v w buf : UInt32} {fuel : Nat} {k : Fin 64}

theorem System.Within.load (h : s.Within) (hv : v.toNat < 512) : (s.loadDirTable v).Within := by
  simpa [System.Within, System.loadDirTable, DiskAccess.clusterNumber, or_imp, forall_and] using ⟨h, hv⟩

theorem System.Within.readToBuf (h : s.Within) (hv : v.toNat < 512) : (s.readToBuf buf v).Within := by
  simpa [System.Within, System.readToBuf, DiskAccess.clusterNumber, or_imp, forall_and] using ⟨h, hv⟩

theorem System.Within.writeClusters (h : s.Within) (data : Cluster) (hv : v.toNat < 512) :
    (s.writeClusters data v).Within := by
  simpa [System.Within, System.writeClusters, DiskAccess.clusterNumber, or_imp, forall_and] using ⟨h, hv⟩

theorem System.Within.writeBack (h : s.Within) (hv : v.toNat < 512) : (s.writeBack v).Within :=
  (h.writeClusters _ (by decide)).writeClusters _ hv

theorem Exec.within_bind {x : Exec α} {f : α → Exec β} {p : α → System} {q : β → System}
    (hx : (x.state p).Within) (hf : ∀ a, x = .ok a → (p a).Within → ((f a).state q).Within) :
    ((x >>= f).state q).Within := by
  cases x with
  | error e => exact hx
  | ok a => exact hf a rfl hx

/-- `read` touches no cluster that it does not look up. -/
theorem readLoop_within (h : s.Within) (hin : ∀ index t, readLoop fuel buf v s ≠ .error (.outOfBounds index, t)) :
    ((readLoop fuel buf v s).state id).Within := by
  induction fuel generalizing s v buf with
  | zero => exact h
  | succ fuel ih =>
    rcases Nat.lt_or_ge v.toNat 512 with hlt | hge
    · obtain ⟨c, rfl, -⟩ := exists_clusterNum hlt
      have hread : (s.readToBuf buf (clusterNum c)).Within := h.readToBuf hlt
      simp only [readLoop, System.clusterMap_clusterNum, bind, Except.bind] at hin ⊢
      split
      · next hn =>
        rw [if_pos hn] at hin
        exact ih hread hin
      · exact hread
    · refine absurd ?_ (hin v (s.readToBuf buf v))
      simp only [readLoop, System.clusterMap_of_le hge, bind, Except.bind]

theorem writeLoop_within {c d : Fin 512} {i : Nat} (h : s.Within) :
    ((writeLoop request k fuel c d i s).state (·.2.2)).Within := by
  induction fuel generalizing s c d i with
  | zero => exact h
  | succ fuel ih =>
    simp only [writeLoop]
    split
    · exact h
    · next c' _ =>
      have hround : (s.writeRound request k c' d i).Within := by
        have hc : (clusterNum c').toNat < 512 := by
          rw [toNat_clusterNum]
          exact c'.isLt
        unfold System.writeRound
        split
        · exact System.Within.writeClusters (s := s.setEntry k _) h _ hc
        · exact System.Within.writeClusters (s := s.withFat _) h _ hc
      split
      · exact ih hround
      · exact hround

theorem setClusterMap_within (h : s.Within) : ((s.setClusterMap v w).state id).Within := by
  unfold System.setClusterMap
  split <;> exact h

theorem clusterMap_within (h : s.Within) : ((s.clusterMap v).state fun _ => s).Within := by
  unfold System.clusterMap
  split <;> exact h

theorem deleteLoop_within (h : s.Within) : ((deleteLoop fuel v w s).state (·.2)).Within := by
  induction fuel generalizing s v w with
  | zero => exact h
  | succ fuel ih =>
    unfold deleteLoop
    split
    · exact within_bind (setClusterMap_within h) fun s' _ hs' =>
        within_bind (clusterMap_within hs') fun next _ hs' => ih hs'
    · exact h

theorem System.Opened.within {parent : UInt32} (h : s.Opened t parent) (hs : s.Within) (hp : parent.toNat < 512) :
    t.Within := by
  rcases h with rfl | rfl
  · exact hs
  · exact hs.load hp

end Within

section Operations

variable {s t : System} {request : FAT32DriverRequest} {v : UInt32} {fuel : Nat} {op : Op}

theorem read_within (h : s.Within) (hv : ParentValid s request.parentClusterNumber)
    (hin : ¬ Leaves (read · request s)) : ((read fuel request s).state (·.2)).Within := by
  have hload := h.load hv.lt
  have hin' : ∀ index t, read fuel request s ≠ .error (.outOfBounds index, t) :=
    fun index t he => hin ⟨fuel, index, t, he⟩
  rw [read_of_valid hv] at hin' ⊢
  dsimp only at hin' ⊢
  split
  · exact hload
  · next i hs =>
    simp only [hs] at hin'
    split
    · exact hload
    · next hd =>
      split
      · exact hload
      · next hb =>
        rw [if_neg hd, if_neg hb] at hin'
        refine within_bind (p := id) (readLoop_within hload fun index t he => hin' index t ?_) fun t _ ht => ht
        rw [he]
        rfl

theorem readDirectory_within (h : s.Within) (hv : ParentValid s request.parentClusterNumber)
    (hopen : ∀ v, Op.Opens s request v .readDirectory → v.toNat < 512) :
    ((readDirectory request s).state (·.2)).Within := by
  have hload := h.load hv.lt
  by_cases hsize : request.bufferSize = 2048
  · rw [readDirectory_of_valid hv hsize]
    simp only [System.loadDirTable_dirTable]
    split
    · exact hload
    · next i hs =>
      split
      · exact hload
      · next hd => exact hload.readToBuf (hopen _ ⟨hsize, hv, i, hs, by simpa using hd, rfl⟩)
  · rw [readDirectory_of_size hsize]
    exact h

theorem write_within (h : s.Within) (hv : ParentValid s request.parentClusterNumber) :
    ((write fuel request s).state (·.2)).Within := by
  have hload := h.load hv.lt
  rw [write_of_valid hv]
  dsimp only
  split
  · exact hload
  · split
    · exact hload
    · split
      · exact hload
      · have hfill : ∀ i e, ((s.loadDirTable request.parentClusterNumber).setEntry i e).Within := fun _ _ => hload
        exact within_bind (writeLoop_within (hfill _ _)) fun r _ hr =>
          System.Within.writeBack (s := System.withFat _ _) hr hv.lt

theorem delete_within (h : s.Within) (hv : ParentValid s request.parentClusterNumber)
    (hopen : ∀ v, Op.Opens s request v .delete → v.toNat < 512) : ((delete fuel request s).state (·.2)).Within := by
  have hload := h.load hv.lt
  rw [delete_of_valid hv]
  simp only [System.loadDirTable_dirTable]
  split
  · exact hload
  · next i hs =>
    have hentry : (if ((tableAt s.disk request.parentClusterNumber).table i).isDirectory = true then
        (s.loadDirTable request.parentClusterNumber).loadDirTable
          ((tableAt s.disk request.parentClusterNumber).table i).clusterNumber
        else s.loadDirTable request.parentClusterNumber).Within := by
      split
      · next hd => exact hload.load (hopen _ ⟨hv, i, hs, hd, rfl⟩)
      · exact hload
    generalize ite (((tableAt s.disk request.parentClusterNumber).table i).isDirectory = true) (System.loadDirTable _ _) _ =
      t at hentry ⊢
    split
    · exact hentry
    · exact within_bind (clusterMap_within (hentry.load hv.lt)) fun _ _ ht =>
        within_bind (deleteLoop_within ht) fun _ _ hr =>
        within_bind (setClusterMap_within hr) fun s' _ hs' =>
        System.Within.writeBack (s := s'.setEntry _ _) hs' hv.lt

theorem Op.run_within (h : s.Within) (hp : request.parentClusterNumber.toNat < 512)
    (hin : ¬ Leaves (op.run · request s)) (hopen : ∀ v, op.Opens s request v → v.toNat < 512) :
    ((op.run fuel request s).state (·.2)).Within := by
  by_cases hv : ParentValid s request.parentClusterNumber
  · cases op with
    | read => exact read_within h hv hin
    | readDirectory => exact readDirectory_within h hv hopen
    | write => exact write_within h hv
    | delete => exact delete_within h hv hopen
  · obtain ⟨t, ht, hopened⟩ := Op.run_of_not_valid op fuel hp hv
    rw [ht]
    exact hopened.within h hp

end Operations

/-! ## Which calls are bounded -/

section Bounded

variable {call : Call} {s : System} {v : UInt32}

theorem Call.Bounded.parent (h : call.Bounded s) : call.request.parentClusterNumber.toNat < 512 ∨
    (call.op = .readDirectory ∧ call.request.bufferSize ≠ 2048) := by
  by_contra hneither
  obtain ⟨hge, hsize⟩ := not_or.mp hneither
  refine h.indices ⟨0, _, _, Op.run_of_le call.op 0 (Nat.le_of_not_lt hge) ?_⟩
  intro hop
  by_contra hne
  exact hsize ⟨hop, hne⟩

theorem outside_of_le (h : 512 ≤ v.toNat) : Outside clusterNum v := by
  rintro a rfl
  rw [toNat_clusterNum] at h
  exact absurd a.isLt (Nat.not_lt.mpr h)

/-- A call that loads a folder from outside of the clusters is not bounded. -/
theorem Call.Bounded.opens (h : call.Bounded s) (hv : call.op.Opens (call.start s) call.request v) : v.toNat < 512 := by
  have hmem : ∀ {code t}, call.exec 0 s = .ok (code, t) → .read v ∈ t.accesses → v.toNat < 512 := by
    intro code t hexec hread
    have hwithin := h.clusters 0
    rw [hexec] at hwithin
    exact hwithin _ hread
  obtain ⟨op, request, memory⟩ := call
  cases op with
  | read => exact hv.elim
  | write => exact hv.elim
  | readDirectory =>
    obtain ⟨hsize, hv, i, hs, hdir, rfl⟩ := hv
    refine hmem (readDirectory_of_found hv hsize hs hdir) ?_
    simp [System.readToBuf]
  | delete =>
    obtain ⟨hv, i, hs, hdir, rfl⟩ := hv
    cases hfull : (tableAt s.disk ((tableAt s.disk request.parentClusterNumber).table i).clusterNumber).anyOccupied with
    | true =>
      refine hmem (delete_of_full hv hs hdir hfull) ?_
      simp [System.loadDirTable]
    | false =>
      by_contra hge
      have hwalk : Op.WalksFrom (Call.start ⟨.delete, request, memory⟩ s) request _ .delete :=
        ⟨hv, i, hs, fun _ => hfull, rfl⟩
      exact h.indices (Op.leaves_of_walkExits hwalk (.inl (Exits.outside (outside_of_le (Nat.le_of_not_lt hge)))))

/-- **A call is bounded** exactly when its parent is below `CLUSTER_MAP_SIZE` or not looked at, its walk does not leave
the FAT, and the folder it opens lies below `CLUSTER_MAP_SIZE`. -/
theorem bounded_iff : call.Bounded s ↔
    (call.request.parentClusterNumber.toNat < 512 ∨
        (call.op = .readDirectory ∧ call.request.bufferSize ≠ 2048)) ∧
      (∀ v, call.op.WalksFrom (call.start s) call.request v → ¬ call.op.WalkExits s.fat v) ∧
      ∀ v, call.op.Opens (call.start s) call.request v → v.toNat < 512 := by
  constructor
  · intro h
    refine ⟨h.parent, ?_, fun v hv => h.opens hv⟩
    intro v hw hexit
    exact h.indices (Op.leaves_of_walkExits hw hexit)
  · rintro ⟨hp, hwalk, hopen⟩
    rcases Nat.lt_or_ge call.request.parentClusterNumber.toNat 512 with hlt | hge
    · have hin : ¬ Leaves (call.exec · s) := fun hleaves => by
        obtain ⟨v, hw, hexit⟩ := (Op.leaves_iff hlt).mp hleaves
        exact hwalk v hw hexit
      exact ⟨hin, fun fuel => Op.run_within (fun a ha => by cases ha) hlt hin hopen, fun h => by omega⟩
    · obtain ⟨hop, hsize⟩ := hp.resolve_left (Nat.not_lt.mpr hge)
      have hexec : ∀ fuel, call.exec fuel s = .ok (-1, call.start s) := by
        intro fuel
        rw [Call.exec, hop]
        exact readDirectory_of_size hsize
      refine ⟨?_, ?_, fun _ fuel => ⟨call.start s, ?_, rfl, rfl⟩⟩
      · rintro ⟨fuel, index, t, ht⟩
        cases (hexec fuel).symm.trans ht
      · intro fuel a ha
        rw [hexec] at ha
        cases ha
      · rw [hexec, hop]
        rfl

/-- A `write` whose parent is `CLUSTER_MAP_SIZE`, on a new file system. -/
theorem unbounded_parent : blankMachine.Reachable ∧ ¬ Call.Bounded
    { op := .write
      request :=
        { buf := 0
          name := fun _ => 97
          ext := fun _ => 0
          parentClusterNumber := 512
          bufferSize := 1 }
      memory := fun _ => 0 } blankMachine.system := by
  constructor
  · exact ⟨blankMachine, blankMachine_fresh, .refl⟩
  · intro h
    exact h.indices ⟨0, 512, _, Op.run_of_le .write 0 le_rfl fun hop => by cases hop⟩

end Bounded

end Os2024
