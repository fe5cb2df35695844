import Os2024.Fat32.Fresh

/-!
# Stopping in the middle of an operation

A `write` stores data, then the FAT, then the parent's table: whatever part of it reaches the disk, the disk holds the
old catalog or the new one. A `delete` also stores the FAT first, and there it is the wrong way round: between its two
calls the table still lists an entry whose cells are empty (`delete_cut`). `crash_consistent_iff` says that this is the
only point of failure, for all runs after the machine is mounted again.
-/

namespace Os2024

open LinkTable

/-- Every listed entry has a chain of cells that are not empty, and no two entries share a cell. -/
def Consistent (m : Machine) : Prop :=
  (∀ p, Lists m.system.disk (catalog m.history) p →
    ∃ l, FatChain m.system.fat (entryAt m.system.disk p).clusterNumber l ∧ l ≠ [] ∧
      ∀ c ∈ l, m.system.fat c ≠ fat32FatEmptyEntry) ∧
    ∀ p p', Lists m.system.disk (catalog m.history) p → Lists m.system.disk (catalog m.history) p' → p ≠ p' →
      ∀ l l', FatChain m.system.fat (entryAt m.system.disk p).clusterNumber l →
        FatChain m.system.fat (entryAt m.system.disk p').clusterNumber l' → l.Disjoint l'

theorem Represents.consistent {m : Machine}
    (h : Represents m.system.disk m.system.fat (catalog m.history)) : Consistent m := by
  constructor
  · intro p hp
    obtain ⟨l, hl, hne, hcells⟩ := h.entry_chain hp
    exact ⟨l, hl, hne, fun c hc => (hcells c hc).2⟩
  · intro p p' hp hp' hne l l' hl hl'
    exact h.entry_disjoint hp hp' hne hl hl'

/-- The machine `m` when it is stopped in a call that would have led to `s`, after the `write_clusters` calls `ws`, and
mounted again by a driver in the state `t`; the call counts as made if all its writes were. -/
def Machine.crash (m : Machine) (call : Call) (code : Int8) (s : System) (ws : List (UInt32 × Cluster)) (t : System) :
    Machine where
  system := initializeFilesystemFat32 { t with disk := applyWrites m.system.disk ws }
  history := if ws.length = (writesOf s.accesses).length then (m.after call code s).history else m.history

section Mount

variable {disk : Disk} {fat : Fin 512 → UInt32} {cat : List Record}

/-- Mounting a disk that holds a catalog. -/
theorem Represents.mount (h : Represents disk fat cat) (t : System) :
    Represents (initializeFilesystemFat32 { t with disk := disk }).disk
      (initializeFilesystemFat32 { t with disk := disk }).fat cat := by
  have hdisk : (initializeFilesystemFat32 { t with disk := disk }).disk = disk := initializeFilesystemFat32_disk h.boot
  have hfat : (initializeFilesystemFat32 { t with disk := disk }).fat = fat := by
    rw [initializeFilesystemFat32_fat h.boot, h.stored, FAT32FileAllocationTable.ofBytes_bytes]
  rwa [hdisk, hfat]

end Mount

section Crash

variable {m : Machine} {call : Call} {fuel : Nat} {code : Int8} {s t : System} {ws : List (UInt32 × Cluster)}

/-- A prefix of the calls of a `write`: some of the data, or the data and the FAT, or all of them. -/
theorem prefix_writtenCalls {request : FAT32DriverRequest} {i : Fin 64} (h : ws <+: s.writtenCalls request i) :
    (∃ n, ws = (dataWrites request s request.clusterCount).take n ∧ ws.length < (s.writtenCalls request i).length) ∨
      (ws = dataWrites request s request.clusterCount ++
          [(fatClusterNumber, FAT32FileAllocationTable.bytes ⟨s.writtenFat request⟩)] ∧
        ws.length < (s.writtenCalls request i).length) ∨
      ws = s.writtenCalls request i := by
  have hlen : (s.writtenCalls request i).length = (dataWrites request s request.clusterCount).length + 2 := by
    simp [System.writtenCalls]
  have hle := h.length_le
  have htake := List.prefix_iff_eq_take.mp h
  rcases Nat.lt_or_ge (dataWrites request s request.clusterCount).length ws.length with hgt | hge
  · rcases Nat.lt_or_ge (dataWrites request s request.clusterCount).length.succ ws.length with hgt' | hge'
    · exact .inr (.inr (h.eq_of_length (by omega)))
    · have hws : ws.length = (dataWrites request s request.clusterCount).length + 1 := by omega
      refine .inr (.inl ⟨?_, by omega⟩)
      rw [hws, System.writtenCalls, List.append_cons, List.take_append_of_le_length (by simp),
        List.take_of_length_le (by simp)] at htake
      exact htake
  · refine .inl ⟨ws.length, ?_, by omega⟩
    rwa [System.writtenCalls, List.take_append_of_le_length hge] at htake

/-- The calls of a `delete` cut after the first: the entry is still listed, and its first cell is empty. -/
theorem delete_cut {i : Fin 64} {l : List (Fin 512)}
    (h : Represents m.system.disk m.system.fat (catalog m.history))
    (hlive : Live (catalog m.history) call.request.parentClusterNumber)
    (hd : CanDelete (call.start m.system) call.request i l) (t : System) :
    ¬ Consistent (m.crash call 0 ((call.start m.system).deleted call.request i l)
      [(fatClusterNumber, FAT32FileAllocationTable.bytes ⟨(call.start m.system).deletedFat l⟩)] t) := by
  have hhist : (m.crash call 0 ((call.start m.system).deleted call.request i l)
      [(fatClusterNumber, FAT32FileAllocationTable.bytes ⟨(call.start m.system).deletedFat l⟩)] t).history =
      m.history := by
    rw [Machine.crash, Call.deleted_writesOf]
    rfl
  generalize hws : [(fatClusterNumber, FAT32FileAllocationTable.bytes ⟨(call.start m.system).deletedFat l⟩)] = ws
    at hhist ⊢
  have hboot : applyWrites m.system.disk ws bootSector = fsSignature := by
    rw [← hws, applyWrites_singleton, writeCluster_bootSector (by decide) (by decide), h.boot]
  have hdisk : (m.crash call 0 ((call.start m.system).deleted call.request i l) ws t).system.disk =
      applyWrites m.system.disk ws := initializeFilesystemFat32_disk hboot
  have hstored : readCluster (applyWrites m.system.disk ws) fatClusterNumber =
      FAT32FileAllocationTable.bytes ⟨(call.start m.system).deletedFat l⟩ := by
    rw [← hws, applyWrites_singleton, readCluster_writeCluster_self]
  have hfat : (m.crash call 0 ((call.start m.system).deleted call.request i l) ws t).system.fat =
      (call.start m.system).deletedFat l := by
    rw [Machine.crash, initializeFilesystemFat32_fat hboot, hstored, FAT32FileAllocationTable.ofBytes_bytes]
  have htable : tableAt (applyWrites m.system.disk ws) call.request.parentClusterNumber =
      tableAt m.system.disk call.request.parentClusterNumber := by
    refine tableAt_congr ?_
    rw [← hws, applyWrites_singleton, readCluster_writeCluster_of_ne (by decide) ((h.live_lt hlive).trans (by decide))
      (h.live_ne_fatCluster hlive)]
  rintro ⟨hchain, -⟩
  rw [hhist, hdisk, hfat] at hchain
  obtain ⟨l', hl', hne, hcells⟩ := hchain (call.request.parentClusterNumber, i)
    ⟨hlive, htable ▸ (search_eq_some hd.search).1⟩
  rw [entryAt, htable] at hl'
  obtain ⟨a, l₁, rfl⟩ := List.exists_cons_of_ne_nil hd.ne_nil
  obtain ⟨b, l₂, rfl⟩ := List.exists_cons_of_ne_nil hne
  have hab : clusterNum b = clusterNum a := hl'.start_cons.symm.trans hd.chain.start_cons
  rw [clusterNum_inj] at hab
  subst hab
  exact hcells b (by simp) (clear_of_mem (by simp))

/-- A crash anywhere else leaves the old catalog or the new one on the disk. -/
theorem Represents.crash (h : Represents m.system.disk m.system.fat (catalog m.history))
    (ha : Allowed m.history call) (hexec : call.exec fuel m.system = .ok (code, s))
    (hws : ws <+: writesOf s.accesses) (hcut : ¬ (call.op = .delete ∧ ws.length = 1)) (t : System) :
    Represents (m.crash call code s ws t).system.disk (m.crash call code s ws t).system.fat
      (catalog (m.crash call code s ws t).history) := by
  have h' := h.start call
  have hafter := (h.after (fun _ => ha.1) ha.2 hexec).1
  unfold Machine.crash
  cases Call.exec_outcome (h'.chainsEnd fun _ => ha.1) hexec with
  | kept hk hcode =>
    have hnil : writesOf s.accesses = [] := hk.writesOf
    rw [hnil, List.prefix_nil] at hws
    subst hws
    rw [hnil, if_pos rfl, Machine.catalog_after_of_keep hcode]
    exact h.mount t
  | written i hop hcode hc hs =>
    subst hs hcode
    rw [Call.written_writesOf] at hws ⊢
    rcases prefix_writtenCalls hws with ⟨n, rfl, hlt⟩ | ⟨rfl, hlt⟩ | rfl
    · rw [if_neg hlt.ne]
      exact (h'.dataPrefix hc n).mount t
    · rw [if_neg hlt.ne]
      exact (h'.linked hc).mount t
    · rw [if_pos rfl]
      exact hafter.mount t
  | deleted i l hop hcode hc hs =>
    subst hs hcode
    rw [Call.deleted_writesOf] at hws ⊢
    have hle := hws.length_le
    have hlen : ((call.start m.system).deletedCalls call.request i l).length = 2 := rfl
    rcases Nat.eq_zero_or_pos ws.length with h0 | hpos
    · obtain rfl := List.eq_nil_of_length_eq_zero h0
      exact h.mount t
    · have h2 : ws.length = 2 := by
        have h1 : ws.length ≠ 1 := fun h1 => hcut ⟨hop, h1⟩
        omega
      obtain rfl := hws.eq_of_length (h2.trans hlen.symm)
      rw [if_pos rfl]
      rw [CanDelete.deleted_disk] at hafter
      exact hafter.mount t

/-- **Crash consistency holds except between the two writes of a `delete`.** -/
theorem crash_consistent_iff (hm : m.Reachable) (ha : Allowed m.history call)
    (hexec : call.exec fuel m.system = .ok (code, s)) (hws : ws <+: writesOf s.accesses) (t : System) :
    (∀ n, Machine.Reaches Allowed (m.crash call code s ws t) n → Consistent n) ↔
      ¬ (call.op = .delete ∧ ws.length = 1) := by
  have h := hm.sound.represents
  constructor
  · rintro hall ⟨hop, hone⟩
    have h' := h.start call
    cases Call.exec_outcome (h'.chainsEnd fun _ => ha.1) hexec with
    | kept hk hcode =>
      have hnil : writesOf s.accesses = [] := hk.writesOf
      rw [hnil, List.prefix_nil] at hws
      rw [hws] at hone
      cases hone
    | written i hop' => rw [hop] at hop'; cases hop'
    | deleted i l _ hcode hc hs =>
      subst hs hcode
      rw [Call.deleted_writesOf] at hws
      obtain rfl : ws = [(fatClusterNumber,
          FAT32FileAllocationTable.bytes ⟨(call.start m.system).deletedFat l⟩)] := by
        have htake := List.prefix_iff_eq_take.mp hws
        rw [hone] at htake
        exact htake
      exact delete_cut h ha.1 hc t (hall _ .refl)
  · intro hcut n hn
    exact (hn.represents (h.crash ha hexec hws hcut t)).consistent

/-- Stopping in the creation of a folder, after its data. -/
theorem crash_consistent_mkdir :
    (∀ n, Machine.Reaches Allowed (blankMachine.crash (mkdirCall fun _ => 98) 0
        (((mkdirCall fun _ => 98).start blankMachine.system).written (mkdirCall fun _ => 98).request 2)
        (dataWrites (mkdirCall fun _ => 98).request ((mkdirCall fun _ => 98).start blankMachine.system) 1)
        blankMachine.system) n → Consistent n) ↔
      ¬ ((mkdirCall fun _ => 98).op = .delete ∧
        (dataWrites (mkdirCall fun _ => 98).request ((mkdirCall fun _ => 98).start blankMachine.system) 1).length = 1) := by
  refine crash_consistent_iff ⟨blankMachine, blankMachine_fresh, .refl⟩ ⟨Live.root _, mkdirCall_folderOk _⟩
    (blankMachine_fresh.exec_write (mkdirCall_fitsRoot _)) ?_ blankMachine.system
  rw [Call.written_writesOf, System.writtenCalls, FAT32DriverRequest.clusterCount_of_zero rfl]
  exact List.prefix_append _ _

/-- A file of one byte, and its `delete` stopped between the two writes. -/
theorem crash_delete_inconsistent :
    (blankMachine.firstWrite (writeCall (fun _ => 97) 1 fun _ => 0)).Reachable ∧
      Allowed (blankMachine.firstWrite (writeCall (fun _ => 97) 1 fun _ => 0)).history (deleteCall fun _ => 97) ∧
      ∃ s ws, (deleteCall fun _ => 97).exec 512
          (blankMachine.firstWrite (writeCall (fun _ => 97) 1 fun _ => 0)).system = .ok (0, s) ∧
        ws <+: writesOf s.accesses ∧ ws.length = 1 ∧
        ¬ Consistent ((blankMachine.firstWrite (writeCall (fun _ => 97) 1 fun _ => 0)).crash (deleteCall fun _ => 97) 0
          s ws blankMachine.system) := by
  have hfits := writeCall_fitsRoot (fun _ => 97) 1 (fun _ => 0) (by decide)
  have hm := blankMachine_fresh.firstWrite_reachable hfits (writeCall_folderOk (by decide))
  have hlists := blankMachine_fresh.firstWrite_lists hfits
  have hentry := blankMachine_fresh.firstWrite_entry hfits
  have hdir := blankMachine_fresh.firstWrite_isDirectory hfits
  generalize blankMachine.firstWrite (writeCall (fun _ => 97) 1 fun _ => 0) = m at *
  have h := hm.sound.represents
  have hnames : (deleteCall fun _ => 97).request.Names m.system.disk (rootClusterNumber, 2) := by
    rw [FAT32DriverRequest.Names, hentry]
    rfl
  obtain ⟨l, hl, -⟩ := h.entry_chain hlists
  have hcan : CanDelete ((deleteCall fun _ => 97).start m.system) (deleteCall fun _ => 97).request 2 l :=
    Represents.canDelete (s := (deleteCall fun _ => 97).start m.system) h hlists hnames hl fun hd => by
      rw [show entryAt ((deleteCall fun _ => 97).start m.system).disk (rootClusterNumber, 2) =
        entryAt m.system.disk (rootClusterNumber, 2) from rfl, hdir] at hd
      exact absurd hd (by decide)
  refine ⟨hm, ⟨Live.root _, deleteCall_folderOk _⟩, _, _, delete_of_canDelete hcan hl.length_le, ?_, ?_,
    delete_cut h (Live.root _) hcan blankMachine.system⟩
  · rw [Call.deleted_writesOf]
    exact ⟨[(rootClusterNumber, _)], rfl⟩
  · rfl

end Crash

end Os2024
