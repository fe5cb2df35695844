import Os2024.Properties.Answers
import Os2024.Properties.Reboot

/-!
# Programs that mount a disk

The kernel and the inserter are programs of their own: each begins with `initialize_filesystem_fat32` on what the one
before has left on the disk, and its driver starts from nothing. What carries over is that the disk is one that some run
of the file system has left (`Stores`). A program that has mounted it goes on with that run (`System.Serves`).
-/

namespace Os2024

/-- The disk is not formatted yet, or some run of the file system with this history has left it. -/
def Stores (disk : Disk) (h : List Event) : Prop :=
  (isEmptyStorage disk = true ∧ h = []) ∨ ∃ m : Machine, m.Reachable ∧ m.system.disk = disk ∧ m.history = h

/-- The disk and the cached FAT are those of a run of the file system with this history. -/
def System.Serves (s : System) (h : List Event) : Prop :=
  ∃ m : Machine, m.Reachable ∧ m.history = h ∧ m.system.disk = s.disk ∧
    m.system.driverState.fatTable = s.driverState.fatTable

section Mount

variable {s t : System} {h : List Event} {call : Call} {fuel : Nat} {code : Int8}

theorem System.Serves.stores (hs : s.Serves h) : Stores s.disk h := by
  obtain ⟨m, hm, hhist, hdisk, -⟩ := hs
  exact .inr ⟨m, hm, hdisk, hhist⟩

/-- A disk in use is mounted as it is. -/
theorem System.Serves.remount (hs : s.Serves h) (hdisk : t.disk = s.disk) :
    (initializeFilesystemFat32 t).Serves h ∧ (initializeFilesystemFat32 t).disk = s.disk ∧
      (initializeFilesystemFat32 t).driverState.fatTable = s.driverState.fatTable := by
  obtain ⟨m, hm, hhist, hmdisk, hmfat⟩ := hs
  have hrep := hm.sound.represents
  have hsame : t.disk = m.system.disk := hdisk.trans hmdisk.symm
  have hboot : t.disk bootSector = fsSignature := by rw [hsame, hrep.boot]
  have hdisk' := initializeFilesystemFat32_disk hboot
  have hfat : m.system.fat = (initializeFilesystemFat32 t).fat := by
    rw [initializeFilesystemFat32_fat hboot, hsame, hrep.stored, FAT32FileAllocationTable.ofBytes_bytes]
  have htable : m.system.driverState.fatTable = (initializeFilesystemFat32 t).driverState.fatTable :=
    congrArg FAT32FileAllocationTable.mk hfat
  exact ⟨⟨m, hm, hhist, hsame.symm.trans hdisk'.symm, htable⟩, hdisk'.trans hdisk, htable.symm.trans hmfat⟩

theorem Stores.mount (hd : Stores s.disk h) : (initializeFilesystemFat32 s).Serves h := by
  rcases hd with ⟨hempty, rfl⟩ | ⟨m, hm, hdisk, rfl⟩
  · exact ⟨⟨_, []⟩, ⟨_, ⟨s, hempty, rfl⟩, .refl⟩, rfl, rfl, rfl⟩
  · exact (System.Serves.remount ⟨m, hm, rfl, rfl, rfl⟩ hdisk.symm).1

/-- A call that the history allows returns, and the run goes on. -/
theorem System.Serves.exec (hs : s.Serves h) (ha : Allowed h call) (hfuel : 512 ≤ fuel) :
    ∃ code t, call.exec fuel s = .ok (code, t) ∧ t.Serves (⟨call, code, t.memory, t.accesses⟩ :: h) ∧
      (call.op = .write → code = writeAnswer h call.request) ∧
      (call.op = .read ∨ call.op = .write ∧ code ≠ 0 → t.disk = s.disk) := by
  obtain ⟨m, hm, rfl, hdisk, hfat⟩ := hs
  obtain ⟨code, n, hexec⟩ := hm.sound.represents.returns call ha.1 hfuel
  obtain ⟨t, ht, halike⟩ := System.Alike.run (s := call.start m.system) (t := call.start s) ⟨rfl, hdisk, hfat, rfl⟩ hexec
  have hreach : (m.after call code n).Reachable := by
    obtain ⟨m₀, hfresh, hrun⟩ := hm
    exact ⟨m₀, hfresh, hrun.tail (.call ha hexec)⟩
  refine ⟨code, t, ht, ⟨m.after call code n, hreach, ?_, halike.disk, halike.fatTable⟩, fun hop => ?_, fun hkeep => ?_⟩
  · rw [Machine.after, halike.memory, halike.accesses]
  · obtain ⟨n', hanswer⟩ := hm.write_answers hop ha.1 hfuel
    cases hexec.symm.trans hanswer
    rfl
  · rw [← halike.disk, ← hdisk]
    cases Call.exec_outcome ((hm.sound.represents.start call).chainsEnd fun _ => ha.1) hexec with
    | kept hk => exact hk.disk
    | written i hop hcode =>
      rcases hkeep with hread | ⟨-, hne⟩
      · cases hop.symm.trans hread
      · exact absurd hcode hne
    | deleted i l hop =>
      rcases hkeep with hread | ⟨hwrite, -⟩
      · cases hop.symm.trans hread
      · cases hop.symm.trans hwrite

end Mount

/-! ## Entries that stay -/

/-- A run with this history has left the disk and the cached FAT, and lists `e` at `p`; if `e` is a file it has these
clusters. -/
structure System.Keeps (s : System) (h : List Event) (p : UInt32 × Fin 64) (e : FAT32DirectoryEntry)
    (data : List Cluster) : Prop where
  serves : s.Serves h
  lists : Lists s.disk (catalog h) p
  entry : entryAt s.disk p = e
  data : e.isDirectory = false →
    ∃ l, FatChain s.fat e.clusterNumber l ∧ l.map (fun c => readCluster s.disk (clusterNum c)) = data

section Keeps

variable {s t : System} {h : List Event} {p : UInt32 × Fin 64} {e : FAT32DirectoryEntry} {data : List Cluster}
  {call : Call} {fuel : Nat} {code : Int8}

theorem System.Serves.represents (hs : s.Serves h) : Represents s.disk s.fat (catalog h) := by
  obtain ⟨m, hm, rfl, hdisk, hfat⟩ := hs
  have hrep := hm.sound.represents
  rwa [hdisk, System.fat, hfat] at hrep

/-- A call that is not a `delete` leaves the entry where it is. -/
theorem System.Keeps.exec (hk : s.Keeps h p e data) (ha : Allowed h call) (hop : call.op ≠ .delete)
    (hfuel : 512 ≤ fuel) (hexec : call.exec fuel s = .ok (code, t)) :
    t.Keeps (⟨call, code, t.memory, t.accesses⟩ :: h) p e data := by
  have hserves : t.Serves (⟨call, code, t.memory, t.accesses⟩ :: h) := by
    obtain ⟨code', t', hexec', hserves, -⟩ := hk.serves.exec ha hfuel
    cases hexec.symm.trans hexec'
    exact hserves
  obtain ⟨hlists, hsame⟩ := Represents.sameEntry_kept (m := ⟨s, h⟩) hk.serves.represents hk.lists ha
    (fun hdelete => absurd hdelete hop) hexec
  refine ⟨hserves, hlists, hsame.entry.trans hk.entry, fun hd => ?_⟩
  obtain ⟨l, hl, hdata⟩ := hk.data hd
  rw [← hk.entry] at hd hl
  obtain ⟨hl', hclusters⟩ := hsame.data hd l hl
  exact ⟨l, hk.entry ▸ hl', (List.map_congr_left hclusters).trans hdata⟩

/-- So does a program that mounts the disk. -/
theorem System.Keeps.mount (hk : s.Keeps h p e data) (hdisk : t.disk = s.disk) :
    (initializeFilesystemFat32 t).Keeps h p e data := by
  obtain ⟨hserves, hdisk', hfat⟩ := hk.serves.remount hdisk
  refine ⟨hserves, hdisk'.symm ▸ hk.lists, hdisk'.symm ▸ hk.entry, fun hd => ?_⟩
  rw [System.fat, hfat, hdisk']
  exact hk.data hd

/-- A `read` of the entry. -/
theorem System.Keeps.exec_read (hk : s.Keeps h p e data) (hop : call.op = .read)
    (hkey : call.request.key = (p.1, e.name, e.ext)) (hfuel : 512 ≤ fuel) :
    ∃ code t, call.exec fuel s = .ok (code, t) ∧ t.memory = (readAnswer e data call).2 := by
  have hrep := hk.serves.represents
  obtain ⟨l, hl, -⟩ := hrep.entry_chain hk.lists
  have hnames : call.request.Names s.disk p := by
    rw [FAT32DriverRequest.Names, hk.entry]
    exact hkey
  obtain ⟨t, hexec, hmem⟩ := Represents.exec_read (m := ⟨s, h⟩) hrep hk.lists hop hnames hl hfuel
  refine ⟨_, t, hexec, hmem.trans ?_⟩
  change (readAnswer (entryAt s.disk p) _ call).2 = _
  rw [hk.entry]
  cases hd : e.isDirectory with
  | true => rw [readAnswer_folder hd, readAnswer_folder hd]
  | false =>
    obtain ⟨l', hl', hdata⟩ := hk.data hd
    rw [hk.entry] at hl
    obtain rfl := hl.unique hl'
    rw [hdata]

end Keeps

/-! ## Answers that stay -/

section Answers

variable {h : List Event} {e : Event} {request : FAT32DriverRequest}

theorem keptWrites_cons (e : Event) (h : List Event) :
    keptWrites (e :: h) = e.keeping.apply Event.key (keptWrites h) := rfl

/-- Only a `delete` takes a write away. -/
theorem keptWrites_suffix (hop : e.call.op ≠ .delete) :
    keptWrites (e :: h) = keptWrites h ∨ keptWrites (e :: h) = e :: keptWrites h := by
  rw [keptWrites_cons, Event.keeping]
  split
  · exact .inl rfl
  · split
    · exact .inr rfl
    · next hdelete => exact absurd hdelete hop
    · exact .inl rfl

theorem catalog_subset (hop : e.call.op ≠ .delete) : ∀ r ∈ catalog h, r ∈ catalog (e :: h) := by
  intro r hr
  rw [catalog_eq_map] at hr ⊢
  rcases keptWrites_suffix (h := h) hop with hsame | hcons
  · rwa [hsame]
  · rw [hcons]
    exact List.mem_cons_of_mem _ hr

/-- The answer follows from the writes that are kept. -/
theorem writeAnswer_congr {h' : List Event} (hsame : keptWrites h' = keptWrites h) :
    writeAnswer h' request = writeAnswer h request := by
  have hlookup : lookup h' request.key = lookup h request.key := by rw [lookup, lookup, hsame]
  have hentries : recordsIn h' request.parentClusterNumber = recordsIn h request.parentClusterNumber := by
    rw [recordsIn, recordsIn, catalog_eq_map, catalog_eq_map, hsame]
  have hcells : cellsTaken h' = cellsTaken h := by rw [cellsTaken, cellsTaken, hsame]
  rw [writeAnswer, writeAnswer, hlookup, hentries, hcells]

theorem writeAnswer_of_isSome (hl : (lookup h request.key).isSome) : writeAnswer h request = 1 := if_pos hl

/-- A `write` that is refused stays refused until something is deleted. -/
theorem writeAnswer_cons_ne_zero (hop : e.call.op ≠ .delete) (hne : writeAnswer h request ≠ 0) :
    writeAnswer (e :: h) request ≠ 0 := by
  rcases keptWrites_suffix (h := h) hop with hsame | hcons
  · rwa [writeAnswer_congr hsame]
  have hlookup : (lookup h request.key).isSome → (lookup (e :: h) request.key).isSome := by
    rw [lookup, lookup, hcons, List.find?_cons]
    intro hsome
    split
    · rfl
    · exact hsome
  have hentries : (recordsIn h request.parentClusterNumber).length ≤
      (recordsIn (e :: h) request.parentClusterNumber).length := by
    rw [recordsIn, recordsIn, catalog_eq_map, catalog_eq_map, hcons, List.map_cons]
    exact List.Sublist.length_le ((List.sublist_cons_self ..).filter _)
  have hcells : cellsTaken h ≤ cellsTaken (e :: h) := by
    rw [cellsTaken, cellsTaken, hcons, List.map_cons, List.sum_cons]
    exact Nat.le_add_left ..
  unfold writeAnswer at hne ⊢
  by_cases hsome : (lookup (e :: h) request.key).isSome
  · rw [if_pos hsome]
    decide
  · rw [if_neg (fun hs => hsome (hlookup hs))] at hne
    rw [if_neg hsome]
    by_cases hfull : 62 ≤ (recordsIn (e :: h) request.parentClusterNumber).length
    · rw [if_pos hfull]
      decide
    · rw [if_neg (fun hf => hfull (hf.trans hentries))] at hne
      rw [if_neg hfull]
      by_cases hroom : 509 - cellsTaken h < request.clusterCount
      · rw [if_pos (by omega)]
        decide
      · rw [if_neg hroom] at hne
        exact absurd rfl hne

/-- A `write` is refused the second time. -/
theorem writeAnswer_again (hop : e.call.op = .write) (hcode : e.code = writeAnswer h e.call.request) :
    writeAnswer (e :: h) e.call.request ≠ 0 := by
  by_cases hzero : e.code = 0
  · have hkept : keptWrites (e :: h) = e :: keptWrites h := by
      rw [keptWrites_cons, Event.keeping, if_neg (not_not.mpr hzero), hop]
      rfl
    have hfound : (lookup (e :: h) e.call.request.key).isSome := by
      rw [lookup, hkept]
      exact List.find?_isSome.mpr ⟨e, List.mem_cons_self .., decide_eq_true rfl⟩
    rw [writeAnswer_of_isSome hfound]
    decide
  · exact writeAnswer_cons_ne_zero (by simp [hop]) (hcode ▸ hzero)

end Answers

end Os2024
