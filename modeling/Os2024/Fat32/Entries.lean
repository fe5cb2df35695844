import Os2024.Fat32.Runs

/-!
# Entries

What becomes of one entry, and what a `read` of it answers.

* An entry and the clusters of its chain are left alone by every call about another name: by a `write`
  (`Represents.sameEntry_written`), by a `delete` (`Represents.sameEntry_deleted`), by any (`Represents.sameEntry_after`).
* A `read` depends on nothing else (`Represents.exec_read`). Of a new file it copies `writtenData`
  (`CanWrite.exec_read`).
-/

namespace Os2024

open LinkTable

/-! ## One call -/

/-- The entry `p` is the same on two disks, and if it is a file's so are its chain and its clusters. -/
structure SameEntry (disk disk' : Disk) (fat fat' : Fin 512 → UInt32) (p : UInt32 × Fin 64) : Prop where
  entry : entryAt disk' p = entryAt disk p
  data : (entryAt disk p).isDirectory = false → ∀ l, FatChain fat (entryAt disk p).clusterNumber l →
    FatChain fat' (entryAt disk p).clusterNumber l ∧
      ∀ c ∈ l, readCluster disk' (clusterNum c) = readCluster disk (clusterNum c)

theorem SameEntry.refl (disk : Disk) (fat : Fin 512 → UInt32) (p : UInt32 × Fin 64) : SameEntry disk disk fat fat p :=
  ⟨rfl, fun _ _ hl => ⟨hl, fun _ _ => rfl⟩⟩

theorem SameEntry.trans {disk disk' disk'' : Disk} {fat fat' fat'' : Fin 512 → UInt32} {p : UInt32 × Fin 64}
    (h : SameEntry disk disk' fat fat' p) (h' : SameEntry disk' disk'' fat' fat'' p) :
    SameEntry disk disk'' fat fat'' p := by
  refine ⟨h'.entry.trans h.entry, fun hd l hl => ?_⟩
  obtain ⟨hl', hc⟩ := h.data hd l hl
  rw [← h.entry] at hd hl'
  obtain ⟨hl'', hc'⟩ := h'.data hd l hl'
  exact ⟨h.entry ▸ hl'', fun c hm => (hc' c hm).trans (hc c hm)⟩

theorem SameEntry.names {disk disk' : Disk} {fat fat' : Fin 512 → UInt32} {p : UInt32 × Fin 64}
    (h : SameEntry disk disk' fat fat' p) {request : FAT32DriverRequest} (hr : request.Names disk p) :
    request.Names disk' p := by
  rw [FAT32DriverRequest.Names, h.entry]
  exact hr

section Step

variable {s : System} {request : FAT32DriverRequest} {i : Fin 64} {cat : List Record} {p : UInt32 × Fin 64}
  {l l' : List (Fin 512)} {c : UInt32} {a : Fin 512}

namespace Represents

variable (h : Represents s.disk s.fat cat)
include h

/-- The clusters of a file are in use, and neither the FAT's nor those of a live folder. -/
theorem entry_cells (hp : Lists s.disk cat p) (hl : FatChain s.fat (entryAt s.disk p).clusterNumber l) (ha : a ∈ l) :
    InUse s.fat cat a ∧ clusterNum a ≠ fatClusterNumber ∧
      ((entryAt s.disk p).isDirectory = false → ∀ c, Live cat c → clusterNum a ≠ c) := by
  obtain ⟨r, hr, -, hdesc⟩ := h.record_of_lists hp
  rw [hdesc.first] at hl
  refine ⟨.inr ⟨r, hr, l, hl, ha⟩, h.ne_fatCluster hr hl ha, fun hd c hc => h.file_ne_live hr ?_ hl ha hc⟩
  exact Bool.eq_false_iff.mpr fun hf => Bool.false_ne_true (hd.symm.trans (hdesc.folder hf))

/-- A `write` leaves every entry alone. -/
theorem sameEntry_written (hw : CanWrite s request i) (hlive : Live cat request.parentClusterNumber)
    (hp : Lists s.disk cat p) :
    Lists (s.written request i).disk (s.writtenRecord request :: cat) p ∧
      SameEntry s.disk (s.written request i).disk s.fat (s.written request i).fat p := by
  have hentry : entryAt (s.written request i).disk p = entryAt s.disk p := by
    unfold entryAt
    by_cases hpp : p.1 = request.parentClusterNumber
    · rw [hpp, hw.written_parent, System.writtenTable, FAT32DirectoryTable.set_table_of_ne]
      rintro hi
      have hocc := hp.2.2
      rw [hpp, hi, (emptyEntry_eq_some hw.emptyEntry).2] at hocc
      cases hocc
    · rw [tableAt_congr (hw.written_of_ne ((h.live_lt hp.1).trans (by decide)) (h.live_ne_fatCluster hp.1) hpp
        (h.live_ne_writtenCells hp.1))]
  refine ⟨⟨live_cons_iff.mpr (.inl hp.1), hp.2.1, ?_⟩, hentry, ?_⟩
  · exact (congrArg FAT32DirectoryEntry.occupied hentry).trans hp.2.2
  intro hd l hl
  constructor
  · exact hl.congr fun c hc => h.writtenFat_of_inUse (h.entry_cells hp hl hc).1
  · intro c hc
    obtain ⟨huse, h1, hparent⟩ := h.entry_cells hp hl hc
    exact hw.written_of_ne (clusterNum_lt c) h1 (hparent hd _ hlive)
      fun b hb he => h.notMem_writtenCells huse (clusterNum_injective he ▸ hb)

/-- A `delete` of another name leaves an entry alone. -/
theorem sameEntry_deleted (hd : CanDelete s request i l') (hlive : Live cat request.parentClusterNumber)
    (hp : Lists s.disk cat p) (hkey : request.key ≠ (p.1, (entryAt s.disk p).name, (entryAt s.disk p).ext)) :
    Lists (s.deleted request i l').disk (without cat request.key) p ∧
      SameEntry s.disk (s.deleted request i l').disk s.fat (s.deleted request i l').fat p := by
  obtain ⟨r, hr, hrp, hdesc⟩ := h.record_of_lists hp
  obtain ⟨q, hq, hqk, -, hqd⟩ := h.record_of_search hlive hd.search
  have hrw : r ∈ without cat request.key := by
    refine mem_without.mpr ⟨hr, fun he => hkey ?_⟩
    rw [← he, Record.key, hrp, hdesc.name, hdesc.ext]
  have hql : FatChain s.fat q.first l' := hqd.first ▸ hd.chain
  have hentry : entryAt (s.deleted request i l').disk p = entryAt s.disk p := by
    unfold entryAt
    by_cases hpp : p.1 = request.parentClusterNumber
    · rw [hpp, hd.deleted_parent, System.deletedTable, FAT32DirectoryTable.set_table_of_ne]
      rintro hi
      obtain ⟨-, hn, hx⟩ := search_eq_some hd.search
      rw [← hpp, ← hi] at hn hx
      refine hkey ?_
      rw [FAT32DriverRequest.key, ← hpp, ← hn, ← hx]
      rfl
    · rw [tableAt_congr (hd.deleted_of_ne ((h.live_lt hp.1).trans (by decide)) (h.live_ne_fatCluster hp.1) hpp)]
  have hlive' : Live (without cat request.key) p.1 := hrp ▸ ((h.deleted hd hlive).record r hrw).1
  refine ⟨⟨hlive', hp.2.1, ?_⟩, hentry, ?_⟩
  · exact (congrArg FAT32DirectoryEntry.occupied hentry).trans hp.2.2
  intro hdir l hl
  constructor
  · have hl' := hl
    rw [hdesc.first] at hl
    rw [← hqk] at hrw
    exact hl'.congr fun c hc => h.deletedFat_of_inUse hq hql (.inr ⟨r, hrw, l, hl, hc⟩)
  · intro c hc
    obtain ⟨-, h1, hparent⟩ := h.entry_cells hp hl hc
    exact hd.deleted_of_ne (clusterNum_lt c) h1 (hparent hdir _ hlive)

end Represents

end Step

/-! ## Any call -/

section Calls

variable {m n : Machine} {p : UInt32 × Fin 64} {k : Key}

/-- A call that may be made and is not about the key `k`. -/
def AllowedBeside (k : Key) (h : List Event) (call : Call) : Prop := Allowed h call ∧ call.request.key ≠ k

/-- An entry is left alone by a call that does not delete it. -/
theorem Represents.sameEntry_kept {call : Call} {fuel : Nat} {code : Int8} {s : System}
    (h : Represents m.system.disk m.system.fat (catalog m.history)) (hp : Lists m.system.disk (catalog m.history) p)
    (ha : Allowed m.history call) (hkept : call.op = .delete → code = 0 →
      call.request.key ≠ (p.1, (entryAt m.system.disk p).name, (entryAt m.system.disk p).ext))
    (hexec : call.exec fuel m.system = .ok (code, s)) :
    Lists s.disk (catalog (m.after call code s).history) p ∧ SameEntry m.system.disk s.disk m.system.fat s.fat p := by
  obtain ⟨hlive, -⟩ := ha
  have h' := h.start call
  cases Call.exec_outcome (h'.chainsEnd fun _ => hlive) hexec with
  | kept hk hcode =>
    rw [Machine.catalog_after_of_keep hcode, hk.disk, hk.fat]
    exact ⟨hp, .refl _ _ _⟩
  | written i hop hcode hc hs =>
    subst hs hcode
    rw [Machine.catalog_after_written hop]
    exact h'.sameEntry_written hc hlive hp
  | deleted i l hop hcode hc hs =>
    subst hs hcode
    rw [Machine.catalog_after_delete hop]
    exact h'.sameEntry_deleted hc hlive hp (hkept hop rfl)

/-- An entry is left alone by a call about another name. -/
theorem Represents.sameEntry_after {call : Call} {fuel : Nat} {code : Int8} {s : System}
    (h : Represents m.system.disk m.system.fat (catalog m.history)) (hp : Lists m.system.disk (catalog m.history) p)
    (ha : AllowedBeside (p.1, (entryAt m.system.disk p).name, (entryAt m.system.disk p).ext) m.history call)
    (hexec : call.exec fuel m.system = .ok (code, s)) :
    Lists s.disk (catalog (m.after call code s).history) p ∧ SameEntry m.system.disk s.disk m.system.fat s.fat p :=
  h.sameEntry_kept hp ha.1 (fun _ _ => ha.2) hexec

/-- An entry that is listed after a call was listed before it, or is the one that the call has made. -/
theorem Represents.lists_after {call : Call} {fuel : Nat} {code : Int8} {s : System}
    (h : Represents m.system.disk m.system.fat (catalog m.history)) (ha : Allowed m.history call)
    (hexec : call.exec fuel m.system = .ok (code, s)) (hp : Lists s.disk (catalog (m.after call code s).history) p) :
    (Lists m.system.disk (catalog m.history) p ∧ SameEntry m.system.disk s.disk m.system.fat s.fat p) ∨
      ∃ i, CanWrite (call.start m.system) call.request i ∧ s = (call.start m.system).written call.request i ∧
        p = (call.request.parentClusterNumber, i) := by
  have h' := h.start call
  have hafter := (h.after (fun _ => ha.1) ha.2 hexec).1
  obtain ⟨r, hr, hparent, hdesc⟩ := hafter.record_of_lists hp
  -- the entry of a record that has stayed in the catalog is where it was
  have hstay : ∀ q, Lists s.disk (catalog (m.after call code s).history) q ∧
      SameEntry m.system.disk s.disk m.system.fat s.fat q → Lists m.system.disk (catalog m.history) q →
      q.1 = r.parent → Describes (entryAt m.system.disk q) r →
      Lists m.system.disk (catalog m.history) p ∧ SameEntry m.system.disk s.disk m.system.fat s.fat p := by
    rintro q ⟨hq', hsame⟩ hq hqp hqd
    obtain rfl : q = p := (hafter.existsUnique_entry hr).unique ⟨hq', hqp, hsame.entry ▸ hqd⟩ ⟨hp, hparent.symm, hdesc⟩
    exact ⟨hq, hsame⟩
  cases Call.exec_outcome (h'.chainsEnd fun _ => ha.1) hexec with
  | kept hk hcode =>
    rw [Machine.catalog_after_of_keep hcode, hk.disk] at hp
    rw [hk.disk, hk.fat]
    exact .inl ⟨hp, .refl _ _ _⟩
  | written i hop hcode hw hs =>
    subst hs hcode
    rw [Machine.catalog_after_written hop] at hr hp hafter hstay
    rcases List.mem_cons.mp hr with rfl | hold
    · refine .inr ⟨i, hw, rfl, (hafter.existsUnique_entry hr).unique ⟨hp, hparent.symm, hdesc⟩
        ⟨hw.lists_written ha.1, rfl, ?_⟩⟩
      rw [hw.entryAt_written]
      exact (call.start m.system).writtenEntry_describes call.request i
    · obtain ⟨q, ⟨hq, hqp, hqd⟩, -⟩ := h.existsUnique_entry hold
      exact .inl (hstay q (h'.sameEntry_written hw ha.1 hq) hq hqp hqd)
  | deleted i l hop hcode hd hs =>
    subst hs hcode
    rw [Machine.catalog_after_delete hop] at hr hp hafter hstay
    obtain ⟨hold, hkey⟩ := mem_without.mp hr
    obtain ⟨q, ⟨hq, hqp, hqd⟩, -⟩ := h.existsUnique_entry hold
    have hne : call.request.key ≠ (q.1, (entryAt m.system.disk q).name, (entryAt m.system.disk q).ext) := by
      rw [hqp, hqd.name, hqd.ext]
      exact fun he => hkey he.symm
    exact .inl (hstay q (h'.sameEntry_deleted hd ha.1 hq hne) hq hqp hqd)

/-- A `read` of an entry, in a state that holds its catalog. -/
theorem Represents.exec_read (h : Represents m.system.disk m.system.fat (catalog m.history))
    (hp : Lists m.system.disk (catalog m.history) p) {call : Call} {fuel : Nat} {l : List (Fin 512)}
    (hop : call.op = .read)
    (hkey : call.request.Names m.system.disk p)
    (hl : FatChain m.system.fat (entryAt m.system.disk p).clusterNumber l) (hfuel : 512 ≤ fuel) :
    ∃ s, call.exec fuel m.system = .ok ((readAnswer (entryAt m.system.disk p)
        (l.map fun c => readCluster m.system.disk (clusterNum c)) call).1, s) ∧
      s.memory = (readAnswer (entryAt m.system.disk p)
        (l.map fun c => readCluster m.system.disk (clusterNum c)) call).2 := by
  obtain ⟨hparent, hfound⟩ := h.found_of_names hp hkey
  obtain ⟨l', hl', hne, -⟩ := h.entry_chain hp
  have hread := Call.exec_read_of_found hop (hparent ▸ h.parentValid rfl rfl hp.1) hfound (hparent ▸ hl)
    (hl.unique hl' ▸ hne) hfuel
  rwa [hparent] at hread

end Calls

/-! ## A new file -/

section NewFile

variable {s : System} {request : FAT32DriverRequest} {i : Fin 64}

/-- The clusters a `read` copies, for a file that `write` has just made. -/
def writtenData (request : FAT32DriverRequest) (mem : Memory) : List Cluster :=
  (List.range ((request.clusterCount + 1) / 2)).map fun j => request.chunk mem (min (2 * j + 1) (request.clusterCount - 1))

/-- What the cells of a new file hold. -/
theorem CanWrite.written_data (h : CanWrite s request i) :
    (s.writtenCells request).map (fun c => readCluster (s.written request i).disk (clusterNum c)) =
      writtenData request s.memory := by
  rw [h.writtenCells_eq_map, List.map_map, writtenData]
  exact List.map_congr_left fun j hj => h.written_freeCell (List.mem_range.mp hj)

/-- A `read` of a new file. -/
theorem CanWrite.exec_read (h : CanWrite s request i) (rc : Call) (hop : rc.op = .read)
    (hkey : rc.request.key = request.key) :
    (s.written request i).found rc.request = some i ∧
      (tableAt (s.written request i).disk rc.request.parentClusterNumber).table i = s.writtenEntry request i ∧
      ∃ t, rc.exec 512 (s.written request i) =
          .ok ((readAnswer (s.writtenEntry request i) (writtenData request s.memory) rc).1, t) ∧
        t.memory = (readAnswer (s.writtenEntry request i) (writtenData request s.memory) rc).2 := by
  obtain ⟨hparent, hname, hext⟩ := FAT32DriverRequest.key_eq_iff.mp hkey
  have hfound : (s.written request i).found rc.request = some i := by
    rw [System.found, hparent, hname, hext]
    exact h.found_written
  have hself : (tableAt (s.written request i).disk rc.request.parentClusterNumber).table i =
      s.writtenEntry request i := hparent ▸ h.written_table_self
  have hchain : FatChain (s.written request i).fat (s.writtenEntry request i).clusterNumber
      (s.writtenCells request) := by
    rw [System.writtenEntry_clusterNumber]
    exact h.chain
  have hne : s.writtenCells request ≠ [] := by
    rw [h.writtenCells_eq_cons]
    exact List.cons_ne_nil _ _
  have hread := Call.exec_read_of_found hop (hparent ▸ h.parentValid_written) hfound (hself ▸ hchain) hne le_rfl
  rw [hself, h.written_data] at hread
  exact ⟨hfound, hself, hread⟩

end NewFile

end Os2024
