import Os2024.Fat32.Represents

/-!
# Runs keep the catalog

* `Call.exec_outcome`: a call that returns has changed nothing, or has done all of a `write` or all of a `delete`.
* `Represents.written`, `Represents.deleted`: the disk and the FAT follow the catalog; on the way of a `write` they
  represent the old catalog (`Represents.dataPrefix`, `Represents.linked`).
* `Machine.Reachable.sound`: so in every state of a run the disk and the FAT hold the catalog of the history, and no
  cell is lost.
-/

namespace Os2024

open LinkTable Scan Journal

/-! ## Outcomes of a call -/

section Outcomes

variable {call : Call} {s s' : System} {code code' : Int8} {fuel fuel' : Nat}

/-- What a call that returns has done. -/
inductive Call.Outcome (call : Call) (s : System) (code : Int8) (s' : System) : Prop
  | kept (hk : (call.start s).Kept s') (hcode : call.op = .write ∨ call.op = .delete → code ≠ 0)
  | written (i : Fin 64) (hop : call.op = .write) (hcode : code = 0) (hc : CanWrite (call.start s) call.request i)
      (hs : s' = (call.start s).written call.request i)
  | deleted (i : Fin 64) (l : List (Fin 512)) (hop : call.op = .delete) (hcode : code = 0)
      (hc : CanDelete (call.start s) call.request i l) (hs : s' = (call.start s).deleted call.request i l)

theorem Call.exec_outcome (hc : (call.start s).ChainsEnd call.request) (h : call.exec fuel s = .ok (code, s')) :
    call.Outcome s code s' := by
  unfold Call.exec Op.run at h
  cases ho : call.op with
  | read =>
    rw [ho] at h
    exact .kept (read_kept hc h) (by simp [ho])
  | readDirectory =>
    rw [ho] at h
    exact .kept (readDirectory_kept h) (by simp [ho])
  | write =>
    rw [ho] at h
    rcases write_cases h with ⟨hne, hk⟩ | ⟨h0, i, hw, hs⟩
    · exact .kept hk fun _ => hne
    · exact .written i ho h0 hw hs
  | delete =>
    rw [ho] at h
    rcases delete_cases hc h with ⟨hne, hk⟩ | ⟨h0, i, l, hd, hs⟩
    · exact .kept hk fun _ => hne
    · exact .deleted i l ho h0 hd hs

/-- A call whose walks end returns. -/
theorem Call.exec_returns (hp : call.request.parentClusterNumber.toNat < 512)
    (hc : (call.start s).ChainsEnd call.request) (hfuel : 512 ≤ fuel) :
    ∃ code s', call.exec fuel s = .ok (code, s') := by
  unfold Call.exec Op.run
  cases call.op with
  | read =>
    obtain ⟨code, s', h, -⟩ := read_returns hp hc hfuel
    exact ⟨code, s', h⟩
  | readDirectory =>
    obtain ⟨code, s', h, -⟩ := readDirectory_returns (s := call.start s) hp
    exact ⟨code, s', h⟩
  | write =>
    rcases write_returns (s := call.start s) hp hfuel with ⟨code, s', h, -⟩ | ⟨i, -, h⟩
    · exact ⟨code, s', h⟩
    · exact ⟨0, _, h⟩
  | delete =>
    rcases delete_returns hp hc hfuel with ⟨code, s', h, -⟩ | ⟨i, l, -, h⟩
    · exact ⟨code, s', h⟩
    · exact ⟨0, _, h⟩

theorem Call.exec_mono (h : (call.exec fuel s).Final) (hle : fuel ≤ fuel') : call.exec fuel' s = call.exec fuel s :=
  Op.run_mono h hle

/-- The answer does not depend on the fuel. -/
theorem Call.exec_unique {t : System} (h : call.exec fuel s = .ok (code, s')) (h' : call.exec fuel' s = .ok (code', t)) :
    code = code' ∧ s' = t := by
  have h1 := Call.exec_mono (h ▸ Exec.final_ok _) (Nat.le_max_left fuel fuel')
  have h2 := Call.exec_mono (h' ▸ Exec.final_ok _) (Nat.le_max_right fuel fuel')
  rw [h1, h, h'] at h2
  cases h2
  exact ⟨rfl, rfl⟩

variable {i : Fin 64} {l : List (Fin 512)}

theorem Call.exec_write (hop : call.op = .write) (hw : CanWrite (call.start s) call.request i) :
    call.exec 512 s = .ok (0, (call.start s).written call.request i) := by
  rw [Call.exec, hop]
  exact write_of_canWrite hw (clusterCount_le hw)

theorem Call.exec_delete (hop : call.op = .delete) (hd : CanDelete (call.start s) call.request i l) :
    call.exec 512 s = .ok (0, (call.start s).deleted call.request i l) := by
  rw [Call.exec, hop]
  exact delete_of_canDelete hd hd.chain.length_le

/-- A `write` that has returned `0` has done its work. -/
theorem Call.exec_write_ok (hop : call.op = .write) (h : call.exec fuel s = .ok (0, s')) :
    ∃ i, CanWrite (call.start s) call.request i ∧ s' = (call.start s).written call.request i := by
  rw [Call.exec, hop] at h
  rcases write_cases h with ⟨h0, -⟩ | ⟨-, i, hw, hs⟩
  · exact absurd rfl h0
  · exact ⟨i, hw, hs⟩

theorem Call.exec_delete_ok (hop : call.op = .delete) (hc : (call.start s).ChainsEnd call.request)
    (h : call.exec fuel s = .ok (0, s')) :
    ∃ i l, CanDelete (call.start s) call.request i l ∧ s' = (call.start s).deleted call.request i l := by
  rw [Call.exec, hop] at h
  rcases delete_cases hc h with ⟨h0, -⟩ | ⟨-, i, l, hd, hs⟩
  · exact absurd rfl h0
  · exact ⟨i, l, hd, hs⟩

end Outcomes

/-! ## Searches in tables that hold a catalog -/

section Search

variable {t : FAT32DirectoryTable} {name : Name} {ext : Ext} {i : Fin 64}

theorem search_eq_none : t.search (identifier name ext) = none ↔
    ∀ i, t.Occupied i → ¬ ((t.table i).name = name ∧ (t.table i).ext = ext) := by
  simp only [FAT32DirectoryTable.search, firstFrom_eq_none, Bool.and_eq_false_iff, FAT32DirectoryTable.Occupied]
  constructor
  · rintro h i ⟨hi, ho⟩ hid
    rcases h i hi with h | h
    · rw [h] at ho
      cases ho
    · rw [FAT32DirectoryEntry.hasIdentifier_iff.mpr hid] at h
      cases h
  · intro h i hi
    by_cases ho : (t.table i).occupied = true
    · exact .inr (Bool.eq_false_iff.mpr fun hid => h i ⟨hi, ho⟩ (FAT32DirectoryEntry.hasIdentifier_iff.mp hid))
    · exact .inl (Bool.eq_false_iff.mpr ho)

theorem search_eq_some (h : t.search (identifier name ext) = some i) :
    t.Occupied i ∧ (t.table i).name = name ∧ (t.table i).ext = ext := by
  obtain ⟨hi, hp, -⟩ := firstFrom_eq_some.mp h
  rw [Bool.and_eq_true, FAT32DirectoryEntry.hasIdentifier_iff] at hp
  exact ⟨⟨hi, hp.1⟩, hp.2⟩

theorem emptyEntry_eq_some (h : t.emptyEntry = some i) : 2 ≤ i.val ∧ (t.table i).occupied = false := by
  obtain ⟨hi, hp, -⟩ := firstFrom_eq_some.mp h
  exact ⟨hi, by simpa using hp⟩

theorem anyOccupied_eq_false : t.anyOccupied = false ↔ ∀ i, ¬ t.Occupied i := by
  rw [FAT32DirectoryTable.anyOccupied, Bool.eq_false_iff, ne_eq, firstFrom_isSome]
  simp only [not_exists, FAT32DirectoryTable.Occupied]

/-- The one entry with the identifier of a request is found. -/
theorem search_of_unique (ho : t.Occupied i) (hn : (t.table i).name = name) (hx : (t.table i).ext = ext)
    (hu : ∀ j, t.Occupied j → (t.table j).name = name → (t.table j).ext = ext → j = i) :
    t.search (identifier name ext) = some i := by
  cases hs : t.search (identifier name ext) with
  | none => exact absurd ⟨hn, hx⟩ (search_eq_none.mp hs i ho)
  | some j =>
    obtain ⟨hj, hnj, hxj⟩ := search_eq_some hs
    rw [hu j hj hnj hxj]

/-- What is put into an empty slot does not change a search for another name. -/
theorem search_set {e : FAT32DirectoryEntry} (hfree : (t.table i).occupied = false)
    (hne : e.occupied = true → ¬ (e.name = name ∧ e.ext = ext)) :
    (t.set i e).search (identifier name ext) = t.search (identifier name ext) := by
  unfold FAT32DirectoryTable.search
  congr 1
  funext j
  by_cases hji : j = i
  · subst hji
    rw [FAT32DirectoryTable.set_table_self, hfree, Bool.false_and, Bool.and_eq_false_iff]
    by_cases ho : e.occupied = true
    · exact .inr (Bool.eq_false_iff.mpr fun h => hne ho (FAT32DirectoryEntry.hasIdentifier_iff.mp h))
    · exact .inl (Bool.eq_false_iff.mpr ho)
  · rw [FAT32DirectoryTable.set_table_of_ne hji]

/-- A slot that is empty before and after does not change which one is the first. -/
theorem emptyEntry_set {e : FAT32DirectoryEntry} (hfree : (t.table i).occupied = false) (he : e.occupied = false) :
    (t.set i e).emptyEntry = t.emptyEntry := by
  unfold FAT32DirectoryTable.emptyEntry
  congr 1
  funext j
  by_cases hji : j = i
  · rw [hji, FAT32DirectoryTable.set_table_self, hfree, he]
  · rw [FAT32DirectoryTable.set_table_of_ne hji]

end Search

/-! ## The parent after a `write` -/

section Written

variable {s : System} {request : FAT32DriverRequest} {i : Fin 64}

namespace CanWrite

variable (h : CanWrite s request i)
include h

theorem parentValid_written : ParentValid (s.written request i) request.parentClusterNumber := by
  have hi := (emptyEntry_eq_some h.emptyEntry).1
  obtain ⟨p, hp, h2, hend, hdir⟩ := h.valid
  refine ⟨p, hp, h2, ?_, ?_⟩
  · exact (writtenFat_of_notMem fun hm => h.valid.ne_writtenCells hm hp.symm).trans hend
  · rw [h.written_parent, System.writtenTable, FAT32DirectoryTable.set_table_of_ne]
    · exact hdir
    · rintro rfl
      exact absurd hi (by decide)

theorem written_table_self : (tableAt (s.written request i).disk request.parentClusterNumber).table i =
    s.writtenEntry request i := by
  rw [h.written_parent, System.writtenTable, FAT32DirectoryTable.set_table_self]

theorem entryAt_written :
    entryAt (s.written request i).disk (request.parentClusterNumber, i) = s.writtenEntry request i :=
  h.written_table_self

/-- The new entry is found under its name. -/
theorem found_written : (s.written request i).found request = some i := by
  refine search_of_unique ⟨(emptyEntry_eq_some h.emptyEntry).1, by rw [h.written_table_self]; rfl⟩
    (by rw [h.written_table_self]; rfl) (by rw [h.written_table_self]; rfl) fun j hj hn hx => ?_
  by_contra hji
  rw [h.written_parent, System.writtenTable, FAT32DirectoryTable.Occupied,
    FAT32DirectoryTable.set_table_of_ne hji] at hj
  rw [h.written_parent, System.writtenTable, FAT32DirectoryTable.set_table_of_ne hji] at hn hx
  exact search_eq_none.mp h.search j hj ⟨hn, hx⟩

/-- A file just written, or a folder that lists nothing, can be deleted. -/
theorem canDelete_written {u : System} {request' : FAT32DriverRequest} (hdisk : u.disk = (s.written request i).disk)
    (hfat : u.fat = (s.written request i).fat) (hkey : request'.key = request.key)
    (hempty : (s.writtenEntry request i).isDirectory = true →
      (tableAt (s.written request i).disk (clusterNum (freeCell s.fat 0))).anyOccupied = false) :
    CanDelete u request' i (s.writtenCells request) := by
  obtain ⟨hparent, hname, hext⟩ := FAT32DriverRequest.key_eq_iff.mp hkey
  refine ⟨hparent ▸ h.parentValid_written.of_same hdisk hfat, ?_, ?_, ?_, ?_⟩
  · rw [hparent, hname, hext, hdisk]
    exact h.found_written
  · rw [hparent, hdisk, h.written_table_self, System.writtenEntry_clusterNumber]
    exact hempty
  · rw [hparent, hdisk, h.written_table_self, System.writtenEntry_clusterNumber, hfat]
    exact h.chain
  · rw [h.writtenCells_eq_cons]
    exact List.cons_ne_nil _ _

end CanWrite

end Written

/-! ## `write` -/

section Write

variable {s : System} {request : FAT32DriverRequest} {i : Fin 64} {cat : List Record} {n : Nat} {c : UInt32}

/-- The record a successful `write` adds. -/
abbrev System.writtenRecord (s : System) (request : FAT32DriverRequest) : Record :=
  request.record (clusterNum (freeCell s.fat 0))

theorem System.writtenEntry_describes (s : System) (request : FAT32DriverRequest) (i : Fin 64) :
    Describes (s.writtenEntry request i) (s.writtenRecord request) := by
  refine ⟨rfl, rfl, s.writtenEntry_clusterNumber request i, fun hf => ?_⟩
  rw [System.writtenEntry_isDirectory]
  exact Bool.or_eq_true_iff.mpr (.inl hf)

/-- The new entry is listed. -/
theorem CanWrite.lists_written (h : CanWrite s request i) (hlive : Live cat request.parentClusterNumber) :
    Lists (s.written request i).disk (s.writtenRecord request :: cat) (request.parentClusterNumber, i) := by
  refine ⟨live_cons_iff.mpr (.inl hlive), (emptyEntry_eq_some h.emptyEntry).1, ?_⟩
  rw [h.written_table_self]
  rfl

namespace Represents

variable (h : Represents s.disk s.fat cat)
include h

/-- Cells in use are not taken. -/
theorem notMem_writtenCells {a : Fin 512} (ha : InUse s.fat cat a) : a ∉ s.writtenCells request := fun hm =>
  h.ne_emptyEntry ha (mem_writtenCells hm).2

theorem live_ne_writtenCells (hc : Live cat c) : ∀ a ∈ s.writtenCells request, clusterNum a ≠ c := by
  obtain ⟨p, rfl, -, -, huse⟩ := h.live_cell hc
  rintro a ha he
  exact h.notMem_writtenCells huse (clusterNum_injective he ▸ ha)

theorem writtenFat_of_inUse {a : Fin 512} (ha : InUse s.fat cat a) : s.writtenFat request a = s.fat a :=
  writtenFat_of_notMem (h.notMem_writtenCells ha)

variable (hw : CanWrite s request i)
include hw

/-- While `write` stores data, the disk still holds the old catalog. -/
theorem dataPrefix (n : Nat) :
    Represents (applyWrites s.disk ((dataWrites request s request.clusterCount).take n)) s.fat cat := by
  refine h.frame (hw.dataPrefix_bootSector.trans h.boot) ?_ (fun c hc => ?_) fun _ _ => rfl
  · rw [hw.readCluster_dataPrefix (by decide) (fatCluster_ne_writtenCells s request), h.stored]
  · exact hw.readCluster_dataPrefix ((h.live_lt hc).trans (by decide)) (h.live_ne_writtenCells hc)

/-- The disk once `write` has stored the FAT. -/
theorem linked :
    Represents (applyWrites s.disk (dataWrites request s request.clusterCount ++
      [(fatClusterNumber, FAT32FileAllocationTable.bytes ⟨s.writtenFat request⟩)])) (s.writtenFat request) cat := by
  have hdata := h.dataPrefix hw (dataWrites request s request.clusterCount).length
  rw [List.take_length] at hdata
  refine h.frame ?_ ?_ (fun c hc => ?_) fun a ha => h.writtenFat_of_inUse ha
  · rw [applyWrites_concat]
    exact (writeCluster_bootSector (c := fatClusterNumber) (by decide) (by decide)).trans hdata.boot
  · rw [readCluster_applyWrites_concat (by decide) (by decide), if_pos rfl]
  · exact hw.readCluster_linked ((h.live_lt hc).trans (by decide)) (h.live_ne_fatCluster hc)
      (h.live_ne_writtenCells hc)

/-- The new record, once the FAT is stored. -/
theorem addable (hlive : Live cat request.parentClusterNumber) :
    Addable (s.writtenFat request) cat (s.writtenRecord request) (s.writtenCells request) where
  parent := hlive
  key := by
    intro r hr hk
    obtain ⟨-, i, hi, hd⟩ := h.record r hr
    obtain ⟨hp, hn, hx⟩ : r.parent = request.parentClusterNumber ∧ r.name = request.name ∧ r.ext = request.ext := by
      simpa [Record.key, System.writtenRecord, FAT32DriverRequest.record] using hk
    rw [hp] at hi hd
    exact search_eq_none.mp hw.search i hi ⟨hd.name.trans hn, hd.ext.trans hx⟩
  chain := hw.chain
  ne_nil := by
    rw [hw.writtenCells_eq_cons]
    exact List.cons_ne_nil _ _
  three_le := by
    intro a ha
    obtain ⟨h2, he⟩ := mem_writtenCells ha
    refine Nat.lt_of_le_of_ne h2 fun hne => ?_
    obtain rfl : a = 2 := Fin.ext hne.symm
    exact absurd (h.reserved.2.2.symm.trans he) (by decide)
  folder := by
    intro hf
    have hsize : request.bufferSize = 0 := by simpa [System.writtenRecord, FAT32DriverRequest.record] using hf
    rw [hw.length_writtenCells, FAT32DriverRequest.clusterCount_of_zero hsize]
  fresh := by
    intro a ha huse
    exact h.notMem_writtenCells ((h.inUse_iff fun c hc => h.writtenFat_of_inUse hc).mp huse) ha

/-- **`write`** adds one record. -/
theorem written (hlive : Live cat request.parentClusterNumber)
    (hfolder : request.bufferSize = 0 → (FAT32DirectoryTable.ofBytes (request.chunk s.memory 0)).IsEmpty) :
    Represents (s.written request i).disk (s.written request i).fat (s.writtenRecord request :: cat) := by
  obtain ⟨hi, hfree⟩ := emptyEntry_eq_some hw.emptyEntry
  have hlinked := h.linked hw
  have htable := tableAt_congr (hw.readCluster_linked ((h.live_lt hlive).trans (by decide)) (h.live_ne_fatCluster hlive)
    (h.live_ne_writtenCells hlive))
  have hw' := hlinked.tableWrite (i := i) (e := s.writtenEntry request i) hlive
  rw [htable, ← applyWrites_append, List.append_assoc] at hw'
  refine hlinked.insert (h.addable hw hlive) hi (htable ▸ hfree) (s.writtenEntry_describes request i) rfl hw'
    fun hf => ?_
  have hsize : request.bufferSize = 0 := by simpa [System.writtenRecord, FAT32DriverRequest.record] using hf
  have hcount := FAT32DriverRequest.clusterCount_of_zero hsize
  have hdata := hw.written_freeCell (k := 0) (by omega)
  rw [hcount] at hdata
  rw [tableAt]
  exact (congrArg (fun b => (FAT32DirectoryTable.ofBytes b).IsEmpty) hdata).mpr (hfolder hsize)

theorem noLeak_written (hleak : NoLeak s.fat cat) : NoLeak (s.written request i).fat (s.writtenRecord request :: cat) := by
  intro a ha
  by_cases hm : a ∈ s.writtenCells request
  · exact .inr ⟨_, List.mem_cons_self, _, hw.chain, hm⟩
  · have hold : InUse s.fat cat a := hleak a fun he => ha ((writtenFat_of_notMem hm).trans he)
    exact ((h.inUse_iff fun c hc => h.writtenFat_of_inUse hc).mpr hold).imp_right
      fun ⟨r, hr, hl⟩ => ⟨r, List.mem_cons_of_mem _ hr, hl⟩

end Represents

end Write

/-! ## `delete` -/

section Delete

variable {s : System} {request : FAT32DriverRequest} {i : Fin 64} {cat : List Record} {l : List (Fin 512)} {r : Record}

namespace Represents

variable (h : Represents s.disk s.fat cat)
include h

/-- The record an operation finds. -/
theorem record_of_search (hlive : Live cat request.parentClusterNumber) (hs : s.found request = some i) :
    ∃ r ∈ cat, r.key = request.key ∧ (tableAt s.disk request.parentClusterNumber).Occupied i ∧
      Describes ((tableAt s.disk request.parentClusterNumber).table i) r := by
  obtain ⟨ho, hn, hx⟩ := search_eq_some hs
  obtain ⟨r, hr, hp, hd⟩ := h.entry _ hlive i ho
  refine ⟨r, hr, ?_, ho, hd⟩
  rw [Record.key, hp, ← hd.name, ← hd.ext, hn, hx, FAT32DriverRequest.key]

theorem chainsEnd (hlive : ParentValid s request.parentClusterNumber → Live cat request.parentClusterNumber) :
    s.ChainsEnd request := by
  intro hv i hs
  obtain ⟨r, hr, -, -, hd⟩ := h.record_of_search (hlive hv) hs
  obtain ⟨l, hl, hne, -⟩ := h.chain r hr
  exact ⟨l, hne, hd.first ▸ hl⟩

/-- The cells `delete` empties belong to no other record. -/
theorem deletedFat_of_inUse (hr : r ∈ cat) (hl : FatChain s.fat r.first l) {a : Fin 512}
    (ha : InUse s.fat (without cat r.key) a) : s.deletedFat l a = s.fat a := by
  refine clear_of_notMem fun hm => ?_
  rcases ha with ha | ⟨q, hq, m, hqm, ha⟩
  · have h3 := h.three_le hr hl hm
    omega
  · obtain ⟨hq, hk⟩ := mem_without.mp hq
    exact h.disjoint q hq r hr (fun he => hk (he ▸ rfl)) m l hqm hl ha hm

variable (hd : CanDelete s request i l)
include hd

/-- **`delete`** takes one record away. -/
theorem deleted (hlive : Live cat request.parentClusterNumber) :
    Represents (s.deleted request i l).disk (s.deleted request i l).fat (without cat request.key) := by
  obtain ⟨r, hr, hkey, ho, hdesc⟩ := h.record_of_search hlive hd.search
  have hparent : r.parent = request.parentClusterNumber := congrArg Prod.fst hkey
  have hl : FatChain s.fat r.first l := hdesc.first ▸ hd.chain
  have hempty : r.folder = true → ∀ j, ¬ (tableAt s.disk r.first).Occupied j := fun hf =>
    anyOccupied_eq_false.mp (hdesc.first ▸ hd.empty (hdesc.folder hf))
  rw [← hparent] at ho hdesc
  -- as if the table were written first
  have htable := h.tableWrite (i := i) (e := ((tableAt s.disk r.parent).table i).release) (hparent ▸ hlive)
  have hremoved := h.remove hr ho hdesc hempty rfl htable
  rw [hkey] at hremoved
  refine hremoved.frame (hd.deleted_bootSector.trans h.boot) hd.deleted_fatCluster (fun c hc => ?_)
    fun a ha => h.deletedFat_of_inUse hr hl (hkey ▸ ha)
  have hlt := (h.live_lt hc.of_without).trans (show 512 < 2 ^ 30 by decide)
  by_cases hcp : c = r.parent
  · subst hcp
    rw [hd.readCluster_deleted hlt, if_pos hparent, System.deletedTable, ← hparent]
    exact readCluster_writeCluster_self.symm
  · rw [hd.deleted_of_ne hlt (h.live_ne_fatCluster hc.of_without) (hparent ▸ hcp),
      htable.other c hc.of_without hcp]

theorem noLeak_deleted (hlive : Live cat request.parentClusterNumber) (hleak : NoLeak s.fat cat) :
    NoLeak (s.deleted request i l).fat (without cat request.key) := by
  obtain ⟨r, hr, hkey, -, hdesc⟩ := h.record_of_search hlive hd.search
  have hl : FatChain s.fat r.first l := hdesc.first ▸ hd.chain
  intro a ha
  have hm : a ∉ l := fun hm => ha (clear_of_mem hm)
  rcases hleak a fun he => ha ((clear_of_notMem hm).trans he) with h2 | ⟨q, hq, m, hqm, ham⟩
  · exact .inl h2
  · have hqr : q.key ≠ r.key := by
      intro hk
      obtain rfl := h.key_inj q hq r hr hk
      exact hm (hqm.unique hl ▸ ham)
    have hqw : q ∈ without cat r.key := mem_without.mpr ⟨hq, hqr⟩
    refine .inr ⟨q, hkey ▸ hqw, m, hqm.congr fun c hc => ?_, ham⟩
    exact h.deletedFat_of_inUse hr hl (.inr ⟨q, hqw, m, hqm, hc⟩)

end Represents

end Delete

/-! ## Whole runs -/

section Runs

variable {m n : Machine} {call : Call} {s : System} {code : Int8} {fuel : Nat} {Admits : List Event → Call → Prop}

/-- The start of a call changes neither the disk nor the FAT. -/
theorem Represents.start {cat : List Record} (h : Represents m.system.disk m.system.fat cat) (call : Call) :
    Represents (call.start m.system).disk (call.start m.system).fat cat := h

/-- The disk and the FAT hold the catalog of the history, and no cell is lost. -/
structure Machine.Sound (m : Machine) : Prop where
  represents : Represents m.system.disk m.system.fat (catalog m.history)
  noLeak : NoLeak m.system.fat (catalog m.history)

/-- The first cluster a successful `write` stores is that of its first free cell. -/
theorem System.firstWritten_written {request : FAT32DriverRequest} {i : Fin 64} (ha : writesOf s.accesses = []) :
    firstWritten (s.written request i).accesses = clusterNum (freeCell s.fat 0) := by
  obtain ⟨n, hn⟩ : ∃ n, request.clusterCount = n + 1 := ⟨_, rfl⟩
  rw [firstWritten, System.written_writesOf, ha, System.writtenCalls, dataWrites, hn, List.range_succ_eq_map]
  rfl

theorem Machine.catalog_after_written {i : Fin 64} (hop : call.op = .write) :
    catalog (m.after call 0 ((call.start m.system).written call.request i)).history =
      (call.start m.system).writtenRecord call.request :: catalog m.history := by
  rw [Machine.catalog_after_write hop, System.firstWritten_written rfl]

/-- A call that is refused, or made with a live parent, keeps disk, FAT and catalog together. -/
theorem Represents.after (h : Represents m.system.disk m.system.fat (catalog m.history))
    (hlive : ParentValid (call.start m.system) call.request.parentClusterNumber →
      Live (catalog m.history) call.request.parentClusterNumber)
    (hfolder : call.FolderOk) (hexec : call.exec fuel m.system = .ok (code, s)) :
    Represents s.disk s.fat (catalog (m.after call code s).history) ∧
      (NoLeak m.system.fat (catalog m.history) → NoLeak s.fat (catalog (m.after call code s).history)) := by
  have h' := h.start call
  cases Call.exec_outcome (h'.chainsEnd hlive) hexec with
  | kept hk hcode =>
    rw [Machine.catalog_after_of_keep hcode, hk.disk, hk.fat]
    exact ⟨h, id⟩
  | written i hop hcode hc hs =>
    subst hs hcode
    rw [Machine.catalog_after_written hop]
    exact ⟨h'.written hc (hlive hc.valid) (hfolder hop), h'.noLeak_written hc⟩
  | deleted i l hop hcode hc hs =>
    subst hs hcode
    rw [Machine.catalog_after_delete hop]
    exact ⟨h'.deleted hc (hlive hc.valid), h'.noLeak_deleted hc (hlive hc.valid)⟩

theorem Machine.Fresh.sound (h : m.Fresh) : m.Sound := by
  obtain ⟨s, he, rfl⟩ := h
  have hfat : (initializeFilesystemFat32 s).fat = newFat.clusterMap := by
    simp [initializeFilesystemFat32, he]
  have hdisk : (initializeFilesystemFat32 s).disk = createFat32 s.disk := by
    simp [initializeFilesystemFat32, he]
  constructor
  · rw [hfat, hdisk]
    exact represents_fresh s.disk
  · rw [hfat]
    exact noLeak_fresh

/-- Runs of allowed calls keep disk, FAT and catalog together. -/
theorem Machine.Reaches.represents (h : Reaches Allowed m n)
    (hm : Represents m.system.disk m.system.fat (catalog m.history)) :
    Represents n.system.disk n.system.fat (catalog n.history) := by
  refine h.invariant (P := fun k => Represents k.system.disk k.system.fat (catalog k.history)) hm ?_
  intro k call fuel code s hk ha hexec
  exact (hk.after (fun _ => ha.1) ha.2 hexec).1

theorem Machine.Reaches.sound (h : Reaches Allowed m n) (hm : m.Sound) : n.Sound := by
  refine h.invariant hm ?_
  intro k call fuel code s hk ha hexec
  obtain ⟨hr, hl⟩ := hk.represents.after (fun _ => ha.1) ha.2 hexec
  exact ⟨hr, hl hk.noLeak⟩

/-- **Every state of a run** holds the catalog of its history. -/
theorem Machine.Reachable.sound (h : m.Reachable) : m.Sound := by
  obtain ⟨m₀, hfresh, hreach⟩ := h
  exact hreach.sound hfresh.sound

/-- Calls with a live parent return. -/
theorem Represents.returns (call : Call) (h : Represents m.system.disk m.system.fat (catalog m.history))
    (hlive : Live (catalog m.history) call.request.parentClusterNumber) (hfuel : 512 ≤ fuel) :
    ∃ code s, call.exec fuel m.system = .ok (code, s) :=
  have h' := h.start call
  Call.exec_returns (h.live_lt hlive) (h'.chainsEnd fun _ => hlive) hfuel

end Runs

/-! ## Requests about an entry -/

/-- The code and the memory a `read` of an entry answers with. -/
def readAnswer (entry : FAT32DirectoryEntry) (data : List Cluster) (call : Call) : Int8 × Memory :=
  if entry.isDirectory then (1, call.memory)
  else if call.request.bufferSize < entry.filesize then (2, call.memory)
  else (0, call.memory.storeClusters call.request.buf data)

/-- A buffer of this size is large enough for any file. -/
theorem le_largestSize (x : UInt32) : x ≤ -1 := by
  rw [UInt32.le_iff_toNat_le]
  exact Nat.le_of_lt_succ x.toNat_lt

theorem readAnswer_folder {entry : FAT32DirectoryEntry} {data : List Cluster} {call : Call}
    (hd : entry.isDirectory = true) : readAnswer entry data call = (1, call.memory) := by
  rw [readAnswer, if_pos hd]

theorem readAnswer_small {entry : FAT32DirectoryEntry} {data : List Cluster} {call : Call}
    (hd : entry.isDirectory = false) (hlt : call.request.bufferSize < entry.filesize) :
    readAnswer entry data call = (2, call.memory) := by
  rw [readAnswer, if_neg (Bool.eq_false_iff.mp hd), if_pos hlt]

theorem readAnswer_file {entry : FAT32DirectoryEntry} {data : List Cluster} {call : Call}
    (hd : entry.isDirectory = false) (hle : entry.filesize ≤ call.request.bufferSize) :
    readAnswer entry data call = (0, call.memory.storeClusters call.request.buf data) := by
  rw [readAnswer, if_neg (Bool.eq_false_iff.mp hd), if_neg (UInt32.not_lt.mpr hle)]

section Read

variable {s : System} {call : Call} {fuel : Nat} {i : Fin 64} {l : List (Fin 512)}

section Answers

variable (hop : call.op = .read) (hv : ParentValid s call.request.parentClusterNumber)
include hop hv

/-- A `read` in a parent that is accepted. -/
theorem Call.exec_read : call.exec fuel s =
    match s.found call.request with
    | none => .ok (3, (call.start s).loadDirTable call.request.parentClusterNumber)
    | some i =>
      if (entryAt s.disk (call.request.parentClusterNumber, i)).isDirectory then
        .ok (1, (call.start s).loadDirTable call.request.parentClusterNumber)
      else if call.request.bufferSize < (entryAt s.disk (call.request.parentClusterNumber, i)).filesize then
        .ok (2, (call.start s).loadDirTable call.request.parentClusterNumber)
      else readLoop fuel call.request.buf (entryAt s.disk (call.request.parentClusterNumber, i)).clusterNumber
        ((call.start s).loadDirTable call.request.parentClusterNumber) >>= fun s => .ok (0, s) := by
  have hv' : ParentValid (call.start s) call.request.parentClusterNumber := hv
  have hfound : (tableAt (call.start s).disk call.request.parentClusterNumber).search
      (identifier call.request.name call.request.ext) = s.found call.request := rfl
  rw [Call.exec, hop, Op.run, read_of_valid hv']
  simp only [System.loadDirTable_dirTable, hfound]
  rfl

/-- A `read` of a name that no entry has. -/
theorem Call.exec_read_absent (hs : s.found call.request = none) :
    call.exec fuel s = .ok (3, (call.start s).loadDirTable call.request.parentClusterNumber) := by
  rw [Call.exec_read hop hv, hs]

variable (hs : s.found call.request = some i)
include hs

/-- A `read` of a folder. -/
theorem Call.exec_read_folder (hd : (entryAt s.disk (call.request.parentClusterNumber, i)).isDirectory = true) :
    call.exec fuel s = .ok (1, (call.start s).loadDirTable call.request.parentClusterNumber) := by
  rw [Call.exec_read hop hv, hs]
  exact if_pos hd

variable (hd : (entryAt s.disk (call.request.parentClusterNumber, i)).isDirectory = false)
include hd

/-- A `read` of a file into too small a buffer. -/
theorem Call.exec_read_small
    (hsmall : call.request.bufferSize < (entryAt s.disk (call.request.parentClusterNumber, i)).filesize) :
    call.exec fuel s = .ok (2, (call.start s).loadDirTable call.request.parentClusterNumber) := by
  rw [Call.exec_read hop hv, hs]
  exact (if_neg (Bool.eq_false_iff.mp hd)).trans (if_pos hsmall)

/-- A `read` of a file whose chain ends copies the clusters of the chain. -/
theorem Call.exec_read_file
    (hsmall : ¬ call.request.bufferSize < (entryAt s.disk (call.request.parentClusterNumber, i)).filesize)
    (hl : FatChain s.fat (entryAt s.disk (call.request.parentClusterNumber, i)).clusterNumber l) (hne : l ≠ [])
    (hfuel : l.length ≤ fuel) : call.exec fuel s =
      .ok (0, ((call.start s).loadDirTable call.request.parentClusterNumber).readChain call.request.buf l) := by
  have hloop : readLoop fuel call.request.buf (entryAt s.disk (call.request.parentClusterNumber, i)).clusterNumber
      ((call.start s).loadDirTable call.request.parentClusterNumber) =
      .ok (((call.start s).loadDirTable call.request.parentClusterNumber).readChain call.request.buf l) :=
    readLoop_chain (s := (call.start s).loadDirTable call.request.parentClusterNumber) hl hne hfuel
  rw [Call.exec_read hop hv, hs]
  simp only [if_neg (Bool.eq_false_iff.mp hd), if_neg hsmall, hloop]
  rfl

end Answers

/-- A `read` that finds an entry whose chain ends. -/
theorem Call.exec_read_of_found (hop : call.op = .read) (hv : ParentValid s call.request.parentClusterNumber)
    (hs : s.found call.request = some i)
    (hl : FatChain s.fat ((tableAt s.disk call.request.parentClusterNumber).table i).clusterNumber l) (hne : l ≠ [])
    (hfuel : 512 ≤ fuel) : ∃ t, call.exec fuel s = .ok ((readAnswer
      ((tableAt s.disk call.request.parentClusterNumber).table i)
      (l.map fun c => readCluster s.disk (clusterNum c)) call).1, t) ∧ t.memory = (readAnswer
      ((tableAt s.disk call.request.parentClusterNumber).table i)
      (l.map fun c => readCluster s.disk (clusterNum c)) call).2 := by
  cases hd : ((tableAt s.disk call.request.parentClusterNumber).table i).isDirectory with
  | true =>
    rw [readAnswer_folder hd]
    exact ⟨_, Call.exec_read_folder hop hv hs hd, rfl⟩
  | false =>
    by_cases hb : call.request.bufferSize < ((tableAt s.disk call.request.parentClusterNumber).table i).filesize
    · rw [readAnswer_small hd hb]
      exact ⟨_, Call.exec_read_small hop hv hs hd hb, rfl⟩
    · rw [readAnswer_file hd (UInt32.not_lt.mp hb)]
      exact ⟨_, Call.exec_read_file hop hv hs hd hb hl hne (hl.length_le.trans hfuel), rfl⟩

end Read

section Requests

variable {m : Machine} {s : System} {cat : List Record} {p : UInt32 × Fin 64} {request : FAT32DriverRequest}
  {l : List (Fin 512)}

/-- A request that names the entry `p`. -/
def FAT32DriverRequest.Names (request : FAT32DriverRequest) (disk : Disk) (p : UInt32 × Fin 64) : Prop :=
  request.key = (p.1, (entryAt disk p).name, (entryAt disk p).ext)

namespace Represents

variable (h : Represents s.disk s.fat cat) (hp : Lists s.disk cat p) (hkey : request.Names s.disk p)
include h hp hkey

theorem found_of_names : request.parentClusterNumber = p.1 ∧ s.found request = some p.2 := by
  obtain ⟨hparent, hname, hext⟩ := FAT32DriverRequest.key_eq_iff.mp hkey
  refine ⟨hparent, ?_⟩
  rw [System.found, hparent, hname, hext]
  exact search_of_unique hp.2 rfl rfl fun j hj hn hx => h.slot p.1 hp.1 j p.2 hj hp.2 hn hx

/-- A file, or a folder that lists nothing, can be deleted. -/
theorem canDelete (hl : FatChain s.fat (entryAt s.disk p).clusterNumber l)
    (hempty : (entryAt s.disk p).isDirectory = true →
      (tableAt s.disk (entryAt s.disk p).clusterNumber).anyOccupied = false) : CanDelete s request p.2 l := by
  obtain ⟨hparent, hfound⟩ := h.found_of_names hp hkey
  obtain ⟨l', hl', hne, -⟩ := h.entry_chain hp
  refine ⟨hparent ▸ h.parentValid rfl rfl hp.1, hfound, ?_, ?_, hl.unique hl' ▸ hne⟩
  · rw [hparent]
    exact hempty
  · rw [hparent]
    exact hl

end Represents

end Requests

end Os2024
