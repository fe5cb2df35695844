import Os2024.Fat32.Fresh

/-!
# What passes for a folder

The check of the parent looks at an end mark in the FAT and at one byte of the cluster. The last cluster of a file has
the end mark, and its byte is the caller's: a file write that puts `ATTR_SUBDIRECTORY` there makes a cluster that all
operations take for a folder (`forged_not_guarded`). `guarded_iff` says that nothing else does, in runs with any parents.
-/

namespace Os2024

open LinkTable

/-- The parent is any number of a cell from `2` on, and folders are created from empty directory tables. -/
def AnyParent (_ : List Event) (call : Call) : Prop :=
  2 ≤ call.request.parentClusterNumber.toNat ∧ call.request.parentClusterNumber.toNat < 512 ∧ call.FolderOk

/-- Byte `11` of the last cluster the call stores, the attribute of its entry `0`, is not `ATTR_SUBDIRECTORY`. -/
def Call.PlainEnd (call : Call) : Prop :=
  ((FAT32DirectoryTable.ofBytes (call.request.chunk call.memory (call.request.clusterCount - 1))).table 0).isDirectory =
    false

/-- The event is not a successful file write with a folder's attribute in its last cluster. -/
def Event.Plain (e : Event) : Prop :=
  e.call.op = .write → e.code = 0 → e.call.request.bufferSize ≠ 0 → e.call.PlainEnd

/-- Whatever an operation does not refuse as a parent is the root or a live folder, and no cluster of a file. -/
def Guarded (m : Machine) : Prop :=
  ∀ call : Call, 2 ≤ call.request.parentClusterNumber.toNat → call.request.parentClusterNumber.toNat < 512 →
    (∀ fuel s, call.exec fuel m.system ≠ .ok (call.op.invalidParent, s)) →
    Live (catalog m.history) call.request.parentClusterNumber ∧
      ∀ r ∈ catalog m.history, r.folder = false → ∀ l, FatChain m.system.fat r.first l →
        ∀ c ∈ l, clusterNum c ≠ call.request.parentClusterNumber

/-- The clusters of files that hold the end mark do not look like folders. -/
def Unforged (disk : Disk) (fat : Fin 512 → UInt32) (cat : List Record) : Prop :=
  ∀ r ∈ cat, r.folder = false → ∀ l, FatChain fat r.first l → ∀ c ∈ l, fat c = fat32FatEndOfFile →
    ((tableAt disk (clusterNum c)).table 0).isDirectory = false

/-! ## One call -/

section Step

variable {s : System} {request : FAT32DriverRequest} {i : Fin 64} {cat : List Record} {l : List (Fin 512)} {c : UInt32}

/-- The last cell of a new file, and what it holds. -/
theorem CanWrite.last_cell (h : CanWrite s request i) :
    ∃ p ∈ s.writtenCells request, s.writtenFat request p = fat32FatEndOfFile ∧
      readCluster (s.written request i).disk (clusterNum p) = request.chunk s.memory (request.clusterCount - 1) ∧
      ∀ c ∈ s.writtenCells request, s.writtenFat request c = fat32FatEndOfFile → c = p := by
  have hpos := clusterCount_pos request
  have hne : s.writtenCells request ≠ [] := by
    rw [h.writtenCells_eq_cons]
    exact List.cons_ne_nil _ _
  have hlast : (s.writtenCells request).getLast hne = freeCell s.fat ((request.clusterCount + 1) / 2 - 1) := by
    have hlen := h.length_writtenCells
    simp only [List.getLast_eq_getElem, hlen]
    simp only [h.writtenCells_eq_map, List.getElem_map, List.getElem_range]
  have hdata := h.written_freeCell (k := (request.clusterCount + 1) / 2 - 1) (by omega)
  rw [show min (2 * ((request.clusterCount + 1) / 2 - 1) + 1) (request.clusterCount - 1) = request.clusterCount - 1 by
    omega, ← hlast] at hdata
  exact ⟨_, List.getLast_mem hne, h.chain.next_getLast hne, hdata, fun c hc he =>
    Chain.eq_getLast clusterNum_injective clusterNum_ne_endOfFile h.chain hc he hne⟩

/-- What passes the parent checks is live. -/
theorem Represents.live_of_parentValid (h : Represents s.disk s.fat cat) (hleak : NoLeak s.fat cat)
    (hforge : Unforged s.disk s.fat cat) (hv : ParentValid s c) : Live cat c := by
  obtain ⟨p, rfl, h2, hend, hdir⟩ := hv
  rcases hleak p (by rw [hend]; decide) with hp | ⟨r, hr, l, hl, hpl⟩
  · obtain rfl : p = 2 := Fin.ext (le_antisymm hp h2)
    exact Live.root cat
  · cases hf : r.folder with
    | true =>
      obtain ⟨q, hq, -, -, hchain⟩ := h.folder_chain hr hf
      obtain rfl := hl.unique hchain
      obtain rfl := List.mem_singleton.mp hpl
      exact .inr ⟨r, hr, hf, hq⟩
    | false =>
      rw [hforge r hr hf l hl p hpl hend] at hdir
      cases hdir

theorem Represents.unforged_written (h : Represents s.disk s.fat cat) (hw : CanWrite s request i)
    (hlive : Live cat request.parentClusterNumber) (hforge : Unforged s.disk s.fat cat)
    (hplain : request.bufferSize ≠ 0 →
      ((FAT32DirectoryTable.ofBytes (request.chunk s.memory (request.clusterCount - 1))).table 0).isDirectory = false) :
    Unforged (s.written request i).disk (s.written request i).fat (s.writtenRecord request :: cat) := by
  intro r hr hf l hl c hc hend
  rcases List.mem_cons.mp hr with rfl | hrc
  · obtain rfl := hl.unique hw.chain
    obtain ⟨p, -, -, hdata, hlast⟩ := hw.last_cell
    have hsize : request.bufferSize ≠ 0 := by simpa [System.writtenRecord, FAT32DriverRequest.record] using hf
    rw [hlast c hc hend, tableAt, hdata]
    exact hplain hsize
  · obtain ⟨l', hl', -⟩ := h.chain r hrc
    have hkeep : ∀ a ∈ l', s.writtenFat request a = s.fat a := fun a ha =>
      h.writtenFat_of_inUse (.inr ⟨r, hrc, l', hl', ha⟩)
    obtain rfl := hl.unique (hl'.congr hkeep)
    have hdisk := hw.written_of_ne (clusterNum_lt c) (h.ne_fatCluster hrc hl' hc) (h.file_ne_live hrc hf hl' hc hlive)
      fun b hb he => h.notMem_writtenCells (.inr ⟨r, hrc, l, hl', hc⟩) (clusterNum_injective he ▸ hb)
    rw [tableAt_congr hdisk]
    exact hforge r hrc hf l hl' c hc ((hkeep c hc).symm.trans hend)

theorem Represents.unforged_deleted (h : Represents s.disk s.fat cat) (hd : CanDelete s request i l)
    (hlive : Live cat request.parentClusterNumber) (hforge : Unforged s.disk s.fat cat) :
    Unforged (s.deleted request i l).disk (s.deleted request i l).fat (without cat request.key) := by
  obtain ⟨q, hq, hqk, -, hqd⟩ := h.record_of_search hlive hd.search
  have hql : FatChain s.fat q.first l := hqd.first ▸ hd.chain
  intro r hr hf m hm c hc hend
  rw [← hqk] at hr
  have hrc := (mem_without.mp hr).1
  obtain ⟨m', hm', -⟩ := h.chain r hrc
  have hkeep : ∀ a ∈ m', s.deletedFat l a = s.fat a := fun a ha =>
    h.deletedFat_of_inUse hq hql (.inr ⟨r, hr, m', hm', ha⟩)
  obtain rfl := hm.unique (hm'.congr hkeep)
  rw [tableAt_congr (hd.deleted_of_ne (clusterNum_lt c) (h.ne_fatCluster hrc hm' hc)
    (h.file_ne_live hrc hf hm' hc hlive))]
  exact hforge r hrc hf m hm' c hc ((hkeep c hc).symm.trans hend)

end Step

/-! ## Whole runs -/

section Runs

variable {m n : Machine} {call : Call} {s : System} {code : Int8} {fuel : Nat}

/-- The invariant of runs without forged folders. -/
structure Machine.Clean (m : Machine) : Prop where
  sound : m.Sound
  unforged : Unforged m.system.disk m.system.fat (catalog m.history)

theorem Machine.Clean.live (h : m.Clean) {c : UInt32} (hv : ParentValid (call.start m.system) c) :
    Live (catalog m.history) c :=
  Represents.live_of_parentValid (s := call.start m.system) h.sound.represents h.sound.noLeak h.unforged hv

theorem Machine.Clean.after (h : m.Clean) (ha : AnyParent m.history call)
    (hexec : call.exec fuel m.system = .ok (code, s)) (hplain : Event.Plain ⟨call, code, s.memory, s.accesses⟩) :
    (m.after call code s).Clean := by
  have hr := h.sound.represents
  have hr' := hr.start call
  obtain ⟨hrep, hleak⟩ := hr.after (fun hv => h.live hv) ha.2.2 hexec
  refine ⟨⟨hrep, hleak h.sound.noLeak⟩, ?_⟩
  cases Call.exec_outcome (hr'.chainsEnd fun hv => h.live hv) hexec with
  | kept hk hcode =>
    rw [Machine.catalog_after_of_keep hcode]
    change Unforged s.disk s.fat _
    rw [hk.disk, hk.fat]
    exact h.unforged
  | written i hop hcode hc hs =>
    subst hs hcode
    rw [Machine.catalog_after_written hop]
    exact hr'.unforged_written hc (h.live hc.valid) h.unforged (hplain hop rfl)
  | deleted i l hop hcode hc hs =>
    subst hs hcode
    rw [Machine.catalog_after_delete hop]
    exact hr'.unforged_deleted hc (h.live hc.valid) h.unforged

theorem Machine.Fresh.clean (h : m.Fresh) : m.Clean := by
  refine ⟨h.sound, ?_⟩
  obtain ⟨s, -, rfl⟩ := h
  exact fun r hr => by cases hr

theorem Machine.Reaches.clean (h : Reaches AnyParent m n) (hm : m.Clean) (hplain : ∀ e ∈ n.history, e.Plain) :
    n.Clean := by
  induction h with
  | refl => exact hm
  | tail _ hstep ih =>
    cases hstep with
    | call ha hexec =>
      have hall := List.forall_mem_cons.mp hplain
      exact (ih hall.2).after ha hexec hall.1

/-- A parent that is not refused is valid. -/
theorem Call.parentValid_of_ne (hp : call.request.parentClusterNumber.toNat < 512)
    (hne : ∀ fuel s, call.exec fuel m.system ≠ .ok (call.op.invalidParent, s)) :
    ParentValid (call.start m.system) call.request.parentClusterNumber := by
  by_contra hv
  obtain ⟨t, ht, -⟩ := Op.run_of_not_valid call.op 0 hp hv
  exact hne 0 t ht

theorem Machine.Clean.guarded (h : m.Clean) : Guarded m := by
  intro call _ hp hne
  have hlive := h.live (Call.parentValid_of_ne hp hne)
  exact ⟨hlive, fun r hr hf l hl c hc => h.sound.represents.file_ne_live hr hf hl hc hlive⟩

/-- A successful file write with a folder's attribute in its last cluster makes a cluster that passes for a folder. -/
theorem forged_not_guarded {i : Fin 64} (h : Represents m.system.disk m.system.fat (catalog m.history))
    (hop : call.op = .write) (hw : CanWrite (call.start m.system) call.request i)
    (hsize : call.request.bufferSize ≠ 0) (hend : ¬ call.PlainEnd) :
    ¬ Guarded (m.after call 0 ((call.start m.system).written call.request i)) := by
  obtain ⟨p, hp, heof, hdata, -⟩ := hw.last_cell
  obtain ⟨h2, hempty⟩ := mem_writtenCells hp
  let rc : Call := ⟨.write, { call.request with parentClusterNumber := clusterNum p }, call.memory⟩
  have hlt : (clusterNum p).toNat < 512 := by
    rw [toNat_clusterNum]
    exact p.isLt
  have hv : ParentValid (rc.start ((call.start m.system).written call.request i)) rc.request.parentClusterNumber := by
    refine ⟨p, rfl, h2, heof, ?_⟩
    have htable : tableAt ((call.start m.system).written call.request i).disk (clusterNum p) = .ofBytes
      (call.request.chunk call.memory (call.request.clusterCount - 1)) := congrArg _ hdata
    refine (congrArg (fun t : FAT32DirectoryTable => (t.table 0).isDirectory) htable).trans ?_
    simpa [Call.PlainEnd] using hend
  intro hguard
  have hlive := (hguard rc (by rw [toNat_clusterNum]; exact h2) hlt fun fuel t ht => write_ne_two hv ht rfl).1
  rw [Machine.catalog_after_write hop, live_cons_iff] at hlive
  rcases hlive with hlive | ⟨hf, -⟩
  · -- a live cell is in use, and this one was empty
    obtain ⟨q, hq, -, hqend, -⟩ := h.live_cell hlive
    obtain rfl := clusterNum_injective hq
    exact absurd (hqend.symm.trans hempty) (by decide)
  · exact hsize (by simpa [FAT32DriverRequest.record] using hf)

/-- **File data is never taken for a directory**, in runs with any parents, up to and including the last call, exactly
when no file write has put a folder's attribute at byte `11` of its last cluster. -/
theorem guarded_iff (hm : m.Fresh) (hr : Machine.Reaches AnyParent m n) (hplain : ∀ e ∈ n.history.tail, e.Plain) :
    Guarded n ↔ ∀ e ∈ n.history, e.Plain := by
  constructor
  · intro hg
    cases hr with
    | refl =>
      obtain ⟨s, -, rfl⟩ := hm
      exact fun e he => by cases he
    | tail hreach hstep =>
      cases hstep with
      | @call call fuel code s ha hexec =>
        refine List.forall_mem_cons.mpr ⟨?_, hplain⟩
        intro hop hcode hsize
        have hclean := Machine.Reaches.clean hreach hm.clean hplain
        by_contra hend
        obtain rfl : code = 0 := hcode
        obtain ⟨i, hw, rfl⟩ := Call.exec_write_ok (show call.op = .write from hop) hexec
        exact forged_not_guarded hclean.sound.represents hop hw hsize hend hg
  · intro hall
    exact (hr.clean hm.clean hall).guarded

/-- After a plain file of one byte only the root passes for a folder. -/
theorem guarded_byte : Guarded (blankMachine.firstWrite (writeCall (fun _ => 97) 1 fun _ => 0)) ↔
    ∀ e ∈ (blankMachine.firstWrite (writeCall (fun _ => 97) 1 fun _ => 0)).history, e.Plain :=
  guarded_iff blankMachine_fresh (.single (.call ⟨by decide, by decide, writeCall_folderOk (by decide)⟩
    (blankMachine_fresh.exec_write (writeCall_fitsRoot _ _ _ (by decide))))) fun e he => by cases he

/-- Twelve bytes `0x10` in a file forge a folder. -/
theorem forged_twelve_bytes :
    Machine.Reaches AnyParent blankMachine (blankMachine.firstWrite (writeCall (fun _ => 97) 12 fun _ => 16)) ∧
      ¬ Guarded (blankMachine.firstWrite (writeCall (fun _ => 97) 12 fun _ => 16)) := by
  have hfits := writeCall_fitsRoot (fun _ => 97) 12 (fun _ => 16) (by decide)
  refine ⟨.single (.call ⟨by decide, by decide, writeCall_folderOk (by decide)⟩ (blankMachine_fresh.exec_write hfits)),
    forged_not_guarded blankMachine_fresh.sound.represents rfl (blankMachine_fresh.canWrite hfits) (by decide) ?_⟩
  exact show ¬ ((FAT32DirectoryTable.ofBytes fun _ => 16).table 0).isDirectory = false by decide

end Runs

end Os2024
