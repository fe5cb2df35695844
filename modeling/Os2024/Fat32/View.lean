import Os2024.Fat32.Entries

/-!
# What reads show

To a `read` the file system is a map from names to views: whether the entry is marked as a folder, its filesize and the
clusters of its chain. `Shows` reads this map off the disk and the FAT.

* `Shows.answers`, `Represents.answers_absent`: the answer to a `read` is that of the view, or `3` without one.
* `Represents.answers_written`, `Represents.answers_written_of_ne`: a `write` adds a view and leaves the others alone.
-/

namespace Os2024

open LinkTable

/-- What a `read` can tell of an entry. -/
structure View where
  folder : Bool
  filesize : UInt32
  data : List Cluster

/-- The code and the memory a `read` answers with. -/
def View.answer (v : View) (call : Call) : Int8 × Memory :=
  if v.folder then (1, call.memory)
  else if call.request.bufferSize < v.filesize then (2, call.memory)
  else (0, call.memory.storeClusters call.request.buf v.data)

/-- The entry with the name `k` in a live folder has the view `v`. -/
def Shows (disk : Disk) (fat : Fin 512 → UInt32) (cat : List Record) (k : Key) (v : View) : Prop :=
  ∃ p, Lists disk cat p ∧ k = (p.1, (entryAt disk p).name, (entryAt disk p).ext) ∧
    (entryAt disk p).isDirectory = v.folder ∧ (entryAt disk p).filesize = v.filesize ∧
    (v.folder = false → ∃ l, FatChain fat (entryAt disk p).clusterNumber l ∧
      l.map (fun c => readCluster disk (clusterNum c)) = v.data)

/-- What a `write` of a file makes, in a slot that is marked as `folder`. -/
def Call.view (call : Call) (folder : Bool) : View where
  folder := folder
  filesize := UInt32.ofNat (call.request.clusterCount * 2048)
  data := writtenData call.request call.memory

/-- The `read` returns with this code and leaves this memory. -/
def Answers (s : System) (rc : Call) (x : Int8 × Memory) : Prop := ∃ t, rc.exec 512 s = .ok (x.1, t) ∧ t.memory = x.2

theorem Answers.unique {s : System} {rc : Call} {x y : Int8 × Memory} (h : Answers s rc x) (h' : Answers s rc y) :
    x = y := by
  obtain ⟨t, ht, hx⟩ := h
  obtain ⟨u, hu, hy⟩ := h'
  obtain ⟨hcode, rfl⟩ := Call.exec_unique ht hu
  exact Prod.ext hcode (hx.symm.trans hy)

/-! ## Answers -/

section Answers

variable {m : Machine} {cat : List Record} {k : Key} {v : View} {r : Record} {rc : Call}

/-- Every record is shown. -/
theorem Represents.exists_shows {disk : Disk} {fat : Fin 512 → UInt32} (h : Represents disk fat cat) (hr : r ∈ cat) :
    ∃ v, Shows disk fat cat r.key v := by
  obtain ⟨p, ⟨hp, hparent, hd⟩, -⟩ := h.existsUnique_entry hr
  obtain ⟨l, hl, -⟩ := h.entry_chain hp
  refine ⟨⟨(entryAt disk p).isDirectory, (entryAt disk p).filesize, l.map fun c => readCluster disk (clusterNum c)⟩,
    p, hp, ?_, rfl, rfl, fun _ => ⟨l, hl, rfl⟩⟩
  rw [Record.key, hparent, hd.name, hd.ext]

variable (h : Represents m.system.disk m.system.fat (catalog m.history)) (hop : rc.op = .read)
include h hop

/-- A `read` of a name that is shown. -/
theorem Shows.answers (hv : Shows m.system.disk m.system.fat (catalog m.history) k v) (hkey : rc.request.key = k) :
    Answers m.system rc (v.answer rc) := by
  obtain ⟨p, hp, rfl, hdir, hsize, hdata⟩ := hv
  obtain ⟨l, hl, -⟩ := h.entry_chain hp
  have hanswer : readAnswer (entryAt m.system.disk p) (l.map fun c => readCluster m.system.disk (clusterNum c)) rc =
      v.answer rc := by
    cases hf : v.folder with
    | true => simp [readAnswer, View.answer, hdir, hf]
    | false =>
      obtain ⟨l', hl', hmap⟩ := hdata hf
      obtain rfl := hl.unique hl'
      rw [readAnswer, View.answer, hdir, hsize, hmap]
  rw [← hanswer]
  exact h.exec_read hp hop hkey hl (le_refl 512)

/-- A `read` of a name that no record has. -/
theorem Represents.answers_absent (hlive : Live (catalog m.history) rc.request.parentClusterNumber)
    (hkey : ∀ r ∈ catalog m.history, r.key ≠ rc.request.key) : Answers m.system rc (3, rc.memory) := by
  have h' := h.start rc
  have hv := h'.parentValid (s := rc.start m.system) rfl rfl hlive
  have hnone : (rc.start m.system).found rc.request = none := by
    cases hs : (rc.start m.system).found rc.request with
    | none => rfl
    | some i =>
      obtain ⟨r, hr, hk, -⟩ := h'.record_of_search hlive hs
      exact absurd hk (hkey r hr)
  rw [Answers, Call.exec, hop, Op.run, read_of_valid hv]
  simp only [System.loadDirTable_dirTable, hnone]
  exact ⟨_, rfl, rfl⟩

theorem Represents.exists_answers (hlive : Live (catalog m.history) rc.request.parentClusterNumber) :
    ∃ x, Answers m.system rc x := by
  by_cases hkey : ∃ r ∈ catalog m.history, r.key = rc.request.key
  · obtain ⟨r, hr, hk⟩ := hkey
    obtain ⟨v, hv⟩ := h.exists_shows hr
    exact ⟨_, hv.answers h hop hk.symm⟩
  · exact ⟨_, h.answers_absent hop hlive fun r hr hk => hkey ⟨r, hr, hk⟩⟩

end Answers

/-! ## One call -/

section Calls

variable {s t : System} {m : Machine} {cat : List Record} {k : Key} {v : View} {i : Fin 64}
  {request : FAT32DriverRequest} {call rc : Call} {code : Int8} {fuel : Nat} {x : Int8 × Memory}

/-- What a `write` has just written is shown. -/
theorem CanWrite.shows_written (hw : CanWrite s request i) (hlive : Live cat request.parentClusterNumber) :
    Shows (s.written request i).disk (s.written request i).fat (s.writtenRecord request :: cat) request.key
      ⟨(s.writtenEntry request i).isDirectory, (s.writtenEntry request i).filesize, writtenData request s.memory⟩ := by
  have hentry := hw.entryAt_written
  refine ⟨(request.parentClusterNumber, i), hw.lists_written hlive, ?_, congrArg _ hentry, congrArg _ hentry,
    fun _ => ⟨s.writtenCells request, ?_, hw.written_data⟩⟩
  · rw [hentry]
    rfl
  · rw [hentry, System.writtenEntry_clusterNumber]
    exact hw.chain

/-- A call about another name changes nothing that is shown. -/
theorem Shows.after (hv : Shows m.system.disk m.system.fat (catalog m.history) k v)
    (h : Represents m.system.disk m.system.fat (catalog m.history)) (ha : AllowedBeside k m.history call)
    (hexec : call.exec fuel m.system = .ok (code, t)) :
    Shows t.disk t.fat (catalog (m.after call code t).history) k v := by
  obtain ⟨p, hp, rfl, hdir, hsize, hdata⟩ := hv
  obtain ⟨hp', hsame⟩ := h.sameEntry_after hp ha hexec
  refine ⟨p, hp', by rw [hsame.entry], hsame.entry ▸ hdir, hsame.entry ▸ hsize, fun hf => ?_⟩
  obtain ⟨l, hl, hmap⟩ := hdata hf
  obtain ⟨hl', hclusters⟩ := hsame.data (hdir.trans hf) l hl
  rw [hsame.entry]
  exact ⟨l, hl', (List.map_congr_left hclusters).trans hmap⟩

/-- The machine after a successful `write` into entry `i`. -/
def Machine.afterWrite (m : Machine) (call : Call) (i : Fin 64) : Machine :=
  m.after call 0 ((call.start m.system).written call.request i)

theorem Machine.live_afterWrite {c : UInt32} (hop : call.op = .write) (hc : Live (catalog m.history) c) :
    Live (catalog (m.afterWrite call i).history) c := by
  rw [Machine.afterWrite, Machine.catalog_after_written hop]
  exact live_cons_iff.mpr (.inl hc)

variable (h : Represents m.system.disk m.system.fat (catalog m.history)) (hop : call.op = .write)
  (ha : Allowed m.history call) (hw : CanWrite (call.start m.system) call.request i)
include h hop ha hw

theorem Represents.afterWrite : Represents (m.afterWrite call i).system.disk (m.afterWrite call i).system.fat
    (catalog (m.afterWrite call i).history) :=
  (h.after (fun _ => ha.1) ha.2 (Call.exec_write hop hw)).1

variable (hrc : rc.op = .read)
include hrc

/-- The answer about a file that was just written. -/
theorem Represents.answers_written (hsize : call.request.bufferSize ≠ 0) (hkey : rc.request.key = call.request.key) :
    Answers (m.afterWrite call i).system rc
      ((call.view ((tableAt m.system.disk call.request.parentClusterNumber).table i).isDirectory).answer rc) := by
  have hshows := hw.shows_written ha.1
  rw [System.writtenEntry_isDirectory_file _ i hsize, ← Machine.catalog_after_written (i := i) hop] at hshows
  exact hshows.answers (h.afterWrite hop ha hw) hrc hkey

/-- The answer about anything else is what it was. -/
theorem Represents.answers_written_of_ne (hkey : rc.request.key ≠ call.request.key)
    (hlive : Live (catalog m.history) rc.request.parentClusterNumber) (hx : Answers m.system rc x) :
    Answers (m.afterWrite call i).system rc x := by
  have hafter := h.afterWrite hop ha hw
  by_cases hrecord : ∃ r ∈ catalog m.history, r.key = rc.request.key
  · obtain ⟨r, hr, hk⟩ := hrecord
    obtain ⟨v, hv⟩ := h.exists_shows hr
    have hv' : Shows (m.afterWrite call i).system.disk (m.afterWrite call i).system.fat
        (catalog (m.afterWrite call i).history) r.key v :=
      hv.after h ⟨ha, fun he => hkey (hk.symm.trans he.symm)⟩ (Call.exec_write hop hw)
    exact hx.unique (hv.answers h hrc hk.symm) ▸ hv'.answers hafter hrc hk.symm
  · have habsent : ∀ r ∈ catalog m.history, r.key ≠ rc.request.key := fun r hr hk => hrecord ⟨r, hr, hk⟩
    rw [hx.unique (h.answers_absent hrc hlive habsent)]
    refine hafter.answers_absent hrc (Machine.live_afterWrite hop hlive) fun r hr => ?_
    rw [Machine.afterWrite, Machine.catalog_after_written hop] at hr
    rcases List.mem_cons.mp hr with rfl | hr
    · exact hkey.symm
    · exact habsent r hr

end Calls

end Os2024
