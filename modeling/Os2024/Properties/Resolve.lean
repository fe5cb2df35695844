import Os2024.Fat32.Entries
import Os2024.Fat32.Fresh
import Os2024.Fat32.Search

/-!
# Parents and names

A parent and a name stand for nothing because the parent is refused, for nothing in the parent, for a folder or for a
file (`Resolves`). Each operation computes this on its own and answers in codes of its own (`Op.answers`), but all of
them resolve alike: `resolve_alike`. Only `read_directory` differs, in that it takes every extension for an empty one.
-/

namespace Os2024

open Scan

/-- What a parent and a name stand for. -/
inductive Resolution where
  | refused
  | absent
  | folder
  | file
  deriving DecidableEq

/-- What the parent and the name stand for in a state. -/
inductive Resolves (s : System) (parent : UInt32) (name : Name) (ext : Ext) : Resolution → Prop
  | refused (hv : ¬ ParentValid s parent) : Resolves s parent name ext .refused
  | absent (hv : ParentValid s parent) (hs : (tableAt s.disk parent).search (identifier name ext) = none) :
      Resolves s parent name ext .absent
  | folder (i : Fin 64) (hv : ParentValid s parent) (hs : (tableAt s.disk parent).search (identifier name ext) = some i)
      (hd : ((tableAt s.disk parent).table i).isDirectory = true) : Resolves s parent name ext .folder
  | file (i : Fin 64) (hv : ParentValid s parent) (hs : (tableAt s.disk parent).search (identifier name ext) = some i)
      (hd : ((tableAt s.disk parent).table i).isDirectory = false) : Resolves s parent name ext .file

/-- The codes an operation answers with. -/
def Op.answers : Op → Resolution → List Int8
  | .read, .refused => [-1]
  | .read, .absent => [3]
  | .read, .folder => [1]
  | .read, .file => [0, 2]
  | .readDirectory, .refused => [-1]
  | .readDirectory, .absent => [2]
  | .readDirectory, .folder => [0]
  | .readDirectory, .file => [1]
  | .write, .refused => [2]
  | .write, .absent => [0, -1]
  | .write, .folder => [1]
  | .write, .file => [1]
  | .delete, .refused => [-1]
  | .delete, .absent => [1]
  | .delete, .folder => [0, 2]
  | .delete, .file => [0]

/-- The chains of the entries in use in a parent come to the end mark. -/
def EntriesEnd (s : System) (parent : UInt32) : Prop :=
  ParentValid s parent → ∀ i, (tableAt s.disk parent).Occupied i →
    ∃ l, l ≠ [] ∧ FatChain s.fat ((tableAt s.disk parent).table i).clusterNumber l

/-- The codes of the four operations tell the same about a name. -/
structure ResolvesAlike (ext : Ext) (code : Op → Int8) : Prop where
  parent : ∀ op, op ≠ .write → (code op = -1 ↔ code .write = 2)
  taken_read : code .write ≠ 2 → (code .write = 1 ↔ code .read = 0 ∨ code .read = 1 ∨ code .read = 2)
  taken_delete : code .write ≠ 2 → (code .write = 1 ↔ code .delete = 0 ∨ code .delete = 2)
  free : code .write ≠ 2 → (code .write ≠ 1 ↔ code .read = 3 ∧ code .delete = 1)
  folder : ext = (fun _ => 0) → (code .readDirectory = 0 ↔ code .read = 1)
  file : ext = (fun _ => 0) → (code .readDirectory = 1 ↔ code .read = 0 ∨ code .read = 2)
  absent : ext = (fun _ => 0) → (code .readDirectory = 2 ↔ code .read = 3)

/-- The loops of the four operations select the same entry of a table. -/
structure LoopsAgree (t : FAT32DirectoryTable) (request : FAT32DriverRequest) (buf buf' : IdentifierBuffer) : Prop where
  delete : t.whileLoop (request.identifierRequest buf) buf' 2 false =
    FAT32DirectoryTable.whileEnd (t.forLoop (request.identifierRequest buf) buf' 2)
  readDirectory : request.ext = (fun _ => 0) →
    t.forLoop (request.identifierRequestDirectory buf) buf' 2 = t.forLoop (request.identifierRequest buf) buf' 2

theorem loops_agree (t : FAT32DirectoryTable) (request : FAT32DriverRequest) (buf buf' : IdentifierBuffer) :
    LoopsAgree t request buf buf' := by
  constructor
  · rw [whileLoop_eq_search, forLoop_eq_search]
  · intro hext
    rw [forLoop_eq_searchDirectory, forLoop_eq_search, hext]

/-! ## One operation -/

section Codes

variable {s s' : System} {request : FAT32DriverRequest} {fuel : Nat} {code : Int8} {op : Op} {r r' : Resolution}
  {parent : UInt32} {name : Name} {ext ext' : Ext}

theorem exists_resolves (s : System) (parent : UInt32) (name : Name) (ext : Ext) :
    ∃ r, Resolves s parent name ext r := by
  by_cases hv : ParentValid s parent
  · cases hs : (tableAt s.disk parent).search (identifier name ext) with
    | none => exact ⟨_, .absent hv hs⟩
    | some i =>
      cases hd : ((tableAt s.disk parent).table i).isDirectory with
      | true => exact ⟨_, .folder i hv hs hd⟩
      | false => exact ⟨_, .file i hv hs hd⟩
  · exact ⟨_, .refused hv⟩

/-- Whether the parent is refused does not depend on the extension. -/
theorem Resolves.refused_iff (h : Resolves s parent name ext r) : r = .refused ↔ ¬ ParentValid s parent := by
  cases h <;> simp_all

theorem Resolves.unique (h : Resolves s parent name ext r) (h' : Resolves s parent name ext r') : r = r' := by
  cases h <;> cases h' <;> simp_all

/-- An operation returns, with one of its codes for what the parent and the name stand for. -/
def Op.AnswersAs (op : Op) (request : FAT32DriverRequest) (s : System) (r : Resolution) : Prop :=
  ∃ code t, op.run 512 request s = .ok (code, t) ∧ code ∈ op.answers r

section Valid

variable (hv : ParentValid s request.parentClusterNumber)
include hv

theorem read_answersAs (h : Resolves s request.parentClusterNumber request.name request.ext r)
    (hends : EntriesEnd s request.parentClusterNumber) : Op.read.AnswersAs request s r := by
  rw [Op.AnswersAs, Op.run, read_of_valid hv]
  cases h with
  | refused hnv => exact absurd hv hnv
  | absent _ hs =>
    simp only [System.loadDirTable_dirTable, hs]
    exact ⟨3, _, rfl, by decide⟩
  | folder i _ hs hd =>
    simp only [System.loadDirTable_dirTable, hs, if_pos hd]
    exact ⟨1, _, rfl, by decide⟩
  | file i _ hs hd =>
    obtain ⟨l, hne, hl⟩ := hends hv i (search_eq_some hs).1
    have hloop : readLoop 512 request.buf _ (s.loadDirTable request.parentClusterNumber) =
        .ok ((s.loadDirTable request.parentClusterNumber).readChain request.buf l) :=
      readLoop_chain (s := s.loadDirTable request.parentClusterNumber) hl hne hl.length_le
    simp only [System.loadDirTable_dirTable, hs, hd, Bool.false_eq_true, if_false, hloop]
    split
    · exact ⟨2, _, rfl, by decide⟩
    · exact ⟨0, _, rfl, by decide⟩

theorem readDirectory_answersAs (h : Resolves s request.parentClusterNumber request.name (fun _ => 0) r)
    (hsize : request.bufferSize = 2048) : Op.readDirectory.AnswersAs request s r := by
  rw [Op.AnswersAs, Op.run, readDirectory_of_valid hv hsize]
  cases h with
  | refused hnv => exact absurd hv hnv
  | absent _ hs =>
    simp only [System.loadDirTable_dirTable, hs]
    exact ⟨2, _, rfl, by decide⟩
  | folder i _ hs hd =>
    simp only [System.loadDirTable_dirTable, hs, hd, Bool.not_true, Bool.false_eq_true, if_false]
    exact ⟨0, _, rfl, by decide⟩
  | file i _ hs hd =>
    simp only [System.loadDirTable_dirTable, hs, hd, Bool.not_false, if_true]
    exact ⟨1, _, rfl, by decide⟩

theorem write_answersAs (h : Resolves s request.parentClusterNumber request.name request.ext r) :
    Op.write.AnswersAs request s r := by
  cases h with
  | refused hnv => exact absurd hv hnv
  | absent _ hs =>
    by_cases hfit : ∃ i, CanWrite s request i
    · obtain ⟨i, hw⟩ := hfit
      exact ⟨0, _, write_of_canWrite hw (clusterCount_le hw), by decide⟩
    · refine ⟨-1, _, write_of_noRoom hv hs fun i he => ?_, by decide⟩
      by_contra hroom
      exact hfit ⟨i, hv, hs, he, Nat.not_lt.mp hroom⟩
  | folder i _ hs _ => exact ⟨1, _, write_of_found hv hs, by decide⟩
  | file i _ hs _ => exact ⟨1, _, write_of_found hv hs, by decide⟩

theorem delete_answersAs (h : Resolves s request.parentClusterNumber request.name request.ext r)
    (hends : EntriesEnd s request.parentClusterNumber) : Op.delete.AnswersAs request s r := by
  have hfound : ∀ i, s.found request = some i →
      (((tableAt s.disk request.parentClusterNumber).table i).isDirectory = true →
        (tableAt s.disk ((tableAt s.disk request.parentClusterNumber).table i).clusterNumber).anyOccupied = false) →
      ∃ t, delete 512 request s = .ok (0, t) := by
    intro i hs hempty
    obtain ⟨l, hne, hl⟩ := hends hv i (search_eq_some hs).1
    exact ⟨_, delete_of_canDelete ⟨hv, hs, hempty, hl, hne⟩ hl.length_le⟩
  cases h with
  | refused hnv => exact absurd hv hnv
  | absent _ hs =>
    rw [Op.AnswersAs, Op.run, delete_of_valid hv]
    simp only [System.loadDirTable_dirTable, hs]
    exact ⟨1, _, rfl, by decide⟩
  | folder i _ hs hd =>
    cases hfull : (tableAt s.disk ((tableAt s.disk request.parentClusterNumber).table i).clusterNumber).anyOccupied with
    | true => exact ⟨2, _, delete_of_full hv hs hd hfull, by decide⟩
    | false =>
      obtain ⟨t, ht⟩ := hfound i hs fun _ => hfull
      exact ⟨0, t, ht, by decide⟩
  | file i _ hs hd =>
    obtain ⟨t, ht⟩ := hfound i hs fun hd' => absurd (hd.symm.trans hd') Bool.false_ne_true
    exact ⟨0, t, ht, by decide⟩

end Valid

/-- The extension an operation searches for. -/
def Op.searchedExt : Op → Ext → Ext
  | .readDirectory, _ => fun _ => 0
  | _, ext => ext

/-- **One operation** answers for what the parent and the name stand for. -/
theorem Op.answersAs (op : Op) (hp : request.parentClusterNumber.toNat < 512)
    (hends : EntriesEnd s request.parentClusterNumber) (hsize : op = .readDirectory → request.bufferSize = 2048)
    (h : Resolves s request.parentClusterNumber request.name (op.searchedExt request.ext) r) :
    op.AnswersAs request s r := by
  by_cases hv : ParentValid s request.parentClusterNumber
  · cases op with
    | read => exact read_answersAs hv h hends
    | readDirectory => exact readDirectory_answersAs hv h (hsize rfl)
    | write => exact write_answersAs hv h
    | delete => exact delete_answersAs hv h hends
  · obtain ⟨t, ht, -⟩ := Op.run_of_not_valid op 512 hp hv
    obtain rfl := h.refused_iff.mpr hv
    exact ⟨_, t, ht, by cases op <;> decide⟩

end Codes

/-! ## The four together -/

section Together

variable {s : System} {parent : UInt32} {name : Name} {ext : Ext} {r r' : Resolution} {code : Op → Int8} {c : Int8}

/-! What the codes of an operation tell. -/

theorem Op.mem_answers_read (h : c ∈ Op.read.answers r) :
    (c = -1 ↔ r = .refused) ∧ (c = 3 ↔ r = .absent) ∧ (c = 1 ↔ r = .folder) ∧ (c = 0 ∨ c = 2 ↔ r = .file) := by
  revert c
  cases r <;> simp [Op.answers]

theorem Op.mem_answers_readDirectory (h : c ∈ Op.readDirectory.answers r) :
    (c = -1 ↔ r = .refused) ∧ (c = 2 ↔ r = .absent) ∧ (c = 0 ↔ r = .folder) ∧ (c = 1 ↔ r = .file) := by
  revert c
  cases r <;> simp [Op.answers]

theorem Op.mem_answers_write (h : c ∈ Op.write.answers r) :
    (c = 2 ↔ r = .refused) ∧ (c = 1 ↔ r = .folder ∨ r = .file) := by
  revert c
  cases r <;> simp [Op.answers]

theorem Op.mem_answers_delete (h : c ∈ Op.delete.answers r) :
    (c = -1 ↔ r = .refused) ∧ (c = 1 ↔ r = .absent) ∧ (c = 0 ∨ c = 2 ↔ r = .folder ∨ r = .file) := by
  revert c
  cases r <;> simp [Op.answers]

/-- Codes for the same resolution tell the same. -/
theorem ResolvesAlike.of_answers (r r' : Resolution) (h : ∀ op, op ≠ .readDirectory → code op ∈ op.answers r)
    (h' : code .readDirectory ∈ Op.readDirectory.answers r') (hparent : r' = .refused ↔ r = .refused)
    (hext : ext = (fun _ => 0) → r' = r) : ResolvesAlike ext code := by
  obtain ⟨hr, hr3, hr1, hr02⟩ := Op.mem_answers_read (h .read (by decide))
  obtain ⟨hd, hd2, hd0, hd1⟩ := Op.mem_answers_readDirectory h'
  obtain ⟨hw, hw1⟩ := Op.mem_answers_write (h .write (by decide))
  obtain ⟨hx, hx1, hx02⟩ := Op.mem_answers_delete (h .delete (by decide))
  constructor
  case parent =>
    intro op hop
    rw [hw]
    cases op with
    | read => exact hr
    | readDirectory => exact hd.trans hparent
    | write => exact absurd rfl hop
    | delete => exact hx
  case taken_read =>
    intro _
    rw [hw1, or_left_comm, hr1, hr02]
  case taken_delete =>
    intro _
    rw [hw1, hx02]
  case free =>
    intro hv
    rw [ne_eq, hw1, hr3, hx1, and_self]
    rw [ne_eq, hw] at hv
    cases r <;> simp_all
  case folder =>
    intro h0
    rw [hd0, hr1, hext h0]
  case file =>
    intro h0
    rw [hd1, hr02, hext h0]
  case absent =>
    intro h0
    rw [hd2, hr3, hext h0]

/-- **The operations resolve parents and names alike**, on any disk and FAT in which the chains of the entries of the
parent end: their loops select the same entry, and their codes tell the same. -/
theorem resolve_alike (request : Op → FAT32DriverRequest) (hp : parent.toNat < 512) (hends : EntriesEnd s parent)
    (hkey : ∀ op, (request op).key = (parent, name, ext)) (hsize : (request .readDirectory).bufferSize = 2048) :
    (∃ code : Op → Int8, (∀ (op : Op) fuel, 512 ≤ fuel → ∃ t, op.run fuel (request op) s = .ok (code op, t)) ∧
      ResolvesAlike ext code) ∧
    ∀ op buf buf', LoopsAgree (tableAt s.disk parent) (request op) buf buf' := by
  refine ⟨?_, fun op buf buf' => loops_agree _ _ _ _⟩
  obtain ⟨r, hr⟩ := exists_resolves s parent name ext
  obtain ⟨r', hr'⟩ := exists_resolves s parent name fun _ => 0
  -- each operation, for what it searches for
  have hanswers : ∀ op : Op, op.AnswersAs (request op) s (if op = .readDirectory then r' else r) := by
    intro op
    obtain ⟨hparent, hname, hext⟩ := FAT32DriverRequest.key_eq_iff.mp (hkey op)
    refine op.answersAs (hparent ▸ hp) (hparent ▸ hends) (fun he => he ▸ hsize) ?_
    rw [hparent, hname, hext]
    cases op with
    | readDirectory => exact hr'
    | read => exact hr
    | write => exact hr
    | delete => exact hr
  choose code t hrun hmem using hanswers
  refine ⟨code, fun op fuel hfuel => ⟨t op, ?_⟩, ?_⟩
  · rw [Op.run_mono (hrun op ▸ Exec.final_ok _) hfuel, hrun op]
  · refine .of_answers r r' (fun op hop => by simpa [hop] using hmem op) (hmem .readDirectory)
      (hr'.refused_iff.trans hr.refused_iff.symm) fun h0 => ?_
    subst h0
    exact hr'.unique hr

/-- A machine whose root holds a file and a folder, asked for the folder. -/
theorem resolve_alike_folder : ∃ m : Machine, m.Reachable ∧
    Resolves m.system rootClusterNumber (fun _ => 97) (fun _ => 0) .file ∧
    Resolves m.system rootClusterNumber (fun _ => 98) (fun _ => 0) .folder ∧
    ∃ code : Op → Int8, (∀ (op : Op) fuel, 512 ≤ fuel → ∃ t,
        op.run fuel (readCall (fun _ => 98) 2048 fun _ => 0).request m.system = .ok (code op, t)) ∧
      ResolvesAlike (fun _ => 0) code ∧ code .read = 1 ∧ code .readDirectory = 0 ∧ code .write = 1 := by
  have hfits := writeCall_fitsRoot (fun _ => 97) 1 (fun _ => 0) (by decide)
  have hfolder : (writeCall (fun _ => 97) 1 fun _ => 0).FolderOk := writeCall_folderOk (by decide)
  have hw := blankMachine_fresh.canWrite_next hfits (mkdirCall fun _ => 98) hfolder rfl
    (fun h => absurd (congrFun (congrArg (fun k : Key => k.2.1) h) 0) (by decide)) (by decide)
  have hreach := blankMachine_fresh.reaches_firstWrite hfits hfolder
  have hrep := (blankMachine_fresh.firstWrite_reachable hfits hfolder).sound.represents
  have hlists := blankMachine_fresh.firstWrite_lists hfits
  have hentry := blankMachine_fresh.firstWrite_entry hfits
  have hfile := blankMachine_fresh.firstWrite_isDirectory hfits
  generalize blankMachine.firstWrite (writeCall (fun _ => 97) 1 fun _ => 0) = m at *
  -- the folder is made beside the file
  have ha : Allowed m.history (mkdirCall fun _ => 98) := ⟨Live.root _, mkdirCall_folderOk _⟩
  have hexec := Call.exec_write (show (mkdirCall fun _ => 98).op = .write from rfl) hw
  obtain ⟨hkept, hsame⟩ := hrep.sameEntry_kept hlists ha (fun hop => by cases hop) hexec
  have hdir := (congrArg FAT32DirectoryEntry.isDirectory hw.entryAt_written).trans
    (System.writtenEntry_isDirectory_folder _ 3 rfl)
  have hsearch := hw.found_written
  have hn : (m.after (mkdirCall fun _ => 98) 0 _).Reachable := ⟨_, blankMachine_fresh, hreach.tail (.call ha hexec)⟩
  generalize ((mkdirCall fun _ => 98).start m.system).written (mkdirCall fun _ => 98).request 3 = s at *
  have hrep : Represents s.disk s.fat (catalog (m.after (mkdirCall fun _ => 98) 0 s).history) := hn.sound.represents
  have hv : ParentValid s rootClusterNumber := hrep.parentValid rfl rfl (Live.root _)
  have hends : EntriesEnd s rootClusterNumber := fun _ i hi => by
    obtain ⟨l, hl, hne, -⟩ := hrep.entry_chain (p := (rootClusterNumber, i)) ⟨Live.root _, hi⟩
    exact ⟨l, hne, hl⟩
  have hfound : Resolves s rootClusterNumber (fun _ => 98) (fun _ => 0) .folder := .folder 3 hv hsearch hdir
  obtain ⟨⟨code, hrun, halike⟩, -⟩ := resolve_alike (s := s) (fun _ => (readCall (fun _ => 98) 2048 fun _ => 0).request)
    (by decide) hends (fun _ => rfl) rfl
  have hreads : Op.read.AnswersAs (readCall (fun _ => 98) 2048 fun _ => 0).request s .folder :=
    read_answersAs hv hfound hends
  obtain ⟨c, t, hread, hc⟩ := hreads
  obtain ⟨t', hread'⟩ := hrun .read 512 le_rfl
  have hcode : code .read = 1 := by
    rw [show code .read = c from congrArg Prod.fst (Except.ok.inj (hread'.symm.trans hread))]
    exact List.mem_singleton.mp hc
  have hwrite : code .write ≠ 2 := fun h2 =>
    absurd (hcode.symm.trans ((halike.parent .read (by decide)).mpr h2)) (by decide)
  have hnames : (readCall (fun _ => 97) 2048 fun _ => 0).request.Names s.disk (rootClusterNumber, 2) := by
    rw [FAT32DriverRequest.Names, hsame.entry, hentry]
    rfl
  exact ⟨_, hn, .file 2 hv (hrep.found_of_names hkept hnames).2
      ((congrArg FAT32DirectoryEntry.isDirectory hsame.entry).trans hfile),
    hfound, code, hrun, halike, hcode, (halike.folder rfl).mpr hcode,
    (halike.taken_read hwrite).mpr (.inr (.inl hcode))⟩

end Together

end Os2024
