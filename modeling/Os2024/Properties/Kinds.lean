import Os2024.Fat32.Entries
import Os2024.Properties.Folder
import Os2024.Properties.Structure
import Os2024.Properties.Undo

/-!
# Files and folders

`write` sets the attribute of a folder and leaves that of a file as it finds it, and `delete` does not clear it. So an
entry says of what kind it was made as long as no file is made in a slot that still has the attribute of a folder
(`KindsMatch.after`), and the first file made in such a slot is taken for a folder: `kinds_kept_iff`.
-/

namespace Os2024

open LinkTable Scan

/-! ## Kinds -/

/-- The entries of live folders are marked as folders exactly when they were made as folders, and the operations treat a
file as a file. -/
structure KindsKept (m : Machine) : Prop where
  kind : ∀ p, Lists m.system.disk (catalog m.history) p →
    ∀ e, PutAndKept m.history p.1 (entryAt m.system.disk p).name (entryAt m.system.disk p).ext e →
      ((entryAt m.system.disk p).isDirectory = true ↔ e.call.request.bufferSize = 0)
  answers : ∀ c name ext e, PutAndKept m.history c name ext e → e.call.request.bufferSize ≠ 0 →
    ∀ (rc : Call) fuel code t, rc.request.parentClusterNumber = c → rc.request.name = name →
      rc.exec fuel m.system = .ok (code, t) →
        (rc.op = .read → rc.request.ext = ext → code ≠ 1) ∧ (rc.op = .delete → rc.request.ext = ext → code ≠ 2) ∧
          (rc.op = .readDirectory → ext = (fun _ => 0) → code ≠ 0)

/-- A call does not make a file in a slot that has the attribute of a folder. -/
def SlotPlain (s : System) (call : Call) : Prop :=
  call.op = .write → call.request.bufferSize ≠ 0 → ∀ i, CanWrite (call.start s) call.request i →
    ((tableAt s.disk call.request.parentClusterNumber).table i).isDirectory = false

/-- An allowed call that makes no file in such a slot is made, and returns. -/
inductive Machine.PlainStep : Machine → Machine → Prop
  | call {m : Machine} {call : Call} {fuel : Nat} {code : Int8} {s : System} (ha : Allowed m.history call)
      (hplain : SlotPlain m.system call) (hexec : call.exec fuel m.system = .ok (code, s)) :
      PlainStep m (m.after call code s)

/-- Every record has an entry that is marked as its kind. -/
def KindsMatch (disk : Disk) (cat : List Record) : Prop :=
  ∀ r ∈ cat, ∃ p, Lists disk cat p ∧ p.1 = r.parent ∧ Describes (entryAt disk p) r ∧
    (entryAt disk p).isDirectory = r.folder

/-! ## One call -/

section Step

variable {s : System} {request : FAT32DriverRequest} {i : Fin 64} {cat : List Record} {l : List (Fin 512)}
  {m : Machine} {call : Call} {code : Int8} {fuel : Nat}

/-- A `write` makes an entry of the right kind, unless it makes a file in the slot of a folder. -/
theorem KindsMatch.written (hk : KindsMatch s.disk cat) (h : Represents s.disk s.fat cat) (hw : CanWrite s request i)
    (hlive : Live cat request.parentClusterNumber)
    (hplain : request.bufferSize ≠ 0 →
      ((tableAt s.disk request.parentClusterNumber).table i).isDirectory = false) :
    KindsMatch (s.written request i).disk (s.writtenRecord request :: cat) := by
  intro r hr
  rcases List.mem_cons.mp hr with rfl | hr
  · refine ⟨(request.parentClusterNumber, i), hw.lists_written hlive, rfl, ?_, ?_⟩
    · rw [hw.entryAt_written]
      exact s.writtenEntry_describes request i
    · rw [hw.entryAt_written, System.writtenEntry_isDirectory]
      change _ = (request.bufferSize == 0)
      by_cases hsize : request.bufferSize = 0
      · simp [hsize]
      · rw [hplain hsize, Bool.or_false]
  · obtain ⟨p, hp, hparent, hd, hdir⟩ := hk r hr
    obtain ⟨hp', hsame⟩ := h.sameEntry_written hw hlive hp
    exact ⟨p, hp', hparent, hsame.entry ▸ hd, hsame.entry ▸ hdir⟩

theorem KindsMatch.deleted (hk : KindsMatch s.disk cat) (h : Represents s.disk s.fat cat)
    (hd : CanDelete s request i l) (hlive : Live cat request.parentClusterNumber) :
    KindsMatch (s.deleted request i l).disk (without cat request.key) := by
  intro r hr
  obtain ⟨hr, hkey⟩ := mem_without.mp hr
  obtain ⟨p, hp, hparent, hdesc, hdir⟩ := hk r hr
  have hne : request.key ≠ (p.1, (entryAt s.disk p).name, (entryAt s.disk p).ext) := by
    rw [hparent, hdesc.name, hdesc.ext]
    exact fun he => hkey he.symm
  obtain ⟨hp', hsame⟩ := h.sameEntry_deleted hd hlive hp hne
  exact ⟨p, hp', hparent, hsame.entry ▸ hdesc, hsame.entry ▸ hdir⟩

/-- A call that makes no file in the slot of a folder keeps the kinds. -/
theorem KindsMatch.after (hk : KindsMatch m.system.disk (catalog m.history))
    (h : Represents m.system.disk m.system.fat (catalog m.history)) (ha : Allowed m.history call)
    (hplain : SlotPlain m.system call) (hexec : call.exec fuel m.system = .ok (code, s)) :
    KindsMatch s.disk (catalog (m.after call code s).history) := by
  have h' := h.start call
  have hk' : KindsMatch (call.start m.system).disk (catalog m.history) := hk
  cases Call.exec_outcome (h'.chainsEnd fun _ => ha.1) hexec with
  | kept hkept hcode =>
    rw [Machine.catalog_after_of_keep hcode, hkept.disk]
    exact hk
  | written i hop hcode hw hs =>
    subst hs hcode
    rw [Machine.catalog_after_written hop]
    exact hk'.written h' hw ha.1 fun hsize => hplain hop hsize i hw
  | deleted i l hop hcode hd hs =>
    subst hs hcode
    rw [Machine.catalog_after_delete hop]
    exact hk'.deleted h' hd ha.1

end Step

/-! ## Answers about a file -/

section Answers

variable {m : Machine} {p : UInt32 × Fin 64} {r : Record} {rc : Call} {fuel : Nat} {code : Int8} {t : System}

theorem KindsMatch.isDirectory {disk : Disk} {fat : Fin 512 → UInt32} {cat : List Record} (hk : KindsMatch disk cat)
    (h : Represents disk fat cat) (hp : Lists disk cat p) (hr : r ∈ cat)
    (hkey : r.key = (p.1, (entryAt disk p).name, (entryAt disk p).ext)) :
    (entryAt disk p).isDirectory = r.folder := by
  obtain ⟨r', hr', hparent, hd⟩ := h.record_of_lists hp
  obtain rfl : r' = r := h.key_inj r' hr' r hr (by rw [hkey, Record.key, hparent, hd.name, hd.ext])
  obtain ⟨q, hq, hqp, hqd, hdir⟩ := hk r' hr'
  obtain rfl : q = p := (h.existsUnique_entry hr').unique ⟨hq, hqp, hqd⟩ ⟨hp, hparent.symm, hd⟩
  exact hdir

variable (h : Represents m.system.disk m.system.fat (catalog m.history))
  (hp : Lists m.system.disk (catalog m.history) p) (hdir : (entryAt m.system.disk p).isDirectory = false)
  (hexec : rc.exec fuel m.system = .ok (code, t))
include h hp hdir hexec

theorem Represents.read_file (hop : rc.op = .read) (hkey : rc.request.Names m.system.disk p) : code ≠ 1 := by
  obtain ⟨l, hl, -⟩ := h.entry_chain hp
  obtain ⟨u, hu, -⟩ := h.exec_read hp hop hkey hl (le_refl 512)
  obtain ⟨rfl, -⟩ := Call.exec_unique hexec hu
  by_cases hsmall : rc.request.bufferSize < (entryAt m.system.disk p).filesize
  · rw [readAnswer_small hdir hsmall]
    exact show (2 : Int8) ≠ 1 by decide
  · rw [readAnswer_file hdir (UInt32.not_lt.mp hsmall)]
    exact show (0 : Int8) ≠ 1 by decide

theorem Represents.delete_file (hop : rc.op = .delete) (hkey : rc.request.Names m.system.disk p) : code ≠ 2 := by
  obtain ⟨l, hl, -⟩ := h.entry_chain hp
  have h' := h.start rc
  have hd : CanDelete (rc.start m.system) rc.request p.2 l :=
    h'.canDelete hp hkey hl fun hd => absurd (hdir.symm.trans hd) Bool.false_ne_true
  obtain ⟨rfl, -⟩ := Call.exec_unique hexec (Call.exec_delete hop hd)
  decide

/-- `read_directory` does not open a file that it finds under a name. -/
theorem Represents.readDirectory_file (hop : rc.op = .readDirectory)
    (hkey : FAT32DriverRequest.Names { rc.request with ext := fun _ => 0 } m.system.disk p) : code ≠ 0 := by
  have h' := h.start rc
  obtain ⟨hparent, hfound⟩ := h'.found_of_names hp hkey
  have hentry : ((tableAt (rc.start m.system).disk rc.request.parentClusterNumber).table p.2).isDirectory = false := by
    rw [hparent]
    exact hdir
  rw [Call.exec, hop] at hexec
  by_cases hsize : rc.request.bufferSize = 2048
  · have hv : ParentValid (rc.start m.system) rc.request.parentClusterNumber :=
      hparent ▸ h'.parentValid rfl rfl hp.1
    have hanswer := readDirectory_of_valid hv hsize
    simp only [System.loadDirTable_dirTable, hfound, hentry, Bool.not_false, if_true] at hanswer
    cases hanswer.symm.trans hexec
    decide
  · cases (readDirectory_of_size hsize).symm.trans hexec
    decide

end Answers

/-! ## Whole runs -/

section Runs

variable {m₀ m n : Machine}

theorem KindsMatch.kept (hk : KindsMatch m.system.disk (catalog m.history))
    (h : Represents m.system.disk m.system.fat (catalog m.history)) : KindsKept m := by
  refine ⟨?_, ?_⟩
  · intro p hp e he
    rw [hk.isDirectory h hp he.record he.key]
    exact beq_iff_eq
  · intro c name ext e he hsize rc fuel code t hc hn hexec
    obtain ⟨p, hp, hparent, hd, hdir⟩ := hk _ he.record
    have hfile : (entryAt m.system.disk p).isDirectory = false := hdir.trans (beq_eq_false_iff_ne.mpr hsize)
    have hkey : (c, name, ext) = (p.1, (entryAt m.system.disk p).name, (entryAt m.system.disk p).ext) := by
      rw [hparent, hd.name, hd.ext]
      exact he.key.symm
    subst hc hn
    refine ⟨fun hop hx => ?_, fun hop hx => ?_, fun hop hx => ?_⟩
    · subst hx
      exact h.read_file hp hfile hexec hop hkey
    · subst hx
      exact h.delete_file hp hfile hexec hop hkey
    · subst hx
      exact h.readDirectory_file hp hfile hexec hop hkey

theorem Machine.PlainStep.step (h : PlainStep m n) : Step Allowed m n := by
  cases h with
  | call ha _ hexec => exact .call ha hexec

/-- Runs that make no file in the slot of a folder keep the kinds. -/
theorem Machine.Fresh.plain_run (hfresh : m₀.Fresh) (hr : Relation.ReflTransGen PlainStep m₀ m) :
    m.Reachable ∧ KindsMatch m.system.disk (catalog m.history) := by
  induction hr with
  | refl =>
    refine ⟨⟨m₀, hfresh, .refl⟩, ?_⟩
    intro r hr
    rw [hfresh.history] at hr
    cases hr
  | tail _ hstep ih =>
    obtain ⟨⟨m₁, hfresh₁, hreach⟩, hk⟩ := ih
    refine ⟨⟨m₁, hfresh₁, hreach.tail hstep.step⟩, ?_⟩
    have hrep := (hreach.sound hfresh₁.sound).represents
    cases hstep with
    | call ha hplain hexec => exact hk.after hrep ha hplain hexec

/-- **An entry keeps the kind it was made with** as long as no file is made in a slot that has the attribute of a
folder, and no longer. -/
theorem kinds_kept_iff (hfresh : m₀.Fresh) (hr : Relation.ReflTransGen Machine.PlainStep m₀ m) :
    KindsKept m ∧ ∀ (call : Call) (fuel : Nat) (code : Int8) (s : System), Allowed m.history call →
      call.exec fuel m.system = .ok (code, s) → (KindsKept (m.after call code s) ↔ SlotPlain m.system call) := by
  obtain ⟨hm, hk⟩ := hfresh.plain_run hr
  refine ⟨hk.kept hm.sound.represents, ?_⟩
  intro call fuel code s ha hexec
  constructor
  · intro hkept hop hsize i hw
    obtain ⟨rfl, rfl⟩ := Call.exec_unique hexec (Call.exec_write hop hw)
    -- the new entry is that of the call
    have hlists : Lists ((call.start m.system).written call.request i).disk
        (catalog (m.after call 0 ((call.start m.system).written call.request i)).history)
        (call.request.parentClusterNumber, i) := by
      rw [Machine.catalog_after_written hop]
      exact hw.lists_written ha.1
    have hkind := hkept.kind _ hlists _ ⟨[], m.history, rfl, ⟨hop, rfl, ?_⟩, by simp⟩
    · change (entryAt ((call.start m.system).written call.request i).disk _).isDirectory = true ↔ _ at hkind
      rw [hw.entryAt_written, System.writtenEntry_isDirectory_file _ i hsize] at hkind
      exact Bool.eq_false_iff.mpr fun hd => hsize (hkind.mp hd)
    · change _ = (_, (entryAt ((call.start m.system).written call.request i).disk _).name,
        (entryAt ((call.start m.system).written call.request i).disk _).ext)
      rw [hw.entryAt_written]
      rfl
  · intro hplain
    have hrep := (hm.sound.represents.after (fun _ => ha.1) ha.2 hexec).1
    exact (hk.after hm.sound.represents ha hplain hexec).kept hrep

/-- A first file keeps its kind. -/
theorem kinds_kept_file :
    KindsKept blankMachine ∧ KindsKept (blankMachine.firstWrite (writeCall (fun _ => 97) 1 fun _ => 0)) := by
  have hfresh := blankMachine_fresh
  generalize blankMachine = m at hfresh ⊢
  have hfits := writeCall_fitsRoot (fun _ => 97) 1 (fun _ => 0) (by decide)
  obtain ⟨hkept, hiff⟩ := kinds_kept_iff hfresh .refl
  refine ⟨hkept, (hiff _ 512 0 _ ⟨Live.root _, writeCall_folderOk (by decide)⟩ (hfresh.exec_write hfits)).mpr ?_⟩
  intro _ _ i hw
  obtain rfl := Option.some.inj ((hfresh.canWrite hfits).emptyEntry.symm.trans hw.emptyEntry)
  rw [hfresh.parent_table hfits]
  decide

/-- A file in the slot of a deleted folder is taken for a folder. -/
theorem folder_slot_reused :
    ∃ m : Machine, m.Reachable ∧ m.history.map Event.call =
        [writeCall (fun _ => 98) 1 fun _ => 0, deleteCall fun _ => 97, mkdirCall fun _ => 97] ∧
      ¬ KindsKept m ∧ ∃ t, (readCall (fun _ => 98) 4096 fun _ => 0).exec 512 m.system = .ok (1, t) := by
  have hfresh := blankMachine_fresh
  generalize blankMachine = m at hfresh
  have hw := hfresh.canWrite (mkdirCall_fitsRoot fun _ => 97)
  have hreach := hfresh.reaches_firstWrite (mkdirCall_fitsRoot fun _ => 97) (mkdirCall_folderOk _)
  -- the folder is deleted
  have hempty : ∀ j, ¬ (FAT32DirectoryTable.ofBytes ((mkdirCall fun _ => 97).request.chunk
      ((mkdirCall fun _ => 97).start m.system).memory 0)).Occupied j := fun j hj =>
    Bool.false_ne_true (((mkdirCall_folderOk (fun _ => 97) rfl rfl).2 j hj.1).symm.trans hj.2)
  have hd := hfresh.canDelete_firstWrite (mkdirCall_fitsRoot fun _ => 97) (show (deleteCall fun _ => 97).request.key =
    (mkdirCall fun _ => 97).request.key from rfl) fun _ =>
      (congrArg (fun b => (FAT32DirectoryTable.ofBytes b).anyOccupied) (hw.written_folder rfl)).trans
        (anyOccupied_eq_false.mpr hempty)
  have hdelete := Call.exec_delete (show (deleteCall fun _ => 97).op = .delete from rfl) hd
  have hreach := hreach.tail (.call ⟨Live.root _, deleteCall_folderOk _⟩ hdelete)
  -- and a file is made in its slot
  have hfile := hfresh.canWrite (writeCall_fitsRoot (fun _ => 98) 1 (fun _ => 0) (by decide))
  have htable := hd.deleted_parent.trans (hw.deletedTable_eq rfl rfl)
  have hfat : ((deleteCall fun _ => 97).start (m.firstWrite (mkdirCall fun _ => 97)).system).deletedFat _ =
      m.system.fat := CanWrite.deletedFat_eq (i := 2) rfl
  generalize hv : ((deleteCall fun _ => 97).start (m.firstWrite (mkdirCall fun _ => 97)).system).deleted
    (deleteCall fun _ => 97).request 2 _ = v at *
  have hfat' : v.fat = m.system.fat := hv ▸ hfat
  have hw' : CanWrite ((writeCall (fun _ => 98) 1 fun _ => 0).start v)
      (writeCall (fun _ => 98) 1 fun _ => 0).request 2 := hfile.of_undone hfat' htable rfl
  have hexec := Call.exec_write rfl hw'
  obtain ⟨-, -, t, ht, -⟩ := hw'.exec_read (readCall (fun _ => 98) 4096 fun _ => 0) rfl rfl
  have hdir : (((writeCall (fun _ => 98) 1 fun _ => 0).start v).writtenEntry
      (writeCall (fun _ => 98) 1 fun _ => 0).request 2).isDirectory = true := by
    rw [System.writtenEntry_isDirectory_file _ 2 (by decide)]
    refine (congrArg (fun t : FAT32DirectoryTable => (t.table 2).isDirectory) htable).trans ?_
    rw [FAT32DirectoryTable.set_table_self, FAT32DirectoryEntry.release_isDirectory]
    exact System.writtenEntry_isDirectory_folder _ 2 rfl
  rw [readAnswer_folder hdir] at ht
  refine ⟨_, ⟨m, hfresh, hreach.tail (.call ⟨Live.root _, writeCall_folderOk (by decide)⟩ hexec)⟩, ?_,
    fun hkept => ?_, t, ht⟩
  · rw [Machine.after, Machine.after, Machine.firstWrite, Machine.after, hfresh.history]
    rfl
  · have hsize : (writeCall (fun _ => 98) 1 fun _ => 0).request.bufferSize ≠ 0 := by decide
    exact (hkept.answers rootClusterNumber (fun _ => 98) (fun _ => 0) _ ⟨[], _, rfl, ⟨rfl, rfl, rfl⟩, by simp⟩ hsize
      (readCall (fun _ => 98) 4096 fun _ => 0) 512 1 t rfl rfl ht).1 rfl rfl rfl

end Runs

end Os2024
