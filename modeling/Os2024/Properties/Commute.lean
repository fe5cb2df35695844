import Os2024.Fat32.Fresh
import Os2024.Fat32.View

/-!
# Two writes

A `write` after another one finds one empty entry and `(count + 1) / 2` free cells less (`canWrite_after_iff`). In the
other order both have room again only if the first one asks for no more than what the second one leaves; and two files
in one folder change slots, with whatever attribute a slot has. But for that, no `read` can tell the order of two writes
of files with different names: `writes_commute_iff`.
-/

namespace Os2024

open LinkTable Scan

/-- The empty entry after the first one. -/
def FAT32DirectoryTable.secondEmptyEntry (t : FAT32DirectoryTable) : Option (Fin 64) :=
  t.emptyEntry.bind fun i => firstFrom (i.val + 1) fun j => !(t.table j).occupied

/-- The first two empty entries are both marked as folders, or neither is. -/
def FAT32DirectoryTable.SlotsAlike (t : FAT32DirectoryTable) : Prop :=
  ∀ i j, t.emptyEntry = some i → t.secondEmptyEntry = some j → (t.table i).isDirectory = (t.table j).isDirectory

/-- The entry a `write` of `request` finds after a `write` of `before`. -/
def System.emptyEntryAfter (s : System) (before request : FAT32DriverRequest) : Option (Fin 64) :=
  if request.parentClusterNumber = before.parentClusterNumber then
    (tableAt s.disk request.parentClusterNumber).secondEmptyEntry
  else (tableAt s.disk request.parentClusterNumber).emptyEntry

/-! ## A `write` after another one -/

section Tables

variable {t : FAT32DirectoryTable} {i j : Fin 64} {e : FAT32DirectoryEntry}

theorem secondEmptyEntry_eq_some (hi : t.emptyEntry = some i) : t.secondEmptyEntry = some j ↔
    i < j ∧ (t.table j).occupied = false ∧ ∀ k, i < k → k < j → (t.table k).occupied = true := by
  rw [FAT32DirectoryTable.secondEmptyEntry, hi, Option.bind_some, firstFrom_eq_some]
  simp only [Bool.not_eq_true', Bool.not_eq_false', Nat.succ_le_iff, Fin.val_fin_lt]

/-- Once the first empty entry is filled, the next one is found. -/
theorem emptyEntry_set_occupied (hi : t.emptyEntry = some i) (he : e.occupied = true) :
    (t.set i e).emptyEntry = t.secondEmptyEntry := by
  obtain ⟨h2, -, hbefore⟩ := firstFrom_eq_some.mp hi
  ext j
  rw [secondEmptyEntry_eq_some hi, FAT32DirectoryTable.emptyEntry, firstFrom_eq_some]
  simp only [Bool.not_eq_true', Bool.not_eq_false']
  constructor
  · rintro ⟨hj2, hj, hall⟩
    have hji : j ≠ i := by
      rintro rfl
      rw [FAT32DirectoryTable.set_table_self, he] at hj
      cases hj
    rw [FAT32DirectoryTable.set_table_of_ne hji] at hj
    have hlt : i < j := by
      refine lt_of_le_of_ne (not_lt.mp fun hlt => ?_) hji.symm
      have hocc := hbefore j hj2 hlt
      rw [hj] at hocc
      cases hocc
    refine ⟨hlt, hj, fun k hik hkj => ?_⟩
    have hk := hall k (h2.trans hik.le) hkj
    rwa [FAT32DirectoryTable.set_table_of_ne hik.ne'] at hk
  · rintro ⟨hij, hj, hall⟩
    refine ⟨h2.trans hij.le, (FAT32DirectoryTable.set_table_of_ne hij.ne').symm ▸ hj, fun k hk2 hkj => ?_⟩
    rcases lt_trichotomy k i with hki | rfl | hik
    · rw [FAT32DirectoryTable.set_table_of_ne hki.ne]
      simpa using hbefore k hk2 hki
    · rw [FAT32DirectoryTable.set_table_self, he]
    · rw [FAT32DirectoryTable.set_table_of_ne hik.ne']
      exact hall k hik hkj

end Tables

section After

variable {s u : System} {before request : FAT32DriverRequest} {i j : Fin 64} {cat : List Record}

namespace Represents

variable (h : Represents s.disk s.fat cat) (hw : CanWrite s before i)
  (hlive : Live cat request.parentClusterNumber)
include h hw hlive

/-- The table of a live folder after a `write`. -/
theorem tableAt_written : tableAt (s.written before i).disk request.parentClusterNumber =
    if request.parentClusterNumber = before.parentClusterNumber then
      (tableAt s.disk request.parentClusterNumber).set i (s.writtenEntry before i)
    else tableAt s.disk request.parentClusterNumber := by
  split
  · next hp => rw [hp, hw.written_parent, System.writtenTable]
  · next hp =>
    exact tableAt_congr (hw.written_of_ne ((h.live_lt hlive).trans (by decide)) (h.live_ne_fatCluster hlive) hp
      (h.live_ne_writtenCells hlive))

/-- The search for another name finds what it found before. -/
theorem found_written_of_ne (hkey : request.key ≠ before.key) :
    (s.written before i).found request = s.found request := by
  rw [System.found, h.tableAt_written hw hlive]
  split
  · next hp =>
    refine search_set (hp ▸ (emptyEntry_eq_some hw.emptyEntry).2) fun _ hid => hkey ?_
    rw [System.writtenEntry_name, System.writtenEntry_ext] at hid
    rw [FAT32DriverRequest.key, FAT32DriverRequest.key, hp, hid.1, hid.2]
  · rfl

theorem emptyEntry_written : (tableAt (s.written before i).disk request.parentClusterNumber).emptyEntry =
    s.emptyEntryAfter before request := by
  rw [h.tableAt_written hw hlive, System.emptyEntryAfter]
  split
  · next hp => exact emptyEntry_set_occupied (hp ▸ hw.emptyEntry) rfl
  · rfl

/-- The slot found after a `write` is as it was before. -/
theorem table_emptyEntryAfter (hj : s.emptyEntryAfter before request = some j) :
    (tableAt (s.written before i).disk request.parentClusterNumber).table j =
      (tableAt s.disk request.parentClusterNumber).table j := by
  rw [h.tableAt_written hw hlive]
  rw [System.emptyEntryAfter] at hj
  split
  · next hp =>
    rw [if_pos hp] at hj
    have hij := ((secondEmptyEntry_eq_some (hp ▸ hw.emptyEntry)).mp hj).1
    exact FAT32DirectoryTable.set_table_of_ne hij.ne'
  · rfl

/-- There is room after a `write` if another entry is empty and enough of the other cells are. -/
theorem canWrite_after_iff (hdisk : u.disk = (s.written before i).disk) (hfat : u.fat = (s.written before i).fat)
    (hkey : request.key ≠ before.key) : CanWrite u request j ↔
      s.found request = none ∧ s.emptyEntryAfter before request = some j ∧
        request.clusterCount + (before.clusterCount + 1) / 2 ≤ (freeCells s.fat).length := by
  have hfree : (freeCells u.fat).length + (before.clusterCount + 1) / 2 = (freeCells s.fat).length :=
    hfat ▸ hw.length_freeCells_written
  constructor
  · rintro ⟨-, hs, he, hroom⟩
    rw [hdisk] at hs he
    rw [h.emptyEntry_written hw hlive] at he
    exact ⟨(h.found_written_of_ne hw hlive hkey).symm.trans hs, he, by omega⟩
  · rintro ⟨hs, he, hroom⟩
    obtain ⟨p, hp, h2, hend, huse⟩ := h.live_cell hlive
    refine ⟨⟨p, hp, h2, ?_, ?_⟩, ?_, ?_, by omega⟩
    · rw [hfat]
      exact (h.writtenFat_of_inUse huse).trans hend
    · have hi : i ≠ 0 := fun h0 => absurd (h0 ▸ (emptyEntry_eq_some hw.emptyEntry).1) (by decide)
      rw [hdisk, h.tableAt_written hw hlive]
      split
      · rw [FAT32DirectoryTable.set_table_of_ne hi.symm]
        exact h.table _ hlive
      · exact h.table _ hlive
    · rw [hdisk]
      exact (h.found_written_of_ne hw hlive hkey).trans hs
    · rw [hdisk, h.emptyEntry_written hw hlive, he]

end Represents

end After

/-! ## Two writes -/

section Writes

variable {m : Machine} {a b rc : Call} {i j : Fin 64} {s t : System} {fuel fuel' : Nat}

/-- A `write` of a file. -/
structure Call.WritesFile (call : Call) : Prop where
  op : call.op = .write
  size : call.request.bufferSize ≠ 0

/-- After `b` and then `a`, a `read` in a folder answers as it does in `t`, the state after `a` and then `b`. -/
def Commutes (m : Machine) (a b : Call) (t : System) : Prop :=
  ∃ s' t', b.exec 512 m.system = .ok (0, s') ∧ a.exec 512 s' = .ok (0, t') ∧
    ∀ rc : Call, rc.op = .read → Live (catalog m.history) rc.request.parentClusterNumber →
      ∃ x, Answers t rc x ∧ Answers t' rc x

theorem Call.WritesFile.allowed {hist : List Event} (h : a.WritesFile)
    (hlive : Live (catalog hist) a.request.parentClusterNumber) : Allowed hist a :=
  ⟨hlive, fun _ h0 => absurd h0 h.size⟩

section Answers

variable (h : Represents m.system.disk m.system.fat (catalog m.history)) (hkey : b.request.key ≠ a.request.key)
  (hlb : Live (catalog m.history) b.request.parentClusterNumber) (hwa : CanWrite (a.start m.system) a.request i)
include h hkey hlb hwa

/-- There is room for `b` after `a` if another entry is empty and enough of the other cells are. -/
theorem Represents.canWrite_afterWrite_iff : CanWrite (b.start (m.afterWrite a i).system) b.request j ↔
    m.system.found b.request = none ∧ m.system.emptyEntryAfter a.request b.request = some j ∧
      b.request.clusterCount + (a.request.clusterCount + 1) / 2 ≤ m.system.countAvailable :=
  Represents.canWrite_after_iff (s := a.start m.system) h hwa hlb rfl rfl hkey

variable (ha : a.WritesFile) (hb : b.WritesFile) (hla : Live (catalog m.history) a.request.parentClusterNumber)
include ha hb hla

variable (hwb : CanWrite (b.start (m.afterWrite a i).system) b.request j) (hrc : rc.op = .read)
  (hlive : Live (catalog m.history) rc.request.parentClusterNumber)
include hwb hrc hlive

/-- What a `read` answers after two writes. -/
theorem Represents.answers_after_two :
    (rc.request.key = a.request.key → Answers ((m.afterWrite a i).afterWrite b j).system rc
      ((a.view ((tableAt m.system.disk a.request.parentClusterNumber).table i).isDirectory).answer rc)) ∧
    (rc.request.key = b.request.key → Answers ((m.afterWrite a i).afterWrite b j).system rc
      ((b.view ((tableAt m.system.disk b.request.parentClusterNumber).table j).isDirectory).answer rc)) ∧
    (rc.request.key ≠ a.request.key → rc.request.key ≠ b.request.key → ∀ x, Answers m.system rc x →
      Answers ((m.afterWrite a i).afterWrite b j).system rc x) := by
  have h' := h.afterWrite ha.op (ha.allowed hla) hwa
  have hb' : Allowed (m.afterWrite a i).history b := hb.allowed (Machine.live_afterWrite ha.op hlb)
  have hlive' : Live (catalog (m.afterWrite a i).history) rc.request.parentClusterNumber :=
    Machine.live_afterWrite ha.op hlive
  have hslot : (tableAt (m.afterWrite a i).system.disk b.request.parentClusterNumber).table j =
      (tableAt m.system.disk b.request.parentClusterNumber).table j :=
    Represents.table_emptyEntryAfter (s := a.start m.system) h hwa hlb
      ((h.canWrite_afterWrite_iff hkey hlb hwa).mp hwb).2.1
  refine ⟨fun hk => ?_, fun hk => ?_, fun hka hkb x hx => ?_⟩
  · exact h'.answers_written_of_ne hb.op hb' hwb hrc (fun hkb => hkey (hkb.symm.trans hk)) hlive'
      (h.answers_written ha.op (ha.allowed hla) hwa hrc ha.size hk)
  · rw [← hslot]
    exact h'.answers_written hb.op hb' hwb hrc hb.size hk
  · exact h'.answers_written_of_ne hb.op hb' hwb hrc hkb hlive'
      (h.answers_written_of_ne ha.op (ha.allowed hla) hwa hrc hka hlive hx)

end Answers

/-- A `read` with the largest buffer tells a file from a folder. -/
theorem View.folder_of_answer {v w : View} (hbuf : rc.request.bufferSize = -1) (h : v.answer rc = w.answer rc) :
    v.folder = w.folder := by
  have hlarge : ∀ x : UInt32, ¬ rc.request.bufferSize < x := fun x => by
    rw [hbuf, UInt32.not_lt]
    exact le_largestSize x
  have hcode := congrArg Prod.fst h
  cases hv : v.folder <;> cases hw : w.folder <;> simp [View.answer, hv, hw, if_neg (hlarge _)] at hcode ⊢

/-- If `a` finds an entry and then `b` does, so do `b` and then `a`. -/
theorem exists_emptyEntries (hi : (tableAt s.disk a.request.parentClusterNumber).emptyEntry = some i)
    (hj : s.emptyEntryAfter a.request b.request = some j) :
    ∃ i' j', (tableAt s.disk b.request.parentClusterNumber).emptyEntry = some i' ∧
      s.emptyEntryAfter b.request a.request = some j' := by
  rw [System.emptyEntryAfter] at hj ⊢
  by_cases hp : a.request.parentClusterNumber = b.request.parentClusterNumber
  · rw [if_pos hp.symm] at hj
    rw [if_pos hp, hp]
    exact ⟨i, j, hp ▸ hi, hj⟩
  · rw [if_neg (Ne.symm hp)] at hj
    rw [if_neg hp]
    exact ⟨j, i, hj, hi⟩

/-- In one folder two writes exchange their slots. -/
theorem slotsAlike_iff {i' j' : Fin 64}
    (hi : (tableAt s.disk a.request.parentClusterNumber).emptyEntry = some i)
    (hi' : (tableAt s.disk b.request.parentClusterNumber).emptyEntry = some i')
    (hj : s.emptyEntryAfter a.request b.request = some j) (hj' : s.emptyEntryAfter b.request a.request = some j') :
    (a.request.parentClusterNumber = b.request.parentClusterNumber →
        (tableAt s.disk a.request.parentClusterNumber).SlotsAlike) ↔
      ((tableAt s.disk a.request.parentClusterNumber).table i).isDirectory =
          ((tableAt s.disk a.request.parentClusterNumber).table j').isDirectory ∧
        ((tableAt s.disk b.request.parentClusterNumber).table j).isDirectory =
          ((tableAt s.disk b.request.parentClusterNumber).table i').isDirectory := by
  by_cases hp : a.request.parentClusterNumber = b.request.parentClusterNumber
  · rw [System.emptyEntryAfter, if_pos hp.symm] at hj
    rw [System.emptyEntryAfter, if_pos hp] at hj'
    rw [← hp] at hi' hj ⊢
    obtain rfl := Option.some.inj (hi.symm.trans hi')
    obtain rfl := Option.some.inj (hj.symm.trans hj')
    constructor
    · intro h
      have halike := h rfl i j hi hj
      exact ⟨halike, halike.symm⟩
    · rintro ⟨halike, -⟩ - k l hk hl
      obtain rfl := Option.some.inj (hi.symm.trans hk)
      obtain rfl := Option.some.inj (hj.symm.trans hl)
      exact halike
  · rw [System.emptyEntryAfter, if_neg (Ne.symm hp), hi'] at hj
    rw [System.emptyEntryAfter, if_neg hp, hi] at hj'
    obtain rfl := Option.some.inj hj
    obtain rfl := Option.some.inj hj'
    exact iff_of_true (fun he => absurd he hp) ⟨rfl, rfl⟩

theorem Call.exec_write_eq_zero (hop : a.op = .write) (hs : a.exec fuel m.system = .ok (0, s)) :
    ∃ i, CanWrite (a.start m.system) a.request i ∧ s = (m.afterWrite a i).system :=
  Call.exec_write_ok hop hs

/-- **Writes of files with different names commute** exactly when the first one also fits after the second, and slots
they exchange are marked alike. -/
theorem writes_commute_iff (hm : m.Reachable) (ha : a.WritesFile) (hb : b.WritesFile)
    (hkey : a.request.key ≠ b.request.key) (hla : Live (catalog m.history) a.request.parentClusterNumber)
    (hlb : Live (catalog m.history) b.request.parentClusterNumber) (hs : a.exec fuel m.system = .ok (0, s))
    (ht : b.exec fuel' s = .ok (0, t)) :
    Commutes m a b t ↔
      a.request.clusterCount + (b.request.clusterCount + 1) / 2 ≤ m.system.countAvailable ∧
        (a.request.parentClusterNumber = b.request.parentClusterNumber →
          (tableAt m.system.disk a.request.parentClusterNumber).SlotsAlike) := by
  have h := hm.sound.represents
  obtain ⟨i, hwa, rfl⟩ := Call.exec_write_eq_zero ha.op hs
  obtain ⟨j, hwb, rfl⟩ := Call.exec_write_eq_zero hb.op ht
  obtain ⟨hfound, hj, hroom⟩ := (h.canWrite_afterWrite_iff hkey.symm hlb hwa).mp hwb
  have hi : (tableAt m.system.disk a.request.parentClusterNumber).emptyEntry = some i := hwa.emptyEntry
  obtain ⟨i', j', hi', hj'⟩ := exists_emptyEntries hi hj
  have hwb' : CanWrite (b.start m.system) b.request i' :=
    ⟨h.parentValid rfl rfl hlb, hfound, hi', by rw [← countAvailable_eq]; exact (Nat.le_add_right _ _).trans hroom⟩
  have hwa' : ∀ {k}, CanWrite (a.start (m.afterWrite b i').system) a.request k ↔ _ :=
    h.canWrite_afterWrite_iff hkey hla hwb'
  rw [slotsAlike_iff hi hi' hj hj']
  constructor
  · rintro ⟨s', t', hbs, hat, hreads⟩
    obtain ⟨-, rfl⟩ := Call.exec_unique hbs (Call.exec_write hb.op hwb')
    obtain ⟨k, hwk, rfl⟩ := Call.exec_write_eq_zero (m := m.afterWrite b i') ha.op hat
    obtain ⟨-, hk, hroom'⟩ := hwa'.mp hwk
    obtain rfl := Option.some.inj (hj'.symm.trans hk)
    refine ⟨hroom', ?_, ?_⟩
    · let rc : Call := ⟨.read, { a.request with bufferSize := -1 }, a.memory⟩
      have hrc : rc.op = .read := rfl
      obtain ⟨x, hx, hx'⟩ := hreads rc hrc hla
      obtain ⟨h1, -, -⟩ := h.answers_after_two hkey.symm hlb hwa ha hb hla hwb hrc hla
      obtain ⟨-, h2, -⟩ := h.answers_after_two hkey hla hwb' hb ha hlb hwk hrc hla
      exact View.folder_of_answer rfl ((hx.unique (h1 rfl)).symm.trans (hx'.unique (h2 rfl)))
    · let rc : Call := ⟨.read, { b.request with bufferSize := -1 }, b.memory⟩
      have hrc : rc.op = .read := rfl
      obtain ⟨x, hx, hx'⟩ := hreads rc hrc hlb
      obtain ⟨-, h1, -⟩ := h.answers_after_two hkey.symm hlb hwa ha hb hla hwb hrc hlb
      obtain ⟨h2, -, -⟩ := h.answers_after_two hkey hla hwb' hb ha hlb hwk hrc hlb
      exact View.folder_of_answer rfl ((hx.unique (h1 rfl)).symm.trans (hx'.unique (h2 rfl)))
  · rintro ⟨hroom', hda, hdb⟩
    have hwk := hwa'.mpr ⟨hwa.search, hj', hroom'⟩
    refine ⟨_, _, Call.exec_write hb.op hwb', Call.exec_write ha.op hwk, fun rc hrc hlive => ?_⟩
    obtain ⟨ha1, hb1, ho1⟩ := h.answers_after_two hkey.symm hlb hwa ha hb hla hwb hrc hlive
    obtain ⟨hb2, ha2, ho2⟩ := h.answers_after_two hkey hla hwb' hb ha hlb hwk hrc hlive
    by_cases hka : rc.request.key = a.request.key
    · exact ⟨_, ha1 hka, hda ▸ ha2 hka⟩
    · by_cases hkb : rc.request.key = b.request.key
      · exact ⟨_, hb1 hkb, hdb ▸ hb2 hkb⟩
      · obtain ⟨x, hx⟩ := h.exists_answers hrc hlive
        exact ⟨x, ho1 hka hkb x hx, ho2 hkb hka x hx⟩

/-! Two writes to the root of a fresh file system. -/

theorem newRootDirectoryTable_secondEmptyEntry : newRootDirectoryTable.secondEmptyEntry = some 3 := by
  refine (secondEmptyEntry_eq_some newRootDirectoryTable_emptyEntry).mpr
    ⟨by decide, newRootDirectoryTable_isEmpty.2 3 (by decide), fun k h2 h3 => ?_⟩
  rw [Fin.lt_def] at h2 h3
  change 2 < k.val at h2
  change k.val < 3 at h3
  omega

/-- The second `write` takes entry `3`. -/
theorem Machine.Fresh.canWrite_afterWrite_iff (h : m.Fresh) (ha : a.FitsRoot) (hb : b.FitsRoot)
    (hkey : b.request.key ≠ a.request.key) : CanWrite (b.start (m.afterWrite a 2).system) b.request 3 ↔
      b.request.clusterCount + (a.request.clusterCount + 1) / 2 ≤ 509 := by
  have hsecond : m.system.emptyEntryAfter a.request b.request = some 3 := by
    rw [System.emptyEntryAfter, if_pos (hb.root.trans ha.root.symm), h.parent_table hb,
      newRootDirectoryTable_secondEmptyEntry]
  have hfound : m.system.found b.request = none := (h.canWrite hb).search
  rw [h.sound.represents.canWrite_afterWrite_iff hkey (hb.root ▸ Live.root _) (h.canWrite ha), h.countAvailable]
  exact ⟨fun h => h.2.2, fun h => ⟨hfound, hsecond, h⟩⟩

/-- Two files of one byte commute. -/
theorem writes_commute_bytes :
    Commutes blankMachine (writeCall (fun _ => 97) 1 fun _ => 7) (writeCall (fun _ => 98) 1 fun _ => 8)
      ((blankMachine.afterWrite (writeCall (fun _ => 97) 1 fun _ => 7) 2).afterWrite
        (writeCall (fun _ => 98) 1 fun _ => 8) 3).system := by
  have hfresh := blankMachine_fresh
  generalize blankMachine = m at hfresh ⊢
  have hka : (writeCall (fun _ => 97) 1 fun _ => 7).request.key ≠ (writeCall (fun _ => 98) 1 fun _ => 8).request.key :=
    fun h => absurd (congrFun (congrArg (fun k : Key => k.2.1) h) 0) (by decide)
  have hfa := writeCall_fitsRoot (fun _ => 97) 1 (fun _ => 7) (by decide)
  have hfb := writeCall_fitsRoot (fun _ => 98) 1 (fun _ => 8) (by decide)
  have hwb := (hfresh.canWrite_afterWrite_iff hfa hfb hka.symm).mpr (by decide)
  refine (writes_commute_iff ⟨m, hfresh, .refl⟩ ⟨rfl, by decide⟩ ⟨rfl, by decide⟩ hka (Live.root _) (Live.root _)
    (hfresh.exec_write hfa) (Call.exec_write rfl hwb)).mpr ⟨hfresh.countAvailable ▸ by decide, fun _ => ?_⟩
  rw [hfresh.parent_table hfa]
  intro i j hi hj
  obtain rfl := Option.some.inj (newRootDirectoryTable_emptyEntry.symm.trans hi)
  obtain rfl := Option.some.inj (newRootDirectoryTable_secondEmptyEntry.symm.trans hj)
  decide

/-- A file of `508` clusters fits before one of `253` clusters, and not after it. -/
theorem large_first :
    blankMachine.Reachable ∧ ∃ s t, (writeCall (fun _ => 97) (508 * 2048) fun _ => 0).exec 512 blankMachine.system =
        .ok (0, s) ∧
      (writeCall (fun _ => 98) (253 * 2048) fun _ => 0).exec 512 s = .ok (0, t) ∧
      ¬ Commutes blankMachine (writeCall (fun _ => 97) (508 * 2048) fun _ => 0)
        (writeCall (fun _ => 98) (253 * 2048) fun _ => 0) t := by
  have hfresh := blankMachine_fresh
  generalize blankMachine = m at hfresh ⊢
  have hka : (writeCall (fun _ => 97) (508 * 2048) fun _ => 0).request.key ≠
      (writeCall (fun _ => 98) (253 * 2048) fun _ => 0).request.key :=
    fun h => absurd (congrFun (congrArg (fun k : Key => k.2.1) h) 0) (by decide)
  have hfa := writeCall_fitsRoot (fun _ => 97) (508 * 2048) (fun _ => 0) (by decide)
  have hfb := writeCall_fitsRoot (fun _ => 98) (253 * 2048) (fun _ => 0) (by decide)
  have hwb := (hfresh.canWrite_afterWrite_iff hfa hfb hka.symm).mpr (by decide)
  refine ⟨⟨m, hfresh, .refl⟩, _, _, hfresh.exec_write hfa, Call.exec_write rfl hwb, ?_⟩
  rintro ⟨s', t', hbs, hat, -⟩
  obtain ⟨-, rfl⟩ := Call.exec_unique hbs (hfresh.exec_write hfb)
  obtain ⟨k, hwk, -⟩ := Call.exec_write_eq_zero (m := m.afterWrite _ 2) rfl hat
  have hroom := ((hfresh.sound.represents.canWrite_afterWrite_iff hka (Live.root _) (hfresh.canWrite hfb)).mp hwk).2.2
  rw [hfresh.countAvailable] at hroom
  exact absurd hroom (by decide)

end Writes

end Os2024
