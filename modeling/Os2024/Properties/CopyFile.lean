import Os2024.Properties.Commute
import Os2024.Properties.ErrorCodes

/-!
# Copying

`cp` passes a buffer of one cluster to `read` and to `write`. `write` counts one cluster more than the buffer has, so
the copy gets the filesize of two clusters, and the cluster it stores for them is the one behind the buffer. `cp` prints
no message for that: `cp_copies_iff`.
-/

namespace Os2024

open LinkTable

/-! ## A file in a history -/

section Files

variable {m n : Machine} {p : UInt32 × Fin 64} {w : Call}

/-- The call has deleted what the key identifies. -/
def Event.Deletes (e : Event) (k : Key) : Prop := e.call.op = .delete ∧ e.code = 0 ∧ e.call.request.key = k

/-- An entry is left alone by a run that does not delete it. -/
theorem Machine.Reaches.sameEntry_kept {later : List Event} (hr : Reaches Allowed m n)
    (hm : Represents m.system.disk m.system.fat (catalog m.history)) (hp : Lists m.system.disk (catalog m.history) p)
    (hhist : n.history = later ++ m.history)
    (hkept : ∀ e ∈ later, ¬ e.Deletes (p.1, (entryAt m.system.disk p).name, (entryAt m.system.disk p).ext)) :
    Lists n.system.disk (catalog n.history) p ∧ SameEntry m.system.disk n.system.disk m.system.fat n.system.fat p := by
  have hrun : Represents n.system.disk n.system.fat (catalog n.history) ∧ ∃ later, n.history = later ++ m.history ∧
      ((∀ e ∈ later, ¬ e.Deletes (p.1, (entryAt m.system.disk p).name, (entryAt m.system.disk p).ext)) →
        Lists n.system.disk (catalog n.history) p ∧
          SameEntry m.system.disk n.system.disk m.system.fat n.system.fat p) := by
    refine hr.invariant (P := fun n => Represents n.system.disk n.system.fat (catalog n.history) ∧
      ∃ later, n.history = later ++ m.history ∧
        ((∀ e ∈ later, ¬ e.Deletes (p.1, (entryAt m.system.disk p).name, (entryAt m.system.disk p).ext)) →
          Lists n.system.disk (catalog n.history) p ∧
            SameEntry m.system.disk n.system.disk m.system.fat n.system.fat p))
      ⟨hm, [], rfl, fun _ => ⟨hp, .refl _ _ _⟩⟩ ?_
    rintro k call fuel code s ⟨hk, later, hlater, hsame⟩ ha hexec
    refine ⟨(hk.after (fun _ => ha.1) ha.2 hexec).1, ⟨call, code, s.memory, s.accesses⟩ :: later,
      congrArg (_ :: ·) hlater, fun hkept => ?_⟩
    obtain ⟨hpk, hsame⟩ := hsame fun e he => hkept e (List.mem_cons_of_mem _ he)
    have hcall := hkept _ List.mem_cons_self
    obtain ⟨hps, hstep⟩ := hk.sameEntry_kept hpk ha
      (fun hop hcode hkey => hcall ⟨hop, hcode, by rw [hkey, hsame.entry]⟩) hexec
    exact ⟨hps, hsame.trans hstep⟩
  obtain ⟨-, later', hhist', hsame⟩ := hrun
  obtain rfl := List.append_cancel_right (hhist.symm.trans hhist')
  exact hsame hkept

/-- The file that the `write` has made is there: it was allowed, returned `0`, and was not undone since. -/
def Machine.Holds (m : Machine) (w : Call) : Prop :=
  w.op = .write ∧ ∃ (m₁ : Machine) (fuel : Nat) (s : System) (later : List Event), m₁.Reachable ∧
    Allowed m₁.history w ∧ w.exec fuel m₁.system = .ok (0, s) ∧ Machine.Reaches Allowed (m₁.after w 0 s) m ∧
    m.history = later ++ (m₁.after w 0 s).history ∧ ∀ e ∈ later, ¬ e.Deletes w.request.key

theorem Machine.Holds.reachable (h : m.Holds w) : m.Reachable := by
  obtain ⟨-, m₁, fuel, s, later, ⟨m₀, hfresh, hreach⟩, ha, hexec, hr, -⟩ := h
  exact ⟨m₀, hfresh, (hreach.tail (.call ha hexec)).trans hr⟩

/-- The entry of such a file. -/
theorem Machine.Holds.entry (h : m.Holds w) : ∃ i, m.system.found w.request = some i ∧
    (entryAt m.system.disk (w.request.parentClusterNumber, i)).filesize =
      UInt32.ofNat (w.request.clusterCount * 2048) := by
  have hm := h.reachable.sound.represents
  obtain ⟨hop, m₁, fuel, s, later, hm₁, ha, hexec, hr, hhist, hkept⟩ := h
  obtain ⟨i, hw, rfl⟩ := Call.exec_write_ok hop hexec
  have hafter := (hm₁.sound.represents.after (fun _ => ha.1) ha.2 hexec).1
  have hentry := hw.entryAt_written
  have hlists := hw.lists_written ha.1
  rw [← Machine.catalog_after_written hop] at hlists
  have hkey : w.request.Names ((w.start m₁.system).written w.request i).disk (w.request.parentClusterNumber, i) := by
    rw [FAT32DriverRequest.Names, hentry]
    rfl
  obtain ⟨hp, hsame⟩ := hr.sameEntry_kept hafter hlists hhist (hkey ▸ hkept)
  exact ⟨i, (hm.found_of_names hp (hsame.names hkey)).2, by rw [hsame.entry]; exact congrArg _ hentry⟩

end Files

/-! ## `cp` of such a file -/

/-- `dest` is a copy of the file that `w` has made: its bytes can be read, it has the filesize of the file, and the file
reads as before. -/
structure Copied (w : Call) (dest : FAT32DriverRequest) (s s' : System) : Prop where
  bytes : ∀ rc : Call, rc.op = .read → rc.request.key = dest.key →
    (∀ j, s'.found rc.request = some j →
      ((tableAt s'.disk rc.request.parentClusterNumber).table j).filesize ≤ rc.request.bufferSize) →
    ∃ t, rc.exec 512 s' = .ok (0, t) ∧ ∀ n < w.request.bufferSize.toNat,
      t.memory (rc.request.buf + UInt32.ofNat n) = w.memory (w.request.buf + UInt32.ofNat n)
  filesize : ∀ i j, s.found w.request = some i → s'.found dest = some j →
    (entryAt s'.disk (dest.parentClusterNumber, j)).filesize =
      (entryAt s.disk (w.request.parentClusterNumber, i)).filesize
  source : ∀ rc : Call, rc.op = .read → rc.request.key = w.request.key →
    ∃ code t t', rc.exec 512 s = .ok (code, t) ∧ rc.exec 512 s' = .ok (code, t') ∧ t'.memory = t.memory

section Copies

variable {fuel : Nat} {frame : CpFrame} {args : Arguments} {shell : Shell} {k : Kernel} {src dest : Name × Ext}
  {m : Machine} {i j : Fin 64}

/-- `write` counts two clusters for a buffer of one. -/
theorem cpRequest_clusterCount : (cpRequest frame dest shell).clusterCount = 2 :=
  show (2048 : UInt32).toNat / 2048 + 1 = 2 by decide

/-- What `cp` has printed is not nothing. -/
theorem cp_ne_silent {text : String} (htext : text.toList ≠ [])
    (h : ∃ k', cp fuel frame args shell k = .ok (k', inColor red (characters text))) (k' : Kernel) :
    cp fuel frame args shell k ≠ .ok (k', []) := by
  obtain ⟨k'', hk''⟩ := h
  intro hsilent
  have hnil : inColor red (characters text) = [] := congrArg Prod.snd (Except.ok.inj (hk''.symm.trans hsilent))
  exact htext (List.map_eq_nil_iff.mp (List.map_eq_nil_iff.mp hnil))

variable (hm : m.Reachable) (hlive : Live (catalog m.history) shell.currentDirectory) (hdisk : k.disk = m.system.disk)
  (hstate : k.driverState = m.system.driverState) (hfound : m.system.found (cpRequest frame src shell) = some i)
include hm hlive hdisk hstate hfound

/-- The read of `cp` succeeds, and `cp` goes on. -/
theorem cp_reads (hfile : (entryAt m.system.disk (shell.currentDirectory, i)).isDirectory = false)
    (hsize : (entryAt m.system.disk (shell.currentDirectory, i)).filesize = 2048) (hfuel : 512 ≤ fuel)
    (hzero : k.memory.loadInt frame.errorCode = 0) : ∃ s, s.disk = m.system.disk ∧ s.fat = m.system.fat ∧
      syscalls fuel frame.interrupt 0 frame.srcRequest frame.errorCode 0 (cpPrepareRead frame src shell k) =
        .ok ((cpPrepareRead frame src shell k).answered frame.errorCode 0 s) ∧
      ((cpPrepareRead frame src shell k).answered frame.errorCode 0 s).memory.loadInt frame.errorCode = 0 ∧
      ∀ j : Fin 4, j ≠ 0 → s.memory (frame.errorCode + UInt32.ofNat j) = 0 := by
  obtain ⟨s, hs, hmem⟩ := cpRead_file hm hlive hdisk hstate hfound hfile hsize hfuel
  obtain ⟨hsdisk, hsfat, -⟩ := cpRead_cases hs
  have hfill : ∀ j : Fin 4, j ≠ 0 → s.memory (frame.errorCode + UInt32.ofNat j) = 0 := fun j _ =>
    (hmem j j.isLt).trans (Memory.apply_of_loadInt hzero j)
  have hfat : k.system.fat = m.system.fat := congrArg (fun d : FAT32DriverState => d.fatTable.clusterMap) hstate
  exact ⟨s, hsdisk.trans hdisk, hsfat.trans hfat, syscalls_read hs,
    (Memory.loadInt_update_zero_iff hfill).mpr (by decide), hfill⟩

variable (hcount : args.count = 3) (hsrc : splitToken k.memory (args.address 1) (args.info 1).2 = some src)
  (hdest : splitToken k.memory (args.address 2) (args.info 2).2 = some dest)
include hcount hsrc hdest

/-- `cp` of a folder fails. -/
theorem cp_folder (hdir : (entryAt m.system.disk (shell.currentDirectory, i)).isDirectory = true) :
    ∃ k', cp fuel frame args shell k = .ok (k', inColor red (characters "cp: cannot read from source file\n")) := by
  have hread : (cpPrepareRead frame src shell k).perform fuel .read frame.srcRequest = .ok (1, _) :=
    (cpRead_eq_exec hdisk hstate).trans
      (Call.exec_read_folder rfl (hm.sound.represents.parentValid rfl rfl hlive) hfound hdir)
  exact ⟨_, cp_of_read_ne hcount hsrc hdest (syscalls_read hread) (Memory.loadInt_update_ne_zero (by decide))⟩

variable (hfile : (entryAt m.system.disk (shell.currentDirectory, i)).isDirectory = false)
  (hsize : (entryAt m.system.disk (shell.currentDirectory, i)).filesize = 2048) (hfuel : 512 ≤ fuel)
  (hzero : k.memory.loadInt frame.errorCode = 0)
include hfile hsize hfuel hzero

/-- `cp` fails if there is no room for a file of two clusters. -/
theorem cp_noRoom (hroom : NoRoom m.system (cpRequest frame dest shell)) :
    ∃ k', cp fuel frame args shell k = .ok (k', inColor red (characters "cp: cannot copy to destination file\n")) := by
  obtain ⟨s, hsdisk, hsfat, hread, hcode, -⟩ := cp_reads hm hlive hdisk hstate hfound hfile hsize hfuel hzero
  have hrequest : loadRequest (cpSecond frame src dest shell k 0 s).memory frame.destRequest =
      cpRequest frame dest shell := loadRequest_store _
  have hroom' : NoRoom (cpSecond frame src dest shell k 0 s).system (cpRequest frame dest shell) :=
    hroom.of_same hsdisk hsfat
  have hwrite : write fuel (cpRequest frame dest shell) _ = .ok (-1, _) :=
    write_of_noRoom hroom'.valid hroom'.search hroom'.full
  rw [← hrequest, ← Kernel.perform_write] at hwrite
  exact ⟨_, cp_of_write_ne hcount hsrc hdest hread hcode hwrite (Memory.loadInt_update_ne_zero (by decide))⟩

/-- `cp` prints nothing if there is, and the copy has the filesize of two clusters. -/
theorem cp_copied (hw : CanWrite m.system (cpRequest frame dest shell) j) :
    ∃ k', cp fuel frame args shell k = .ok (k', []) ∧ k'.system.found (cpRequest frame dest shell) = some j ∧
      (entryAt k'.system.disk (shell.currentDirectory, j)).filesize = 4096 := by
  obtain ⟨s, hsdisk, hsfat, hread, hcode, hfill⟩ := cp_reads hm hlive hdisk hstate hfound hfile hsize hfuel hzero
  have hrequest : loadRequest (cpSecond frame src dest shell k 0 s).memory frame.destRequest =
      cpRequest frame dest shell := loadRequest_store _
  have hw' : CanWrite (cpSecond frame src dest shell k 0 s).system (cpRequest frame dest shell) j :=
    CanWrite.of_same (t := (cpSecond frame src dest shell k 0 s).system) hsdisk hsfat hw
  have hwrite := write_of_canWrite hw' ((clusterCount_le hw').trans hfuel)
  have hwrite' : write fuel (loadRequest (cpSecond frame src dest shell k 0 s).memory frame.destRequest)
      (cpSecond frame src dest shell k 0 s).system = .ok (0, (cpSecond frame src dest shell k 0 s).system.written
        (cpRequest frame dest shell) j) := by
    rw [hrequest]
    exact hwrite
  have hsilent := (cpSecond_loadInt_iff hfill hwrite').mpr fun hroom => (hrequest ▸ hroom).not_canWrite hw'
  rw [← Kernel.perform_write] at hwrite'
  refine ⟨_, cp_of_write_eq hcount hsrc hdest hread hcode hwrite' hsilent, ?_, ?_⟩
  · exact hw'.found_written
  · have hentry := congrArg FAT32DirectoryEntry.filesize hw'.entryAt_written
    rw [System.writtenEntry_filesize, cpRequest_clusterCount] at hentry
    exact hentry

end Copies

/-- **`cp` copies** a file of less than a cluster exactly when it says that it does not: the entry of the file is marked
as a folder, or there is no entry or not two clusters for the copy. -/
theorem cp_copies_iff (fuel : Nat) (m : Machine) (w : Call) (frame : CpFrame) (args : Arguments) (shell : Shell)
    (k : Kernel) (dest : Name × Ext) (hfuel : 512 ≤ fuel) (hfile : m.Holds w) (hpos : 0 < w.request.bufferSize.toNat)
    (hlt : w.request.bufferSize.toNat < 2048) (hlive : Live (catalog m.history) shell.currentDirectory)
    (hparent : shell.currentDirectory = w.request.parentClusterNumber) (hdisk : k.disk = m.system.disk)
    (hstate : k.driverState = m.system.driverState) (hzero : k.memory.loadInt frame.errorCode = 0)
    (hcount : args.count = 3)
    (hsrc : splitToken k.memory (args.address 1) (args.info 1).2 = some (w.request.name, w.request.ext))
    (hdest : splitToken k.memory (args.address 2) (args.info 2).2 = some dest)
    (hnew : m.system.found (cpRequest frame dest shell) = none) :
    (∀ k', cp fuel frame args shell k = .ok (k', []) → Copied w (cpRequest frame dest shell) m.system k'.system) ↔
      (∃ i, m.system.found w.request = some i ∧
        (entryAt m.system.disk (shell.currentDirectory, i)).isDirectory = true) ∨
      (tableAt m.system.disk shell.currentDirectory).emptyEntry = none ∨ m.system.countAvailable < 2 := by
  obtain ⟨i, hi, hsize⟩ := hfile.entry
  have hm := hfile.reachable
  have hcopies : w.request.clusterCount = 1 := by
    rw [FAT32DriverRequest.clusterCount]
    omega
  rw [hcopies, ← hparent] at hsize
  have hfound : m.system.found (cpRequest frame (w.request.name, w.request.ext) shell) = some i := by
    rw [System.found] at hi ⊢
    rw [← hparent] at hi
    exact hi
  constructor
  · intro hcopied
    by_contra hcond
    obtain ⟨hfolder, hroom⟩ := not_or.mp hcond
    obtain ⟨hentry, hfree⟩ := not_or.mp hroom
    obtain ⟨j, hj⟩ := Option.ne_none_iff_exists'.mp hentry
    have hdir : (entryAt m.system.disk (shell.currentDirectory, i)).isDirectory = false :=
      Bool.eq_false_iff.mpr fun hdir => hfolder ⟨i, hi, hdir⟩
    have hw : CanWrite m.system (cpRequest frame dest shell) j :=
      ⟨hm.sound.represents.parentValid rfl rfl hlive, hnew, hj, by
        rw [cpRequest_clusterCount]
        exact Nat.not_lt.mp hfree⟩
    obtain ⟨k', hk', hcopy, hcopysize⟩ :=
      cp_copied hm hlive hdisk hstate hfound hcount hsrc hdest hdir hsize hfuel hzero hw
    have hsame := (hcopied k' hk').filesize i j hi hcopy
    rw [← hparent, hsize] at hsame
    exact absurd (hcopysize.symm.trans hsame) (by decide)
  · intro hcond k' hk'
    refine absurd hk' ?_
    by_cases hdir : (entryAt m.system.disk (shell.currentDirectory, i)).isDirectory = true
    · exact cp_ne_silent (by decide) (cp_folder hm hlive hdisk hstate hfound hcount hsrc hdest hdir) k'
    · have hroom : NoRoom m.system (cpRequest frame dest shell) := by
        refine ⟨hm.sound.represents.parentValid rfl rfl hlive, hnew, fun j hj => ?_⟩
        rw [cpRequest_clusterCount]
        rcases hcond with ⟨i', hi', hdir'⟩ | hnone | hfew
        · obtain rfl := Option.some.inj (hi.symm.trans hi')
          exact absurd hdir' hdir
        · cases hnone.symm.trans hj
        · exact hfew
      exact cp_ne_silent (by decide) (cp_noRoom hm hlive hdisk hstate hfound hcount hsrc hdest
        (Bool.eq_false_iff.mpr hdir) hsize hfuel hzero hroom) k'

/-! `cp aaaaaaaa. bbbbbbbb.` -/

theorem oneFile_holds : oneFile.Holds (writeCall (fun _ => 97) 1 fun _ => 7) :=
  ⟨rfl, blankMachine, 512, _, [], ⟨blankMachine, blankMachine_fresh, .refl⟩,
    ⟨Live.root _, writeCall_folderOk (by decide)⟩,
    blankMachine_fresh.exec_write (writeCall_fitsRoot _ _ _ (by decide)), .refl, rfl, fun _ he => nomatch he⟩

theorem oneFile_canWrite : CanWrite oneFile.system (cpRequest cpStack (fun _ => 98, fun _ => 0) rootShell) 3 := by
  have hkey : (cpRequest cpStack (fun _ => 98, fun _ => 0) rootShell).key ≠
      (writeCall (fun _ => 97) 1 fun _ => 7).request.key :=
    fun h => absurd (congrFun (congrArg (fun k : Key => k.2.1) h) 0) (by decide)
  have hfits : Call.FitsRoot ⟨.write, cpRequest cpStack (fun _ => 98, fun _ => 0) rootShell, fun _ => 0⟩ :=
    ⟨rfl, rfl, by decide⟩
  have hw := (blankMachine_fresh.canWrite_afterWrite_iff (writeCall_fitsRoot (fun _ => 97) 1 (fun _ => 7) (by decide))
    hfits hkey).mpr (by decide)
  refine CanWrite.of_same (t := oneFile.system) ?_ ?_ hw <;> rfl

/-- `cp` does not copy a file of one byte. -/
theorem cp_copies_not_byte :
    ¬ ∀ k', cp 512 cpStack cpExample rootShell (oneFile.kernel (textMemory twoTokens 0)) = .ok (k', []) →
      Copied (writeCall (fun _ => 97) 1 fun _ => 7) (cpRequest cpStack (fun _ => 98, fun _ => 0) rootShell)
        oneFile.system k'.system := by
  have hw := oneFile_canWrite
  refine (cp_copies_iff 512 oneFile (writeCall (fun _ => 97) 1 fun _ => 7) cpStack cpExample rootShell
    (oneFile.kernel (textMemory twoTokens 0)) (fun _ => 98, fun _ => 0) le_rfl oneFile_holds (by decide) (by decide)
    (Live.root _) rfl rfl rfl (by decide) rfl (splitToken_src 0) (splitToken_dest 0) hw.search).not.mpr ?_
  rintro (⟨i, hi, hdir⟩ | hnone | hfew)
  · obtain rfl := Option.some.inj (oneFile_found.symm.trans hi)
    exact Bool.false_ne_true (oneFile_isDirectory.symm.trans hdir)
  · cases hnone.symm.trans hw.emptyEntry
  · exact absurd hw.room (Nat.not_le.mpr (by rwa [cpRequest_clusterCount]))

/-- It prints nothing, and the filesizes differ. -/
theorem cp_silent_differs :
    oneFile.Holds (writeCall (fun _ => 97) 1 fun _ => 7) ∧
      ∃ k', cp 512 cpStack cpExample rootShell (oneFile.kernel (textMemory twoTokens 0)) = .ok (k', []) ∧
        (entryAt oneFile.system.disk (rootClusterNumber, 2)).filesize = 2048 ∧
        (entryAt k'.system.disk (rootClusterNumber, 3)).filesize = 4096 ∧
        ¬ Copied (writeCall (fun _ => 97) 1 fun _ => 7) (cpRequest cpStack (fun _ => 98, fun _ => 0) rootShell)
          oneFile.system k'.system := by
  obtain ⟨k', hk', hcopy, hsize⟩ : ∃ k', cp 512 cpStack cpExample rootShell (oneFile.kernel (textMemory twoTokens 0)) =
      .ok (k', []) ∧ k'.system.found (cpRequest cpStack (fun _ => 98, fun _ => 0) rootShell) = some 3 ∧
        (entryAt k'.system.disk (rootClusterNumber, 3)).filesize = 4096 :=
    cp_copied oneFile_reachable (Live.root _) rfl rfl oneFile_found rfl (splitToken_src 0) (splitToken_dest 0)
      oneFile_isDirectory oneFile_filesize le_rfl (by decide) oneFile_canWrite
  refine ⟨oneFile_holds, k', hk', oneFile_filesize, hsize, fun hcopied => ?_⟩
  have hsame := hcopied.filesize 2 3 oneFile_found hcopy
  exact absurd (hsize.symm.trans (hsame.trans oneFile_filesize)) (by decide)

end Os2024
