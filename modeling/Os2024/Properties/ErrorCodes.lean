import Os2024.Fat32.Outcome
import Os2024.Properties.Overrun
import Os2024.Shell.Cp
import Os2024.Shell.Mkdir

/-!
# Error codes on their way to the shell

The kernel stores an error code as one byte, and the commands read an `int`. `mkdir` has cleared it, so the code of a
folder without room, `-1`, becomes `255`; `cp` has not, so the other three bytes are whatever was on the stack. When
the codes arrive is `error_codes_arrive_iff`.
-/

namespace Os2024

/-- `mkdir` tests the code the kernel has returned, and prints the message for it. -/
def MkdirReports (fuel : Nat) (frame : MkdirFrame) (args : Arguments) (shell : Shell) (k : Kernel) : Prop :=
  ∀ code s, (mkdirPrepare frame args shell k).perform fuel .write frame.request = .ok (code, s) →
    ∃ k', mkdir fuel frame args shell k = .ok (k',
        mkdirReport (k'.memory.putsText (args.address 1) (UInt32.ofNat (args.info 1).2)) code.toInt32) ∧
      k'.memory.loadInt frame.errorCode = code.toInt32

/-- `cp` before its write, when the kernel has answered its read. -/
def cpSecond (frame : CpFrame) (src dest : Name × Ext) (shell : Shell) (k : Kernel) (code : Int8) (s : System) :
    Kernel :=
  cpPrepareWrite frame dest shell ((cpPrepareRead frame src shell k).answered frame.errorCode code s)

/-- `cp` tests the codes the kernel has returned, goes on to the write if the first is `0`, and prints nothing if both
are. -/
def CpReports (fuel : Nat) (frame : CpFrame) (args : Arguments) (src dest : Name × Ext) (shell : Shell) (k : Kernel) :
    Prop :=
  ∀ code s, (cpPrepareRead frame src shell k).perform fuel .read frame.srcRequest = .ok (code, s) →
    ((cpPrepareRead frame src shell k).answered frame.errorCode code s).memory.loadInt frame.errorCode =
        code.toInt32 ∧
      (code ≠ 0 → cp fuel frame args shell k = .ok ((cpPrepareRead frame src shell k).answered frame.errorCode code s,
        inColor red (characters "cp: cannot read from source file\n"))) ∧
      (code = 0 → ∀ code' s',
        (cpSecond frame src dest shell k code s).perform fuel .write frame.destRequest = .ok (code', s') →
          ((cpSecond frame src dest shell k code s).answered frame.errorCode code' s').memory.loadInt frame.errorCode =
              code'.toInt32 ∧
            cp fuel frame args shell k = .ok (
              (cpSecond frame src dest shell k code s).answered frame.errorCode code' s',
              if code' = 0 then [] else inColor red (characters "cp: cannot copy to destination file\n")))

/-- What has to be above `error_code` before `cp` for its codes to arrive: `0xFF` if the folder is refused, zeros if
there is no file to read, and what becomes zeros as the file is read; and its copy has room. -/
structure CpArrives (frame : CpFrame) (src dest : Name × Ext) (shell : Shell) (k : Kernel) : Prop where
  refused : ¬ ParentValid k.system shell.currentDirectory →
    ∀ j : Fin 4, j ≠ 0 → k.memory (frame.errorCode + UInt32.ofNat j) = 0xFF
  unread : ParentValid k.system shell.currentDirectory →
    (∀ v, ¬ Op.read.WalksFrom k.system (cpRequest frame src shell) v) →
      ∀ j : Fin 4, j ≠ 0 → k.memory (frame.errorCode + UInt32.ofNat j) = 0
  copied : ∀ v l, Op.read.WalksFrom k.system (cpRequest frame src shell) v → l ≠ [] → FatChain k.system.fat v l →
    ∀ j : Fin 4, j ≠ 0 → k.memory.storeClusters frame.clusterBuffer (l.map fun c => readCluster k.disk (clusterNum c))
      (frame.errorCode + UInt32.ofNat j) = 0
  room : ∀ v l, Op.read.WalksFrom k.system (cpRequest frame src shell) v → l ≠ [] → FatChain k.system.fat v l →
    ¬ NoRoom k.system (cpRequest frame dest shell)

section Reports

variable {fuel : Nat} {args : Arguments} {shell : Shell} {k : Kernel}

/-- `mkdir` changes only its own variables before its system call. -/
theorem mkdirPrepare_noRoom_iff {frame : MkdirFrame} {request : FAT32DriverRequest} :
    NoRoom (mkdirPrepare frame args shell k).system request ↔ NoRoom k.system request :=
  ⟨fun h => h.of_same rfl rfl, fun h => h.of_same rfl rfl⟩

/-- `mkdir` reports every code but that of a folder without room. -/
theorem mkdirReports_iff {frame : MkdirFrame} (hcount : args.count = 2) (hlen : (args.info 1).2 ≤ 8) :
    MkdirReports fuel frame args shell k ↔
      ¬ NoRoom k.system (loadRequest (mkdirPrepare frame args shell k).memory frame.request) := by
  constructor
  · intro hall hroom
    obtain ⟨s, h⟩ : ∃ s, (mkdirPrepare frame args shell k).perform fuel .write frame.request = .ok (-1, s) := by
      have hroom' : NoRoom (mkdirPrepare frame args shell k).system
          (loadRequest (mkdirPrepare frame args shell k).memory frame.request) := mkdirPrepare_noRoom_iff.mpr hroom
      exact ⟨_, (Kernel.perform_write _ _ _).trans (write_of_noRoom hroom'.valid hroom'.search hroom'.full)⟩
    obtain ⟨k', hk', hcode⟩ := hall _ _ h
    have hsame : (mkdirPrepare frame args shell k).answered frame.errorCode (-1) s = k' :=
      congrArg Prod.fst (Except.ok.inj ((mkdir_eq hcount hlen h).symm.trans hk'))
    have hiff := mkdir_loadInt_iff h
    rw [hsame] at hiff
    exact absurd (hiff.mp hcode) (by decide)
  · intro hroom code s h
    have hcode : Memory.loadInt ((mkdirPrepare frame args shell k).answered frame.errorCode code s).memory
        frame.errorCode = code.toInt32 := by
      refine (mkdir_loadInt_iff h).mpr (Int8.not_lt.mp fun hneg => hroom ?_)
      rw [Kernel.perform_write] at h
      exact mkdirPrepare_noRoom_iff.mp ((write_neg_iff h).mp hneg)
    refine ⟨_, (mkdir_eq hcount hlen h).trans ?_, hcode⟩
    dsimp only
    rw [hcode]

section Cp

variable {frame : CpFrame} {src dest : Name × Ext} {s s' : System} {code code' : Int8}

/-- The bytes above a place where a code is stored. -/
theorem answered_memory {errorCode : UInt32} {j : Fin 4} (hj : j ≠ 0) :
    (k.answered errorCode code s).memory (errorCode + UInt32.ofNat j) = s.memory (errorCode + UInt32.ofNat j) := by
  refine Function.update_of_ne (fun heq => hj (Fin.ext ?_)) _ _
  exact (Memory.add_ofNat_inj (by omega) (by decide)).mp (heq.trans (UInt32.add_zero errorCode).symm)

/-- After a read that was reported to succeed, the write is reported if it does not fail for want of room. -/
theorem cpSecond_loadInt_iff (hfill : ∀ j : Fin 4, j ≠ 0 → s.memory (frame.errorCode + UInt32.ofNat j) = 0)
    (h : write fuel (loadRequest (cpSecond frame src dest shell k 0 s).memory frame.destRequest)
      (cpSecond frame src dest shell k 0 s).system = .ok (code', s')) :
    ((cpSecond frame src dest shell k 0 s).answered frame.errorCode code' s').memory.loadInt frame.errorCode =
        code'.toInt32 ↔
      ¬ NoRoom (cpSecond frame src dest shell k 0 s).system
        (loadRequest (cpSecond frame src dest shell k 0 s).memory frame.destRequest) := by
  have hzero : ∀ j : Fin 4, j ≠ 0 → s'.memory (frame.errorCode + UInt32.ofNat j) = 0 := by
    intro j hj
    have hkept : (cpSecond frame src dest shell k 0 s).memory (frame.errorCode + UInt32.ofNat j) =
        ((cpPrepareRead frame src shell k).answered frame.errorCode 0 s).memory (frame.errorCode + UInt32.ofNat j) :=
      Memory.store_of_apart frame.apart_dest j.isLt
    have hcode : ((cpPrepareRead frame src shell k).answered frame.errorCode 0 s).memory
        (frame.errorCode + UInt32.ofNat j) = 0 := (answered_memory hj).trans (hfill j hj)
    have hsame : s'.memory = (cpSecond frame src dest shell k 0 s).memory := write_memory h
    exact (congrFun hsame _).trans (hkept.trans hcode)
  have hsign : 0 ≤ code' ↔ ¬ NoRoom (cpSecond frame src dest shell k 0 s).system
      (loadRequest (cpSecond frame src dest shell k 0 s).memory frame.destRequest) := by
    rw [← write_neg_iff h, Int8.not_lt]
  exact (Memory.loadInt_update_zero_iff hzero).trans hsign

/-- `cp` reports a code if the bytes above it continue its sign, and after a file was read, every code of the write but
that of a file without room. -/
theorem cpReports_iff_signFill (hcount : args.count = 3)
    (hsrc : splitToken k.memory (args.address 1) (args.info 1).2 = some src)
    (hdest : splitToken k.memory (args.address 2) (args.info 2).2 = some dest) :
    CpReports fuel frame args src dest shell k ↔
      ∀ code s, (cpPrepareRead frame src shell k).perform fuel .read frame.srcRequest = .ok (code, s) →
        (∀ j : Fin 4, j ≠ 0 → s.memory (frame.errorCode + UInt32.ofNat j) = signFill code) ∧
        (code = 0 → ∀ code' s',
          (cpSecond frame src dest shell k code s).perform fuel .write frame.destRequest = .ok (code', s') →
            ¬ NoRoom (cpSecond frame src dest shell k code s).system
              (loadRequest (cpSecond frame src dest shell k code s).memory frame.destRequest)) := by
  refine forall_congr' fun code => forall_congr' fun s => forall_congr' fun h => ?_
  have hread : syscalls fuel frame.interrupt 0 frame.srcRequest frame.errorCode 0 (cpPrepareRead frame src shell k) =
      .ok ((cpPrepareRead frame src shell k).answered frame.errorCode code s) := syscalls_read h
  have hload : ((cpPrepareRead frame src shell k).answered frame.errorCode code s).memory.loadInt frame.errorCode =
      code.toInt32 ↔ ∀ j : Fin 4, j ≠ 0 → s.memory (frame.errorCode + UInt32.ofNat j) = signFill code :=
    Memory.loadInt_update_iff
  rw [← hload]
  refine and_congr_right fun hcode => ?_
  have hfill := hload.mp hcode
  constructor
  · rintro ⟨-, hwrite⟩ h0 code' s' h'
    obtain rfl := h0
    have hcode' := (hwrite rfl code' s' h').1
    rw [Kernel.perform_write] at h'
    exact (cpSecond_loadInt_iff hfill h').mp hcode'
  · intro hroom
    refine ⟨fun hne => ?_, fun h0 code' s' h' => ?_⟩
    · refine cp_of_read_ne hcount hsrc hdest hread fun hzero => hne ?_
      exact toInt32_eq_zero_iff.mp (hcode.symm.trans hzero)
    · obtain rfl := h0
      have hnone := hroom rfl code' s' h'
      have hcode' : ((cpSecond frame src dest shell k 0 s).answered frame.errorCode code' s').memory.loadInt
          frame.errorCode = code'.toInt32 := by
        rw [Kernel.perform_write] at h'
        exact (cpSecond_loadInt_iff hfill h').mpr hnone
      refine ⟨hcode', ?_⟩
      by_cases h0 : code' = 0
      · rw [if_pos h0]
        exact cp_of_write_eq hcount hsrc hdest hread hcode h' (hcode'.trans (toInt32_eq_zero_iff.mpr h0))
      · rw [if_neg h0]
        refine cp_of_write_ne hcount hsrc hdest hread hcode h' fun hzero => h0 ?_
        exact toInt32_eq_zero_iff.mp (hcode'.symm.trans hzero)

/-- `cp` changes nothing above `error_code` before its read. -/
theorem cpPrepareRead_memory {j : Nat} (hj : j < 4) :
    (cpPrepareRead frame src shell k).memory (frame.errorCode + UInt32.ofNat j) =
      k.memory (frame.errorCode + UInt32.ofNat j) :=
  (Memory.store_of_apart frame.apart_src hj).trans (Memory.store_of_apart frame.apart_buffer hj)

/-- The three ways the read of `cp` can go. -/
theorem cpRead_cases (h : (cpPrepareRead frame src shell k).perform fuel .read frame.srcRequest = .ok (code, s)) :
    s.disk = k.disk ∧ s.fat = k.system.fat ∧
      ((¬ ParentValid k.system shell.currentDirectory ∧ code = -1 ∧
          s.memory = (cpPrepareRead frame src shell k).memory) ∨
        (ParentValid k.system shell.currentDirectory ∧
          (∀ v, ¬ Op.read.WalksFrom k.system (cpRequest frame src shell) v) ∧ 0 < code ∧
          s.memory = (cpPrepareRead frame src shell k).memory) ∨
        ∃ v l, Op.read.WalksFrom k.system (cpRequest frame src shell) v ∧ l ≠ [] ∧ FatChain k.system.fat v l ∧
          code = 0 ∧ s.memory = (cpPrepareRead frame src shell k).memory.storeClusters frame.clusterBuffer
            (l.map fun c => readCluster k.disk (clusterNum c))) := by
  have hrequest : loadRequest (cpPrepareRead frame src shell k).memory frame.srcRequest = cpRequest frame src shell :=
    loadRequest_store _
  rw [Kernel.perform_read, hrequest] at h
  rcases read_cases h with ⟨hv, hcode, ho⟩ | ⟨hv, hnone, hcode, ho⟩ | ⟨v, l, hw, hl, hchain, hcode, rfl⟩
  · rcases ho with rfl | rfl <;> exact ⟨rfl, rfl, .inl ⟨hv, hcode, rfl⟩⟩
  · rcases ho with rfl | rfl <;> exact ⟨rfl, rfl, .inr (.inl ⟨hv, hnone, hcode, rfl⟩)⟩
  · exact ⟨rfl, rfl, .inr (.inr ⟨v, l, hw, hl, hchain, hcode, rfl⟩)⟩

/-- `cp` reads a file of one cluster into its buffer, and changes nothing above `error_code`. -/
theorem cpRead_file {m : Machine} {i : Fin 64} (hm : m.Reachable)
    (hlive : Live (catalog m.history) shell.currentDirectory) (hdisk : k.disk = m.system.disk)
    (hstate : k.driverState = m.system.driverState) (hfound : m.system.found (cpRequest frame src shell) = some i)
    (hfile : (entryAt m.system.disk (shell.currentDirectory, i)).isDirectory = false)
    (hsize : (entryAt m.system.disk (shell.currentDirectory, i)).filesize = 2048) (hfuel : 512 ≤ fuel) :
    ∃ s, (cpPrepareRead frame src shell k).perform fuel .read frame.srcRequest = .ok (0, s) ∧
      ∀ j < 4, s.memory (frame.errorCode + UInt32.ofNat j) = k.memory (frame.errorCode + UInt32.ofNat j) := by
  have h := hm.sound.represents
  have hp : Lists m.system.disk (catalog m.history) (shell.currentDirectory, i) := ⟨hlive, (search_eq_some hfound).1⟩
  obtain ⟨l, hl, hne, -⟩ := h.entry_chain hp
  have hlen := hm.fitsSize hp hfile l hl
  rw [hsize] at hlen
  refine ⟨_, (cpRead_eq_exec hdisk hstate).trans (Call.exec_read_file rfl (h.parentValid rfl rfl hlive) hfound hfile
    ?_ hl hne (hl.length_le.trans hfuel)), fun j hj => ?_⟩
  · intro hsmall
    have hlt : 2048 < (entryAt m.system.disk (shell.currentDirectory, i)).filesize := hsmall
    rw [hsize] at hlt
    exact absurd hlt (by decide)
  · have hkept : (cpPrepareRead frame src shell k).memory (frame.errorCode + UInt32.ofNat j) =
        k.memory (frame.errorCode + UInt32.ofNat j) := cpPrepareRead_memory hj
    refine Eq.trans ?_ hkept
    refine Memory.storeClusters_of_le ?_ (by decide) (frame.apart_buffer.le_sub hj)
    rw [List.length_map]
    exact hlen

/-- Whether the copy has room does not change as the file is read. -/
theorem cpSecond_noRoom_iff (hdisk : s.disk = k.disk) (hfat : s.fat = k.system.fat) :
    NoRoom (cpSecond frame src dest shell k code s).system
        (loadRequest (cpSecond frame src dest shell k code s).memory frame.destRequest) ↔
      NoRoom k.system (cpRequest frame dest shell) := by
  have hrequest : loadRequest (cpSecond frame src dest shell k code s).memory frame.destRequest =
      cpRequest frame dest shell := loadRequest_store _
  rw [hrequest]
  exact ⟨fun h => h.of_same hdisk.symm hfat.symm, fun h => h.of_same hdisk hfat⟩

/-- What has to be above `error_code` before `cp` is what has to be there when the code of the read is stored. -/
theorem cpArrives_iff (h : (cpPrepareRead frame src shell k).perform fuel .read frame.srcRequest = .ok (code, s)) :
    CpArrives frame src dest shell k ↔
      (∀ j : Fin 4, j ≠ 0 → s.memory (frame.errorCode + UInt32.ofNat j) = signFill code) ∧
        (code = 0 → ¬ NoRoom k.system (cpRequest frame dest shell)) := by
  obtain ⟨-, -, hcases⟩ := cpRead_cases h
  have hsame : s.memory = (cpPrepareRead frame src shell k).memory → ∀ j : Fin 4,
      s.memory (frame.errorCode + UInt32.ofNat j) = k.memory (frame.errorCode + UInt32.ofNat j) :=
    fun hmem j => (congrFun hmem _).trans (cpPrepareRead_memory j.isLt)
  rcases hcases with ⟨hv, rfl, hmem⟩ | ⟨hv, hnone, hcode, hmem⟩ | ⟨v, l, hw, hl, hchain, rfl, hmem⟩
  · have hbyte := hsame hmem
    constructor
    · intro harrives
      exact ⟨fun j hj => (hbyte j).trans (harrives.refused hv j hj), fun h0 => absurd h0 (by decide)⟩
    · rintro ⟨hfill, -⟩
      exact ⟨fun _ j hj => (hbyte j).symm.trans (hfill j hj), fun hv' => absurd hv' hv, fun v l hw => absurd hw.1 hv,
        fun v l hw => absurd hw.1 hv⟩
  · have hbyte := hsame hmem
    have hzero : signFill code = 0 := signFill_eq_zero_iff.mpr (Int8.le_of_lt hcode)
    rw [hzero]
    constructor
    · intro harrives
      refine ⟨fun j hj => (hbyte j).trans (harrives.unread hv hnone j hj), ?_⟩
      rintro rfl
      exact absurd hcode (by decide)
    · rintro ⟨hfill, -⟩
      exact ⟨fun hv' => absurd hv hv', fun _ _ j hj => (hbyte j).symm.trans (hfill j hj),
        fun v l hw => absurd hw (hnone v), fun v l hw => absurd hw (hnone v)⟩
  · have hbyte : ∀ j : Fin 4, s.memory (frame.errorCode + UInt32.ofNat j) = k.memory.storeClusters frame.clusterBuffer
        (l.map fun c => readCluster k.disk (clusterNum c)) (frame.errorCode + UInt32.ofNat j) :=
      fun j => (congrFun hmem _).trans (Memory.storeClusters_congr (cpPrepareRead_memory j.isLt) _)
    have hzero : signFill 0 = 0 := rfl
    rw [hzero]
    constructor
    · intro harrives
      exact ⟨fun j hj => (hbyte j).trans (harrives.copied v l hw hl hchain j hj),
        fun _ => harrives.room v l hw hl hchain⟩
    · rintro ⟨hfill, hroom⟩
      refine ⟨fun hv => absurd hw.1 hv, fun _ hnone => absurd hw (hnone v), ?_, fun _ _ _ _ _ => hroom rfl⟩
      intro v' l' hw' _ hchain' j hj
      obtain rfl := hw'.unique hw
      obtain rfl := hchain'.unique hchain
      exact (hbyte j).symm.trans (hfill j hj)

/-- `cp` reports the codes of the kernel exactly if they arrive. -/
theorem cpReports_iff (hcount : args.count = 3)
    (hsrc : splitToken k.memory (args.address 1) (args.info 1).2 = some src)
    (hdest : splitToken k.memory (args.address 2) (args.info 2).2 = some dest) :
    CpReports fuel frame args src dest shell k ↔
      ((∃ r, (cpPrepareRead frame src shell k).perform fuel .read frame.srcRequest = .ok r) →
        CpArrives frame src dest shell k) := by
  rw [cpReports_iff_signFill hcount hsrc hdest]
  constructor
  · rintro hall ⟨⟨code, s⟩, h⟩
    obtain ⟨hfill, hwrite⟩ := hall code s h
    obtain ⟨hdisk, hfat, -⟩ := cpRead_cases h
    refine (cpArrives_iff h).mpr ⟨hfill, fun h0 hroom => ?_⟩
    have hsecond : NoRoom (cpSecond frame src dest shell k code s).system
        (loadRequest (cpSecond frame src dest shell k code s).memory frame.destRequest) :=
      (cpSecond_noRoom_iff hdisk hfat).mpr hroom
    have hcall : write fuel _ _ = .ok (-1, _) := write_of_noRoom hsecond.valid hsecond.search hsecond.full
    rw [← Kernel.perform_write] at hcall
    exact hwrite h0 _ _ hcall hsecond
  · intro hall code s h
    obtain ⟨hdisk, hfat, -⟩ := cpRead_cases h
    obtain ⟨hfill, hroom⟩ := (cpArrives_iff h).mp (hall ⟨_, h⟩)
    exact ⟨hfill, fun h0 _ _ _ hsecond => hroom h0 ((cpSecond_noRoom_iff hdisk hfat).mp hsecond)⟩

end Cp

end Reports

/-- **The codes of the kernel arrive** exactly in these cases: for `mkdir`, if the folder does not lack room; for `cp`,
if the three bytes above `error_code` happen to continue the sign of what its read answers, and its copy has room. -/
theorem error_codes_arrive_iff (fuel : Nat) (shell : Shell) (k : Kernel) (mkdirFrame : MkdirFrame)
    (mkdirArgs : Arguments) (hcount : mkdirArgs.count = 2) (hlen : (mkdirArgs.info 1).2 ≤ 8) (frame : CpFrame) (args : Arguments)
    (src dest : Name × Ext) (hcount' : args.count = 3)
    (hsrc : splitToken k.memory (args.address 1) (args.info 1).2 = some src)
    (hdest : splitToken k.memory (args.address 2) (args.info 2).2 = some dest) :
    (MkdirReports fuel mkdirFrame mkdirArgs shell k ↔
      ¬ NoRoom k.system (loadRequest (mkdirPrepare mkdirFrame mkdirArgs shell k).memory mkdirFrame.request)) ∧
    (CpReports fuel frame args src dest shell k ↔
      ((∃ r, (cpPrepareRead frame src shell k).perform fuel .read frame.srcRequest = .ok r) →
        CpArrives frame src dest shell k)) :=
  ⟨mkdirReports_iff hcount hlen, cpReports_iff hcount' hsrc hdest⟩

/-! On a fresh file system there is room, and nothing to read. -/

section Fresh

variable {m : Machine} {request : FAT32DriverRequest} {mem : Memory} (h : m.Fresh)
  (hroot : request.parentClusterNumber = rootClusterNumber) (hcount : request.clusterCount ≤ 509)
include h hroot hcount

theorem Machine.Fresh.canWrite_kernel : CanWrite (m.kernel mem).system request 2 :=
  have hfits : Call.FitsRoot ⟨.write, request, mem⟩ := ⟨rfl, hroot, hcount⟩
  h.canWrite hfits

theorem Machine.Fresh.not_noRoom : ¬ NoRoom (m.kernel mem).system request := fun hroom =>
  hroom.not_canWrite (h.canWrite_kernel hroot hcount)

theorem Machine.Fresh.not_walksFrom (v : UInt32) : ¬ Op.read.WalksFrom (m.kernel mem).system request v := by
  rintro ⟨-, i, hi, -⟩
  cases hi.symm.trans (h.canWrite_kernel hroot hcount).search

end Fresh

/-- `mkdir aaaaaaaa` -/
def mkdirExample : Arguments := ⟨0, fun _ => (0, 8), 2⟩

def mkdirStack : MkdirFrame := ⟨6144, 6208, cpStack.interrupt⟩

/-- The shell as it starts. -/
def rootShell : Shell := ⟨rootClusterNumber, newRootDirectoryTable⟩

/-- `mkdir aaaaaaaa` and `cp aaaaaaaa. bbbbbbbb.`, over a stack of zeros. -/
theorem error_codes_arrive_zeros :
    MkdirReports 512 mkdirStack mkdirExample rootShell (blankMachine.kernel (textMemory twoTokens 0)) ∧
      CpReports 512 cpStack cpExample (fun _ => 97, fun _ => 0) (fun _ => 98, fun _ => 0) rootShell
        (blankMachine.kernel (textMemory twoTokens 0)) := by
  obtain ⟨hmkdir, hcp⟩ := error_codes_arrive_iff 512 rootShell (blankMachine.kernel (textMemory twoTokens 0)) mkdirStack
    mkdirExample rfl le_rfl cpStack cpExample _ _ rfl (splitToken_src 0) (splitToken_dest 0)
  have hfits : (cpRequest cpStack (fun _ => 97, fun _ => 0) rootShell).clusterCount ≤ 509 := by decide
  have hread : ∀ v, ¬ Op.read.WalksFrom (blankMachine.kernel (textMemory twoTokens 0)).system
      (cpRequest cpStack (fun _ => 97, fun _ => 0) rootShell) v := blankMachine_fresh.not_walksFrom rfl hfits
  have hvalid : ParentValid (blankMachine.kernel (textMemory twoTokens 0)).system rootShell.currentDirectory :=
    (blankMachine_fresh.canWrite_kernel rfl hfits).valid
  refine ⟨hmkdir.mpr ?_, hcp.mpr fun _ => ⟨fun hv => absurd hvalid hv, ?_, ?_, ?_⟩⟩
  · refine blankMachine_fresh.not_noRoom ?_ ?_
    · decide +kernel
    · decide +kernel
  · intro _ _ j _
    fin_cases j <;> rfl
  · exact fun v l hw => absurd hw (hread v)
  · exact fun v l hw => absurd hw (hread v)

/-- A file system with the file `aaaaaaaa` of one byte. -/
def oneFile : Machine := blankMachine.firstWrite (writeCall (fun _ => 97) 1 fun _ => 7)

theorem oneFile_reachable : oneFile.Reachable :=
  blankMachine_fresh.firstWrite_reachable (writeCall_fitsRoot _ _ _ (by decide)) (writeCall_folderOk (by decide))

theorem oneFile_found : oneFile.system.found (cpRequest cpStack (fun _ => 97, fun _ => 0) rootShell) = some 2 :=
  (blankMachine_fresh.canWrite (writeCall_fitsRoot (fun _ => 97) 1 (fun _ => 7) (by decide))).found_written

theorem oneFile_isDirectory : (entryAt oneFile.system.disk (rootClusterNumber, 2)).isDirectory = false :=
  blankMachine_fresh.firstWrite_isDirectory (writeCall_fitsRoot (fun _ => 97) 1 (fun _ => 7) (by decide))

theorem oneFile_filesize : (entryAt oneFile.system.disk (rootClusterNumber, 2)).filesize = 2048 := by
  have hentry := blankMachine_fresh.firstWrite_entry (writeCall_fitsRoot (fun _ => 97) 1 (fun _ => 7) (by decide))
  rw [oneFile, hentry, System.writtenEntry_filesize]
  decide

/-- The file can be read, but over a stack of ones `cp` finds another code than `0`. -/
theorem cp_misses_code :
    oneFile.Reachable ∧
      (∃ s, (cpPrepareRead cpStack (fun _ => 97, fun _ => 0) rootShell
        (oneFile.kernel (textMemory twoTokens 1))).perform 512 .read cpStack.srcRequest = .ok (0, s)) ∧
      ¬ CpReports 512 cpStack cpExample (fun _ => 97, fun _ => 0) (fun _ => 98, fun _ => 0) rootShell
        (oneFile.kernel (textMemory twoTokens 1)) := by
  have hdisk : (oneFile.kernel (textMemory twoTokens 1)).disk = oneFile.system.disk := rfl
  have hstate : (oneFile.kernel (textMemory twoTokens 1)).driverState = oneFile.system.driverState := rfl
  obtain ⟨s, hs, hmem⟩ := cpRead_file oneFile_reachable (Live.root _) hdisk hstate oneFile_found oneFile_isDirectory
    oneFile_filesize le_rfl
  refine ⟨oneFile_reachable, ⟨s, hs⟩, fun hreports => ?_⟩
  have hbyte := Memory.loadInt_update_iff.mp (hreports 0 s hs).1 1 (by decide)
  have hone : textMemory twoTokens 1 6209 ≠ 0 := by decide
  exact hone ((hmem 1 (by decide)).symm.trans hbyte)

end Os2024
