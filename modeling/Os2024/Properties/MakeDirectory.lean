import Os2024.Properties.CopyFile
import Os2024.Properties.ShellSessions

/-!
# Making a directory, and listing it

A `mkdir` that prints nothing adds one line to what `ls` prints, that of the new folder, and leaves what it prints of
any other directory; a `mkdir` that prints something leaves it all: `mkdir_listed`. `updateDirectoryTable` is taken to
load the table that is on the disk.
-/

namespace Os2024

open Fuel LinkTable

/-! ## The request -/

/-- The name in the argument of `mkdir`. -/
def mkdirName (args : Arguments) (mem : Memory) : Name := tokenArray mem (args.address 1) 0 (args.info 1).2

/-- The variables of `mkdir` overlap neither each other nor its argument. -/
structure MkdirFrame.Separate (frame : MkdirFrame) (args : Arguments) : Prop where
  argument : Apart frame.request 23 (args.address 1) (args.info 1).2
  errorCode : Apart frame.errorCode 4 frame.request 23

section Request

variable {mem mem' : Memory} {ptr p q : UInt32} {n : Nat} {frame : MkdirFrame} {args : Arguments} {shell : Shell}
  {k : Kernel}

/-- A request is its bytes. -/
theorem loadRequest_congr (h : ∀ j < 23, mem (ptr + UInt32.ofNat j) = mem' (ptr + UInt32.ofNat j)) :
    loadRequest mem ptr = loadRequest mem' ptr := by
  have hload : ∀ off n : Nat, off + n ≤ 23 →
      mem.load (ptr + UInt32.ofNat off) n = mem'.load (ptr + UInt32.ofNat off) n := by
    intro off n hn
    funext i
    rw [Memory.load, Memory.load, UInt32.add_assoc, ← UInt32.ofNat_add]
    exact h _ (by omega)
  have hbuf := hload 0 4 (by decide)
  rw [show UInt32.ofNat 0 = 0 from rfl, UInt32.add_zero] at hbuf
  have hname : mem.load (ptr + 4) 8 = mem'.load (ptr + 4) 8 := hload 4 8 (by decide)
  have hext : mem.load (ptr + 12) 3 = mem'.load (ptr + 12) 3 := hload 12 3 (by decide)
  have hparent : mem.load (ptr + 15) 4 = mem'.load (ptr + 15) 4 := hload 15 4 (by decide)
  have hsize : mem.load (ptr + 19) 4 = mem'.load (ptr + 19) 4 := hload 19 4 (by decide)
  rw [loadRequest, loadRequest, hbuf, hname, hext, hparent, hsize]

/-- `memcpy` between places that are apart. -/
theorem copyUp_apart (mem : Memory) (h : Apart p n q n) (hn : n ≤ 2 ^ 32) :
    (∀ i < n, mem.copyUp p q n (p + UInt32.ofNat i) = mem (q + UInt32.ofNat i)) ∧
      ∀ a, (∀ i < n, p + UInt32.ofNat i ≠ a) → mem.copyUp p q n a = mem a := by
  rw [Memory.copyUp_eq]
  have hordered : Copy.Ordered (fun i => p + UInt32.ofNat i) (fun i => q + UInt32.ofNat i) (List.range n) := by
    refine List.pairwise_lt_range.imp_of_mem fun {i j} hi hj hij => ?_
    have hi := List.mem_range.mp hi
    have hj := List.mem_range.mp hj
    exact ⟨h i hi j hj, fun heq => hij.ne ((Memory.add_ofNat_inj (by omega) (by omega)).mp heq)⟩
  exact ⟨fun i hi => Copy.copies_of_mem hordered (List.mem_range.mpr hi),
    fun a ha => Copy.copies_of_notMem fun i hi => ha i (List.mem_range.mp hi)⟩

/-- The name is at offset `4` of a request. -/
theorem mkdirRequest_bytes (name : Name) (j : Fin 23) :
    FAT32DriverRequest.bytes { mkdirRequest shell with name := name } j =
      if h : 4 ≤ j.val ∧ j.val < 12 then name ⟨j.val - 4, by omega⟩ else (mkdirRequest shell).bytes j := by
  unfold FAT32DriverRequest.bytes
  by_cases hlow : j.val < 4
  · rw [dif_pos hlow, dif_neg (by omega), dif_pos hlow]
  · rw [dif_neg hlow]
    by_cases hname : j.val < 12
    · rw [dif_pos hname, dif_pos ⟨Nat.le_of_not_lt hlow, hname⟩]
    · have hoff : ¬ (4 ≤ j.val ∧ j.val < 12) := by omega
      rw [dif_neg hname, dif_neg hoff, dif_neg hlow, dif_neg hname]

/-- The request that the kernel finds. -/
theorem mkdirPrepare_request (hlen : (args.info 1).2 ≤ 8) (h : frame.Separate args) :
    loadRequest (mkdirPrepare frame args shell k).memory frame.request =
      { mkdirRequest shell with name := mkdirName args k.memory } := by
  have hstored : loadRequest (k.memory.store frame.request
      (FAT32DriverRequest.bytes { mkdirRequest shell with name := mkdirName args k.memory })) frame.request =
        { mkdirRequest shell with name := mkdirName args k.memory } := loadRequest_store _
  rw [← hstored]
  refine loadRequest_congr fun j hj => ?_
  have hfield : ∀ i, frame.request + 4 + UInt32.ofNat i = frame.request + UInt32.ofNat (4 + i) := fun i => by
    rw [UInt32.add_assoc, UInt32.ofNat_add]
    rfl
  have hapart : Apart (frame.request + 4) (args.info 1).2 (args.address 1) (args.info 1).2 := by
    intro i hi l hl
    rw [hfield]
    exact h.argument _ (by omega) l hl
  obtain ⟨hcopied, hkept⟩ := copyUp_apart (k.memory.store frame.request (mkdirRequest shell).bytes) hapart (by omega)
  have hprepared : (mkdirPrepare frame args shell k).memory (frame.request + UInt32.ofNat j) =
      ((k.memory.store frame.request (mkdirRequest shell).bytes).copyUp (frame.request + 4) (args.address 1)
        (args.info 1).2) (frame.request + UInt32.ofNat j) := Memory.store_of_apart h.errorCode hj
  rw [hprepared, Memory.store_apply (by decide) hj]
  by_cases hin : 4 ≤ j ∧ j < 4 + (args.info 1).2
  · obtain ⟨i, rfl⟩ : ∃ i, j = 4 + i := ⟨j - 4, by omega⟩
    rw [← hfield, hcopied i (by omega), Memory.store_of_apart h.argument (by omega),
      mkdirRequest_bytes (mkdirName args k.memory)]
    have hname : 4 ≤ 4 + i ∧ 4 + i < 12 := by omega
    rw [dif_pos hname, mkdirName, tokenArray, if_pos (by dsimp only; omega)]
    simp only [Nat.add_sub_cancel_left, Nat.zero_add]
  · have hbytes : (mkdirRequest shell).bytes ⟨j, hj⟩ =
        FAT32DriverRequest.bytes { mkdirRequest shell with name := mkdirName args k.memory } ⟨j, hj⟩ := by
      rw [mkdirRequest_bytes (mkdirName args k.memory)]
      split
      · next hname =>
        rw [mkdirName, tokenArray, if_neg (by dsimp only at hname ⊢; omega), FAT32DriverRequest.bytes,
          dif_neg (Nat.not_lt.mpr hname.1), dif_pos hname.2]
        rfl
      · rfl
    rw [hkept _ fun i hi heq => hin ?_, Memory.store_apply (by decide) hj, hbytes]
    rw [hfield] at heq
    have hji := (Memory.add_ofNat_inj (by omega) (by omega)).mp heq
    omega

end Request

/-! ## The listing -/

/-- `ls` of the directory prints the text, whatever is in memory besides a NUL. -/
def LsPrints (disk : Disk) (currentDirectory : UInt32) (text : List UInt8) : Prop :=
  ∀ (dirTable : UInt32) (args : Arguments) (mem : Memory), args.count = 1 →
    (∃ a, mem.store dirTable (tableAt disk currentDirectory).bytes a = 0) →
      Returns (fun fuel => ls fuel dirTable (tableAt disk) currentDirectory args mem)
        (some (mem.store dirTable (tableAt disk currentDirectory).bytes, inColor lightBlue text))

section Listing

variable {t : FAT32DirectoryTable} {e : FAT32DirectoryEntry} {i : Fin 64}

theorem lsPrints (disk : Disk) (currentDirectory : UInt32) :
    LsPrints disk currentDirectory (tableAt disk currentDirectory).printed := by
  rintro dirTable args mem hcount ⟨a, ha⟩
  refine .of_ge (2 ^ 32) fun fuel hfuel => ?_
  rw [ls, if_pos hcount, findAllDirectory, if_pos rfl]
  exact showDirectory_eq hfuel ha

/-- A new entry adds its line. -/
theorem printed_set (hi : 1 ≤ i.val) (hempty : (t.table i).occupied = false) :
    ∃ before after, t.printed = before ++ after ∧ (t.set i e).printed = before ++ e.printed ++ after := by
  obtain ⟨j, rfl⟩ : ∃ j : Fin 63, j.succ = i := by
    refine Fin.exists_succ_eq.mpr ?_
    rintro rfl
    exact absurd hi (by decide)
  obtain ⟨pre, post, hsplit⟩ := List.append_of_mem (List.mem_finRange j)
  have hnodup := List.nodup_finRange 63
  rw [hsplit, List.nodup_append] at hnodup
  obtain ⟨-, hpost, hpre⟩ := hnodup
  have hother : ∀ l : List (Fin 63), j ∉ l →
      l.flatMap (fun k => ((t.set j.succ e).table k.succ).printed) = l.flatMap fun k => (t.table k.succ).printed := by
    intro l hl
    refine List.flatMap_congr fun k hk => ?_
    rw [FAT32DirectoryTable.set_table_of_ne fun heq => hl (by rwa [← Fin.succ_injective _ heq])]
  have hnone : (t.table j.succ).printed = [] := by
    rw [FAT32DirectoryEntry.printed, hempty, if_neg Bool.false_ne_true]
  refine ⟨pre.flatMap fun k => (t.table k.succ).printed, post.flatMap fun k => (t.table k.succ).printed, ?_, ?_⟩
  · rw [FAT32DirectoryTable.printed, hsplit, List.flatMap_append, List.flatMap_cons, hnone, List.nil_append]
  · rw [FAT32DirectoryTable.printed, hsplit, List.flatMap_append, List.flatMap_cons,
      hother pre fun hmem => hpre j hmem j List.mem_cons_self rfl, hother post (List.nodup_cons.mp hpost).1,
      FAT32DirectoryTable.set_table_self, List.append_assoc]

/-- A new folder adds its line to its parent's. -/
theorem CanWrite.printed_written {s : System} {request : FAT32DriverRequest} (hw : CanWrite s request i)
    (hsize : request.bufferSize = 0) :
    ∃ before after, (tableAt s.disk request.parentClusterNumber).printed = before ++ after ∧
      (tableAt (s.written request i).disk request.parentClusterNumber).printed =
        before ++ folderLine request.name ++ after := by
  obtain ⟨hi, hempty⟩ := emptyEntry_eq_some hw.emptyEntry
  have hline : (s.writtenEntry request i).printed = folderLine request.name :=
    printed_of_folder (s.writtenEntry_occupied request i) (s.writtenEntry_isDirectory_folder i hsize)
  rw [hw.written_parent, System.writtenTable, ← hline]
  exact printed_set (by omega) hempty

end Listing

/-! ## `mkdir`, then `ls` -/

section MakeDirectory

variable {frame : MkdirFrame} {args : Arguments} {shell : Shell} {k : Kernel} {fuel : Nat} {code : Int8} {s : System}
  {name : List UInt8}

/-- `mkdir` prints nothing for the code `0` only. -/
theorem mkdirReport_eq_nil_iff (h : (mkdirPrepare frame args shell k).perform fuel .write frame.request = .ok (code, s)) :
    mkdirReport name (Memory.loadInt ((mkdirPrepare frame args shell k).answered frame.errorCode code s).memory
      frame.errorCode) = [] ↔ code = 0 := by
  have hzero : Memory.loadInt ((mkdirPrepare frame args shell k).answered frame.errorCode code s).memory
      frame.errorCode = 0 ↔ code = 0 := by
    constructor
    · intro hload
      by_contra hne
      exact Memory.loadInt_update_ne_zero hne hload
    · rintro rfl
      exact (mkdir_loadInt_iff h).mpr (by decide)
  rw [← hzero, mkdirReport]
  split
  · next hne =>
    refine iff_of_false (fun hnil => ?_) hne
    have hchars := List.map_eq_nil_iff.mp hnil
    rw [List.append_eq_nil_iff, List.append_eq_nil_iff] at hchars
    exact absurd hchars.1.1 (by decide)
  · next heq => exact iff_of_true rfl (not_not.mp heq)

/-- What a `mkdir` has done to the directories: it has printed nothing and there is one more line, or it has printed
something and nothing has changed. -/
def Listed (cat : List Record) (currentDirectory : UInt32) (name : Name) (disk disk' : Disk) (text : List Glyph) : Prop :=
  (∀ c, Live cat c → c ≠ currentDirectory → ∀ listing, LsPrints disk c listing → LsPrints disk' c listing) ∧
    if text = [] then
      ∃ before after, LsPrints disk currentDirectory (before ++ after) ∧
        LsPrints disk' currentDirectory (before ++ folderLine name ++ after)
    else ∀ listing, LsPrints disk currentDirectory listing → LsPrints disk' currentDirectory listing

theorem LsPrints.congr {disk disk' : Disk} {c : UInt32} {listing : List UInt8} (h : LsPrints disk c listing)
    (hsame : tableAt disk' c = tableAt disk c) : LsPrints disk' c listing := by
  rintro dirTable args mem hcount ha
  have hls : ∀ fuel, ls fuel dirTable (tableAt disk') c args mem = ls fuel dirTable (tableAt disk) c args mem := by
    intro fuel
    rw [ls, ls, if_pos hcount, if_pos hcount, findAllDirectory, findAllDirectory, if_pos rfl, if_pos rfl, showDirectory,
      showDirectory, hsame]
  rw [hsame] at ha ⊢
  obtain ⟨enough, henough⟩ := h dirTable args mem hcount ha
  exact ⟨enough, fun fuel hfuel => (hls fuel).trans (henough fuel hfuel)⟩

/-- **`mkdir`, then `ls`.** -/
theorem mkdir_listed (fuel : Nat) (m : Machine) (frame : MkdirFrame) (args : Arguments) (shell : Shell) (k : Kernel)
    (hfuel : 512 ≤ fuel) (hm : m.Reachable) (hlive : Live (catalog m.history) shell.currentDirectory)
    (hdisk : k.disk = m.system.disk) (hstate : k.driverState = m.system.driverState) (hcount : args.count = 2)
    (hlen : (args.info 1).2 ≤ 8) (hseparate : frame.Separate args) :
    ∃ k' text, mkdir fuel frame args shell k = .ok (k', text) ∧
      Listed (catalog m.history) shell.currentDirectory (mkdirName args k.memory) k.disk k'.disk text := by
  have hrep : Represents (mkdirPrepare frame args shell k).system.disk (mkdirPrepare frame args shell k).system.fat
      (catalog m.history) := by
    have hfat : (mkdirPrepare frame args shell k).system.fat = m.system.fat :=
      congrArg (fun d : FAT32DriverState => d.fatTable.clusterMap) hstate
    rw [hfat, show (mkdirPrepare frame args shell k).system.disk = m.system.disk from hdisk]
    exact hm.sound.represents
  have hrequest : loadRequest (mkdirPrepare frame args shell k).memory frame.request =
      { mkdirRequest shell with name := mkdirName args k.memory } := mkdirPrepare_request hlen hseparate
  have hlt : (loadRequest (mkdirPrepare frame args shell k).memory frame.request).parentClusterNumber.toNat < 512 := by
    rw [hrequest]
    exact hrep.live_lt hlive
  rcases write_returns (s := (mkdirPrepare frame args shell k).system) hlt hfuel with
    ⟨code, s, hwrite, hne, hkept⟩ | ⟨i, hw, hwrite⟩
  · rw [← Kernel.perform_write] at hwrite
    have hsame : ∀ c, tableAt s.disk c = tableAt k.disk c := fun c => by
      rw [hkept.disk]
      rfl
    refine ⟨_, _, mkdir_eq hcount hlen hwrite, fun c _ _ listing h => h.congr (hsame c), ?_⟩
    rw [if_neg fun hnil => hne ((mkdirReport_eq_nil_iff hwrite).mp hnil)]
    exact fun listing h => h.congr (hsame _)
  · rw [← Kernel.perform_write] at hwrite
    rw [hrequest] at hw hwrite
    refine ⟨_, _, mkdir_eq hcount hlen hwrite, fun c hc hne listing h => h.congr ?_, ?_⟩
    · exact tableAt_congr (hw.written_of_ne ((hrep.live_lt hc).trans (by decide)) (hrep.live_ne_fatCluster hc) hne
        (hrep.live_ne_writtenCells hc))
    · rw [if_pos ((mkdirReport_eq_nil_iff hwrite).mpr rfl)]
      obtain ⟨before, after, hbefore, hafter⟩ := hw.printed_written rfl
      have hold := lsPrints k.disk shell.currentDirectory
      have hnew := lsPrints ((mkdirPrepare frame args shell k).system.written
        { mkdirRequest shell with name := mkdirName args k.memory } i).disk shell.currentDirectory
      exact ⟨before, after, hbefore ▸ hold, hafter ▸ hnew⟩

end MakeDirectory

theorem Machine.kernel_volume (m : Machine) (mem : Memory) :
    (m.kernel mem).disk = m.system.disk ∧ (m.kernel mem).driverState = m.system.driverState := ⟨rfl, rfl⟩

/-- The variables of `mkdir aaaaaaaa`. -/
theorem mkdirStack_separate : mkdirStack.Separate mkdirExample where
  argument := (Apart.of_le (by decide) (by decide) : Apart 0 8 6144 23).symm
  errorCode := (Apart.of_le (by decide) (by decide) : Apart 6144 23 6208 4).symm

/-- `mkdir aaaaaaaa` in the root of a new file system. -/
theorem mkdir_listed_root : ∃ k' text,
    mkdir 512 mkdirStack mkdirExample rootShell (blankMachine.kernel (textMemory twoTokens 0)) = .ok (k', text) ∧
      Listed (catalog blankMachine.history) rootShell.currentDirectory (fun _ => 97) blankMachine.system.disk k'.disk
        text := by
  have hname : mkdirName mkdirExample (blankMachine.kernel (textMemory twoTokens 0)).memory = fun _ => 97 := by
    funext j
    fin_cases j <;> rfl
  obtain ⟨hdisk, hstate⟩ := blankMachine.kernel_volume (textMemory twoTokens 0)
  have hlisted := mkdir_listed 512 blankMachine mkdirStack mkdirExample rootShell
    (blankMachine.kernel (textMemory twoTokens 0)) le_rfl ⟨_, blankMachine_fresh, .refl⟩ (.inl rfl) hdisk hstate rfl
    le_rfl mkdirStack_separate
  rwa [hname, hdisk] at hlisted

end Os2024
