import Os2024.Boot.Setup
import Os2024.Inserter.Insert
import Os2024.Properties.RoundTrip

/-!
# The inserter and the boot

The inserter and `kernel_setup` work on one image after the other, in any order. No file is lost on the way
(`image_sound`), and booting twice is booting once (`boot_settles`).

The shell that the inserter has put on the image is the one that runs only if it is less than a cluster long, or
repeats, however often the image was booted or added to in between: `shell_loads_iff`.
-/

namespace Os2024

/-! ## The image -/

/-- A run of the inserter on the root, or a boot. -/
inductive ImageStep : Disk → Disk → Prop
  | insert {fuel : Nat} {x : Inserter.Insertion} {s t : System} {msg : String} (hfuel : 512 ≤ fuel)
      (hroot : x.request.parentClusterNumber = rootClusterNumber) (hfile : x.request.bufferSize ≠ 0)
      (hmain : Inserter.main fuel x s = .ok (msg, t)) : ImageStep s.disk t.disk
  | boot {fuel : Nat} {a : SetupAddresses} {s t : System} (hfuel : 512 ≤ fuel)
      (hsetup : kernelSetup fuel a s = .ok t) : ImageStep s.disk t.disk

section Image

variable {disk disk' : Disk} {h : List Event} {s : System} {fuel : Nat} {a : SetupAddresses}

theorem ImageStep.stores (hstep : ImageStep disk disk') (hd : Stores disk h) :
    ∃ h', Stores disk' (h' ++ h) ∧ ∀ r ∈ catalog h, r ∈ catalog (h' ++ h) := by
  cases hstep with
  | @insert fuel x s t msg hfuel hroot hfile hmain =>
    have hx : x.Proper h := ⟨hroot ▸ Live.root _, hfile⟩
    obtain ⟨t', hmain', hserves, -⟩ := Inserter.main_stores hd hx hfuel
    cases hmain.symm.trans hmain'
    exact ⟨[_], hserves.stores, catalog_subset (by simp [Inserter.Insertion.call])⟩
  | @boot fuel a s t hfuel hsetup =>
    obtain ⟨t', hrun⟩ := kernelSetup_runs (a := a) hd hfuel
    cases hsetup.symm.trans hrun.returns
    obtain ⟨e₁, e₂, e₃, hserves, hop₁, ⟨hop₂, -⟩, ⟨hop₃, -⟩, -⟩ := hrun.events
    refine ⟨[e₃, e₂, e₁], hserves.stores, fun r hr => ?_⟩
    have h₁ := catalog_subset (e := e₁) (by simp [hop₁]) r hr
    have h₂ := catalog_subset (e := e₂) (by simp [hop₂]) r h₁
    exact catalog_subset (e := e₃) (by simp [hop₃]) r h₂

/-- **The image is sound, whatever is run on it**, and no file is lost. -/
theorem image_sound (hlife : Relation.ReflTransGen ImageStep disk disk') (hd : Stores disk h) :
    ∃ h', Stores disk' (h' ++ h) ∧ (∀ r ∈ catalog h, r ∈ catalog (h' ++ h)) ∧
      ∀ s : System, s.disk = disk' → Represents (initializeFilesystemFat32 s).disk (initializeFilesystemFat32 s).fat
        (catalog (h' ++ h)) := by
  have hstores : ∃ h', Stores disk' (h' ++ h) ∧ ∀ r ∈ catalog h, r ∈ catalog (h' ++ h) := by
    induction hlife with
    | refl => exact ⟨[], hd, fun _ hr => hr⟩
    | tail _ hstep ih =>
      obtain ⟨h', hd', hsub⟩ := ih
      obtain ⟨h'', hd'', hsub'⟩ := hstep.stores hd'
      rw [← List.append_assoc] at hd'' hsub'
      exact ⟨h'' ++ h', hd'', fun r hr => hsub' r (hsub r hr)⟩
  obtain ⟨h', hd', hsub⟩ := hstores
  refine ⟨h', hd', hsub, fun s hs => ?_⟩
  subst hs
  obtain ⟨m, hm, hhist, hdisk, hfat⟩ := hd'.mount
  have hrep := hm.sound.represents
  rwa [hdisk, System.fat, hfat, hhist] at hrep

/-- A step leaves the entries of the image where they are. -/
theorem ImageStep.keeps {p : UInt32 × Fin 64} {e : FAT32DirectoryEntry} {data : List Cluster}
    (hstep : ImageStep disk disk') (hk : s.Keeps h p e data) (hdisk : s.disk = disk) :
    ∃ t h', t.disk = disk' ∧ System.Keeps t h' p e data := by
  cases hstep with
  | @insert fuel x u t msg hfuel hroot hfile hmain =>
    have hx : x.Proper h := ⟨hroot ▸ Live.root _, hfile⟩
    obtain ⟨retcode, hexec, -⟩ := Inserter.main_eq_ok.mp hmain
    have hop : x.call.op ≠ .delete := fun hdelete => by cases hdelete
    exact ⟨t, _, rfl, (hk.mount hdisk.symm).exec hx.allowed hop hfuel hexec⟩
  | @boot fuel a u t hfuel hsetup =>
    obtain ⟨t', hrun⟩ := kernelSetup_runs (a := a) (s := u) (hdisk ▸ hk.serves.stores) hfuel
    cases hsetup.symm.trans hrun.returns
    obtain ⟨h', hk'⟩ := hrun.keeps hk hdisk.symm
    exact ⟨t, h', rfl, hk'⟩

theorem System.Keeps.life {p : UInt32 × Fin 64} {e : FAT32DirectoryEntry} {data : List Cluster}
    (hk : s.Keeps h p e data) (hlife : Relation.ReflTransGen ImageStep s.disk disk') :
    ∃ t h', t.disk = disk' ∧ System.Keeps t h' p e data := by
  induction hlife with
  | refl => exact ⟨s, h, rfl, hk⟩
  | tail _ hstep ih =>
    obtain ⟨t, h', hdisk, hk'⟩ := ih
    exact hstep.keeps hk' hdisk

/-- **Booting twice is booting once**: `kernel_setup` returns on any disk that is not formatted or that a run has left,
and a second time it leaves the disk as it is. -/
theorem boot_settles (hd : Stores s.disk h) (hfuel : 512 ≤ fuel) : ∃ t, kernelSetup fuel a s = .ok t ∧
    (∃ h', Stores t.disk (h' ++ h)) ∧
    ∀ (a' : SetupAddresses) (s' : System), s'.disk = t.disk → ∃ t', kernelSetup fuel a' s' = .ok t' ∧ t'.disk = t.disk := by
  obtain ⟨t, hrun⟩ := kernelSetup_runs (a := a) hd hfuel
  obtain ⟨e₁, e₂, e₃, hserves, -, ⟨hop₂, hreq₂, hcode₂⟩, ⟨hop₃, hreq₃, hcode₃⟩, -⟩ := hrun.events
  refine ⟨t, hrun.returns, ⟨[e₃, e₂, e₁], hserves.stores⟩, fun a' s' hdisk => ?_⟩
  obtain ⟨t', hrun'⟩ := kernelSetup_runs (a := a') (s := s') (hdisk ▸ hserves.stores) hfuel
  refine ⟨t', hrun'.returns, ?_⟩
  obtain ⟨e₁', e₂', e₃', -, hop₁', ⟨hop₂', hreq₂', hcode₂'⟩, ⟨-, -, hcode₃'⟩, hkeep⟩ := hrun'.events
  -- both files are refused: there already, or without room as before
  have hkaikai : writeAnswer (e₂ :: e₁ :: h) (kaikaiRequest a) ≠ 0 :=
    hreq₂ ▸ writeAnswer_again hop₂ (hreq₂.symm ▸ hcode₂)
  have hlain : writeAnswer (e₃ :: e₂ :: e₁ :: h) (lainRequest a) ≠ 0 :=
    hreq₃ ▸ writeAnswer_again hop₃ (hreq₃.symm ▸ hcode₃)
  have hne₂ : e₂'.code ≠ 0 := by
    have hbefore : writeAnswer (e₃ :: e₂ :: e₁ :: h) (kaikaiRequest a) ≠ 0 :=
      writeAnswer_cons_ne_zero (by simp [hop₃]) hkaikai
    have hafter : writeAnswer (e₁' :: e₃ :: e₂ :: e₁ :: h) (kaikaiRequest a') ≠ 0 :=
      writeAnswer_cons_ne_zero (by simp [hop₁']) hbefore
    rwa [hcode₂']
  have hne₃ : e₃'.code ≠ 0 := by
    have hbefore : writeAnswer (e₁' :: e₃ :: e₂ :: e₁ :: h) (lainRequest a) ≠ 0 :=
      writeAnswer_cons_ne_zero (by simp [hop₁']) hlain
    have hafter : writeAnswer (e₂' :: e₁' :: e₃ :: e₂ :: e₁ :: h) (lainRequest a') ≠ 0 :=
      writeAnswer_cons_ne_zero (by simp [hop₂']) hbefore
    rwa [hcode₃']
  exact (hkeep hne₂ hne₃).trans (hserves.remount hdisk).2.1

end Image

/-! ## The shell -/

section Shell

variable {request : FAT32DriverRequest} {mem mem' : Memory} {s t u : System} {x : Inserter.Insertion} {h : List Event}
  {fuel : Nat} {a : SetupAddresses} {i : Fin 64} {k : Nat}

/-- A copy to one place tells whether the clusters repeat, if it is made over any memory. -/
theorem readBack_at_iff (buf : UInt32) (hcount : request.clusterCount ≤ 512) :
    (∀ mem' : Memory, ∀ k < request.bufferSize.toNat, mem'.storeClusters buf (writtenData request mem)
      (buf + UInt32.ofNat k) = mem (request.buf + UInt32.ofNat k)) ↔ RoundTrips request mem := by
  rw [← readBack_iff hcount]
  constructor
  · intro hone mem' buf' k hk
    have hk32 : k < 2 ^ 32 := hk.trans request.bufferSize.toNat_lt
    -- the same copy, made over the memory moved from `buf'` to `buf`
    rw [← hone (fun a => mem' (a - buf + buf')) k hk, storeClusters_writtenData hcount hk32,
      storeClusters_writtenData hcount hk32]
    split
    · rfl
    · have hmoved : buf + UInt32.ofNat k - buf + buf' = buf' + UInt32.ofNat k := by
        rw [UInt32.add_comm buf, UInt32.add_sub_cancel, UInt32.add_comm]
      exact congrArg mem' hmoved.symm
  · intro hall mem' k hk
    exact hall mem' buf k hk

/-- The buffer of the kernel lies above the memory that the shell is read to. -/
structure SetupAddresses.Apart (a : SetupAddresses) : Prop where
  low : 2 ^ 20 ≤ a.cbuf.toNat
  high : a.cbuf.toNat + 4096 ≤ 2 ^ 32

theorem SetupAddresses.Apart.memcpy (ha : a.Apart) (src : UInt32) {n : Nat} (hn : n ≤ 4096) (hk : k < 2 ^ 20)
    (s : System) : (s.memcpy a.cbuf src n).memory (0 + UInt32.ofNat k) = s.memory (0 + UInt32.ofNat k) := by
  have hlow := ha.low
  have hhigh := ha.high
  have hout : ¬ (0 + UInt32.ofNat k - a.cbuf).toNat < n := by
    rw [UInt32.zero_add, UInt32.toNat_sub, UInt32.toNat_ofNat']
    omega
  exact dif_neg hout

/-- Addresses above the memory of the shell. -/
def plainAddresses : SetupAddresses := ⟨0xC0000000, 0xC0001000, 0xC0002000⟩

theorem plainAddresses_apart : plainAddresses.Apart := ⟨by decide, by decide⟩

theorem initializeFilesystemFat32_memory (s : System) : (initializeFilesystemFat32 s).memory = s.memory := by
  rw [initializeFilesystemFat32]

/-- Memory may hold anything when a program starts. -/
theorem exists_memory (s : System) (mem : Memory) : ∃ u : System, u.disk = s.disk ∧ u.memory = mem :=
  ⟨{ s with memory := mem }, rfl, rfl⟩

/-- What a boot leaves in the memory that the shell is read to, if the disk has an entry for it. -/
theorem boot_memory {p : UInt32 × Fin 64} {e : FAT32DirectoryEntry} {data : List Cluster} (hk : s.Keeps h p e data)
    (hkey : shellRequest.key = (p.1, e.name, e.ext)) (hsize : e.filesize ≤ shellRequest.bufferSize)
    (hfuel : 512 ≤ fuel) (ha : a.Apart) (hdisk : u.disk = s.disk) :
    ∃ t, kernelSetup fuel a u = .ok t ∧ ∀ k < 2 ^ 20, t.memory (0 + UInt32.ofNat k) =
      (if e.isDirectory then u.memory else u.memory.storeClusters 0 data) (0 + UInt32.ofNat k) := by
  obtain ⟨t, hrun⟩ := kernelSetup_runs (a := a) (s := u) (hdisk ▸ hk.serves.stores) hfuel
  refine ⟨t, hrun.returns, fun k hk20 => ?_⟩
  obtain ⟨code, s₁, hread, hmemory⟩ := hrun.memory
  have hop : (⟨.read, shellRequest, (initializeFilesystemFat32 u).memory⟩ : Call).op = .read := rfl
  obtain ⟨code', s₁', hread', hs₁⟩ := (hk.mount hdisk).exec_read hop hkey hfuel
  cases hread.symm.trans hread'
  rw [hmemory, ha.memcpy a.lain (by decide) hk20, ha.memcpy a.lol (by decide) hk20, hs₁, initializeFilesystemFat32_memory]
  cases hd : e.isDirectory with
  | true => rw [readAnswer_folder hd, if_pos rfl]
  | false =>
    rw [readAnswer_file hd hsize, if_neg Bool.false_ne_true]
    rfl

/-- What is written fits into the megabyte that the shell is read to. -/
theorem CanWrite.bufferSize_lt (hw : CanWrite s request i) : request.bufferSize.toNat < 2 ^ 20 := by
  have hcount : request.clusterCount ≤ 512 := clusterCount_le hw
  have hdef : request.clusterCount = request.bufferSize.toNat / 2048 + 1 := rfl
  omega

theorem CanWrite.filesize_le (hw : CanWrite s request i) :
    (s.writtenEntry request i).filesize ≤ shellRequest.bufferSize := by
  have hbuf : shellRequest.bufferSize.toNat = 512 * 2048 := rfl
  rw [System.writtenEntry_filesize, UInt32.le_iff_toNat_le, UInt32.toNat_ofNat', hbuf]
  exact (Nat.mod_le ..).trans (Nat.mul_le_mul_right 2048 (clusterCount_le hw))

/-- A new file in the root is kept as it was written. -/
theorem CanWrite.keeps (hw : CanWrite s request i) (hroot : request.parentClusterNumber = rootClusterNumber)
    (hserves : (s.written request i).Serves h) : (s.written request i).Keeps h (request.parentClusterNumber, i)
      (s.writtenEntry request i) (writtenData request s.memory) where
  serves := hserves
  lists := by
    refine ⟨hroot.symm ▸ Live.root _, (emptyEntry_eq_some hw.emptyEntry).1, ?_⟩
    exact congrArg FAT32DirectoryEntry.occupied hw.entryAt_written
  entry := hw.entryAt_written
  data _ := by
    refine ⟨s.writtenCells request, ?_, hw.written_data⟩
    rw [System.writtenEntry_clusterNumber]
    exact hw.chain

/-- A boot of what the image has become, after boots and insertions. -/
structure LaterBoot (disk : Disk) (u t : System) : Prop where
  life : Relation.ReflTransGen ImageStep disk u.disk
  boots : ∃ (fuel : Nat) (a : SetupAddresses), 512 ≤ fuel ∧ a.Apart ∧ kernelSetup fuel a u = .ok t

/-- A new file of this name is what any later boot leaves there, over any memory, if its slot is plain and it repeats. -/
theorem boot_memory_iff (hw : CanWrite s request i) (hkey : request.key = shellRequest.key)
    (hfile : request.bufferSize ≠ 0) (hserves : (s.written request i).Serves h) :
    (∀ u t, LaterBoot (s.written request i).disk u t → ∀ k < request.bufferSize.toNat,
      t.memory (0 + UInt32.ofNat k) = s.memory (request.buf + UInt32.ofNat k)) ↔
      (s.writtenEntry request i).isDirectory = false ∧ RoundTrips request s.memory := by
  have hcount : request.clusterCount ≤ 512 := clusterCount_le hw
  have hlow := hw.bufferSize_lt
  have hsize := hw.filesize_le
  have hk := hw.keeps (congrArg Prod.fst hkey) hserves
  constructor
  · intro hload
    have hmemory : ∀ mem' : Memory, ∀ k < request.bufferSize.toNat,
        (if (s.writtenEntry request i).isDirectory then mem'
          else mem'.storeClusters 0 (writtenData request s.memory)) (0 + UInt32.ofNat k) =
        s.memory (request.buf + UInt32.ofNat k) := by
      intro mem' k hk'
      obtain ⟨u, hdisk, rfl⟩ := exists_memory (s.written request i) mem'
      obtain ⟨t, hsetup, ht⟩ := boot_memory hk hkey.symm hsize (le_refl 512) plainAddresses_apart hdisk
      rw [← hload u t ⟨hdisk ▸ .refl, 512, _, le_rfl, plainAddresses_apart, hsetup⟩ k hk', ht k (hk'.trans hlow)]
    have hplain : (s.writtenEntry request i).isDirectory = false := by
      rw [← Bool.not_eq_true]
      intro hfolder
      have hpos : 0 < request.bufferSize.toNat := Nat.pos_of_ne_zero fun h0 => hfile (UInt32.toNat_inj.mp h0)
      -- memory that is left alone may be anything
      have hzero := hmemory (fun _ => s.memory (request.buf + UInt32.ofNat 0) + 1) 0 hpos
      rw [if_pos hfolder] at hzero
      simp at hzero
    simp only [hplain, Bool.false_eq_true, if_false] at hmemory
    exact ⟨hplain, (readBack_at_iff 0 hcount).mp hmemory⟩
  · rintro ⟨hplain, hrt⟩ u t ⟨hlife, fuel, a, hfuel, ha, hsetup⟩ k hk'
    obtain ⟨v, h', hdisk, hkept⟩ := hk.life hlife
    obtain ⟨t', hsetup', ht⟩ := boot_memory hkept hkey.symm hsize hfuel ha hdisk.symm
    cases hsetup.symm.trans hsetup'
    rw [ht k (hk'.trans hlow), hplain, if_neg Bool.false_ne_true]
    exact (readBack_at_iff 0 hcount).mpr hrt u.memory k hk'

theorem report_success {retcode : Int8} (h : "Write success" = Inserter.report retcode) : retcode = 0 := by
  by_contra hne
  rw [Inserter.report, if_neg hne] at h
  split at h
  · exact absurd h (by decide)
  · split at h <;> exact absurd h (by decide)

/-- The slot that the inserter takes was not marked as a folder. -/
def RootSlotPlain (s : System) : Prop :=
  ∀ j, (tableAt (initializeFilesystemFat32 s).disk rootClusterNumber).emptyEntry = some j →
    ((tableAt (initializeFilesystemFat32 s).disk rootClusterNumber).table j).isDirectory = false

/-- What the inserter has done when it reports success. -/
theorem exists_inserted (hd : Stores s.disk h) (hkey : x.request.key = shellRequest.key)
    (hfile : x.request.bufferSize ≠ 0) (hmain : Inserter.main fuel x s = .ok ("Write success", t)) (hfuel : 512 ≤ fuel) :
    ∃ i h', CanWrite (x.call.start (initializeFilesystemFat32 s)) x.request i ∧
      t = (x.call.start (initializeFilesystemFat32 s)).written x.request i ∧ t.Serves h' ∧
      (((x.call.start (initializeFilesystemFat32 s)).writtenEntry x.request i).isDirectory = false ↔ RootSlotPlain s) := by
  obtain ⟨retcode, hexec, hreport⟩ := Inserter.main_eq_ok.mp hmain
  obtain rfl := report_success hreport
  have hroot : x.request.parentClusterNumber = rootClusterNumber := congrArg Prod.fst hkey
  have hx : x.Proper h := ⟨hroot ▸ Live.root _, hfile⟩
  have hmount := hd.mount
  unfold RootSlotPlain
  generalize initializeFilesystemFat32 s = s₀ at hmount hexec ⊢
  obtain ⟨code, t', hexec', hserves, -⟩ := hmount.exec hx.allowed hfuel
  cases hexec.symm.trans hexec'
  have hop : x.call.op = .write := rfl
  obtain ⟨i, hw, rfl⟩ := Call.exec_write_ok hop hexec
  have hw : CanWrite (x.call.start s₀) x.request i := hw
  have hempty : (tableAt s₀.disk x.request.parentClusterNumber).emptyEntry = some i := hw.emptyEntry
  have hdir : ((x.call.start s₀).writtenEntry x.request i).isDirectory =
      ((tableAt s₀.disk x.request.parentClusterNumber).table i).isDirectory :=
    System.writtenEntry_isDirectory_file _ i hfile
  refine ⟨i, _, hw, rfl, hserves, ?_⟩
  rw [hroot] at hempty hdir
  rw [hdir, hempty]
  exact ⟨fun hplain j hj => Option.some.inj hj ▸ hplain, fun hplain => hplain i rfl⟩

/-- **The shell that is inserted is the one that is loaded** by every later boot, whatever is in memory, exactly when
its slot was not marked as a folder and `RoundTrips` holds. -/
theorem shell_loads_iff (hd : Stores s.disk h) (hkey : x.request.key = shellRequest.key)
    (hfile : x.request.bufferSize ≠ 0) (hmain : Inserter.main fuel x s = .ok ("Write success", t))
    (hfuel : 512 ≤ fuel) :
    (∀ s' u, LaterBoot t.disk s' u → ∀ k < x.request.bufferSize.toNat,
      u.memory (0 + UInt32.ofNat k) = x.fileBuffer (0 + UInt32.ofNat k)) ↔
      (∀ j, (tableAt (initializeFilesystemFat32 s).disk rootClusterNumber).emptyEntry = some j →
        ((tableAt (initializeFilesystemFat32 s).disk rootClusterNumber).table j).isDirectory = false) ∧
      RoundTrips x.request x.fileBuffer := by
  obtain ⟨i, h', hw, rfl, hserves, hplain⟩ := exists_inserted hd hkey hfile hmain hfuel
  exact (boot_memory_iff hw hkey hfile hserves).trans (and_congr hplain Iff.rfl)

end Shell

/-! ## A blank image -/

section Blank

/-- A machine that was switched off, with an image of zeros. -/
def blankSystem : System where
  memory := fun _ => 0
  disk := fun _ _ => 0
  driverState := ⟨⟨fun _ => 0⟩, ⟨fun _ => .zero⟩⟩
  accesses := []

theorem blankSystem_empty : isEmptyStorage blankSystem.disk = true := by
  by_contra h
  have hboot := isEmptyStorage_eq_false.mp (Bool.eq_false_iff.mpr h)
  exact absurd (congrFun hboot 0) (by decide)

theorem blankSystem_stores : Stores blankSystem.disk [] := .inl ⟨blankSystem_empty, rfl⟩

/-- A blank image is booted. -/
theorem image_sound_boot : ∃ t h', kernelSetup 512 plainAddresses blankSystem = .ok t ∧ Stores t.disk (h' ++ []) := by
  obtain ⟨t, hrun⟩ := kernelSetup_runs (a := plainAddresses) blankSystem_stores le_rfl
  obtain ⟨h', hstores, -⟩ := image_sound (.single (.boot le_rfl hrun.returns)) blankSystem_stores
  exact ⟨t, h', hrun.returns, hstores⟩

/-- A blank image is booted twice. -/
theorem boot_settles_blank : ∃ t t', kernelSetup 512 plainAddresses blankSystem = .ok t ∧
    kernelSetup 512 plainAddresses t = .ok t' ∧ t'.disk = t.disk := by
  obtain ⟨t, hsetup, -, hagain⟩ := boot_settles (a := plainAddresses) blankSystem_stores le_rfl
  obtain ⟨t', hsetup', hdisk⟩ := hagain plainAddresses t rfl
  exact ⟨t, t', hsetup, hsetup', hdisk⟩

/-- A shell of one byte. -/
def tinyShell : Inserter.Insertion where
  fileName := [115, 104, 101, 108, 108]
  parentClusterIndex := [50]
  file := some [0xF4]
  heap := fun _ => 0

theorem tinyShell_key : tinyShell.request.key = shellRequest.key :=
  Prod.ext (by decide) (Prod.ext (funext (by decide)) rfl)

theorem tinyShell_answer : writeAnswer [] tinyShell.request = 0 := by decide

/-- A blank image has its first entry free, and never used. -/
theorem blankSystem_slotPlain : RootSlotPlain blankSystem := by
  have hfresh : Machine.Fresh ⟨initializeFilesystemFat32 blankSystem, []⟩ := ⟨blankSystem, blankSystem_empty, rfl⟩
  have htable : tableAt (initializeFilesystemFat32 blankSystem).disk rootClusterNumber = newRootDirectoryTable :=
    hfresh.root_table
  intro j hj
  rw [htable, newRootDirectoryTable_emptyEntry] at hj
  rw [htable, ← Option.some.inj hj]
  decide

/-- The shell of one byte is inserted into a blank image, which is booted twice. -/
theorem shell_loads_tiny : ∃ t s' u, Inserter.main 512 tinyShell blankSystem = .ok ("Write success", t) ∧
    kernelSetup 512 plainAddresses t = .ok s' ∧ kernelSetup 512 plainAddresses s' = .ok u ∧
    u.memory (0 + UInt32.ofNat 0) = 0xF4 := by
  have hfile : tinyShell.request.bufferSize ≠ 0 := by decide
  have hroot : tinyShell.request.parentClusterNumber = rootClusterNumber := congrArg Prod.fst tinyShell_key
  obtain ⟨t, hmain, hserves, -⟩ := Inserter.main_stores blankSystem_stores ⟨hroot ▸ Live.root _, hfile⟩ le_rfl
  rw [tinyShell_answer] at hmain
  obtain ⟨s', hrun⟩ := kernelSetup_runs (a := plainAddresses) hserves.stores le_rfl
  obtain ⟨e₁, e₂, e₃, hserves', -⟩ := hrun.events
  obtain ⟨u, hrun'⟩ := kernelSetup_runs (a := plainAddresses) hserves'.stores le_rfl
  refine ⟨t, s', u, hmain, hrun.returns, hrun'.returns, ?_⟩
  have hload := (shell_loads_iff blankSystem_stores tinyShell_key hfile hmain le_rfl).mpr
    ⟨blankSystem_slotPlain, .inl (by decide)⟩
  exact hload s' u ⟨.single (.boot le_rfl hrun.returns), 512, _, le_rfl, plainAddresses_apart, hrun'.returns⟩ 0 (by decide)

end Blank

end Os2024
