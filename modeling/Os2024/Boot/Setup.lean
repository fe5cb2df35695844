import Os2024.Boot.Mount

/-!
# `kernel_setup`

The part of `kernel_setup` from `initialize_filesystem_fat32` on: it mounts the disk, reads the shell to the first page
of user memory, and writes two files. `cbuf` is a buffer on the stack; the address space has the frame that
`paging_allocate_user_page_frame` has mapped at address `0`.
-/

namespace Os2024

/-- A string literal in a field of characters that is cleared. -/
def charField {n : Nat} (s : List Char) : Fin n → UInt8 := fun k => UInt8.ofNat (s.getD k '\x00').toNat

/-- The addresses that the linker and the compiler choose. -/
structure SetupAddresses where
  cbuf : UInt32
  /-- The literal `"lol"`, of which 132 bytes are copied. -/
  lol : UInt32
  /-- The literal `"Ini dari file lain\n"`. -/
  lain : UInt32

/-- The request for the shell. -/
def shellRequest : FAT32DriverRequest where
  buf := 0
  name := charField ['s', 'h', 'e', 'l', 'l']
  ext := fun _ => 0
  parentClusterNumber := rootClusterNumber
  bufferSize := 0x100000

/-- The request for a file of the kernel; the extension is not changed between the two. -/
def setupRequest (a : SetupAddresses) (name : List Char) : FAT32DriverRequest where
  buf := a.cbuf
  name := charField name
  ext := charField ['t', 'x', 't']
  parentClusterNumber := rootClusterNumber
  bufferSize := 2048

/-- An operation of the file system on the current memory. -/
def System.request (op : Op) (request : FAT32DriverRequest) (fuel : Nat) (s : System) : Exec (Int8 × System) :=
  (Call.mk op request s.memory).exec fuel s

/-- `memcpy` inside of memory. -/
def System.memcpy (dest src : UInt32) (n : Nat) (s : System) : System :=
  { s with memory := s.memory.store dest (s.memory.load src n) }

def kaikaiRequest (a : SetupAddresses) : FAT32DriverRequest := setupRequest a ['k', 'a', 'i', 'k', 'a', 'i']

def lainRequest (a : SetupAddresses) : FAT32DriverRequest := setupRequest a ['l', 'a', 'i', 'n']

/-- `kernel_setup`. -/
def kernelSetup (fuel : Nat) (a : SetupAddresses) (s : System) : Exec System := do
  let s := initializeFilesystemFat32 s
  -- Write shell into memory
  let (_, s) ← s.request .read shellRequest fuel
  let s := s.memcpy a.cbuf a.lol 132
  let (_, s) ← s.request .write (kaikaiRequest a) fuel
  let s := s.memcpy a.cbuf a.lain 20
  let (_, s) ← s.request .write (lainRequest a) fuel
  return s

section Setup

variable {s t : System} {h : List Event} {fuel : Nat} {a : SetupAddresses}

/-- The event of a request that has returned. -/
def System.eventOf (s : System) (op : Op) (request : FAT32DriverRequest) (code : Int8) (t : System) : Event :=
  ⟨⟨op, request, s.memory⟩, code, t.memory, t.accesses⟩

theorem System.Serves.of_request (hs : s.Serves h) (op : Op) (request : FAT32DriverRequest)
    (hlive : Live (catalog h) request.parentClusterNumber) (hsize : request.bufferSize ≠ 0) (hfuel : 512 ≤ fuel) :
    ∃ code t, s.request op request fuel = .ok (code, t) ∧ t.Serves (s.eventOf op request code t :: h) ∧
      (op = .write → code = writeAnswer h request ∧ t.memory = s.memory) ∧
      (op = .read ∨ op = .write ∧ code ≠ 0 → t.disk = s.disk) ∧
      (op ≠ .delete → ∀ {p e data}, s.Keeps h p e data → t.Keeps (s.eventOf op request code t :: h) p e data) := by
  have ha : Allowed h ⟨op, request, s.memory⟩ := ⟨hlive, fun _ hzero => absurd hzero hsize⟩
  obtain ⟨code, t, hexec, hserves, hcode, hkeep⟩ := hs.exec ha hfuel
  refine ⟨code, t, hexec, hserves, fun hop => ⟨hcode hop, ?_⟩, hkeep, fun hop {p e data} hk =>
    hk.exec ha hop hfuel hexec⟩
  subst hop
  exact write_memory (s := (Call.mk .write request s.memory).start s) hexec

theorem System.Keeps.memcpy {p : UInt32 × Fin 64} {e : FAT32DirectoryEntry} {data : List Cluster}
    (hk : s.Keeps h p e data) (dest src : UInt32) (n : Nat) : (s.memcpy dest src n).Keeps h p e data :=
  ⟨hk.serves, hk.lists, hk.entry, hk.data⟩

theorem setupRequest_size {name : List Char} : (setupRequest a name).bufferSize ≠ 0 := by
  have hsize : (2048 : UInt32) ≠ 0 := by decide
  exact hsize

/-- The events of `kernel_setup`, and what they lead to. -/
structure SetupRun (fuel : Nat) (a : SetupAddresses) (s : System) (h : List Event) (t : System) : Prop where
  returns : kernelSetup fuel a s = .ok t
  events : ∃ e₁ e₂ e₃ : Event, t.Serves (e₃ :: e₂ :: e₁ :: h) ∧ e₁.call.op = .read ∧
    (e₂.call.op = .write ∧ e₂.call.request = kaikaiRequest a ∧ e₂.code = writeAnswer (e₁ :: h) (kaikaiRequest a)) ∧
    (e₃.call.op = .write ∧ e₃.call.request = lainRequest a ∧ e₃.code = writeAnswer (e₂ :: e₁ :: h) (lainRequest a)) ∧
    (e₂.code ≠ 0 → e₃.code ≠ 0 → t.disk = (initializeFilesystemFat32 s).disk)
  memory : ∃ code s₁, (initializeFilesystemFat32 s).request .read shellRequest fuel = .ok (code, s₁) ∧
    t.memory = ((s₁.memcpy a.cbuf a.lol 132).memcpy a.cbuf a.lain 20).memory
  keeps : ∀ {s₀ : System} {p e data}, s₀.Keeps h p e data → s.disk = s₀.disk → ∃ h', t.Keeps h' p e data

theorem kernelSetup_runs (hd : Stores s.disk h) (hfuel : 512 ≤ fuel) : ∃ t, SetupRun fuel a s h t := by
  have hs := hd.mount
  obtain ⟨code₁, s₁, hrun₁, hs₁, -, hkeep₁, hk₁⟩ := hs.of_request .read shellRequest (Live.root _) (by decide) hfuel
  have hs₁' : (s₁.memcpy a.cbuf a.lol 132).Serves _ := hs₁
  obtain ⟨code₂, s₂, hrun₂, hs₂, hwrite₂, hkeep₂, hk₂⟩ :=
    hs₁'.of_request .write (kaikaiRequest a) (Live.root _) setupRequest_size hfuel
  have hs₂' : (s₂.memcpy a.cbuf a.lain 20).Serves _ := hs₂
  obtain ⟨code₃, s₃, hrun₃, hs₃, hwrite₃, hkeep₃, hk₃⟩ :=
    hs₂'.of_request .write (lainRequest a) (Live.root _) setupRequest_size hfuel
  obtain ⟨hcode₂, hmem₂⟩ := hwrite₂ rfl
  obtain ⟨hcode₃, hmem₃⟩ := hwrite₃ rfl
  refine ⟨s₃, ?_, ⟨_, _, _, hs₃, rfl, ⟨rfl, rfl, hcode₂⟩, ⟨rfl, rfl, hcode₃⟩, fun hne₂ hne₃ => ?_⟩,
    ⟨code₁, s₁, hrun₁, ?_⟩, fun hk hdisk => ?_⟩
  · simp only [kernelSetup, hrun₁, Exec.ok_bind, hrun₂, hrun₃]
    rfl
  · rw [hkeep₃ (.inr ⟨rfl, hne₃⟩)]
    exact (hkeep₂ (.inr ⟨rfl, hne₂⟩)).trans (hkeep₁ (.inl rfl))
  · rw [hmem₃]
    simp only [System.memcpy, hmem₂]
  · have hread := hk₁ (by decide) (hk.mount hdisk)
    have hkaikai := hk₂ (by decide) (hread.memcpy a.cbuf a.lol 132)
    exact ⟨_, hk₃ (by decide) (hkaikai.memcpy a.cbuf a.lain 20)⟩

end Setup

end Os2024
