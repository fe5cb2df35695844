import Os2024.Boot.Mount

/-!
# The inserter

`main` of `ch2/external-inserter/external-inserter.c`: it mounts the image, writes one file to it and stores the image
again. Addresses in its memory are relative to `file_buffer`.
-/

namespace Os2024

namespace Inserter

/-! ## Arguments -/

/-- `isspace`. -/
def isSpace (c : UInt8) : Bool := c == 32 || (9 ≤ c && c ≤ 13)

/-- `sscanf` with `%8s`: at most eight characters of the first word. -/
def scanName (argv : List UInt8) : List UInt8 :=
  ((argv.dropWhile isSpace).takeWhile fun c => !isSpace c).take 8

/-- The digits of a decimal number. -/
def scanDigits (s : List UInt8) : Nat :=
  (s.takeWhile fun c => 48 ≤ c && c ≤ 57).foldl (fun n c => 10 * n + (c.toNat - 48)) 0

/-- `strtoul`, with 64 bits: a number that has more is the largest, whatever its sign. -/
def strtoul (negative : Bool) (n : Nat) : UInt64 :=
  if n < 2 ^ 64 then if negative then -UInt64.ofNat n else UInt64.ofNat n else 0xFFFFFFFFFFFFFFFF

/-- `sscanf` with `%u` into a variable that is zero. -/
def scanUnsigned (argv : List UInt8) : UInt32 :=
  match argv.dropWhile isSpace with
  | 45 :: s => (strtoul true (scanDigits s)).toUInt32
  | 43 :: s => (strtoul false (scanDigits s)).toUInt32
  | s => (strtoul false (scanDigits s)).toUInt32

/-- The arguments and what the inserter finds. -/
structure Insertion where
  fileName : List UInt8
  parentClusterIndex : List UInt8
  /-- The contents of the file, if it can be opened. -/
  file : Option (List UInt8)
  /-- What is in `file_buffer` before the file is read. -/
  heap : Memory

namespace Insertion

/-- `file_buffer`: the first 4 MiB of the file. -/
def fileBuffer (x : Insertion) : Memory := fun a =>
  match x.file with
  | some bytes => if a.toNat < 4 * 1024 * 1024 then bytes.getD a.toNat (x.heap a) else x.heap a
  | none => x.heap a

def filesize (x : Insertion) : Nat := (x.file.getD []).length

def request (x : Insertion) : FAT32DriverRequest where
  buf := 0
  name := fun k => (scanName x.fileName).getD k 0
  ext := fun _ => 0
  parentClusterNumber := scanUnsigned x.parentClusterIndex
  bufferSize := UInt32.ofNat x.filesize

def call (x : Insertion) : Call := ⟨.write, x.request, x.fileBuffer⟩

end Insertion

/-- What `main` prints for a return code. -/
def report (retcode : Int8) : String :=
  if retcode = 0 then "Write success"
  else if retcode = 1 then "Error: File/folder name already exist"
  else if retcode = 2 then "Error: Invalid parent cluster"
  else "Error: Unknown error"

/-- `main`: what it prints last, and the file system with the image that it stores. -/
def main (fuel : Nat) (x : Insertion) (s : System) : Exec (String × System) := do
  let (retcode, s) ← x.call.exec fuel (initializeFilesystemFat32 s)
  return (report retcode, s)

section Main

variable {x : Insertion} {s t : System} {h : List Event} {fuel : Nat} {msg : String}

/-- A file is inserted into a live folder, and is not empty. -/
structure Insertion.Proper (x : Insertion) (h : List Event) : Prop where
  live : Live (catalog h) x.request.parentClusterNumber
  file : x.request.bufferSize ≠ 0

theorem Insertion.Proper.allowed (hx : x.Proper h) : Allowed h x.call := ⟨hx.live, fun _ hzero => absurd hzero hx.file⟩

theorem main_eq_ok : main fuel x s = .ok (msg, t) ↔
    ∃ retcode, x.call.exec fuel (initializeFilesystemFat32 s) = .ok (retcode, t) ∧ msg = report retcode := by
  rw [main]
  cases hexec : x.call.exec fuel (initializeFilesystemFat32 s) with
  | error e =>
    constructor
    · intro h
      cases h
    · rintro ⟨_, h, -⟩
      cases h
  | ok r =>
    obtain ⟨retcode, t'⟩ := r
    constructor
    · intro h
      cases h
      exact ⟨retcode, rfl, rfl⟩
    · rintro ⟨_, h, rfl⟩
      cases h
      rfl

/-- `main` writes the file, or reports why not, and the image stays one that a run has left. -/
theorem main_stores (hd : Stores s.disk h) (hx : x.Proper h) (hfuel : 512 ≤ fuel) :
    ∃ t, main fuel x s = .ok (report (writeAnswer h x.request), t) ∧
      t.Serves (⟨x.call, writeAnswer h x.request, t.memory, t.accesses⟩ :: h) ∧
      (writeAnswer h x.request ≠ 0 → t.disk = (initializeFilesystemFat32 s).disk) := by
  obtain ⟨code, t, hexec, hserves, hcode, hkeep⟩ := hd.mount.exec hx.allowed hfuel
  obtain rfl : code = writeAnswer h x.request := hcode rfl
  exact ⟨t, main_eq_ok.mpr ⟨_, hexec, rfl⟩, hserves, fun hne => hkeep (.inr ⟨rfl, hne⟩)⟩

end Main

end Inserter

end Os2024
