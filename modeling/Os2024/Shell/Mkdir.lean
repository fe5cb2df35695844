import Os2024.Shell.Shell

/-!
# Making a directory

`mkdir` of `ch2/user-shell/mkdir.c`. Its request and `errorCode` are at addresses; the kernel stores one byte at the
latter, and `mkdir` reads four.
-/

namespace Os2024

/-- Where the variables of `mkdir` are, and what an interrupt finds in the registers that carry no argument. -/
structure MkdirFrame where
  request : UInt32
  errorCode : UInt32
  interrupt : InterruptFrame

/-- The request, without a name yet. -/
def mkdirRequest (shell : Shell) : FAT32DriverRequest where
  buf := 0
  name := fun _ => 0
  ext := fun _ => 0
  parentClusterNumber := shell.currentDirectory
  bufferSize := 0

/-- What `mkdir` does before its system call: it sets up the request, copies the name and clears `errorCode`. -/
def mkdirPrepare (frame : MkdirFrame) (args : Arguments) (shell : Shell) (k : Kernel) : Kernel :=
  let memory := k.memory.store frame.request (mkdirRequest shell).bytes
  let memory := memory.copyUp (frame.request + 4) (args.address 1) (args.info 1).2
  { k with memory := memory.store frame.errorCode (le32 0) }

/-- The cases of `mkdir`. -/
def mkdirMessage (errorCode : Int32) : String :=
  if errorCode = 1 then "': Folder exists\n"
  else if errorCode = 2 then "': Invalid parent cluster\n"
  else if errorCode = -1 then "': Unknown error occurred\n"
  else "': Invalid error code\n"

/-- What `mkdir` prints for an error code. -/
def mkdirReport (name : List UInt8) (errorCode : Int32) : List Glyph :=
  if errorCode ≠ 0 then
    inColor red (characters "mkdir: cannot create directory '" ++ name ++ characters (mkdirMessage errorCode))
  else []

/-- `mkdir`: the kernel afterwards, and what is printed. -/
def mkdir (fuel : Nat) (frame : MkdirFrame) (args : Arguments) (shell : Shell) (k : Kernel) :
    KernelExec (Kernel × List Glyph) :=
  if args.count ≠ 2 then .ok (k, inColor red (characters "mkdir: too many arguments\n"))
  else if (args.info 1).2 > 8 then .ok (k, inColor red (characters "mkdir: directory name is too long\n"))
  else do
    let k ← syscalls fuel frame.interrupt 2 frame.request frame.errorCode 0 (mkdirPrepare frame args shell k)
    .ok (k, mkdirReport (k.memory.putsText (args.address 1) (UInt32.ofNat (args.info 1).2))
      (k.memory.loadInt frame.errorCode))

section Calls

variable {fuel : Nat} {frame : MkdirFrame} {args : Arguments} {shell : Shell} {k : Kernel} {code : Int8} {s : System}

/-- `mkdir` once the kernel has answered. -/
theorem mkdir_eq (hcount : args.count = 2) (hlen : (args.info 1).2 ≤ 8)
    (h : (mkdirPrepare frame args shell k).perform fuel .write frame.request = .ok (code, s)) :
    mkdir fuel frame args shell k =
      let k' := (mkdirPrepare frame args shell k).answered frame.errorCode code s
      .ok (k', mkdirReport (k'.memory.putsText (args.address 1) (UInt32.ofNat (args.info 1).2))
        (k'.memory.loadInt frame.errorCode)) := by
  rw [mkdir, if_neg (not_not.mpr hcount), if_neg (Nat.not_lt.mpr hlen), syscalls_write h]
  rfl

/-- `errorCode` was cleared, so what `mkdir` tests is the code exactly if that is not negative. -/
theorem mkdir_loadInt_iff
    (h : (mkdirPrepare frame args shell k).perform fuel .write frame.request = .ok (code, s)) :
    Memory.loadInt ((mkdirPrepare frame args shell k).answered frame.errorCode code s).memory frame.errorCode =
      code.toInt32 ↔ 0 ≤ code := by
  rw [Kernel.perform_write] at h
  have hmem : s.memory = (mkdirPrepare frame args shell k).memory := write_memory h
  refine Memory.loadInt_update_zero_iff fun j _ => ?_
  rw [hmem]
  exact (Memory.store_apply (by decide) j.isLt).trans (by fin_cases j <;> rfl)

end Calls

end Os2024
