import Os2024.Shell.Shell

/-!
# Copying a file

`cp` of `ch2/user-shell/cp.c`. Its buffer, its two requests and `error_code` are at addresses, apart from each other;
the arrays for names and extensions are values. Nothing is stored in `error_code` before the kernel stores one byte
there, and `cp` reads four.
-/

namespace Os2024

/-- Where the variables of `cp` are, and what an interrupt finds in the registers that carry no argument. -/
structure CpFrame where
  clusterBuffer : UInt32
  srcRequest : UInt32
  destRequest : UInt32
  errorCode : UInt32
  interrupt : InterruptFrame
  apart_buffer : Apart clusterBuffer 2048 errorCode 4
  apart_src : Apart srcRequest 23 errorCode 4
  apart_dest : Apart destRequest 23 errorCode 4

/-- The loop that looks for the dot. -/
def dotIndex (mem : Memory) (token : UInt32) (length : Nat) : Option Nat :=
  (List.range length).find? fun i => mem (token + UInt32.ofNat i) = 46

/-- `n` characters of a token from index `from` on, in an array of zeros. -/
def tokenArray {w : Nat} (mem : Memory) (token : UInt32) (start n : Nat) : Fin w → UInt8 := fun k =>
  if k < n then mem (token + UInt32.ofNat (start + k)) else 0

/-- The name and the extension of a token. -/
def splitToken (mem : Memory) (token : UInt32) (length : Nat) : Option (Name × Ext) :=
  match dotIndex mem token length with
  | none => none
  | some dot =>
    if dot > 8 ∨ length - 1 - dot > 3 then none
    else some (tokenArray mem token 0 dot, tokenArray mem token (dot + 1) (length - dot - 1))

/-- `src_request` and `dest_request`. -/
def cpRequest (frame : CpFrame) (file : Name × Ext) (shell : Shell) : FAT32DriverRequest where
  buf := frame.clusterBuffer
  name := file.1
  ext := file.2
  parentClusterNumber := shell.currentDirectory
  bufferSize := 2048

/-- What `cp` does before it reads. -/
def cpPrepareRead (frame : CpFrame) (src : Name × Ext) (shell : Shell) (k : Kernel) : Kernel :=
  let memory := k.memory.store (n := 2048) frame.clusterBuffer fun _ => 0
  { k with memory := memory.store frame.srcRequest (cpRequest frame src shell).bytes }

/-- What `cp` does before it writes. -/
def cpPrepareWrite (frame : CpFrame) (dest : Name × Ext) (shell : Shell) (k : Kernel) : Kernel :=
  { k with memory := k.memory.store frame.destRequest (cpRequest frame dest shell).bytes }

/-- `cp`: the kernel afterwards, and what is printed. -/
def cp (fuel : Nat) (frame : CpFrame) (args : Arguments) (shell : Shell) (k : Kernel) :
    KernelExec (Kernel × List Glyph) :=
  if args.count ≠ 3 then .ok (k, inColor red (characters "cp: incorrect number of arguments\n"))
  else
    match splitToken k.memory (args.address 1) (args.info 1).2 with
    | none => .ok (k, inColor red (characters "cp: invalid source file name\n"))
    | some src =>
      match splitToken k.memory (args.address 2) (args.info 2).2 with
      | none => .ok (k, inColor red (characters "cp: invalid destination file name\n"))
      | some dest => do
        let k ← syscalls fuel frame.interrupt 0 frame.srcRequest frame.errorCode 0 (cpPrepareRead frame src shell k)
        if k.memory.loadInt frame.errorCode ≠ 0 then
          .ok (k, inColor red (characters "cp: cannot read from source file\n"))
        else do
          let k ← syscalls fuel frame.interrupt 2 frame.destRequest frame.errorCode 0
            (cpPrepareWrite frame dest shell k)
          if k.memory.loadInt frame.errorCode ≠ 0 then
            .ok (k, inColor red (characters "cp: cannot copy to destination file\n"))
          else .ok (k, [])

section Calls

variable {fuel : Nat} {frame : CpFrame} {args : Arguments} {shell : Shell} {k k' : Kernel} {src dest : Name × Ext}
  {code : Int8} {s : System}

/-- The read of `cp`, as a call of the file system. -/
theorem cpRead_eq_exec {t : System} (hdisk : k.disk = t.disk) (hstate : k.driverState = t.driverState) :
    (cpPrepareRead frame src shell k).perform fuel .read frame.srcRequest =
      Call.exec ⟨.read, cpRequest frame src shell, (cpPrepareRead frame src shell k).memory⟩ fuel t := by
  have hrequest : loadRequest (cpPrepareRead frame src shell k).memory frame.srcRequest = cpRequest frame src shell :=
    loadRequest_store _
  have hstart : (cpPrepareRead frame src shell k).system =
      Call.start ⟨.read, cpRequest frame src shell, (cpPrepareRead frame src shell k).memory⟩ t := by
    rw [Kernel.system, Call.start, ← hdisk, ← hstate]
    rfl
  rw [Kernel.perform_read, hrequest, hstart]
  rfl

section Tokens

variable (hcount : args.count = 3) (hsrc : splitToken k.memory (args.address 1) (args.info 1).2 = some src)
  (hdest : splitToken k.memory (args.address 2) (args.info 2).2 = some dest)
  (hread : syscalls fuel frame.interrupt 0 frame.srcRequest frame.errorCode 0 (cpPrepareRead frame src shell k) =
    .ok k')
include hcount hsrc hdest hread

/-- `cp` stops after its read. -/
theorem cp_of_read_ne (h : k'.memory.loadInt frame.errorCode ≠ 0) :
    cp fuel frame args shell k = .ok (k', inColor red (characters "cp: cannot read from source file\n")) := by
  rw [cp, if_neg (not_not.mpr hcount), hsrc, hdest]
  dsimp only
  rw [hread]
  exact if_pos h

variable (h : k'.memory.loadInt frame.errorCode = 0)
  (hwrite : (cpPrepareWrite frame dest shell k').perform fuel .write frame.destRequest = .ok (code, s))
include h hwrite

/-- `cp` goes on to its write. -/
theorem cp_of_read_eq : cp fuel frame args shell k =
    let k := (cpPrepareWrite frame dest shell k').answered frame.errorCode code s
    if k.memory.loadInt frame.errorCode ≠ 0 then
      .ok (k, inColor red (characters "cp: cannot copy to destination file\n"))
    else .ok (k, []) := by
  rw [cp, if_neg (not_not.mpr hcount), hsrc, hdest]
  dsimp only
  rw [hread]
  refine (if_neg (not_not.mpr h)).trans ?_
  rw [syscalls_write hwrite]
  dsimp only [bind, Except.bind]

/-- `cp` stops after its write. -/
theorem cp_of_write_ne
    (hne : ((cpPrepareWrite frame dest shell k').answered frame.errorCode code s).memory.loadInt frame.errorCode ≠ 0) :
    cp fuel frame args shell k = .ok ((cpPrepareWrite frame dest shell k').answered frame.errorCode code s,
      inColor red (characters "cp: cannot copy to destination file\n")) :=
  (cp_of_read_eq hcount hsrc hdest hread h hwrite).trans (if_pos hne)

/-- `cp` gets to its end. -/
theorem cp_of_write_eq
    (heq : ((cpPrepareWrite frame dest shell k').answered frame.errorCode code s).memory.loadInt frame.errorCode = 0) :
    cp fuel frame args shell k = .ok ((cpPrepareWrite frame dest shell k').answered frame.errorCode code s, []) :=
  (cp_of_read_eq hcount hsrc hdest hread h hwrite).trans (if_neg (not_not.mpr heq))

end Tokens

end Calls

/-! ## A call of `cp` -/

theorem cpStack_apart : Apart 4096 2048 6208 4 ∧ Apart 6144 23 6208 4 ∧ Apart 6176 23 6208 4 :=
  ⟨Apart.of_le (by decide) (by decide), Apart.of_le (by decide) (by decide), Apart.of_le (by decide) (by decide)⟩

/-- The four variables next to each other. -/
def cpStack : CpFrame where
  clusterBuffer := 4096
  srcRequest := 6144
  destRequest := 6176
  errorCode := 6208
  interrupt := ⟨⟨⟨0, 0⟩, ⟨0, 0⟩, ⟨0, 0, 0, 0⟩, ⟨0, 0, 0, 0⟩⟩, 0x30, ⟨0, 0, 0, 0⟩⟩
  apart_buffer := cpStack_apart.1
  apart_src := cpStack_apart.2.1
  apart_dest := cpStack_apart.2.2

/-- `aaaaaaaa. bbbbbbbb.` -/
def twoTokens : List UInt8 := List.replicate 8 97 ++ [46, 32] ++ List.replicate 8 98 ++ [46]

/-- The arguments of `cp aaaaaaaa. bbbbbbbb.`, at address `0`. -/
def cpExample : Arguments := ⟨0, fun i => if i = 1 then (0, 9) else (10, 9), 3⟩

theorem splitToken_of_dot {mem : Memory} {token : UInt32} {length dot : Nat} (h : dotIndex mem token length = some dot)
    (hname : dot ≤ 8) (hext : length - 1 - dot ≤ 3) : splitToken mem token length =
      some (tokenArray mem token 0 dot, tokenArray mem token (dot + 1) (length - dot - 1)) := by
  rw [splitToken, h]
  exact if_neg (by omega)

theorem splitToken_src (rest : UInt8) :
    splitToken (textMemory twoTokens rest) (cpExample.address 1) (cpExample.info 1).2 =
      some (fun _ => 97, fun _ => 0) := by
  have hdot : dotIndex (textMemory twoTokens rest) (cpExample.address 1) 9 = some 8 := rfl
  have hname : (tokenArray (textMemory twoTokens rest) (cpExample.address 1) 0 8 : Name) = fun _ => 97 :=
    funext fun k => by fin_cases k <;> rfl
  have hext : (tokenArray (textMemory twoTokens rest) (cpExample.address 1) 9 0 : Ext) = fun _ => 0 := rfl
  exact (splitToken_of_dot hdot (by decide) (by decide)).trans (by rw [hname, hext])

theorem splitToken_dest (rest : UInt8) :
    splitToken (textMemory twoTokens rest) (cpExample.address 2) (cpExample.info 2).2 =
      some (fun _ => 98, fun _ => 0) := by
  have hdot : dotIndex (textMemory twoTokens rest) (cpExample.address 2) 9 = some 8 := rfl
  have hname : (tokenArray (textMemory twoTokens rest) (cpExample.address 2) 0 8 : Name) = fun _ => 98 :=
    funext fun k => by fin_cases k <;> rfl
  have hext : (tokenArray (textMemory twoTokens rest) (cpExample.address 2) 9 0 : Ext) = fun _ => 0 := rfl
  exact (splitToken_of_dot hdot (by decide) (by decide)).trans (by rw [hname, hext])

end Os2024
