import Os2024.Fat32.Fresh
import Os2024.Interrupt.Session

/-!
# The two drivers in a session

System calls, interrupts and stores of programs come in any order. The disk and the FAT stay those of a run of the file
system on the calls made, and every character stored for a poll was typed, in this order and once: `session_sound`.
-/

namespace Os2024

/-- A session at its beginning: the file system has made some run, and the keyboard driver has not been called. -/
structure Session.Begins (s : Session) : Prop where
  fileSystem : ∃ m : Machine, m.Reachable ∧ Session.Serves m s
  keyboard : s.kernel.keyboardDriverState = initialKeyboardDriverState
  events : s.events = []
  received : s.received = []

section Sound

variable {s t : Session}

/-- **What the calls of a session leave**: a file system that holds the catalog of its calls, and characters that were
typed. -/
theorem session_sound (hbegin : s.Begins) (hrun : Session.Reaches Allowed s t) :
    (∃ m : Machine, m.Reachable ∧ Session.Serves m t) ∧
      Represents t.kernel.disk t.kernel.driverState.fatTable.clusterMap (catalog t.history) ∧
      (t.received.filter (· != 0)).Sublist (typed false false t.events) := by
  obtain ⟨m, hm, hserves⟩ := hbegin.fileSystem
  obtain ⟨m₀, hfresh, hreach⟩ := hm
  obtain ⟨n, hn, hserves'⟩ := hrun.machine hserves
  have hreachable : n.Reachable := ⟨m₀, hfresh, hreach.trans hn⟩
  have hfollows : Session.Follows initialKeyboardDriverState s :=
    ⟨hbegin.keyboard.trans (by rw [hbegin.events]; rfl), hbegin.received.trans (by rw [hbegin.events]; rfl)⟩
  refine ⟨⟨n, hreachable, hserves'⟩, ?_, ?_⟩
  · have hrep := hreachable.sound.represents
    rwa [hserves'.history, hserves'.disk, System.fat, hserves'.driverState] at hrep
  · rw [(hrun.keyboard hfollows).received]
    exact delivered_sublist_pending

/-! ## A run -/

/-- The session that begins with a file system in use; memory is zero. -/
def Session.atStart (m : Machine) : Session where
  kernel := ⟨fun _ => 0, m.system.disk, m.system.driverState, initialKeyboardDriverState, ⟨0, 0⟩⟩
  history := m.history
  events := []
  received := []

theorem Session.atStart_begins {m : Machine} (hm : m.Reachable) : (Session.atStart m).Begins :=
  ⟨⟨m, hm, rfl, rfl, rfl⟩, rfl, rfl, rfl⟩

/-- A frame with a vector and a number of a system call; the other registers are zero. -/
def plainFrame (intNumber eax : UInt32) : InterruptFrame where
  cpu := ⟨⟨0, 0⟩, ⟨0, 0⟩, ⟨0, 0, 0, eax⟩, ⟨0, 0, 0, 0⟩⟩
  intNumber := intNumber
  intStack := ⟨0, 0, 0, 0⟩

/-- The session after the input was switched on, a key was pressed and polled. -/
def Session.typedOnce (s : Session) : Session :=
  let on := s.afterSyscall 0 (plainFrame 0x30 7).cpu.general
    { s.kernel with keyboardDriverState := s.kernel.keyboardDriverState.activate }
  let pressed := on.afterInterrupt 0x1E (plainFrame irqKeyboardVector 0)
  pressed.afterSyscall 0 (plainFrame 0x30 4).cpu.general (keyboardCall 0 pressed.kernel)

theorem Session.reaches_typedOnce (s : Session) : Session.Reaches Allowed s s.typedOnce := by
  refine Relation.ReflTransGen.trans (.single (@Step.syscall _ _ (plainFrame 0x30 7) 0 _ ?_ rfl)) ?_
  · intro call hcall
    cases hcall
  refine Relation.ReflTransGen.trans (.single (.interrupt 0x1E (plainFrame irqKeyboardVector 0))) ?_
  refine .single (@Step.syscall _ _ (plainFrame 0x30 4) 0 _ ?_ rfl)
  intro call hcall
  cases hcall

theorem Session.typedOnce_received {s : Session} (h : s.kernel.keyboardDriverState = initialKeyboardDriverState) :
    s.typedOnce.received = s.received ++ [97] := by
  simp only [typedOnce, afterSyscall, afterInterrupt, mainInterruptHandler, plainFrame, if_true, h]
  exact congrArg (· ++ [97]) ((List.append_nil _).trans rfl)

/-- Memory with a request at `0x100`: one byte at address `0` to the file `aaaaaaaa` in the root. -/
def requestMemory : Memory := fun a =>
  if 0x104 ≤ a ∧ a < 0x10C then 97 else if a = 0x10F then 2 else if a = 0x113 then 1 else 0

theorem loadRequest_requestMemory : loadRequest requestMemory 0x100 =
    (writeCall (fun _ => 97) 1 requestMemory).request := by
  have hbuf : requestMemory.load 0x100 4 = fun _ => 0 := by decide
  have hname : requestMemory.load (0x100 + 4) 8 = fun _ => 97 := by decide
  have hext : requestMemory.load (0x100 + 12) 3 = fun _ => 0 := by decide
  simp only [loadRequest, hbuf, hname, hext, writeCall, FAT32DriverRequest.mk.injEq, true_and]
  decide

/-- A program that asks for the write, at the frame of a system call. -/
def writeFrame : InterruptFrame := { plainFrame 0x30 2 with cpu.general := ⟨0x100, 0, 0x200, 2⟩ }

/-- The file is made, then the key is pressed and received. -/
theorem session_sound_typed : ∃ t, Session.Reaches Allowed (Session.atStart blankMachine) t ∧
    t.history.map Event.call = [writeCall (fun _ => 97) 1 requestMemory] ∧ t.received = [97] ∧
    Represents t.kernel.disk t.kernel.driverState.fatTable.clusterMap (catalog t.history) ∧
    (t.received.filter (· != 0)).Sublist (typed false false t.events) := by
  have hfresh := blankMachine_fresh
  generalize blankMachine = m at hfresh ⊢
  obtain ⟨s, hs⟩ : ∃ s, s = (Session.atStart m).afterStores requestMemory := ⟨_, rfl⟩
  have hload : loadRequest s.kernel.memory writeFrame.cpu.general.ebx =
      (writeCall (fun _ => 97) 1 requestMemory).request := hs ▸ loadRequest_requestMemory
  have hcallOf : fileCallOf writeFrame.cpu.general s.kernel = some (writeCall (fun _ => 97) 1 requestMemory) := by
    rw [fileCallOf, hload, hs]
    rfl
  obtain ⟨sys, hrun⟩ : ∃ sys, Op.write.run 512 (writeCall (fun _ => 97) 1 requestMemory).request s.kernel.system =
      .ok (0, sys) := by
    rw [hs]
    exact ⟨_, hfresh.exec_write (writeCall_fitsRoot (fun _ => 97) 1 requestMemory (by decide))⟩
  obtain ⟨k, hk, hkey⟩ : ∃ k, syscall 512 writeFrame s.kernel = .ok k ∧
      k.keyboardDriverState = initialKeyboardDriverState := by
    rw [syscall_of_fileOp (show fileOp writeFrame.cpu.general.eax = some .write from rfl), fileCall, hload, hrun, hs]
    exact ⟨_, rfl, rfl⟩
  have hstep : Session.Reaches Allowed (Session.atStart m) (s.afterSyscall 512 writeFrame.cpu.general k) := by
    refine .tail (.single (.stores requestMemory)) (hs ▸ .syscall (fun call hcall => ?_) hk)
    obtain rfl : writeCall (fun _ => 97) 1 requestMemory = call := Option.some.inj (hcallOf.symm.trans hcall)
    exact ⟨Live.root _, writeCall_folderOk (by decide)⟩
  have hreach := Relation.ReflTransGen.trans hstep (Session.reaches_typedOnce _)
  refine ⟨_, hreach, ?_, ?_, (session_sound (Session.atStart_begins ⟨m, hfresh, .refl⟩) hreach).2⟩
  · have hold : s.history = [] := by rw [hs]; exact hfresh.history
    have hrun' : (writeCall (fun _ => 97) 1 requestMemory).op.run 512 (writeCall (fun _ => 97) 1 requestMemory).request
        s.kernel.system = .ok (0, sys) := hrun
    change (answered 512 writeFrame.cpu.general s.kernel ++ s.history).map Event.call = _
    simp only [hold, answered, hcallOf, hrun', List.append_nil, List.map_cons, List.map_nil]
  · rw [Session.typedOnce_received hkey, Session.afterSyscall, hs]
    rfl

end Sound

end Os2024
