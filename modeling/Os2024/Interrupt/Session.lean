import Os2024.Fat32.Runs
import Os2024.Interrupt.Interrupt
import Os2024.Properties.Keyboard

/-!
# Sessions

A session is the kernel with what has passed between it and the programs: the calls of the file system and their
answers, the calls of the keyboard driver, and the characters that were stored for polls. In a step the kernel carries
out a system call, handles an interrupt, or a program changes memory.

What the other steps do is invisible to either of the two drivers, so a session is a run of the file system
(`Session.Reaches.machine`) and a run of the keyboard driver (`Session.Reaches.keyboard`) at once.
-/

namespace Os2024

/-! ## The part of the drivers -/

/-- The operation of a system call, if it is one of the file system's. -/
def fileOp (eax : UInt32) : Option Op :=
  match eax.toNat with
  | 0 => some .read
  | 1 => some .readDirectory
  | 2 => some .write
  | 3 => some .delete
  | _ => none

/-- The call of the file system that a system call makes. -/
def fileCallOf (general : GeneralRegister) (k : Kernel) : Option Call :=
  (fileOp general.eax).map fun op => ⟨op, loadRequest k.memory general.ebx, k.memory⟩

/-- A call of the file system that has returned, for the history. -/
def answered (fuel : Nat) (general : GeneralRegister) (k : Kernel) : List Event :=
  match fileCallOf general k with
  | none => []
  | some call =>
    match call.op.run fuel call.request k.system with
    | .ok (code, s) => [⟨call, code, s.memory, s.accesses⟩]
    | .error _ => []

/-- The call of the keyboard driver that a system call makes. -/
def keyboardEvents (general : GeneralRegister) : List KeyboardEvent :=
  match general.eax.toNat with
  | 4 => [.poll]
  | 7 => [.activate]
  | _ => []

/-- The character that a system call stores for a poll. -/
def stored (general : GeneralRegister) (k : Kernel) : List UInt8 :=
  match general.eax.toNat with
  | 4 => [k.memory general.ebx]
  | _ => []

/-! ## Steps -/

structure Session where
  kernel : Kernel
  /-- The calls of the file system, newest first. -/
  history : List Event
  /-- The calls of the keyboard driver, oldest first. -/
  events : List KeyboardEvent
  /-- What was stored for polls, oldest first. -/
  received : List UInt8

namespace Session

/-- The session after a system call that has left the kernel `k`. -/
def afterSyscall (s : Session) (fuel : Nat) (general : GeneralRegister) (k : Kernel) : Session where
  kernel := k
  history := answered fuel general s.kernel ++ s.history
  events := s.events ++ keyboardEvents general
  received := s.received ++ stored general k

/-- The session after an interrupt. -/
def afterInterrupt (s : Session) (scancode : UInt8) (frame : InterruptFrame) : Session :=
  { s with
    kernel := mainInterruptHandler scancode frame s.kernel
    events := s.events ++ if frame.intNumber = irqKeyboardVector then [.isr scancode] else [] }

/-- The session after stores of a program. -/
def afterStores (s : Session) (memory : Memory) : Session := { s with kernel := { s.kernel with memory := memory } }

/-- A step of a session; the calls of the file system are among those that the history admits. -/
inductive Step (Admits : List Event → Call → Prop) : Session → Session → Prop
  | syscall {s : Session} {frame : InterruptFrame} {fuel : Nat} {k : Kernel}
      (ha : ∀ call ∈ fileCallOf frame.cpu.general s.kernel, Admits s.history call)
      (hcall : Os2024.syscall fuel frame s.kernel = .ok k) : Step Admits s (s.afterSyscall fuel frame.cpu.general k)
  | interrupt {s : Session} (scancode : UInt8) (frame : InterruptFrame) : Step Admits s (s.afterInterrupt scancode frame)
  | stores {s : Session} (memory : Memory) : Step Admits s (s.afterStores memory)

/-- A finite run of steps. -/
abbrev Reaches (Admits : List Event → Call → Prop) : Session → Session → Prop := Relation.ReflTransGen (Step Admits)

end Session

/-! ## One system call -/

section Syscall

variable {fuel : Nat} {frame : InterruptFrame} {k k' : Kernel} {op : Op}

/-- The system calls of the file system. -/
theorem syscall_of_fileOp (h : fileOp frame.cpu.general.eax = some op) :
    syscall fuel frame k = fileCall fuel op frame.cpu.general k := by
  unfold fileOp at h
  unfold syscall
  dsimp only
  split at h <;> cases h <;> simp only [*]

/-- What a system call of the file system leaves. -/
theorem syscall_file (h : fileOp frame.cpu.general.eax = some op) (hcall : syscall fuel frame k = .ok k') :
    ∃ code s, op.run fuel (loadRequest k.memory frame.cpu.general.ebx) k.system = .ok (code, s) ∧
      k'.disk = s.disk ∧ k'.driverState = s.driverState ∧ k'.keyboardDriverState = k.keyboardDriverState := by
  rw [syscall_of_fileOp h, fileCall] at hcall
  cases hrun : op.run fuel (loadRequest k.memory frame.cpu.general.ebx) k.system with
  | error e =>
    rw [hrun] at hcall
    cases hcall
  | ok r =>
    rw [hrun] at hcall
    cases hcall
    exact ⟨r.1, r.2, rfl, rfl, rfl, rfl⟩

/-- The other system calls leave the file system alone. -/
theorem syscall_other (h : fileOp frame.cpu.general.eax = none) (hcall : syscall fuel frame k = .ok k') :
    k'.disk = k.disk ∧ k'.driverState = k.driverState := by
  unfold fileOp at h
  unfold syscall at hcall
  dsimp only at hcall
  split at hcall <;> simp only [*] at h <;> cases h <;> cases hcall <;> exact ⟨rfl, rfl⟩

/-- What a system call does to the keyboard driver, and what it stores for a poll. -/
theorem syscall_keyboard (hcall : syscall fuel frame k = .ok k') :
    k'.keyboardDriverState = (keyboardEvents frame.cpu.general).foldl KeyboardEvent.exec k.keyboardDriverState ∧
      stored frame.cpu.general k' = polled (keyboardEvents frame.cpu.general) k.keyboardDriverState := by
  cases hop : fileOp frame.cpu.general.eax with
  | some op =>
    obtain ⟨-, -, -, -, -, hkey⟩ := syscall_file hop hcall
    unfold fileOp at hop
    rw [hkey, keyboardEvents, stored]
    split at hop <;> cases hop <;> simp only [*] <;> exact ⟨rfl, rfl⟩
  | none =>
    unfold syscall at hcall
    dsimp only at hcall
    rw [keyboardEvents, stored]
    unfold fileOp at hop
    split at hcall <;> simp only [*] at hop ⊢ <;> cases hop <;> cases hcall
    case h_5 => exact ⟨rfl, congrArg (fun c => [c]) (Function.update_self ..)⟩
    all_goals exact ⟨rfl, rfl⟩

end Syscall

/-! ## Runs -/

section Runs

variable {Admits : List Event → Call → Prop} {m : Machine} {s t : Session}

/-- The machine has the disk, the driver state and the history of the session. -/
structure Session.Serves (m : Machine) (s : Session) : Prop where
  disk : m.system.disk = s.kernel.disk
  driverState : m.system.driverState = s.kernel.driverState
  history : m.history = s.history

/-- The call of a system call starts in the file system of the kernel. -/
theorem Session.Serves.start (h : Serves m s) (op : Op) (request : FAT32DriverRequest) :
    (Call.mk op request s.kernel.memory).start m.system = s.kernel.system := by
  simp only [Call.start, Kernel.system, h.disk, h.driverState]

/-- A step of a session is a call of the file system, or none. -/
theorem Session.Step.machine (hstep : Step Admits s t) (h : Serves m s) :
    ∃ n, Machine.Reaches Admits m n ∧ Serves n t := by
  cases hstep with
  | @syscall frame fuel k ha hcall =>
    cases hop : fileOp frame.cpu.general.eax with
    | none =>
      obtain ⟨hdisk, hstate⟩ := syscall_other hop hcall
      refine ⟨m, .refl, h.disk.trans hdisk.symm, h.driverState.trans hstate.symm, h.history.trans ?_⟩
      simp only [afterSyscall, answered, fileCallOf, hop, Option.map_none, List.nil_append]
    | some op =>
      obtain ⟨code, sys, hrun, hdisk, hstate, -⟩ := syscall_file hop hcall
      obtain ⟨call, hdef⟩ : ∃ call, call = Call.mk op (loadRequest s.kernel.memory frame.cpu.general.ebx) s.kernel.memory :=
        ⟨_, rfl⟩
      have hcallOf : fileCallOf frame.cpu.general s.kernel = some call := by rw [hdef, fileCallOf, hop, Option.map_some]
      have hexec : call.exec fuel m.system = .ok (code, sys) := by
        rw [← h.start op (loadRequest s.kernel.memory frame.cpu.general.ebx)] at hrun
        rw [hdef]
        exact hrun
      have hadmits : Admits m.history call := h.history ▸ ha call hcallOf
      refine ⟨m.after call code sys, .single (.call hadmits hexec), hdisk.symm, hstate.symm, ?_⟩
      rw [hdef] at hcallOf ⊢
      simp only [Machine.after, afterSyscall, answered, hcallOf, hrun, h.history, List.singleton_append]
  | interrupt scancode frame =>
    refine ⟨m, .refl, h.disk.trans ?_, h.driverState.trans ?_, h.history⟩ <;>
      rw [afterInterrupt, mainInterruptHandler] <;> split <;> rfl
  | stores memory => exact ⟨m, .refl, h.disk, h.driverState, h.history⟩

/-- **The file system sees its calls only**: a run of sessions is a run of the file system. -/
theorem Session.Reaches.machine (hrun : Reaches Admits s t) (h : Serves m s) :
    ∃ n, Machine.Reaches Admits m n ∧ Serves n t := by
  induction hrun with
  | refl => exact ⟨m, .refl, h⟩
  | tail _ hstep ih =>
    obtain ⟨n, hn, hserves⟩ := ih
    obtain ⟨n', hn', hserves'⟩ := hstep.machine hserves
    exact ⟨n', hn.trans hn', hserves'⟩

/-- The keyboard driver has seen the events of the session since `k`, and polls stored what it returned. -/
structure Session.Follows (k : KeyboardDriverState) (s : Session) : Prop where
  state : s.kernel.keyboardDriverState = s.events.foldl KeyboardEvent.exec k
  received : s.received = polled s.events k

theorem Session.Step.keyboard {k : KeyboardDriverState} (hstep : Step Admits s t) (h : Follows k s) : Follows k t := by
  cases hstep with
  | syscall ha hcall =>
    obtain ⟨hstate, hstored⟩ := syscall_keyboard hcall
    rw [h.state] at hstate hstored
    constructor
    · rw [afterSyscall, List.foldl_append, hstate]
    · rw [afterSyscall, polled_append, h.received, hstored]
  | interrupt scancode frame =>
    constructor
    · rw [afterInterrupt, mainInterruptHandler, List.foldl_append, ← h.state]
      split <;> rfl
    · rw [afterInterrupt, polled_append, h.received]
      split <;> exact (List.append_nil _).symm
  | stores memory => exact ⟨h.state, h.received⟩

/-- **The keyboard driver sees its calls only**. -/
theorem Session.Reaches.keyboard {k : KeyboardDriverState} (hrun : Reaches Admits s t) (h : Follows k s) :
    Follows k t := by
  induction hrun with
  | refl => exact h
  | tail _ hstep ih => exact hstep.keyboard ih

end Runs

end Os2024
