import Mathlib.Logic.Relation
import Os2024.Lib.Journal
import Os2024.Fat32.Spec

/-!
# What the file system is for

Seen from outside, the file system is a catalog of files and folders. A successful `write` adds a record to it, a
successful `delete` takes the record of its name away, and nothing else changes it. The catalog is computed from the
history of requests and answers alone (`catalog`), so it says what the disk should hold and not what it does hold; the
folders that requests may name as parents are the root and the folders of the catalog (`Live`).

A `Machine` is a system with its history. `Machine.Step` makes one request and `Machine.Reaches` any number of them.
-/

namespace Os2024

open Journal

/-! ## Requests -/

/-- The four operations `syscall` dispatches to. -/
inductive Op where
  | read
  | readDirectory
  | write
  | delete
  deriving DecidableEq

/-- The operation, run. -/
def Op.run (fuel : Nat) : Op → FAT32DriverRequest → System → Exec (Int8 × System)
  | .read => Os2024.read fuel
  | .readDirectory => Os2024.readDirectory
  | .write => Os2024.write fuel
  | .delete => Os2024.delete fuel

/-- The answer to a request whose parent is not a folder. -/
def Op.invalidParent : Op → Int8
  | .write => 2
  | _ => -1

section Parent

variable {op : Op} {fuel : Nat} {request : FAT32DriverRequest} {s : System}

/-- A reserved cluster is refused at once. -/
theorem Op.run_of_lt_two (op : Op) (fuel : Nat) (h2 : request.parentClusterNumber < 2) :
    op.run fuel request s = .ok (op.invalidParent, s) := by
  cases op with
  | read => exact read_of_lt_two h2
  | readDirectory => exact readDirectory_of_lt_two h2
  | write => exact write_of_lt_two h2
  | delete => exact delete_of_lt_two h2

/-- A parent that is not valid is refused. -/
theorem Op.run_of_not_valid (op : Op) (fuel : Nat) (hp : request.parentClusterNumber.toNat < 512)
    (hv : ¬ ParentValid s request.parentClusterNumber) :
    ∃ s', op.run fuel request s = .ok (op.invalidParent, s') ∧ s.Opened s' request.parentClusterNumber := by
  rcases parent_cases s request.parentClusterNumber with h2 | ⟨h2, t, ho, hk⟩ | ⟨hge, -⟩ | hv'
  · exact ⟨s, op.run_of_lt_two fuel h2, .inl rfl⟩
  · cases op with
    | read => exact ⟨t, read_of_refused h2 ho, hk⟩
    | readDirectory =>
      by_cases hsize : request.bufferSize = 2048
      · exact ⟨t, readDirectory_of_refused h2 hsize ho, hk⟩
      · exact ⟨s, readDirectory_of_size hsize, .inl rfl⟩
    | write => exact ⟨t, write_of_refused h2 ho, hk⟩
    | delete => exact ⟨t, delete_of_refused h2 ho, hk⟩
  · omega
  · exact absurd hv' hv

/-- A parent beyond the FAT is looked up in it all the same. -/
theorem Op.run_of_le (op : Op) (fuel : Nat) (h : 512 ≤ request.parentClusterNumber.toNat)
    (hsize : op = .readDirectory → request.bufferSize = 2048) :
    op.run fuel request s = .error (.outOfBounds request.parentClusterNumber, s) := by
  cases op with
  | read => exact read_of_le h
  | readDirectory => exact readDirectory_of_le h (hsize rfl)
  | write => exact write_of_le h
  | delete => exact delete_of_le h

theorem Op.run_mono {fuel' : Nat} (h : (op.run fuel request s).Final) (hle : fuel ≤ fuel') :
    op.run fuel' request s = op.run fuel request s := by
  cases op with
  | read => exact read_mono h hle
  | readDirectory => rfl
  | write => exact write_mono h hle
  | delete => exact delete_mono h hle

end Parent

/-- A request, with the contents of memory at the time it is made. -/
structure Call where
  op : Op
  request : FAT32DriverRequest
  memory : Memory

/-- The system a call starts in. -/
def Call.start (call : Call) (s : System) : System := { s with memory := call.memory, accesses := [] }

/-- A call, executed. -/
def Call.exec (call : Call) (fuel : Nat) (s : System) : Exec (Int8 × System) :=
  call.op.run fuel call.request (call.start s)

/-- What identifies a file or folder: its parent, its name and its extension. -/
abbrev Key := UInt32 × Name × Ext

/-- What a request is about. -/
def FAT32DriverRequest.key (request : FAT32DriverRequest) : Key :=
  (request.parentClusterNumber, request.name, request.ext)

theorem FAT32DriverRequest.key_eq_iff {request : FAT32DriverRequest} {c : UInt32} {name : Name} {ext : Ext} :
    request.key = (c, name, ext) ↔
      request.parentClusterNumber = c ∧ request.name = name ∧ request.ext = ext := by
  rw [key, Prod.mk.injEq, Prod.mk.injEq]

/-! ## Histories -/

/-- A call that has returned: its code, the memory it left and its cluster accesses. -/
structure Event where
  call : Call
  code : Int8
  memory : Memory
  accesses : List DiskAccess

/-- The `write_clusters` calls among some accesses. -/
def writesOf : List DiskAccess → List (UInt32 × Cluster)
  | [] => []
  | .read _ :: l => writesOf l
  | .write c data :: l => (c, data) :: writesOf l

section WritesOf

variable (l l' : List DiskAccess) (ws : List (UInt32 × Cluster)) (reads : List UInt32)

@[simp] theorem writesOf_append : writesOf (l ++ l') = writesOf l ++ writesOf l' := by
  induction l with
  | nil => rfl
  | cons a l ih => cases a <;> simp [writesOf, ih]

@[simp] theorem writesOf_map_write : writesOf (ws.map fun w => .write w.1 w.2) = ws := by
  induction ws with
  | nil => rfl
  | cons w ws ih => simp [writesOf, ih]

@[simp] theorem writesOf_map_read : writesOf (reads.map .read) = [] := by
  induction reads with
  | nil => rfl
  | cons c reads ih => simpa [writesOf] using ih

end WritesOf

section Accesses

variable {s s' : System} {request : FAT32DriverRequest} {i : Fin 64}

theorem System.Kept.writesOf (h : s.Kept s') : writesOf s'.accesses = writesOf s.accesses := by
  obtain ⟨reads, hr⟩ := h.accesses
  simp [hr]

theorem System.written_writesOf :
    writesOf (s.written request i).accesses = writesOf s.accesses ++ s.writtenCalls request i := by
  change writesOf ((s.accesses ++ [.read _]) ++ (s.writtenCalls request i).map fun w => .write w.1 w.2) = _
  simp [writesOf]

theorem System.reloaded_writesOf : writesOf (s.reloaded request i).accesses = writesOf s.accesses := by
  dsimp only [System.reloaded]
  split <;> simp [System.loadDirTable_eq, writesOf]

theorem System.deleted_writesOf (l : List (Fin 512)) :
    writesOf (s.deleted request i l).accesses = writesOf s.accesses ++ s.deletedCalls request i l := by
  change writesOf ((s.reloaded request i).accesses ++ (s.deletedCalls request i l).map fun w => .write w.1 w.2) = _
  rw [writesOf_append, writesOf_map_write, System.reloaded_writesOf]

theorem Call.written_writesOf (call : Call) (s : System) (i : Fin 64) :
    Os2024.writesOf ((call.start s).written call.request i).accesses = (call.start s).writtenCalls call.request i :=
  System.written_writesOf

theorem Call.deleted_writesOf (call : Call) (s : System) (i : Fin 64) (l : List (Fin 512)) :
    Os2024.writesOf ((call.start s).deleted call.request i l).accesses =
      (call.start s).deletedCalls call.request i l := System.deleted_writesOf l

end Accesses

/-- The cluster written first. -/
def firstWritten (l : List DiskAccess) : UInt32 := ((writesOf l).head?.map (·.1)).getD 0

/-- A file or folder of the catalog. -/
structure Record where
  parent : UInt32
  name : Name
  ext : Ext
  folder : Bool
  first : UInt32

def Record.key (r : Record) : Key := (r.parent, r.name, r.ext)

/-- The record a successful `write` adds. -/
def FAT32DriverRequest.record (request : FAT32DriverRequest) (first : UInt32) : Record where
  parent := request.parentClusterNumber
  name := request.name
  ext := request.ext
  folder := request.bufferSize == 0
  first := first

/-- What a call that has returned does to the catalog. -/
def Event.effect (e : Event) : Effect Record Key :=
  if e.code ≠ 0 then .keep
  else match e.call.op with
  | .write => .insert (e.call.request.record (firstWritten e.accesses))
  | .delete => .remove e.call.request.key
  | _ => .keep

/-- The files and folders that should exist after a history, which lists the newest event first. -/
def catalog : List Event → List Record := records Record.key Event.effect

/-- A folder of the catalog: the root, or one that was created and not deleted since. -/
def Live (cat : List Record) (c : UInt32) : Prop :=
  c = rootClusterNumber ∨ ∃ r ∈ cat, r.folder = true ∧ r.first = c

theorem catalog_cons (e : Event) (h : List Event) : catalog (e :: h) = e.effect.apply Record.key (catalog h) := rfl

theorem effect_insert_iff {e : Event} {r : Record} : e.effect = .insert r ↔
    e.call.op = .write ∧ e.code = 0 ∧ r = e.call.request.record (firstWritten e.accesses) := by
  unfold Event.effect
  by_cases hc : e.code = 0 <;> cases ho : e.call.op <;> simp [hc, eq_comm]

theorem effect_remove_iff {e : Event} {k : Key} : e.effect = .remove k ↔
    e.call.op = .delete ∧ e.code = 0 ∧ k = e.call.request.key := by
  unfold Event.effect
  by_cases hc : e.code = 0 <;> cases ho : e.call.op <;> simp [hc, eq_comm]

/-- What is in the catalog, read off the history. -/
theorem mem_catalog {h : List Event} {r : Record} : r ∈ catalog h ↔
    ∃ later e earlier, h = later ++ e :: earlier ∧
      (e.call.op = .write ∧ e.code = 0 ∧ r = e.call.request.record (firstWritten e.accesses)) ∧
      ∀ e' ∈ later, ¬ (e'.call.op = .delete ∧ e'.code = 0 ∧ r.key = e'.call.request.key) := by
  simp only [catalog, mem_records, effect_insert_iff, ne_eq, effect_remove_iff]

theorem Live.mono {cat cat' : List Record} {c : UInt32} (h : Live cat c) (hsub : ∀ r ∈ cat, r ∈ cat') : Live cat' c :=
  h.imp_right fun ⟨r, hr, hf⟩ => ⟨r, hsub r hr, hf⟩

/-! ## Runs -/

/-- A system and the calls it has answered. -/
structure Machine where
  system : System
  history : List Event

/-- The machine after a call. -/
def Machine.after (m : Machine) (call : Call) (code : Int8) (s : System) : Machine :=
  ⟨s, ⟨call, code, s.memory, s.accesses⟩ :: m.history⟩

/-- A call that the history admits is made, and returns. -/
inductive Machine.Step (Admits : List Event → Call → Prop) : Machine → Machine → Prop
  | call {m : Machine} {call : Call} {fuel : Nat} {code : Int8} {s : System} (ha : Admits m.history call)
      (hexec : call.exec fuel m.system = .ok (code, s)) : Step Admits m (m.after call code s)

section After

variable {m : Machine} {call : Call} {code : Int8} {s : System}

theorem Machine.catalog_after_of_keep (h : call.op = .write ∨ call.op = .delete → code ≠ 0) :
    catalog (m.after call code s).history = catalog m.history := by
  have heff : Event.effect ⟨call, code, s.memory, s.accesses⟩ = .keep := by
    unfold Event.effect
    cases ho : call.op <;> simp_all
  rw [Machine.after, catalog_cons, heff, Effect.apply]

theorem Machine.catalog_after_write (hop : call.op = .write) : catalog (m.after call 0 s).history =
    call.request.record (firstWritten s.accesses) :: catalog m.history := by
  rw [Machine.after, catalog_cons, Event.effect, if_neg (by simp), hop, Effect.apply]

theorem Machine.catalog_after_delete (hop : call.op = .delete) : catalog (m.after call 0 s).history =
    (catalog m.history).filter fun r => r.key ≠ call.request.key := by
  rw [Machine.after, catalog_cons, Event.effect, if_neg (by simp), hop, Effect.apply]

end After

/-- A finite run of calls. -/
abbrev Machine.Reaches (Admits : List Event → Call → Prop) : Machine → Machine → Prop :=
  Relation.ReflTransGen (Machine.Step Admits)

section Reaches

variable {Admits Admits' : List Event → Call → Prop} {m n : Machine}

/-- What every call of a run preserves holds at its end. -/
theorem Machine.Reaches.invariant {P : Machine → Prop} (h : Reaches Admits m n) (hm : P m)
    (hcall : ∀ {m : Machine} {call : Call} {fuel : Nat} {code : Int8} {s : System}, P m → Admits m.history call →
      call.exec fuel m.system = .ok (code, s) → P (m.after call code s)) : P n := by
  induction h with
  | refl => exact hm
  | tail _ hstep ih =>
    cases hstep with
    | call ha hexec => exact hcall ih ha hexec

/-- A run under stricter conditions. -/
theorem Machine.Reaches.mono (h : Reaches Admits m n) (hsub : ∀ hist call, Admits hist call → Admits' hist call) :
    Reaches Admits' m n := by
  refine h.invariant .refl ?_
  intro k call fuel code s hk ha hexec
  exact hk.tail (.call (hsub _ _ ha) hexec)

end Reaches

/-- A freshly created file system: `initialize_filesystem_fat32` on a disk without the signature. -/
def Machine.Fresh (m : Machine) : Prop :=
  ∃ s : System, isEmptyStorage s.disk = true ∧ m = ⟨initializeFilesystemFat32 s, []⟩

/-- An empty directory table: a folder's entry `0`, and no entry from `2` on in use. -/
def FAT32DirectoryTable.IsEmpty (t : FAT32DirectoryTable) : Prop :=
  (t.table 0).isDirectory = true ∧ ∀ i : Fin 64, 2 ≤ i.val → (t.table i).occupied = false

/-- The cluster a request supplies for a new folder is an empty directory table. -/
def Call.FolderOk (call : Call) : Prop :=
  call.op = .write → call.request.bufferSize = 0 →
    (FAT32DirectoryTable.ofBytes (call.request.chunk call.memory 0)).IsEmpty

/-- The parent is the root or a live folder, and folders are created from empty directory tables. -/
def Allowed (h : List Event) (call : Call) : Prop :=
  Live (catalog h) call.request.parentClusterNumber ∧ call.FolderOk

/-- A state of a run of allowed calls from a freshly created file system. -/
def Machine.Reachable (m : Machine) : Prop := ∃ m₀ : Machine, m₀.Fresh ∧ Machine.Reaches Allowed m₀ m

end Os2024
