import Os2024.Interrupt.Interrupt
import Os2024.Stdlib.Strings

/-!
# What the commands of the shell share

The colours, the arguments and the variables of `ch2/user-shell/user-shell.h`, and what is printed by the commands: a
list of characters and colours. The terminal is not part of their memory. A string literal is its characters and a
`'\0'`.
-/

namespace Os2024

def red : UInt32 := 0b1100
def lightBlue : UInt32 := 0b1001

/-- Characters in one colour. -/
def inColor (color : UInt32) (text : List UInt8) : List Glyph := text.map fun c => (c, color)

/-- What `puts` prints of a string in memory. -/
def Memory.putsText (mem : Memory) (str len : UInt32) : List UInt8 :=
  (List.range len.toNat).map fun i => mem (str + UInt32.ofNat i)

/-- The characters of a string literal. -/
def characters (text : String) : List UInt8 := text.toList.map fun c => UInt8.ofNat c.toNat

/-- The bytes of a string literal. -/
def literal (text : String) : List UInt8 := characters text ++ [0]

/-- `args_value`, `args_info` and `args_count`: the text, where in it each argument begins and how long it is, and how
many there are. -/
structure Arguments where
  value : UInt32
  info : Nat → Nat × Nat
  count : Nat

/-- The address of an argument. -/
def Arguments.address (args : Arguments) (i : Nat) : UInt32 := args.value + UInt32.ofNat (args.info i).1

/-- `current_directory` and `dir_table`. -/
structure Shell where
  currentDirectory : UInt32
  dirTable : FAT32DirectoryTable

/-- The entry at an address. -/
def Memory.entryAt (mem : Memory) (entry : UInt32) : FAT32DirectoryEntry :=
  FAT32DirectoryEntry.ofBytes (mem.load entry 32)

/-- The table at an address. -/
def Memory.tableAt (mem : Memory) (dirTable : UInt32) : FAT32DirectoryTable :=
  FAT32DirectoryTable.ofBytes (mem.load dirTable 2048)

/-- A text at address `0`, and `rest` behind it. -/
def textMemory (text : List UInt8) (rest : UInt8) : Memory := fun a => text.getD a.toNat rest

/-! ## System calls -/

/-- `syscalls`: the system call of a number, whatever else the frame of the interrupt holds. -/
def syscalls (fuel : Nat) (frame : InterruptFrame) (eax ebx ecx edx : UInt32) (k : Kernel) : KernelExec Kernel :=
  syscall fuel { frame with cpu := { frame.cpu with general := { eax, ebx, ecx, edx } } } k

/-- The kernel with the file system of a machine, when no key was typed and nothing printed. -/
def Machine.kernel (m : Machine) (memory : Memory) : Kernel where
  memory := memory
  disk := m.system.disk
  driverState := m.system.driverState
  keyboardDriverState := ⟨false, false, 1⟩
  cursor := ⟨0, 0⟩

/-- What an operation of the file system does on the request at an address. -/
def Kernel.perform (k : Kernel) (fuel : Nat) (op : Op) (request : UInt32) : Exec (Int8 × System) :=
  op.run fuel (loadRequest k.memory request) k.system

/-- The `int` at an address. -/
def Memory.loadInt (mem : Memory) (ptr : UInt32) : Int32 := (ofLe32 (mem.load ptr 4)).toInt32

/-- The packed bytes of a `struct FAT32DriverRequest`. -/
def FAT32DriverRequest.bytes (request : FAT32DriverRequest) : Fin 23 → UInt8 := fun k =>
  if h : k.val < 4 then le32 request.buf ⟨k, h⟩
  else if h : k.val < 12 then request.name ⟨k - 4, by omega⟩
  else if h : k.val < 15 then request.ext ⟨k - 12, by omega⟩
  else if h : k.val < 19 then le32 request.parentClusterNumber ⟨k - 15, by omega⟩
  else le32 request.bufferSize ⟨k - 19, by omega⟩

section Entries

variable {mem : Memory} {p dirTable : UInt32}

theorem Memory.tableAt_table (i : Fin 64) :
    (mem.tableAt dirTable).table i = mem.entryAt (dirTable + UInt32.ofNat (32 * i)) := by
  refine congrArg FAT32DirectoryEntry.ofBytes (funext fun k => ?_)
  rw [Bytes.chunk, Memory.load, Memory.load, finProdFinEquiv_apply_val, UInt32.add_assoc, ← UInt32.ofNat_add,
    Nat.add_comm]

theorem Memory.entryAt_name (k : Fin 8) : (mem.entryAt p).name k = mem (p + UInt32.ofNat k) := by
  change mem (p + UInt32.ofNat (0 + k)) = _
  rw [Nat.zero_add]

theorem Memory.entryAt_ext (k : Fin 3) : (mem.entryAt p).ext k = mem (p + 8 + UInt32.ofNat k) := by
  change mem (p + UInt32.ofNat (8 + k)) = _
  rw [UInt32.ofNat_add, ← UInt32.add_assoc]
  rfl

/-- The characters of an array. -/
theorem Memory.putsText_eq_ofFn {n : Nat} {len : UInt32} (h : len.toNat = n) :
    mem.putsText p len = List.ofFn (n := n) fun k => mem (p + UInt32.ofNat k) := by
  rw [Memory.putsText, h, List.ofFn_eq_map, ← List.map_coe_finRange_eq_range, List.map_map]
  rfl

end Entries

section Requests

variable {mem : Memory} {ptr p q : UInt32} {n m i : Nat}

/-- A byte of what was stored at a place. -/
theorem Memory.store_apply {bytes : Fin n → UInt8} (hn : n ≤ 2 ^ 32) (hi : i < n) :
    mem.store ptr bytes (ptr + UInt32.ofNat i) = bytes ⟨i, hi⟩ :=
  show (mem.store ptr bytes).load ptr n ⟨i, hi⟩ = bytes ⟨i, hi⟩ by rw [load_store hn]

/-- A request that was stored is loaded again. -/
theorem loadRequest_store (request : FAT32DriverRequest) : loadRequest (mem.store ptr request.bytes) ptr = request := by
  have hload : ∀ off n : Nat, ∀ h : off + n ≤ 23, (mem.store ptr request.bytes).load (ptr + UInt32.ofNat off) n =
      fun i : Fin n => request.bytes ⟨off + i, by omega⟩ := by
    intro off n h
    funext i
    rw [Memory.load, UInt32.add_assoc, ← UInt32.ofNat_add]
    exact Memory.store_apply (by decide) _
  have hbuf := hload 0 4 (by decide)
  rw [show UInt32.ofNat 0 = 0 from rfl, UInt32.add_zero] at hbuf
  have hname : (mem.store ptr request.bytes).load (ptr + 4) 8 = request.name :=
    (hload 4 8 (by decide)).trans (funext fun i => by fin_cases i <;> rfl)
  have hext : (mem.store ptr request.bytes).load (ptr + 12) 3 = request.ext :=
    (hload 12 3 (by decide)).trans (funext fun i => by fin_cases i <;> rfl)
  have hparent : (mem.store ptr request.bytes).load (ptr + 15) 4 = le32 request.parentClusterNumber :=
    (hload 15 4 (by decide)).trans (funext fun i => by fin_cases i <;> rfl)
  have hsize : (mem.store ptr request.bytes).load (ptr + 19) 4 = le32 request.bufferSize :=
    (hload 19 4 (by decide)).trans (funext fun i => by fin_cases i <;> rfl)
  rw [loadRequest, hbuf.trans (show _ = le32 request.buf from funext fun i => by fin_cases i <;> rfl), hname, hext,
    hparent, hsize, ofLe32_le32, ofLe32_le32, ofLe32_le32]

/-! ## Return codes -/

/-- The bytes above the lowest one of an `int8_t` as an `int`. -/
def signFill (code : Int8) : UInt8 := if code < 0 then 0xFF else 0

theorem le32_toInt32 (code : Int8) (j : Fin 4) :
    le32 code.toInt32.toUInt32 j = if j = 0 then code.toUInt8 else signFill code := by
  obtain ⟨⟨b⟩⟩ := code
  revert b j
  decide +kernel

/-- The `int` at the place where a code was stored is that code if the other three bytes continue its sign. -/
theorem Memory.loadInt_update_iff {code : Int8} :
    Memory.loadInt (Function.update mem p code.toUInt8) p = code.toInt32 ↔
      ∀ j : Fin 4, j ≠ 0 → mem (p + UInt32.ofNat j) = signFill code := by
  have hbytes : Memory.loadInt (Function.update mem p code.toUInt8) p = code.toInt32 ↔
      Memory.load (Function.update mem p code.toUInt8) p 4 = le32 code.toInt32.toUInt32 := by
    constructor
    · intro h
      rw [← h]
      exact (le32_ofLe32 _).symm
    · intro h
      rw [Memory.loadInt, h, ofLe32_le32]
      rfl
  have hzero : Memory.load (Function.update mem p code.toUInt8) p 4 0 = code.toUInt8 := by
    change Function.update mem p code.toUInt8 (p + 0) = _
    rw [UInt32.add_zero, Function.update_self]
  have hother : ∀ j : Fin 4, j ≠ 0 →
      Memory.load (Function.update mem p code.toUInt8) p 4 j = mem (p + UInt32.ofNat j) := by
    intro j hj
    refine Function.update_of_ne (fun heq => hj (Fin.ext ?_)) _ _
    have hsame : p + UInt32.ofNat j = p + UInt32.ofNat 0 := heq.trans (UInt32.add_zero p).symm
    exact (Memory.add_ofNat_inj (by omega) (by decide)).mp hsame
  rw [hbytes, funext_iff]
  constructor
  · intro h j hj
    rw [← hother j hj, h j, le32_toInt32, if_neg hj]
  · intro h j
    rw [le32_toInt32]
    by_cases hj : j = 0
    · rw [hj, if_pos rfl, hzero]
    · rw [if_neg hj, hother j hj, h j hj]

theorem signFill_eq_zero_iff {code : Int8} : signFill code = 0 ↔ 0 ≤ code := by
  rw [signFill]
  split
  · next hneg => exact iff_of_false (by decide) (Int8.not_le.mpr hneg)
  · next hpos => exact iff_of_true rfl (Int8.not_lt.mp hpos)

/-- Over zeros, it is the code if that is not negative. -/
theorem Memory.loadInt_update_zero_iff {code : Int8} (h : ∀ j : Fin 4, j ≠ 0 → mem (p + UInt32.ofNat j) = 0) :
    Memory.loadInt (Function.update mem p code.toUInt8) p = code.toInt32 ↔ 0 ≤ code := by
  rw [loadInt_update_iff, ← signFill_eq_zero_iff]
  constructor
  · intro hfill
    rw [← hfill 1 (by decide), h 1 (by decide)]
  · intro hzero j hj
    rw [hzero, h j hj]

/-- The bytes of a zero. -/
theorem Memory.apply_of_loadInt (h : mem.loadInt p = 0) (j : Fin 4) : mem (p + UInt32.ofNat j) = 0 := by
  have hbytes : mem.load p 4 = le32 (0 : Int32).toUInt32 := by
    rw [← h]
    exact (le32_ofLe32 _).symm
  have hzero : ∀ j : Fin 4, le32 (0 : Int32).toUInt32 j = 0 := by decide
  exact (congrFun hbytes j).trans (hzero j)

/-- Whatever the other bytes are, it is zero only if the code is. -/
theorem Memory.loadInt_update_ne_zero {code : Int8} (h : code ≠ 0) :
    Memory.loadInt (Function.update mem p code.toUInt8) p ≠ 0 := by
  intro hzero
  have hlow := Memory.apply_of_loadInt hzero 0
  have hsame : p + UInt32.ofNat (0 : Fin 4) = p := UInt32.add_zero p
  rw [hsame, Function.update_self] at hlow
  exact h (congrArg Int8.ofUInt8 hlow)

theorem toInt32_eq_zero_iff {code : Int8} : code.toInt32 = 0 ↔ code = 0 := by
  constructor
  · intro h
    have hlow := le32_toInt32 code 0
    rw [h, if_pos rfl] at hlow
    exact congrArg Int8.ofUInt8 hlow.symm
  · rintro rfl
    rfl

theorem Kernel.perform_read (k : Kernel) (fuel : Nat) (request : UInt32) :
    k.perform fuel .read request = read fuel (loadRequest k.memory request) k.system := rfl

theorem Kernel.perform_write (k : Kernel) (fuel : Nat) (request : UInt32) :
    k.perform fuel .write request = write fuel (loadRequest k.memory request) k.system := rfl

/-- The kernel when an operation of the file system has answered. -/
def Kernel.answered (k : Kernel) (errorCode : UInt32) (code : Int8) (s : System) : Kernel :=
  k.withSystem { s with memory := Function.update s.memory errorCode code.toUInt8 }

section Calls

variable {fuel : Nat} {frame : InterruptFrame} {request errorCode : UInt32} {k : Kernel} {code : Int8} {s : System}

/-- A system call of the file system that returns. -/
theorem syscalls_read (h : k.perform fuel .read request = .ok (code, s)) :
    syscalls fuel frame 0 request errorCode 0 k = .ok (k.answered errorCode code s) := by
  change fileCall fuel .read _ k = _
  rw [fileCall, show Op.read.run fuel _ k.system = _ from h]
  rfl

theorem syscalls_write (h : k.perform fuel .write request = .ok (code, s)) :
    syscalls fuel frame 2 request errorCode 0 k = .ok (k.answered errorCode code s) := by
  change fileCall fuel .write _ k = _
  rw [fileCall, show Op.write.run fuel _ k.system = _ from h]
  rfl

end Calls

/-! ## Places in memory -/

/-- Two runs of bytes have none in common. -/
def Apart (p : UInt32) (n : Nat) (q : UInt32) (m : Nat) : Prop :=
  ∀ i < n, ∀ j < m, p + UInt32.ofNat i ≠ q + UInt32.ofNat j

theorem Apart.of_le (h : p.toNat + n ≤ q.toNat) (hspace : q.toNat + m ≤ 2 ^ 32) : Apart p n q m :=
  fun _ _ _ _ => Memory.add_ne_add (by omega) (by omega) (by omega)

theorem Apart.symm (h : Apart p n q m) : Apart q m p n := fun i hi j hj heq => h j hj i hi heq.symm

/-- Places that are apart, as offsets from the first one. -/
theorem Apart.le_sub (h : Apart p n q m) (hi : i < m) : n ≤ (q + UInt32.ofNat i - p).toNat := by
  refine Nat.le_of_not_lt fun hlt => h _ hlt i hi ?_
  rw [UInt32.ofNat_toNat, UInt32.add_comm, UInt32.sub_add_cancel]

/-- A store leaves what is apart from it. -/
theorem Memory.store_of_apart {bytes : Fin n → UInt8} (h : Apart p n q m) (hi : i < m) :
    mem.store p bytes (q + UInt32.ofNat i) = mem (q + UInt32.ofNat i) :=
  dif_neg (Nat.not_lt.mpr (h.le_sub hi))

end Requests

end Os2024
