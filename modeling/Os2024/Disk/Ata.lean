import Os2024.Disk.Disk
import Os2024.Lib.Fuel
import Os2024.Lib.Splice

/-!
# The ATA driver and its device

`read_blocks` and `write_blocks` of `ch1/disk/disk.c` with the port accesses they make, and an ATA PIO device that
answers them. Before each sector the device is busy for a number of reports, and then ready without data for another:
its `Wait`. Its data port is open from the first report of `DRQ` on until the 256 words of the sector are through; a
closed data port takes no word and reads as whatever is on the bus. The loops that wait for the device run on fuel.
-/

namespace Os2024

namespace Ata

open Splice

def ataStatusBsy : UInt8 := 0x80
def ataStatusRdy : UInt8 := 0x40
def ataStatusDrq : UInt8 := 0x08

/-! ## The device -/

/-- What the device reports before a sector: `BSY`, then `RDY` without `DRQ`. -/
structure Wait where
  busy : Nat
  ready : Nat

/-- A command under way. `done` sectors are through and `left` are not; of the one it is at, `word` words are. -/
structure Transfer where
  write : Bool
  sector : Nat
  done : Nat
  left : Nat
  word : Nat
  wait : Wait
  isOpen : Bool

/-- Byte `k` of the word the command is at. -/
def Transfer.offset (t : Transfer) (k : Nat) : Nat := 512 * t.sector + (2 * t.word + k)

structure Device where
  image : Buffer
  /-- What it will report before the sectors of the next command. -/
  schedule : Nat → Wait
  /-- What a closed data port reads as. -/
  bus : UInt16
  sectorCount : UInt8
  lbaLow : UInt8
  lbaMid : UInt8
  lbaHigh : UInt8
  driveHead : UInt8
  /-- How often it will report `BSY` before the next command. -/
  idle : Nat
  transfer : Option Transfer

namespace Device

/-- The device at a point of a command. -/
def during (d : Device) (t : Transfer) : Device := { d with transfer := some t }

/-- The status register. -/
def status (d : Device) : UInt8 × Device :=
  match d.transfer with
  | none => if d.idle > 0 then (ataStatusBsy, { d with idle := d.idle - 1 }) else (ataStatusRdy, d)
  | some t =>
    if t.wait.busy > 0 then (ataStatusBsy, d.during { t with wait := ⟨t.wait.busy - 1, t.wait.ready⟩ })
    else if t.wait.ready > 0 then (ataStatusRdy, d.during { t with wait := ⟨0, t.wait.ready - 1⟩ })
    else (ataStatusRdy ||| ataStatusDrq, d.during { t with isOpen := true })

/-- The address in the registers. -/
def lba (d : Device) : Nat :=
  d.lbaLow.toNat + 2 ^ 8 * d.lbaMid.toNat + 2 ^ 16 * d.lbaHigh.toNat + 2 ^ 24 * (d.driveHead.toNat % 2 ^ 4)

/-- A command begins. -/
def start (write : Bool) (d : Device) : Device :=
  d.during
    { write := write
      sector := d.lba
      done := 0
      left := if d.sectorCount = 0 then 256 else d.sectorCount.toNat
      word := 0
      wait := d.schedule 0
      isOpen := false }

/-- A word of the sector is through. -/
def advance (t : Transfer) (d : Device) : Device :=
  if t.word + 1 < 256 then d.during { t with word := t.word + 1 }
  else if t.left ≤ 1 then { d with transfer := none }
  else
    d.during { t with
      sector := t.sector + 1
      done := t.done + 1
      left := t.left - 1
      word := 0
      wait := d.schedule (t.done + 1)
      isOpen := false }

end Device

/-- `in`; only the status register is read so. -/
def in8 (port : UInt16) (d : Device) : UInt8 × Device := if port = 0x1F7 then d.status else (0, d)

/-- `out`. -/
def out8 (port : UInt16) (value : UInt8) (d : Device) : Device :=
  if port = 0x1F2 then { d with sectorCount := value }
  else if port = 0x1F3 then { d with lbaLow := value }
  else if port = 0x1F4 then { d with lbaMid := value }
  else if port = 0x1F5 then { d with lbaHigh := value }
  else if port = 0x1F6 then { d with driveHead := value }
  else if port = 0x1F7 ∧ value = 0x20 then d.start false
  else if port = 0x1F7 ∧ value = 0x30 then d.start true
  else d

/-- `in16`; the low byte of a word is the first. -/
def in16 (port : UInt16) (d : Device) : UInt16 × Device :=
  match d.transfer with
  | some t =>
    if port = 0x1F0 ∧ t.isOpen = true ∧ t.write = false then
      (UInt16.ofNat ((d.image (t.offset 0)).toNat + 2 ^ 8 * (d.image (t.offset 1)).toNat), d.advance t)
    else (d.bus, d)
  | none => (d.bus, d)

/-- `out16`. -/
def out16 (port : UInt16) (value : UInt16) (d : Device) : Device :=
  match d.transfer with
  | some t =>
    if port = 0x1F0 ∧ t.isOpen = true ∧ t.write = true then
      Device.advance t { d with
        image := Function.update (Function.update d.image (t.offset 0) value.toUInt8) (t.offset 1)
          (value >>> 8).toUInt8 }
    else d
  | none => d

/-! ## The driver -/

/-- `ATA_busy_wait`. -/
def ataBusyWait : (fuel : Nat) → Device → Option Device
  | 0, _ => none
  | fuel + 1, d =>
    if (in8 0x1F7 d).1 &&& ataStatusBsy ≠ 0 then ataBusyWait fuel (in8 0x1F7 d).2 else some (in8 0x1F7 d).2

/-- `ATA_DRQ_wait`: it waits for `ATA_STATUS_RDY`. -/
def ataDrqWait : (fuel : Nat) → Device → Option Device
  | 0, _ => none
  | fuel + 1, d =>
    if (in8 0x1F7 d).1 &&& ataStatusRdy = 0 then ataDrqWait fuel (in8 0x1F7 d).2 else some (in8 0x1F7 d).2

/-- What both functions send before the sectors. -/
def sendCommand (logicalBlockAddress : UInt32) (blockCount command : UInt8) (d : Device) : Device :=
  let d := out8 0x1F6 ((0xE0 : UInt32) ||| ((logicalBlockAddress >>> 24) &&& 0xF)).toUInt8 d
  let d := out8 0x1F2 blockCount d
  let d := out8 0x1F3 logicalBlockAddress.toUInt8 d
  let d := out8 0x1F4 (logicalBlockAddress >>> 8).toUInt8 d
  let d := out8 0x1F5 (logicalBlockAddress >>> 16).toUInt8 d
  out8 0x1F7 command d

/-- `target[j] = in16(0x1F0)`. -/
def readWord (target : Nat) (s : Buffer × Device) (j : Nat) : Buffer × Device :=
  let value := (in16 0x1F0 s.2).1
  (Function.update (Function.update s.1 (target + 2 * j) value.toUInt8) (target + (2 * j + 1)) (value >>> 8).toUInt8,
    (in16 0x1F0 s.2).2)

/-- The rounds of `read_blocks`; `target` counts bytes. -/
def readRounds (fuel : Nat) : (n target : Nat) → Buffer × Device → Option (Buffer × Device)
  | 0, _, s => some s
  | n + 1, target, s => do
    let d ← ataBusyWait fuel s.2
    let d ← ataDrqWait fuel d
    readRounds fuel n (target + 512) ((List.range 256).foldl (readWord target) (s.1, d))

/-- `read_blocks`: the buffer and the device afterwards. -/
def readBlocks (fuel : Nat) (ptr : Buffer) (logicalBlockAddress : UInt32) (blockCount : UInt8) (d : Device) :
    Option (Buffer × Device) := do
  let d ← ataBusyWait fuel d
  readRounds fuel blockCount.toNat 0 (ptr, sendCommand logicalBlockAddress blockCount 0x20 d)

/-- `out16(0x1F0, ((uint16_t*) ptr)[HALF_BLOCK_SIZE*i + j])`. -/
def writeWord (ptr : Buffer) (i : Nat) (d : Device) (j : Nat) : Device :=
  out16 0x1F0 (UInt16.ofNat ((ptr (512 * i + 2 * j)).toNat + 2 ^ 8 * (ptr (512 * i + (2 * j + 1))).toNat)) d

/-- The rounds of `write_blocks`, from round `i` on. -/
def writeRounds (fuel : Nat) (ptr : Buffer) : (n i : Nat) → Device → Option Device
  | 0, _, d => some d
  | n + 1, i, d => do
    let d ← ataBusyWait fuel d
    let d ← ataDrqWait fuel d
    writeRounds fuel ptr n (i + 1) ((List.range 256).foldl (writeWord ptr i) d)

/-- `write_blocks`: the device afterwards. -/
def writeBlocks (fuel : Nat) (ptr : Buffer) (logicalBlockAddress : UInt32) (blockCount : UInt8) (d : Device) :
    Option Device := do
  let d ← ataBusyWait fuel d
  writeRounds fuel ptr blockCount.toNat 0 (sendCommand logicalBlockAddress blockCount 0x30 d)

/-! ## The handshake -/

/-- A command before the first word of a sector. -/
def Transfer.fresh (write : Bool) (sector done left : Nat) (wait : Wait) : Transfer where
  write := write
  sector := sector
  done := done
  left := left
  word := 0
  wait := wait
  isOpen := false

section Handshake

variable {d : Device} {t : Transfer} {fuel b r : Nat}

theorem status_busy (t : Transfer) : in8 0x1F7 (d.during { t with wait := ⟨b + 1, r⟩ }) =
    (ataStatusBsy, d.during { t with wait := ⟨b, r⟩ }) := rfl

theorem status_ready (t : Transfer) : in8 0x1F7 (d.during { t with wait := ⟨0, r + 1⟩ }) =
    (ataStatusRdy, d.during { t with wait := ⟨0, r⟩ }) := rfl

theorem status_drq (t : Transfer) : in8 0x1F7 (d.during { t with wait := ⟨0, 0⟩ }) =
    (ataStatusRdy ||| ataStatusDrq, d.during { t with wait := ⟨0, 0⟩, isOpen := true }) := rfl

/-- After the busy reports, one report more is read. -/
theorem ataBusyWait_during (t : Transfer) (h : b < fuel) :
    ataBusyWait fuel (d.during { t with wait := ⟨b, r⟩ }) =
      some (in8 0x1F7 (d.during { t with wait := ⟨0, r⟩ })).2 := by
  induction b generalizing fuel with
  | zero =>
    obtain ⟨fuel, rfl⟩ : ∃ k, fuel = k + 1 := ⟨fuel - 1, by omega⟩
    rw [ataBusyWait, if_neg]
    cases r with
    | zero =>
      rw [status_drq]
      dsimp only
      decide
    | succ r =>
      rw [status_ready]
      dsimp only
      decide
  | succ b ih =>
    obtain ⟨fuel, rfl⟩ : ∃ k, fuel = k + 1 := ⟨fuel - 1, by omega⟩
    rw [ataBusyWait, status_busy, if_pos (show ataStatusBsy &&& ataStatusBsy ≠ 0 by decide)]
    exact ih (by omega)

/-- Once the device is not busy, one report is read whatever it says of data. -/
theorem ataDrqWait_during (t : Transfer) (h : 0 < fuel) : ataDrqWait fuel (d.during { t with wait := ⟨0, r⟩ }) =
    some (in8 0x1F7 (d.during { t with wait := ⟨0, r⟩ })).2 := by
  obtain ⟨fuel, rfl⟩ : ∃ k, fuel = k + 1 := ⟨fuel - 1, by omega⟩
  rw [ataDrqWait, if_neg]
  cases r with
  | zero =>
    rw [status_drq]
    dsimp only
    decide
  | succ r =>
    rw [status_ready]
    dsimp only
    decide

/-- **The handshake** opens the data port if the device is ready without data for one report at most. -/
theorem handshake_open (t : Transfer) (h : b < fuel) (hr : r ≤ 1) :
    (ataBusyWait fuel (d.during { t with wait := ⟨b, r⟩ }) >>= ataDrqWait fuel) =
      some (d.during { t with wait := ⟨0, 0⟩, isOpen := true }) := by
  rw [ataBusyWait_during t h]
  rcases Nat.le_one_iff_eq_zero_or_eq_one.mp hr with rfl | rfl
  · rw [status_drq]
    exact ataDrqWait_during { t with isOpen := true } (by omega)
  · rw [status_ready]
    exact ataDrqWait_during t (by omega)

/-- Otherwise it goes on with a closed data port. -/
theorem handshake_closed (t : Transfer) (h : b < fuel) :
    (ataBusyWait fuel (d.during { t with wait := ⟨b, r + 2⟩ }) >>= ataDrqWait fuel) =
      some (d.during { t with wait := ⟨0, r⟩ }) := by
  rw [ataBusyWait_during t h, status_ready]
  exact ataDrqWait_during t (by omega)

end Handshake

/-! ## A sector -/

section Sector

variable {d : Device} {t : Transfer} {ptr : Buffer} {target i n : Nat}

theorem word_low (a b : UInt8) : (UInt16.ofNat (a.toNat + 2 ^ 8 * b.toNat)).toUInt8 = a := by
  have ha := a.toNat_lt
  apply UInt8.toNat_inj.mp
  rw [UInt16.toNat_toUInt8, UInt16.toNat_ofNat']
  omega

theorem word_high (a b : UInt8) : (UInt16.ofNat (a.toNat + 2 ^ 8 * b.toNat) >>> 8).toUInt8 = b := by
  have ha := a.toNat_lt
  have hb := b.toNat_lt
  apply UInt8.toNat_inj.mp
  rw [UInt16.toNat_toUInt8, UInt16.toNat_shiftRight, UInt16.toNat_ofNat', show (8 : UInt16).toNat = 8 from rfl,
    show 8 % 16 = 8 from rfl, Nat.shiftRight_eq_div_pow]
  omega

/-- What the last word of a sector leads to. -/
def Device.finish (t : Transfer) (d : Device) : Device :=
  if t.left ≤ 1 then { d with transfer := none }
  else d.during (Transfer.fresh t.write (t.sector + 1) (t.done + 1) (t.left - 1) (d.schedule (t.done + 1)))

theorem advance_lt (hn : n + 1 < 256) : Device.advance { t with word := n } (d.during { t with word := n }) =
    d.during { t with word := n + 1 } := if_pos hn

theorem advance_last : Device.advance { t with word := 255 } (d.during { t with word := 255 }) = d.finish t := rfl

/-- A word through the open data port. -/
theorem readWord_open (ho : t.isOpen = true) (hw : t.write = false) :
    readWord target (splice ptr target (2 * n) (fun k => d.image (512 * t.sector + k)), d.during { t with word := n })
        n =
      (splice ptr target (2 * (n + 1)) fun k => d.image (512 * t.sector + k),
        Device.advance { t with word := n } (d.during { t with word := n })) := by
  have hin : in16 0x1F0 (d.during { t with word := n }) =
      (UInt16.ofNat ((d.image (512 * t.sector + 2 * n)).toNat + 2 ^ 8 * (d.image (512 * t.sector + (2 * n + 1))).toNat),
        Device.advance { t with word := n } (d.during { t with word := n })) := if_pos ⟨rfl, ho, hw⟩
  rw [readWord, hin]
  dsimp only
  rw [word_low, word_high]
  exact congrArg (·, _) (by rw [update_splice, update_splice (n := 2 * n + 1)]; rfl)

theorem foldl_readWord (d : Device) (ptr : Buffer) (target : Nat) (ho : t.isOpen = true) (hw : t.write = false)
    (hn : n < 256) :
    (List.range n).foldl (readWord target) (ptr, d.during { t with word := 0 }) =
      (splice ptr target (2 * n) fun k => d.image (512 * t.sector + k), d.during { t with word := n }) := by
  induction n with
  | zero => rw [Nat.mul_zero, splice_zero]; rfl
  | succ n ih =>
    rw [List.range_succ, List.foldl_append, ih (by omega), List.foldl_cons, List.foldl_nil, readWord_open ho hw,
      advance_lt hn]

/-- **A sector is read** through the open data port. -/
theorem readSector_open (ho : t.isOpen = true) (hw : t.write = false) (h0 : t.word = 0) :
    (List.range 256).foldl (readWord target) (ptr, d.during t) =
      (splice ptr target 512 fun k => d.image (512 * t.sector + k), d.finish t) := by
  have ht : t = { t with word := 0 } := by rw [← h0]
  have hfirst := foldl_readWord d ptr target ho hw (show 255 < 256 by decide)
  rw [← ht] at hfirst
  rw [show List.range 256 = List.range 255 ++ [255] from List.range_succ, List.foldl_append, hfirst, List.foldl_cons,
    List.foldl_nil, readWord_open ho hw, advance_last]

/-- The device with another image. -/
def Device.withImage (d : Device) (image : Buffer) : Device := { d with image := image }

theorem writeWord_open (ho : t.isOpen = true) (hw : t.write = true) :
    writeWord ptr i ((d.withImage (splice d.image (512 * t.sector) (2 * n) fun k => ptr (512 * i + k))).during
        { t with word := n }) n =
      Device.advance { t with word := n } ((d.withImage (splice d.image (512 * t.sector) (2 * (n + 1)) fun k =>
        ptr (512 * i + k))).during { t with word := n }) := by
  have hsplice : Function.update (Function.update
      (splice d.image (512 * t.sector) (2 * n) fun k => ptr (512 * i + k)) (512 * t.sector + 2 * n)
        (ptr (512 * i + 2 * n))) (512 * t.sector + (2 * n + 1)) (ptr (512 * i + (2 * n + 1))) =
      splice d.image (512 * t.sector) (2 * (n + 1)) fun k => ptr (512 * i + k) := by
    rw [update_splice (d := fun k => ptr (512 * i + k)), update_splice (d := fun k => ptr (512 * i + k))]
    rfl
  have hout : ∀ value, out16 0x1F0 value ((d.withImage (splice d.image (512 * t.sector) (2 * n) fun k =>
      ptr (512 * i + k))).during { t with word := n }) =
      Device.advance { t with word := n } ((d.withImage (Function.update (Function.update
        (splice d.image (512 * t.sector) (2 * n) fun k => ptr (512 * i + k)) (512 * t.sector + 2 * n) value.toUInt8)
        (512 * t.sector + (2 * n + 1)) (value >>> 8).toUInt8)).during { t with word := n }) :=
    fun value => if_pos ⟨rfl, ho, hw⟩
  rw [writeWord, hout, word_low, word_high, hsplice]

theorem foldl_writeWord (d : Device) (ptr : Buffer) (i : Nat) (ho : t.isOpen = true) (hw : t.write = true)
    (hn : n < 256) :
    (List.range n).foldl (writeWord ptr i) (d.during { t with word := 0 }) =
      (d.withImage (splice d.image (512 * t.sector) (2 * n) fun k => ptr (512 * i + k))).during
        { t with word := n } := by
  induction n with
  | zero => rw [Nat.mul_zero, splice_zero]; rfl
  | succ n ih =>
    rw [List.range_succ, List.foldl_append, ih (by omega), List.foldl_cons, List.foldl_nil, writeWord_open ho hw,
      advance_lt hn]

/-- **A sector is written** through the open data port. -/
theorem writeSector_open (ho : t.isOpen = true) (hw : t.write = true) (h0 : t.word = 0) :
    (List.range 256).foldl (writeWord ptr i) (d.during t) =
      (d.withImage (splice d.image (512 * t.sector) 512 fun k => ptr (512 * i + k))).finish t := by
  have ht : t = { t with word := 0 } := by rw [← h0]
  have hfirst := foldl_writeWord d ptr i ho hw (show 255 < 256 by decide)
  rw [← ht] at hfirst
  rw [show List.range 256 = List.range 255 ++ [255] from List.range_succ, List.foldl_append, hfirst, List.foldl_cons,
    List.foldl_nil, writeWord_open ho hw, advance_last]

/-- A closed data port takes nothing. -/
theorem writeSector_closed (ho : t.isOpen = false) :
    (List.range n).foldl (writeWord ptr i) (d.during t) = d.during t := by
  have hword : ∀ j, writeWord ptr i (d.during t) j = d.during t := by
    intro j
    refine if_neg fun h => ?_
    rw [ho] at h
    exact Bool.false_ne_true h.2.1
  induction n with
  | zero => rfl
  | succ n ih => rw [List.range_succ, List.foldl_append, ih, List.foldl_cons, List.foldl_nil, hword]

end Sector

/-! ## Commands -/

section Commands

variable {d d' : Device} {ptr : Buffer} {lba : UInt32} {count : UInt8} {fuel sector done n i target : Nat} {w : Wait}

/-- The four registers hold the address. -/
theorem registers_address (h : lba.toNat < 2 ^ 28) :
    lba.toUInt8.toNat + 2 ^ 8 * (lba >>> 8).toUInt8.toNat + 2 ^ 16 * (lba >>> 16).toUInt8.toNat +
      2 ^ 24 * (((0xE0 : UInt32) ||| ((lba >>> 24) &&& 0xF)).toUInt8.toNat % 2 ^ 4) = lba.toNat := by
  have hhead : ∀ y < 16, (0xE0 ||| (y &&& 0xF)) % 256 % 2 ^ 4 = y := by decide
  have hhigh : ((0xE0 : UInt32) ||| ((lba >>> 24) &&& 0xF)).toUInt8.toNat % 2 ^ 4 = lba.toNat / 2 ^ 24 := by
    rw [UInt32.toNat_toUInt8, UInt32.toNat_or, UInt32.toNat_and, UInt32.toNat_shiftRight]
    change (0xE0 ||| ((lba.toNat >>> 24) &&& 0xF)) % 256 % 2 ^ 4 = _
    rw [Nat.shiftRight_eq_div_pow]
    exact hhead _ (by omega)
  have hmid : (lba >>> 8).toUInt8.toNat = lba.toNat / 2 ^ 8 % 256 := by
    rw [UInt32.toNat_toUInt8, UInt32.toNat_shiftRight]
    exact congrArg (· % 256) (Nat.shiftRight_eq_div_pow _ _)
  have hupper : (lba >>> 16).toUInt8.toNat = lba.toNat / 2 ^ 16 % 256 := by
    rw [UInt32.toNat_toUInt8, UInt32.toNat_shiftRight]
    exact congrArg (· % 256) (Nat.shiftRight_eq_div_pow _ _)
  rw [hhigh, hmid, hupper, UInt32.toNat_toUInt8]
  omega

/-- **The command** that is sent is the one for the address and the count. -/
theorem sendCommand_eq (d : Device) (write : Bool) (h : lba.toNat < 2 ^ 28) (hcount : count ≠ 0) :
    ∃ d' : Device, sendCommand lba count (if write then 0x30 else 0x20) d =
        d'.during (Transfer.fresh write lba.toNat 0 count.toNat (d.schedule 0)) ∧
      d'.image = d.image ∧ d'.schedule = d.schedule := by
  let d' : Device :=
    { d with
      sectorCount := count
      lbaLow := lba.toUInt8
      lbaMid := (lba >>> 8).toUInt8
      lbaHigh := (lba >>> 16).toUInt8
      driveHead := ((0xE0 : UInt32) ||| ((lba >>> 24) &&& 0xF)).toUInt8 }
  have hstart : sendCommand lba count (if write then 0x30 else 0x20) d = d'.start write := by cases write <;> rfl
  refine ⟨d', ?_, rfl, rfl⟩
  have haddress : d'.lba = lba.toNat := registers_address h
  rw [hstart, Device.start, haddress, if_neg hcount]
  rfl

/-! ## Rounds -/

theorem readRounds_succ {s : Buffer × Device} (h : (ataBusyWait fuel s.2 >>= ataDrqWait fuel) = some d') :
    readRounds fuel (n + 1) target s =
      readRounds fuel n (target + 512) ((List.range 256).foldl (readWord target) (s.1, d')) := by
  obtain ⟨a, ha, hd⟩ := Option.bind_eq_some_iff.mp h
  rw [readRounds, ha]
  change (ataDrqWait fuel a >>= _) = _
  rw [hd]
  rfl

theorem writeRounds_succ (h : (ataBusyWait fuel d >>= ataDrqWait fuel) = some d') :
    writeRounds fuel ptr (n + 1) i d =
      writeRounds fuel ptr n (i + 1) ((List.range 256).foldl (writeWord ptr i) d') := by
  obtain ⟨a, ha, hd⟩ := Option.bind_eq_some_iff.mp h
  rw [writeRounds, ha]
  change (ataDrqWait fuel a >>= _) = _
  rw [hd]
  rfl

/-- A round of `read_blocks` with a device that is soon ready. -/
theorem readRounds_open (hb : w.busy < fuel) (hr : w.ready ≤ 1) :
    readRounds fuel (n + 1) target (ptr, d.during (Transfer.fresh false sector done (n + 1) w)) =
      readRounds fuel n (target + 512) (splice ptr target 512 fun k => d.image (512 * sector + k),
        d.finish (Transfer.fresh false sector done (n + 1) w)) := by
  refine (readRounds_succ (handshake_open (Transfer.fresh false sector done (n + 1) w) hb hr)).trans ?_
  rw [readSector_open rfl rfl rfl]
  rfl

/-- A round of `write_blocks` with a device that is soon ready. -/
theorem writeRounds_open (hb : w.busy < fuel) (hr : w.ready ≤ 1) {left : Nat} :
    writeRounds fuel ptr (n + 1) i (d.during (Transfer.fresh true sector done left w)) =
      writeRounds fuel ptr n (i + 1) ((d.withImage (splice d.image (512 * sector) 512 fun k =>
        ptr (512 * i + k))).finish (Transfer.fresh true sector done left w)) := by
  refine (writeRounds_succ (handshake_open (Transfer.fresh true sector done left w) hb hr)).trans ?_
  rw [writeSector_open rfl rfl rfl]
  rfl

/-- A round of `write_blocks` with a device that is not: nothing is written. -/
theorem writeRounds_closed {b r left : Nat} (hb : b < fuel) :
    writeRounds fuel ptr (n + 1) i (d.during (Transfer.fresh true sector done left ⟨b, r + 2⟩)) =
      writeRounds fuel ptr n (i + 1) (d.during (Transfer.fresh true sector done left ⟨0, r⟩)) := by
  refine (writeRounds_succ (handshake_closed (Transfer.fresh true sector done left ⟨b, r + 2⟩) hb)).trans ?_
  rw [writeSector_closed rfl]
  rfl

end Commands

end Ata

end Os2024
