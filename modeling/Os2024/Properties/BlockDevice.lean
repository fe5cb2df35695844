import Mathlib.Data.Finset.Lattice.Fold
import Os2024.Disk.Ata
import Os2024.Inserter.Inserter

/-!
# The ATA driver against the image driver

The driver of the kernel and the image driver of the inserter do the same with the same disk, if before every sector
the device is soon ready and the offsets of the inserter do not wrap: `ata_eq_image_iff`. The wait for data tests
`ATA_STATUS_RDY`, so a device that is ready without data for two reports finds the driver transferring too early.
-/

namespace Os2024

namespace Ata

open Splice Fuel

section Runs

variable {d : Device} {ptr : Buffer} {fuel sector done n i target : Nat}

/-- No sector of a command is waited for longer than the fuel lasts. -/
def Patient (fuel : Nat) (d : Device) : Prop := ∀ k < 255, (d.schedule k).busy < fuel

/-- Before the sectors `done` to `done + n - 1` the device is ready without data for one report at most. -/
def Prompt (schedule : Nat → Wait) (done n : Nat) : Prop := ∀ k < n, (schedule (done + k)).ready ≤ 1

theorem Prompt.tail {schedule : Nat → Wait} (h : Prompt schedule done (n + 1)) : Prompt schedule (done + 1) n := by
  intro k hk
  rw [Nat.add_right_comm, Nat.add_assoc]
  exact h (k + 1) (by omega)

theorem finish_succ {left : Nat} (d : Device) (write : Bool) (w : Wait) :
    d.finish (Transfer.fresh write sector done (left + 2) w) =
      d.during (Transfer.fresh write (sector + 1) (done + 1) (left + 1) (d.schedule (done + 1))) :=
  if_neg (by simp [Transfer.fresh])

theorem image_finish (d : Device) (t : Transfer) : (d.finish t).image = d.image := by
  rw [Device.finish]
  split <;> rfl

/-- The device with the bytes of round `i` in a sector. -/
def Device.store (ptr : Buffer) (i sector : Nat) (d : Device) : Device :=
  d.withImage (splice d.image (512 * sector) 512 fun k => ptr (512 * i + k))

theorem image_store : (d.store ptr i sector).image = splice d.image (512 * sector) 512 fun k => ptr (512 * i + k) :=
  rfl

theorem image_store_of_notMem {a : Nat} (h : ¬ (512 * sector ≤ a ∧ a < 512 * sector + 512)) :
    (d.store ptr i sector).image a = d.image a := by
  rw [image_store]
  exact splice_of_notMem h

theorem writeRounds_next {left : Nat} {w : Wait} (hb : w.busy < fuel) (hr : w.ready ≤ 1) :
    writeRounds fuel ptr (n + 1) i (d.during (Transfer.fresh true sector done (left + 2) w)) =
      writeRounds fuel ptr n (i + 1) ((d.store ptr i sector).during
        (Transfer.fresh true (sector + 1) (done + 1) (left + 1) (d.schedule (done + 1)))) := by
  rw [writeRounds_open hb hr, finish_succ]
  rfl

theorem writeRounds_last {left : Nat} {w : Wait} (hb : w.busy < fuel) (hr : w.ready ≤ 1) :
    ∃ d', writeRounds fuel ptr 1 i (d.during (Transfer.fresh true sector done left w)) = some d' ∧
      d'.image = (d.store ptr i sector).image :=
  ⟨_, writeRounds_open hb hr, image_finish ..⟩

/-- `read_blocks` from a prompt device. -/
theorem readRounds_prompt (hfuel : Patient fuel d) (hdone : done + n ≤ 255) (h : Prompt d.schedule done n) :
    ∃ d' : Device, readRounds fuel n target (ptr, d.during (Transfer.fresh false sector done n (d.schedule done))) =
        some (splice ptr target (512 * n) fun k => d.image (512 * sector + k), d') ∧ d'.image = d.image := by
  induction n generalizing ptr target sector done with
  | zero =>
    refine ⟨d.during (Transfer.fresh false sector done 0 (d.schedule done)), ?_, rfl⟩
    rw [Nat.mul_zero, splice_zero, readRounds]
  | succ n ih =>
    have hfirst : readRounds fuel (n + 1) target
        (ptr, d.during (Transfer.fresh false sector done (n + 1) (d.schedule done))) = _ :=
      readRounds_open (hfuel done (by omega)) (h 0 (Nat.succ_pos n))
    cases n with
    | zero =>
      refine ⟨_, hfirst, ?_⟩
      exact image_finish ..
    | succ n =>
      rw [finish_succ] at hfirst
      obtain ⟨d', hrest, himage⟩ := ih (by omega) h.tail
      refine ⟨d', hfirst.trans (hrest.trans ?_), himage⟩
      rw [show 512 * (n + 1 + 1) = 512 + 512 * (n + 1) by omega, ← splice_append]
      simp only [Nat.mul_add, Nat.add_assoc, Nat.mul_one]

/-- `write_blocks` to a prompt device. -/
theorem writeRounds_prompt (hfuel : Patient fuel d) (hdone : done + n ≤ 255) (h : Prompt d.schedule done n) :
    ∃ d', writeRounds fuel ptr n i (d.during (Transfer.fresh true sector done n (d.schedule done))) = some d' ∧
      d'.image = splice d.image (512 * sector) (512 * n) fun k => ptr (512 * i + k) := by
  induction n generalizing d i sector done with
  | zero => exact ⟨_, rfl, by rw [Nat.mul_zero, splice_zero]; rfl⟩
  | succ n ih =>
    have hbusy := hfuel done (by omega)
    have hready := h 0 (Nat.succ_pos n)
    cases n with
    | zero => exact writeRounds_last hbusy hready
    | succ n =>
      obtain ⟨d', hrest, himage⟩ := ih (d := d.store ptr i sector) hfuel (by omega) h.tail
      refine ⟨d', (writeRounds_next hbusy hready).trans hrest, himage.trans ?_⟩
      rw [show 512 * (n + 1 + 1) = 512 + 512 * (n + 1) by omega, ← splice_append]
      simp only [image_store, Nat.mul_add, Nat.add_assoc, Nat.mul_one]

/-- Whatever the device, `write_blocks` returns, and writes to no more sectors than it makes rounds. -/
theorem writeRounds_frame {left : Nat} {w : Wait} (hfuel : Patient fuel d) (hw : w.busy < fuel) (hn : n ≤ left)
    (hdone : done + left ≤ 255) :
    ∃ d', writeRounds fuel ptr n i (d.during (Transfer.fresh true sector done left w)) = some d' ∧
      ∀ a, ¬ (512 * sector ≤ a ∧ a < 512 * (sector + n)) → d'.image a = d.image a := by
  induction n generalizing d i sector done left w with
  | zero => exact ⟨_, rfl, fun _ _ => rfl⟩
  | succ n ih =>
    obtain ⟨b, r⟩ := w
    by_cases hr : r ≤ 1
    · have hsector : ∀ a, ¬ (512 * sector ≤ a ∧ a < 512 * (sector + (n + 1))) →
          (d.store ptr i sector).image a = d.image a :=
        fun a ha => image_store_of_notMem (by omega)
      cases n with
      | zero =>
        obtain ⟨d', hrun, himage⟩ := writeRounds_last hw hr
        exact ⟨d', hrun, fun a ha => (congrFun himage a).trans (hsector a ha)⟩
      | succ n =>
        obtain ⟨left, rfl⟩ := Nat.exists_eq_add_of_le' (show 2 ≤ left by omega)
        obtain ⟨d', hrest, hframe⟩ := ih (d := d.store ptr i sector) hfuel (hfuel (done + 1) (by omega))
          (show n + 1 ≤ left + 1 by omega) (show done + 1 + (left + 1) ≤ 255 by omega)
        refine ⟨d', (writeRounds_next hw hr).trans hrest, fun a ha => ?_⟩
        exact (hframe a (by omega)).trans (hsector a ha)
    · obtain ⟨r, rfl⟩ := Nat.exists_eq_add_of_le' (show 2 ≤ r by omega)
      obtain ⟨d', hrest, hframe⟩ := ih (w := ⟨0, r⟩) hfuel (Nat.zero_lt_of_lt hw) (show n ≤ left by omega) hdone
      exact ⟨d', (writeRounds_closed hw).trans hrest, fun a ha => hframe a (by omega)⟩

/-- A device that is not prompt misses the last sector. -/
theorem writeRounds_late (hfuel : Patient fuel d) (hdone : done + (n + 1) ≤ 255)
    (h : ¬ Prompt d.schedule done (n + 1)) :
    ∃ d', writeRounds fuel ptr (n + 1) i (d.during (Transfer.fresh true sector done (n + 1) (d.schedule done))) =
        some d' ∧ ∀ a, ¬ (512 * sector ≤ a ∧ a < 512 * (sector + n)) → d'.image a = d.image a := by
  induction n generalizing d i sector done with
  | zero =>
    have hready : ¬ (d.schedule done).ready ≤ 1 := fun hr => h fun k hk => by rwa [show k = 0 by omega]
    obtain ⟨r, hr⟩ := Nat.exists_eq_add_of_le' (show 2 ≤ (d.schedule done).ready by omega)
    have hround : writeRounds fuel ptr (0 + 1) i
        (d.during (Transfer.fresh true sector done 1 ⟨(d.schedule done).busy, r + 2⟩)) = _ :=
      writeRounds_closed (hfuel done (by omega))
    rw [← hr] at hround
    exact ⟨_, hround, fun _ _ => rfl⟩
  | succ n ih =>
    by_cases hready : (d.schedule done).ready ≤ 1
    · have hlater : ¬ Prompt d.schedule (done + 1) (n + 1) := by
        intro hlater
        refine h fun k hk => ?_
        cases k with
        | zero => exact hready
        | succ k =>
          rw [← Nat.add_assoc, Nat.add_right_comm]
          exact hlater k (by omega)
      obtain ⟨d', hrest, hframe⟩ := ih (d := d.store ptr i sector) hfuel (by omega) hlater
      refine ⟨d', (writeRounds_next (hfuel done (by omega)) hready).trans hrest, fun a ha => ?_⟩
      exact (hframe a (by omega)).trans (image_store_of_notMem (by omega))
    · obtain ⟨r, hr⟩ := Nat.exists_eq_add_of_le' (show 2 ≤ (d.schedule done).ready by omega)
      have hround : writeRounds fuel ptr (n + 1 + 1) i
          (d.during (Transfer.fresh true sector done (n + 2) ⟨(d.schedule done).busy, r + 2⟩)) = _ :=
        writeRounds_closed (hfuel done (by omega))
      rw [← hr] at hround
      obtain ⟨d', hrest, hframe⟩ := writeRounds_frame (w := ⟨0, r⟩) hfuel (Nat.zero_lt_of_lt (hfuel done (by omega)))
        (show n + 1 ≤ n + 2 by omega) hdone
      exact ⟨d', hround.trans hrest, hframe⟩

end Runs

/-! ## Calls -/

section Calls

variable {d : Device} {ptr : Buffer} {lba : UInt32} {count : UInt8} {fuel : Nat}

theorem exists_patient (d : Device) : ∃ enough, ∀ fuel ≥ enough, d.idle < fuel ∧ Patient fuel d := by
  refine ⟨d.idle + (Finset.range 255).sup (fun k => (d.schedule k).busy) + 1, fun fuel hfuel => ⟨by omega, ?_⟩⟩
  intro k hk
  have hle : (d.schedule k).busy ≤ (Finset.range 255).sup fun k => (d.schedule k).busy :=
    Finset.le_sup (f := fun k => (d.schedule k).busy) (Finset.mem_range.mpr hk)
  omega

theorem ataBusyWait_idle {k : Nat} (d : Device) (hnone : d.transfer = none) (h : k < fuel) :
    ataBusyWait fuel { d with idle := k } = some { d with idle := 0 } := by
  obtain ⟨fuel, rfl⟩ : ∃ n, fuel = n + 1 := ⟨fuel - 1, by omega⟩
  induction k generalizing fuel with
  | zero =>
    have hstatus : in8 0x1F7 { d with idle := 0 } = (ataStatusRdy, { d with idle := 0 }) := by
      change Device.status _ = _
      simp only [Device.status, hnone, Nat.lt_irrefl, if_false]
    rw [ataBusyWait, hstatus]
    exact if_neg (show ¬ ataStatusRdy &&& ataStatusBsy ≠ 0 by decide)
  | succ k ih =>
    have hstatus : in8 0x1F7 { d with idle := k + 1 } = (ataStatusBsy, { d with idle := k }) := by
      change Device.status _ = _
      simp only [Device.status, hnone, gt_iff_lt, Nat.succ_pos, if_true, Nat.add_sub_cancel]
    obtain ⟨fuel, rfl⟩ : ∃ n, fuel = n + 1 := ⟨fuel - 1, by omega⟩
    rw [ataBusyWait, hstatus, if_pos (show ataStatusBsy &&& ataStatusBsy ≠ 0 by decide)]
    exact ih fuel (by omega)

/-- `read_blocks` comes to its rounds. -/
theorem readBlocks_start (ptr : Buffer) (hnone : d.transfer = none) (hidle : d.idle < fuel) (hlba : lba.toNat < 2 ^ 28)
    (hcount : count ≠ 0) :
    ∃ d' : Device, d'.image = d.image ∧ d'.schedule = d.schedule ∧ readBlocks fuel ptr lba count d =
      readRounds fuel count.toNat 0
        (ptr, d'.during (Transfer.fresh false lba.toNat 0 count.toNat (d'.schedule 0))) := by
  obtain ⟨d', hsend, himage, hschedule⟩ := sendCommand_eq { d with idle := 0 } false hlba hcount
  refine ⟨d', himage, hschedule, ?_⟩
  rw [readBlocks, ataBusyWait_idle d hnone hidle, hschedule]
  exact congrArg (fun d => readRounds fuel count.toNat 0 (ptr, d)) hsend

/-- `write_blocks` comes to its rounds. -/
theorem writeBlocks_start (ptr : Buffer) (hnone : d.transfer = none) (hidle : d.idle < fuel) (hlba : lba.toNat < 2 ^ 28)
    (hcount : count ≠ 0) :
    ∃ d' : Device, d'.image = d.image ∧ d'.schedule = d.schedule ∧ writeBlocks fuel ptr lba count d =
      writeRounds fuel ptr count.toNat 0
        (d'.during (Transfer.fresh true lba.toNat 0 count.toNat (d'.schedule 0))) := by
  obtain ⟨d', hsend, himage, hschedule⟩ := sendCommand_eq { d with idle := 0 } true hlba hcount
  refine ⟨d', himage, hschedule, ?_⟩
  rw [writeBlocks, ataBusyWait_idle d hnone hidle, hschedule]
  exact congrArg (writeRounds fuel ptr count.toNat 0) hsend

/-- The two drivers do the same: `read_blocks` leaves the same buffer and the image alone, `write_blocks` leaves the
same image. -/
def SameDevice (ptr : Buffer) (logicalBlockAddress : UInt32) (blockCount : UInt8) (d : Device) : Prop :=
  Returns (fun fuel => (readBlocks fuel ptr logicalBlockAddress blockCount d).map fun s => (s.1, s.2.image))
    (some (Inserter.readBlocks ptr logicalBlockAddress blockCount d.image, d.image)) ∧
  Returns (fun fuel => (writeBlocks fuel ptr logicalBlockAddress blockCount d).map Device.image)
    (some (Inserter.writeBlocks ptr logicalBlockAddress blockCount d.image))

theorem sameDevice_of_prompt (hnone : d.transfer = none) (hcount : count ≠ 0)
    (hlba : lba.toNat + count.toNat ≤ 2 ^ 23) (h : Prompt d.schedule 0 count.toNat) : SameDevice ptr lba count d := by
  obtain ⟨enough, henough⟩ := exists_patient d
  have hlba' : lba.toNat < 2 ^ 28 := by omega
  have hn : 0 + count.toNat ≤ 255 := by
    have hlt := count.toNat_lt
    omega
  refine ⟨Returns.of_ge enough fun fuel hfuel => ?_, Returns.of_ge enough fun fuel hfuel => ?_⟩
  · obtain ⟨hidle, hpatient⟩ := henough fuel hfuel
    obtain ⟨d', himage, hschedule, hstart⟩ := readBlocks_start ptr hnone hidle hlba' hcount
    obtain ⟨d'', hrun, himage'⟩ : ∃ d'' : Device, readRounds fuel count.toNat 0
        (ptr, d'.during (Transfer.fresh false lba.toNat 0 count.toNat (d'.schedule 0))) =
          some (splice ptr 0 (512 * count.toNat) fun k => d'.image (512 * lba.toNat + k), d'') ∧ d''.image = d'.image :=
      readRounds_prompt (by rwa [Patient, hschedule]) hn (by rwa [hschedule])
    rw [hstart, hrun, Option.map_some, himage', himage, Inserter.readBlocks_eq hlba]
  · obtain ⟨hidle, hpatient⟩ := henough fuel hfuel
    obtain ⟨d', himage, hschedule, hstart⟩ := writeBlocks_start ptr hnone hidle hlba' hcount
    obtain ⟨d'', hrun, himage'⟩ : ∃ d'', writeRounds fuel ptr count.toNat 0
        (d'.during (Transfer.fresh true lba.toNat 0 count.toNat (d'.schedule 0))) = some d'' ∧
          d''.image = splice d'.image (512 * lba.toNat) (512 * count.toNat) fun k => ptr (512 * 0 + k) :=
      writeRounds_prompt (by rwa [Patient, hschedule]) hn (by rwa [hschedule])
    rw [hstart, hrun, Option.map_some, himage', himage, Inserter.writeBlocks_eq hlba]
    simp only [Nat.mul_zero, Nat.zero_add]

/-- What `write_blocks` leaves is what some run of its rounds leaves. -/
theorem writeBlocks_rounds {image : Buffer} (hnone : d.transfer = none) (hcount : count ≠ 0)
    (hlba : lba.toNat < 2 ^ 28)
    (h : Returns (fun fuel => (writeBlocks fuel ptr lba count d).map Device.image) (some image)) :
    ∃ fuel, ∃ d' : Device, d'.image = d.image ∧ d'.schedule = d.schedule ∧ Patient fuel d' ∧
      (writeRounds fuel ptr count.toNat 0
        (d'.during (Transfer.fresh true lba.toNat 0 count.toNat (d'.schedule 0)))).map Device.image = some image := by
  obtain ⟨enough, henough⟩ := exists_patient d
  obtain ⟨settled, hsettled⟩ := h
  obtain ⟨hidle, hpatient⟩ := henough (max enough settled) (le_max_left ..)
  obtain ⟨d', himage, hschedule, hstart⟩ := writeBlocks_start ptr hnone hidle hlba hcount
  refine ⟨max enough settled, d', himage, hschedule, by rwa [Patient, hschedule], ?_⟩
  rw [← hstart]
  exact hsettled _ (le_max_right ..)

/-- `write_blocks` leaves other blocks as they are. -/
theorem writeBlocks_frame {image : Buffer} (hnone : d.transfer = none) (hcount : count ≠ 0)
    (hlba : lba.toNat < 2 ^ 28)
    (h : Returns (fun fuel => (writeBlocks fuel ptr lba count d).map Device.image) (some image)) {a : Nat}
    (ha : a < 512 * lba.toNat) : image a = d.image a := by
  have hlt := count.toNat_lt
  obtain ⟨fuel, d', himage, hschedule, hpatient, hrun⟩ := writeBlocks_rounds hnone hcount hlba h
  obtain ⟨d'', hrun', hframe⟩ : ∃ d'', writeRounds fuel ptr count.toNat 0
      (d'.during (Transfer.fresh true lba.toNat 0 count.toNat (d'.schedule 0))) = some d'' ∧
        ∀ a, ¬ (512 * lba.toNat ≤ a ∧ a < 512 * (lba.toNat + count.toNat)) → d''.image a = d'.image a :=
    writeRounds_frame hpatient (hpatient 0 (by decide)) (le_refl count.toNat) (by omega)
  rw [hrun', Option.map_some, Option.some_inj] at hrun
  rw [← hrun, ← himage]
  exact hframe a (by omega)

/-- On a device that is not prompt, `write_blocks` leaves the last block as it is. -/
theorem writeBlocks_late {image : Buffer} (hnone : d.transfer = none) (hcount : count ≠ 0)
    (hlba : lba.toNat < 2 ^ 28) (hlate : ¬ Prompt d.schedule 0 count.toNat)
    (h : Returns (fun fuel => (writeBlocks fuel ptr lba count d).map Device.image) (some image)) {a : Nat}
    (ha : 512 * (lba.toNat + (count.toNat - 1)) ≤ a) : image a = d.image a := by
  have hlt := count.toNat_lt
  have hpos : 0 < count.toNat := Nat.pos_of_ne_zero fun h0 => hcount (UInt8.toNat_inj.mp h0)
  obtain ⟨n, hn⟩ := Nat.exists_eq_add_of_le' hpos
  obtain ⟨fuel, d', himage, hschedule, hpatient, hrun⟩ := writeBlocks_rounds hnone hcount hlba h
  rw [hn] at hrun hlate ha
  obtain ⟨d'', hrun', hframe⟩ : ∃ d'', writeRounds fuel ptr (n + 1) 0
      (d'.during (Transfer.fresh true lba.toNat 0 (n + 1) (d'.schedule 0))) = some d'' ∧
        ∀ a, ¬ (512 * lba.toNat ≤ a ∧ a < 512 * (lba.toNat + n)) → d''.image a = d'.image a :=
    writeRounds_late hpatient (by omega) (by rwa [hschedule])
  rw [hrun', Option.map_some, Option.some_inj] at hrun
  rw [← hrun, ← himage]
  exact hframe a (by omega)

/-- The image driver writes the last block where the offset in 32 bits says. -/
theorem writeBlocks_last (hcount : 0 < count.toNat) (image : Buffer) :
    Inserter.writeBlocks ptr lba count image (Inserter.blockOffset lba (count.toNat - 1)) =
      ptr (512 * (count.toNat - 1)) := by
  obtain ⟨n, hn⟩ := Nat.exists_eq_add_of_le' hcount
  rw [Inserter.writeBlocks, hn, List.range_succ, List.foldl_append, List.foldl_cons, List.foldl_nil,
    Inserter.memcpy_eq, Nat.add_sub_cancel]
  exact splice_add (i := 0) (by decide)

/-- The disk of zeros, idle, with a schedule. -/
def blank (schedule : Nat → Wait) : Device where
  image _ := 0
  schedule := schedule
  bus := 0
  sectorCount := 0
  lbaLow := 0
  lbaMid := 0
  lbaHigh := 0
  driveHead := 0
  idle := 0
  transfer := none

/-- Ones written to the blank disk: where the image driver puts the last block, the ATA driver leaves zeros. -/
theorem not_sameDevice {schedule : Nat → Wait} (hcount : 0 < count.toNat) (hlba : lba.toNat + count.toNat ≤ 2 ^ 28)
    (h : ¬ (Prompt schedule 0 count.toNat ∧ lba.toNat + count.toNat ≤ 2 ^ 23)) :
    ¬ SameDevice (fun _ => 1) lba count (blank schedule) := by
  intro hsame
  have hcount' : count ≠ 0 := by
    rintro rfl
    exact Nat.lt_irrefl 0 hcount
  have hone : Inserter.writeBlocks (fun _ => 1) lba count (blank schedule).image
      (Inserter.blockOffset lba (count.toNat - 1)) = 1 := writeBlocks_last hcount (blank schedule).image
  have hoffset : Inserter.blockOffset lba (count.toNat - 1) =
      512 * (lba.toNat + (count.toNat - 1)) % 2 ^ 32 := by
    simp only [Inserter.blockOffset, UInt32.toNat_mul, UInt32.toNat_add, UInt32.toNat_ofNat', UInt32.reduceToNat]
    omega
  have hlt := count.toNat_lt
  have hzero : Inserter.writeBlocks (fun _ => 1) lba count (blank schedule).image
      (Inserter.blockOffset lba (count.toNat - 1)) = 0 := by
    by_cases hwrap : lba.toNat + count.toNat ≤ 2 ^ 23
    · exact writeBlocks_late rfl hcount' (by omega) (fun hprompt => h ⟨hprompt, hwrap⟩) hsame.2 (by omega)
    · exact writeBlocks_frame rfl hcount' (by omega) hsame.2 (by omega)
  exact absurd (hone.symm.trans hzero) (by decide)

/-- **The two drivers are the same block device** for every image and every buffer if and only if the device is ready
without data for at most one report before each sector, and the offsets of the blocks are within 32 bits. -/
theorem ata_eq_image_iff (schedule : Nat → Wait) (lba : UInt32) (count : UInt8) (hcount : 1 ≤ count.toNat)
    (hlba : lba.toNat + count.toNat ≤ 2 ^ 28) :
    (∀ (d : Device) (ptr : Buffer), d.schedule = schedule → d.transfer = none → SameDevice ptr lba count d) ↔
      (∀ i < count.toNat, (schedule i).ready ≤ 1) ∧ lba.toNat + count.toNat ≤ 2 ^ 23 := by
  have hprompt : Prompt schedule 0 count.toNat ↔ ∀ i < count.toNat, (schedule i).ready ≤ 1 := by
    simp only [Prompt, Nat.zero_add]
  rw [← hprompt]
  constructor
  · intro hsame
    by_contra hnot
    exact not_sameDevice hcount hlba hnot (hsame (blank schedule) (fun _ => 1) rfl rfl)
  · rintro ⟨h, hwrap⟩ d ptr rfl hnone
    refine sameDevice_of_prompt hnone ?_ hwrap h
    rintro rfl
    exact absurd hcount (by decide)

/-- Two blocks of a device that is ready without data once, before the second one. -/
theorem ata_eq_image_two : SameDevice (fun _ => 1) 5 2 (blank fun i => ⟨3, i⟩) :=
  (ata_eq_image_iff (fun i => ⟨3, i⟩) 5 2 (by decide) (by decide)).mpr
    ⟨fun _ hi => Nat.le_of_lt_succ hi, by decide⟩ _ _ rfl rfl

/-- A device that is ready without data for two reports loses the block. -/
theorem ata_slow_device : ¬ SameDevice (fun _ => 1) 0 1 (blank fun _ => ⟨0, 2⟩) :=
  not_sameDevice (by decide) (by decide) fun h => absurd (h.1 0 (by decide)) (by decide)

end Calls

end Ata

end Os2024
