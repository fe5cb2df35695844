import Os2024.Fat32.Space
import Os2024.Fat32.View
import Os2024.Properties.Kinds

/-!
# Answers follow from the history

What an operation answers can be told without a look at the disk: `answer` computes it from the requests made so far and
their answers.
* `free_space_follows`: in every state of a run the cells that are free are those the kept writes leave, and `write`
  answers as the catalog, the number of entries and the number of free cells say.
* `answers_follow`: in runs that make no file in the slot of a deleted folder, so do the other three operations, and a
  `read` leaves in memory what the write of its file has stored.
-/

namespace Os2024

open Scan

/-! ## The answer to a call -/

/-- The write that has made the file or folder `k`, if it is kept. -/
def lookup (h : List Event) (k : Key) : Option Event := (keptWrites h).find? fun e => e.key = k

/-- The write has made a folder. -/
def Event.isFolder (e : Event) : Bool := e.call.request.bufferSize == 0

/-- What a `write` should answer. -/
def writeAnswer (h : List Event) (request : FAT32DriverRequest) : Int8 :=
  if (lookup h request.key).isSome then 1
  else if 62 ≤ (recordsIn h request.parentClusterNumber).length then -1
  else if 509 - cellsTaken h < request.clusterCount then -1
  else 0

/-- What a call should answer. -/
def answer (h : List Event) (call : Call) : Int8 :=
  match call.op with
  | .read =>
    match lookup h call.request.key with
    | none => 3
    | some e => ((e.call.view e.isFolder).answer call).1
  | .readDirectory =>
    if call.request.bufferSize ≠ 2048 then -1
    else match lookup h (call.request.parentClusterNumber, call.request.name, fun _ => 0) with
    | none => 2
    | some e => if e.isFolder then 0 else 1
  | .write => writeAnswer h call.request
  | .delete =>
    match lookup h call.request.key with
    | none => 1
    | some e => if e.isFolder && !(recordsIn h (firstWritten e.accesses)).isEmpty then 2 else 0

section Lookup

variable {h : List Event} {k : Key} {e : Event} {m : Machine} {s : System} {request : FAT32DriverRequest} {i : Fin 64}

theorem lookup_eq_some (hl : lookup h k = some e) : e ∈ keptWrites h ∧ e.key = k := by
  have hkey := List.find?_some hl
  exact ⟨List.mem_of_find?_eq_some hl, of_decide_eq_true hkey⟩

theorem lookup_eq_none : lookup h k = none ↔ ∀ r ∈ catalog h, r.key ≠ k := by
  rw [lookup, List.find?_eq_none, catalog_eq_map, List.forall_mem_map]
  exact forall₂_congr fun e _ => by rw [decide_eq_true_iff]; rfl

variable (hrep : Represents s.disk s.fat (catalog h)) (hlive : Live (catalog h) request.parentClusterNumber)
include hrep hlive

/-- A name is found on the disk if a kept write has made it. -/
theorem Represents.found_eq_none : s.found request = none ↔ lookup h request.key = none := by
  rw [lookup_eq_none]
  constructor
  · intro hs r hr hk
    obtain ⟨-, i, hi, hd⟩ := hrep.record r hr
    obtain ⟨hparent, hname, hext⟩ : r.parent = request.parentClusterNumber ∧ r.name = request.name ∧
        r.ext = request.ext := by
      simpa [Record.key, FAT32DriverRequest.key] using hk
    rw [hparent] at hi hd
    exact search_eq_none.mp hs i hi ⟨hd.name.trans hname, hd.ext.trans hext⟩
  · intro hnone
    cases hs : s.found request with
    | none => rfl
    | some i =>
      obtain ⟨r, hr, hk, -⟩ := hrep.record_of_search hlive hs
      exact absurd hk (hnone r hr)

end Lookup

/-! ## Free space -/

section Space

variable {m : Machine} {call : Call}

/-- A `write` to a live folder answers as the history says. -/
theorem Machine.Reachable.write_answers (hm : m.Reachable) (hop : call.op = .write)
    (hlive : Live (catalog m.history) call.request.parentClusterNumber) {fuel : Nat} (hfuel : 512 ≤ fuel) :
    ∃ s, call.exec fuel m.system = .ok (writeAnswer m.history call.request, s) := by
  have hacc := hm.accounted
  have hrep := hm.sound.represents
  have h' := hrep.start call
  have hv : ParentValid (call.start m.system) call.request.parentClusterNumber := h'.parentValid rfl rfl hlive
  have hfree : (freeCells (call.start m.system).fat).length = 509 - cellsTaken m.history :=
    Nat.eq_sub_of_add_eq hacc.total
  rw [Call.exec, hop, Op.run, writeAnswer]
  cases hs : (call.start m.system).found call.request with
  | some i =>
    have hsome : (lookup m.history call.request.key).isSome := by
      rw [Option.isSome_iff_ne_none, ne_eq, ← h'.found_eq_none hlive, hs]
      exact Option.some_ne_none i
    rw [if_pos hsome]
    exact ⟨_, write_of_found hv hs⟩
  | none =>
    have hnone : (lookup m.history call.request.key).isSome = false := by
      rw [(h'.found_eq_none hlive).mp hs]
      rfl
    rw [hnone, if_neg Bool.false_ne_true]
    by_cases hfull : 62 ≤ (recordsIn m.history call.request.parentClusterNumber).length
    · rw [if_pos hfull]
      refine ⟨_, write_of_noRoom hv hs fun i hi => ?_⟩
      have hempty := (h'.emptyEntry_eq_none hacc.keys hlive).mpr hfull
      rw [hempty] at hi
      cases hi
    · rw [if_neg hfull]
      obtain ⟨i, hi⟩ : ∃ i, (tableAt (call.start m.system).disk call.request.parentClusterNumber).emptyEntry = some i :=
        Option.ne_none_iff_exists'.mp fun he => hfull ((h'.emptyEntry_eq_none hacc.keys hlive).mp he)
      by_cases hroom : 509 - cellsTaken m.history < call.request.clusterCount
      · rw [if_pos hroom]
        exact ⟨_, write_of_noRoom hv hs fun _ _ => hfree ▸ hroom⟩
      · rw [if_neg hroom]
        have hw : CanWrite (call.start m.system) call.request i := ⟨hv, hs, hi, by omega⟩
        exact ⟨_, write_of_canWrite hw ((clusterCount_le hw).trans hfuel)⟩

/-- **Free space and the answers of `write` follow from the history.** -/
theorem free_space_follows (hm : m.Reachable) :
    m.system.countAvailable + cellsTaken m.history = 509 ∧
      (∀ e ∈ keptWrites m.history, ∀ l, FatChain m.system.fat (firstWritten e.accesses) l →
        l.length = (e.call.request.bufferSize.toNat / 2048 + 2) / 2) ∧
      ∀ call : Call, call.op = .write → Live (catalog m.history) call.request.parentClusterNumber →
        ∀ fuel ≥ 512, ∃ s, call.exec fuel m.system = .ok (writeAnswer m.history call.request, s) :=
  ⟨hm.accounted.total, hm.chain_length, fun _ hop hlive _ hfuel => hm.write_answers hop hlive hfuel⟩

/-- **The cells of a file ascend**: following its chain, a `read` never goes back on the disk. -/
theorem chains_ascend (hm : m.Reachable) : ∀ e ∈ keptWrites m.history, ∀ l,
    FatChain m.system.fat (firstWritten e.accesses) l → l.Pairwise (· < ·) :=
  hm.keptChains (P := fun _ l => l.Pairwise (· < ·)) fun _ => (freeCells_pairwise _).sublist (List.take_sublist ..)

/-- A file of 4096 bytes has two cells. -/
theorem chains_ascend_two_cells : ∃ l, FatChain
    (blankMachine.firstWrite (writeCall (fun _ => 97) 4096 fun _ => 0)).system.fat
      (firstWritten (blankMachine.firstWrite (writeCall (fun _ => 97) 4096 fun _ => 0)).system.accesses) l ∧
    l.length = 2 ∧ l.Pairwise (· < ·) := by
  have hreach := blankMachine_fresh.firstWrite_reachable (writeCall_fitsRoot (fun _ => 97) 4096 (fun _ => 0) (by decide))
    (writeCall_folderOk (by decide))
  have hkept := Machine.mem_keptWrites_after blankMachine
    (blankMachine.firstWrite (writeCall (fun _ => 97) 4096 fun _ => 0)).system
    (show (writeCall (fun _ => 97) 4096 fun _ => 0).op = .write from rfl)
  obtain ⟨l, hl, -⟩ := hreach.sound.represents.chain _ (Machine.mem_catalog_of_kept hkept)
  exact ⟨l, hl, hreach.chain_length _ hkept l hl, chains_ascend hreach _ hkept l hl⟩

/-- A file of 4096 bytes takes two cells. -/
theorem free_space_follows_file :
    (blankMachine.firstWrite (writeCall (fun _ => 97) 4096 fun _ => 0)).system.countAvailable = 507 := by
  have hreach := blankMachine_fresh.firstWrite_reachable (writeCall_fitsRoot (fun _ => 97) 4096 (fun _ => 0) (by decide))
    (writeCall_folderOk (by decide))
  have htotal := (free_space_follows hreach).1
  have htaken : cellsTaken (blankMachine.firstWrite (writeCall (fun _ => 97) 4096 fun _ => 0)).history = 2 := by
    rw [cellsTaken, Machine.firstWrite, Machine.keptWrites_after_write rfl]
    rfl
  omega

end Space

/-! ## What is shown -/

/-- Every kept write is shown as it was made. -/
def ShowsKept (m : Machine) : Prop := ∀ e ∈ keptWrites m.history,
  Shows m.system.disk m.system.fat (catalog m.history) e.key (e.call.view e.isFolder)

section Step

variable {m : Machine} {call : Call} {s : System} {code : Int8} {fuel : Nat} {i : Fin 64} {l : List (Fin 512)}

theorem ShowsKept.written (hshow : ShowsKept m) (h : Represents m.system.disk m.system.fat (catalog m.history))
    (ha : Allowed m.history call) (hop : call.op = .write) (hw : CanWrite (call.start m.system) call.request i)
    (hplain : call.request.bufferSize ≠ 0 →
      ((tableAt m.system.disk call.request.parentClusterNumber).table i).isDirectory = false) :
    ShowsKept (m.afterWrite call i) := by
  intro e he
  rw [Machine.afterWrite, Machine.keptWrites_after_write hop] at he
  rcases List.mem_cons.mp he with rfl | he
  · have hnew := hw.shows_written ha.1
    have hfolder : ((call.start m.system).writtenEntry call.request i).isDirectory = (call.request.bufferSize == 0) := by
      by_cases hsize : call.request.bufferSize = 0
      · rw [System.writtenEntry_isDirectory_folder _ i hsize, hsize]
        rfl
      · rw [System.writtenEntry_isDirectory_file _ i hsize]
        exact (hplain hsize).trans (beq_eq_false_iff_ne.mpr hsize).symm
    rw [hfolder, ← Machine.catalog_after_written (i := i) hop] at hnew
    exact hnew
  · have hadd := (h.start call).addable hw ha.1
    have hne : call.request.key ≠ e.key := fun heq => hadd.key e.record (Machine.mem_catalog_of_kept he) heq.symm
    exact (hshow e he).after h ⟨ha, hne⟩ (Call.exec_write hop hw)

theorem ShowsKept.after (hshow : ShowsKept m) (h : Represents m.system.disk m.system.fat (catalog m.history))
    (ha : Allowed m.history call) (hplain : SlotPlain m.system call) (hexec : call.exec fuel m.system = .ok (code, s)) :
    ShowsKept (m.after call code s) := by
  cases Call.exec_outcome ((h.start call).chainsEnd fun _ => ha.1) hexec with
  | kept hk hcode =>
    intro e he
    rw [Machine.keptWrites_after_of_keep hcode] at he
    rw [Machine.catalog_after_of_keep hcode]
    change Shows s.disk s.fat _ _ _
    rw [hk.disk, hk.fat]
    exact hshow e he
  | written i hop hcode hw hs =>
    subst hs hcode
    exact hshow.written h ha hop hw fun hsize => hplain hop hsize i hw
  | deleted i l hop hcode hd hs =>
    subst hs hcode
    intro e he
    rw [Machine.keptWrites_after_delete hop] at he
    obtain ⟨he, hne⟩ := List.mem_filter.mp he
    exact (hshow e he).after h ⟨ha, fun heq => of_decide_eq_true hne heq.symm⟩ hexec

/-- A run that makes no file in the slot of a folder shows every kept write as it was made. -/
theorem Machine.Fresh.showsKept {m₀ : Machine} (hfresh : m₀.Fresh) (hr : Relation.ReflTransGen PlainStep m₀ m) :
    ShowsKept m := by
  induction hr with
  | refl =>
    intro e he
    rw [hfresh.history] at he
    cases he
  | tail hr hstep ih =>
    have hrep := (hfresh.plain_run hr).1.sound.represents
    cases hstep with
    | call ha hplain hexec => exact ih.after hrep ha hplain hexec

end Step

/-! ## The answers of the other operations -/

section Answers

variable {m : Machine} {call : Call} {e : Event} {k : Key} (hshow : ShowsKept m)
  (h : Represents m.system.disk m.system.fat (catalog m.history))
include hshow h

/-- The entry of a kept write. -/
theorem ShowsKept.exists_entry (hl : lookup m.history k = some e) : ∃ p, Lists m.system.disk (catalog m.history) p ∧
    k = (p.1, (entryAt m.system.disk p).name, (entryAt m.system.disk p).ext) ∧
    (entryAt m.system.disk p).isDirectory = e.isFolder ∧
    (entryAt m.system.disk p).clusterNumber = firstWritten e.accesses := by
  obtain ⟨he, rfl⟩ := lookup_eq_some hl
  obtain ⟨p, hp, hkey, hdir, -⟩ := hshow e he
  obtain ⟨r, hr, hparent, hd⟩ := h.record_of_lists hp
  obtain rfl : r = e.record := h.key_inj r hr _ (Machine.mem_catalog_of_kept he) <| by
    rw [Record.key, hparent, ← hd.name, ← hd.ext, ← hkey]
    rfl
  exact ⟨p, hp, hkey, hdir, hd.first⟩

/-- The code and the memory that a `read` answers with. -/
theorem ShowsKept.read_answers (hop : call.op = .read)
    (hlive : Live (catalog m.history) call.request.parentClusterNumber) :
    ∃ s, call.exec 512 m.system = .ok (answer m.history call, s) ∧
      ∀ e, lookup m.history call.request.key = some e → s.memory = ((e.call.view e.isFolder).answer call).2 := by
  rw [answer, hop]
  cases hl : lookup m.history call.request.key with
  | none =>
    obtain ⟨s, hs, -⟩ := h.answers_absent hop hlive (lookup_eq_none.mp hl)
    exact ⟨s, hs, fun e he => by cases he⟩
  | some e =>
    obtain ⟨he, hkey⟩ := lookup_eq_some hl
    obtain ⟨s, hs, hmem⟩ := (hshow e he).answers h hop hkey.symm
    refine ⟨s, hs, fun e' he' => ?_⟩
    obtain rfl := Option.some.inj he'
    exact hmem

theorem ShowsKept.delete_answers (hop : call.op = .delete)
    (hlive : Live (catalog m.history) call.request.parentClusterNumber) :
    ∃ s, call.exec 512 m.system = .ok (answer m.history call, s) := by
  have h' := h.start call
  have hv : ParentValid (call.start m.system) call.request.parentClusterNumber := h'.parentValid rfl rfl hlive
  rw [answer, hop]
  cases hl : lookup m.history call.request.key with
  | none =>
    have hnone := (h'.found_eq_none hlive).mpr hl
    rw [Call.exec, hop, Op.run, delete_of_valid hv]
    simp only [System.loadDirTable_dirTable, hnone]
    exact ⟨_, rfl⟩
  | some e =>
    obtain ⟨p, hp, hkey, hdir, hfirst⟩ := hshow.exists_entry h hl
    obtain ⟨l, hchain, -⟩ := h.entry_chain hp
    have hnames : call.request.Names (call.start m.system).disk p := hkey
    obtain ⟨hparent, hfound⟩ := h'.found_of_names hp hnames
    obtain ⟨he, hek⟩ := lookup_eq_some hl
    -- the folder holds nothing if no record has it as its parent
    have hempty : e.isFolder = true → ((tableAt m.system.disk (firstWritten e.accesses)).anyOccupied = false ↔
        recordsIn m.history (firstWritten e.accesses) = []) := by
      intro hf
      have hlive' : Live (catalog m.history) (firstWritten e.accesses) :=
        .inr ⟨e.record, Machine.mem_catalog_of_kept he, hf, rfl⟩
      rw [anyOccupied_eq_false, recordsIn, List.filter_eq_nil_iff]
      constructor
      · intro hno r hr hp
        obtain ⟨-, j, hj, -⟩ := h.record r hr
        exact hno j (of_decide_eq_true hp ▸ hj)
      · intro hno j hj
        obtain ⟨r, hr, hp, -⟩ := h.entry _ hlive' j hj
        exact hno r hr (decide_eq_true hp)
    by_cases hfull : e.isFolder = true ∧ recordsIn m.history (firstWritten e.accesses) ≠ []
    · have hcond : (e.isFolder && !(recordsIn m.history (firstWritten e.accesses)).isEmpty) = true := by
        simpa using hfull
      dsimp only
      rw [if_pos hcond]
      rw [Call.exec, hop, Op.run]
      refine ⟨_, delete_of_full hv hfound ?_ ?_⟩
      · rw [hparent]
        exact hdir.trans hfull.1
      · rw [hparent]
        refine Bool.eq_true_of_not_eq_false fun hno => hfull.2 ((hempty hfull.1).mp ?_)
        rw [← hfirst]
        exact hno
    · have hcond : ¬ (e.isFolder && !(recordsIn m.history (firstWritten e.accesses)).isEmpty) = true := by
        simpa using hfull
      dsimp only
      rw [if_neg hcond]
      have hd : CanDelete (call.start m.system) call.request p.2 l := by
        refine h'.canDelete hp hnames hchain fun hd => ?_
        have hf : e.isFolder = true := hdir.symm.trans hd
        have hnil := (hempty hf).mpr (not_not.mp fun hne => hfull ⟨hf, hne⟩)
        rw [← hfirst] at hnil
        exact hnil
      exact ⟨_, Call.exec_delete hop hd⟩

theorem ShowsKept.readDirectory_answers (hop : call.op = .readDirectory)
    (hlive : Live (catalog m.history) call.request.parentClusterNumber) :
    ∃ s, call.exec 512 m.system = .ok (answer m.history call, s) := by
  have h' := h.start call
  have hv : ParentValid (call.start m.system) call.request.parentClusterNumber := h'.parentValid rfl rfl hlive
  rw [answer, hop, Call.exec, hop, Op.run]
  dsimp only
  by_cases hsize : call.request.bufferSize = 2048
  · rw [if_neg (not_not.mpr hsize), readDirectory_of_valid hv hsize]
    cases hl : lookup m.history (call.request.parentClusterNumber, call.request.name, fun _ => 0) with
    | none =>
      have hiff : (call.start m.system).found { call.request with ext := fun _ => 0 } = none ↔
          lookup m.history (call.request.parentClusterNumber, call.request.name, fun _ => 0) = none :=
        h'.found_eq_none hlive
      have hnone := hiff.mpr hl
      simp only [System.loadDirTable_dirTable, hnone]
      exact ⟨_, rfl⟩
    | some e =>
      obtain ⟨p, hp, hkey, hdir, -⟩ := hshow.exists_entry h hl
      have hnames : FAT32DriverRequest.Names { call.request with ext := fun _ => 0 } (call.start m.system).disk p := hkey
      obtain ⟨hparent, hfound⟩ := h'.found_of_names hp hnames
      have hentry : ((tableAt (call.start m.system).disk call.request.parentClusterNumber).table p.2).isDirectory =
          e.isFolder := by
        rw [show call.request.parentClusterNumber = p.1 from hparent]
        exact hdir
      simp only [System.loadDirTable_dirTable, hfound, hentry]
      cases e.isFolder <;> exact ⟨_, rfl⟩
  · rw [if_pos hsize, readDirectory_of_size hsize]
    exact ⟨_, rfl⟩

end Answers

/-- **Answers follow from the history.** In a run that makes no file in the slot of a deleted folder, the answer to any
call is the one computed from the calls before it, and what a `read` leaves in memory is what the kept write of its file
has stored. -/
theorem answers_follow {m₀ m : Machine} (hfresh : m₀.Fresh) (hr : Relation.ReflTransGen Machine.PlainStep m₀ m)
    (call : Call) (hlive : Live (catalog m.history) call.request.parentClusterNumber) (fuel : Nat)
    (hfuel : 512 ≤ fuel) :
    ∃ s, call.exec fuel m.system = .ok (answer m.history call, s) ∧
      (call.op = .read → ∀ e, lookup m.history call.request.key = some e →
        s.memory = ((e.call.view e.isFolder).answer call).2) := by
  obtain ⟨hm, -⟩ := hfresh.plain_run hr
  have hrep := hm.sound.represents
  have hshow := hfresh.showsKept hr
  have hmono : ∀ {s}, call.exec 512 m.system = .ok (answer m.history call, s) →
      call.exec fuel m.system = .ok (answer m.history call, s) := fun hs => by
    rw [Call.exec_mono (hs ▸ Exec.final_ok _) hfuel, hs]
  cases hop : call.op with
  | read =>
    obtain ⟨s, hs, hmem⟩ := hshow.read_answers hrep hop hlive
    exact ⟨s, hmono hs, fun _ => hmem⟩
  | readDirectory =>
    obtain ⟨s, hs⟩ := hshow.readDirectory_answers hrep hop hlive
    exact ⟨s, hmono hs, fun he => by cases he⟩
  | write =>
    obtain ⟨s, hs⟩ := hm.write_answers hop hlive hfuel
    refine ⟨s, ?_, fun he => by cases he⟩
    rw [hs, answer, hop]
  | delete =>
    obtain ⟨s, hs⟩ := hshow.delete_answers hrep hop hlive
    exact ⟨s, hmono hs, fun he => by cases he⟩

/-- A file of one byte is found too large for a buffer of one byte. -/
theorem answers_follow_read :
    ∃ s, (readCall (fun _ => 97) 1 fun _ => 0).exec 512
      (blankMachine.firstWrite (writeCall (fun _ => 97) 1 fun _ => 7)).system = .ok (2, s) := by
  have hfits := writeCall_fitsRoot (fun _ => 97) 1 (fun _ => 7) (by decide)
  have hplain : SlotPlain blankMachine.system (writeCall (fun _ => 97) 1 fun _ => 7) := by
    intro _ _ i hw
    obtain rfl := Option.some.inj ((blankMachine_fresh.canWrite hfits).emptyEntry.symm.trans hw.emptyEntry)
    rw [blankMachine_fresh.parent_table hfits]
    decide
  have hstep : Machine.PlainStep blankMachine (blankMachine.firstWrite (writeCall (fun _ => 97) 1 fun _ => 7)) :=
    .call ⟨Live.root _, writeCall_folderOk (by decide)⟩ hplain (blankMachine_fresh.exec_write hfits)
  obtain ⟨s, hs, -⟩ := answers_follow blankMachine_fresh (.single hstep) (readCall (fun _ => 97) 1 fun _ => 0)
    (Live.root _) 512 le_rfl
  have hanswer : answer (blankMachine.firstWrite (writeCall (fun _ => 97) 1 fun _ => 7)).history
      (readCall (fun _ => 97) 1 fun _ => 0) = 2 := by
    rw [answer, lookup, Machine.firstWrite, Machine.keptWrites_after_write rfl]
    rfl
  exact ⟨s, hanswer ▸ hs⟩

end Os2024
