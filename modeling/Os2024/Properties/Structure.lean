import Os2024.Fat32.Fresh

/-!
# What the disk holds

For every state of every run of allowed calls from a freshly created file system:

* `structure_invariant`: the reserved cells keep their values, the chains of the entries of live folders end, visit no
  cell twice and are disjoint, and every other cell that is not empty is on the chain of exactly one entry;
* `directory_lists_history`: a live folder lists exactly what was written to it and not deleted since.
-/

namespace Os2024

open LinkTable

variable {m : Machine}

/-! ## Chains -/

/-- **Structure of the file system.** -/
theorem structure_invariant (hm : m.Reachable) :
    (∀ c : Fin 512, c.val ≤ 2 → m.system.fat c = newFat.clusterMap c) ∧
      (∀ p, Lists m.system.disk (catalog m.history) p →
        ∃ l, FatChain m.system.fat (entryAt m.system.disk p).clusterNumber l ∧ l ≠ [] ∧ l.Nodup ∧
          ∀ c ∈ l, 2 ≤ c.val ∧ clusterNum c ≠ rootClusterNumber) ∧
      (∀ p p', Lists m.system.disk (catalog m.history) p → Lists m.system.disk (catalog m.history) p' → p ≠ p' →
        ∀ l l', FatChain m.system.fat (entryAt m.system.disk p).clusterNumber l →
          FatChain m.system.fat (entryAt m.system.disk p').clusterNumber l' → l.Disjoint l') ∧
      ∀ c : Fin 512, 3 ≤ c.val → m.system.fat c ≠ fat32FatEmptyEntry →
        ∃! p, Lists m.system.disk (catalog m.history) p ∧
          ∃ l, FatChain m.system.fat (entryAt m.system.disk p).clusterNumber l ∧ c ∈ l := by
  obtain ⟨h, hleak⟩ := hm.sound
  refine ⟨?_, ?_, ?_, ?_⟩
  · intro c hc
    obtain ⟨h0, h1, h2⟩ := h.reserved
    obtain rfl | rfl | rfl : c = 0 ∨ c = 1 ∨ c = 2 := by
      simp only [Fin.ext_iff]
      change c.val = 0 ∨ c.val = 1 ∨ c.val = 2
      omega
    · exact h0
    · exact h1
    · exact h2
  · intro p hp
    obtain ⟨l, hl, hne, hcells⟩ := h.entry_chain hp
    refine ⟨l, hl, hne, hl.nodup, ?_⟩
    intro c hc
    have h3 := (hcells c hc).1
    constructor
    · omega
    · rw [rootClusterNumber_eq, ne_eq, clusterNum_inj]
      rintro rfl
      exact absurd h3 (by decide)
  · intro p p' hp hp' hne l l' hl hl'
    exact h.entry_disjoint hp hp' hne hl hl'
  · intro c h3 hc
    exact h.existsUnique_owner (hleak c hc) h3

/-- Cell `3` belongs to the first folder. -/
theorem structure_invariant_folder :
    ∃! p, Lists (blankMachine.firstWrite (mkdirCall dotDot)).system.disk
        (catalog (blankMachine.firstWrite (mkdirCall dotDot)).history) p ∧
      ∃ l, FatChain (blankMachine.firstWrite (mkdirCall dotDot)).system.fat
        (entryAt (blankMachine.firstWrite (mkdirCall dotDot)).system.disk p).clusterNumber l ∧ (3 : Fin 512) ∈ l :=
  (structure_invariant (blankMachine_fresh.firstWrite_reachable (mkdirCall_fitsRoot dotDot)
    (mkdirCall_folderOk dotDot))).2.2.2 3 le_rfl (by
      have hchain := blankMachine_fresh.firstWrite_chain (mkdirCall_fitsRoot dotDot)
        (FAT32DriverRequest.clusterCount_of_zero rfl)
      rw [hchain.tail.start_nil]
      decide)

/-! ## Directories -/

/-- `e` is a `write` to the folder `c` that returned `0`, and no later `delete` of the same name in `c` returned `0`. -/
def PutAndKept (h : List Event) (c : UInt32) (name : Name) (ext : Ext) (e : Event) : Prop :=
  ∃ later earlier, h = later ++ e :: earlier ∧
    (e.call.op = .write ∧ e.code = 0 ∧ e.call.request.key = (c, name, ext)) ∧
    ∀ e' ∈ later, ¬ (e'.call.op = .delete ∧ e'.code = 0 ∧ e'.call.request.key = (c, name, ext))

theorem PutAndKept.key {h : List Event} {c : UInt32} {name : Name} {ext : Ext} {e : Event}
    (he : PutAndKept h c name ext e) : e.call.request.key = (c, name, ext) := by
  obtain ⟨-, -, -, ⟨-, -, hkey⟩, -⟩ := he
  exact hkey

theorem PutAndKept.record {h : List Event} {c : UInt32} {name : Name} {ext : Ext} {e : Event}
    (he : PutAndKept h c name ext e) : e.call.request.record (firstWritten e.accesses) ∈ catalog h := by
  obtain ⟨later, earlier, rfl, ⟨hop, hcode, hkey⟩, hl⟩ := he
  refine mem_catalog.mpr ⟨later, e, earlier, rfl, ⟨hop, hcode, rfl⟩, fun e' he' hd => hl e' he' ⟨hd.1, hd.2.1, ?_⟩⟩
  rw [← hd.2.2, ← hkey]
  rfl

theorem putAndKept_of_mem {h : List Event} {r : Record} (hr : r ∈ catalog h) :
    ∃ e, PutAndKept h r.parent r.name r.ext e ∧ r.first = firstWritten e.accesses := by
  obtain ⟨later, e, earlier, rfl, ⟨hop, hcode, rfl⟩, hl⟩ := mem_catalog.mp hr
  exact ⟨e, ⟨later, earlier, rfl, ⟨hop, hcode, rfl⟩, fun e' he' hd => hl e' he' ⟨hd.1, hd.2.1, hd.2.2.symm⟩⟩, rfl⟩

/-- The entries in use of a table are what was put in the folder `c` and kept, and nothing else. -/
structure ListsExactly (t : FAT32DirectoryTable) (h : List Event) (c : UInt32) : Prop where
  entry : ∀ i, t.Occupied i → ∃ e, PutAndKept h c (t.table i).name (t.table i).ext e
  kept : ∀ name ext e, PutAndKept h c name ext e → ∃! i, t.Occupied i ∧ (t.table i).name = name ∧
    (t.table i).ext = ext ∧ (t.table i).clusterNumber = firstWritten e.accesses

/-- The table of a live folder follows the history. -/
theorem Represents.listsExactly {disk : Disk} {fat : Fin 512 → UInt32} {hist : List Event} {c : UInt32}
    (h : Represents disk fat (catalog hist)) (hc : Live (catalog hist) c) : ListsExactly (tableAt disk c) hist c := by
  constructor
  · intro i hi
    obtain ⟨r, hr, rfl, hd⟩ := h.entry c hc i hi
    obtain ⟨e, he, -⟩ := putAndKept_of_mem hr
    exact ⟨e, hd.name ▸ hd.ext ▸ he⟩
  · intro name ext e he
    obtain ⟨rfl, rfl, rfl⟩ := FAT32DriverRequest.key_eq_iff.mp he.key
    obtain ⟨-, i, hi, hd⟩ := h.record _ he.record
    refine ⟨i, ⟨hi, hd.name, hd.ext, hd.first⟩, ?_⟩
    rintro j ⟨hj, hn, hx, -⟩
    exact h.slot _ hc j i hj hi (hn.trans hd.name.symm) (hx.trans hd.ext.symm)

/-- **A directory lists exactly what was put there**, and a successful `delete` removes one entry and no other. -/
theorem directory_lists_history (hm : m.Reachable) {c : UInt32} (hc : Live (catalog m.history) c) :
    (∀ i, (tableAt m.system.disk c).Occupied i → ∃ e,
      PutAndKept m.history c ((tableAt m.system.disk c).table i).name ((tableAt m.system.disk c).table i).ext e) ∧
    (∀ name ext e, PutAndKept m.history c name ext e →
      ∃! i, (tableAt m.system.disk c).Occupied i ∧ ((tableAt m.system.disk c).table i).name = name ∧
        ((tableAt m.system.disk c).table i).ext = ext ∧
        ((tableAt m.system.disk c).table i).clusterNumber = firstWritten e.accesses) ∧
    (∀ i j, (tableAt m.system.disk c).Occupied i → (tableAt m.system.disk c).Occupied j →
      ((tableAt m.system.disk c).table i).name = ((tableAt m.system.disk c).table j).name →
      ((tableAt m.system.disk c).table i).ext = ((tableAt m.system.disk c).table j).ext → i = j) ∧
    ∀ (call : Call) fuel s, Allowed m.history call → call.op = .delete → call.exec fuel m.system = .ok (0, s) →
      ∃ i, (tableAt m.system.disk call.request.parentClusterNumber).Occupied i ∧
        ((tableAt m.system.disk call.request.parentClusterNumber).table i).name = call.request.name ∧
        ((tableAt m.system.disk call.request.parentClusterNumber).table i).ext = call.request.ext ∧
        ∀ j, ((tableAt s.disk c).Occupied j ↔ (tableAt m.system.disk c).Occupied j ∧
            ¬ (c = call.request.parentClusterNumber ∧ j = i)) ∧
          (¬ (c = call.request.parentClusterNumber ∧ j = i) →
            (tableAt s.disk c).table j = (tableAt m.system.disk c).table j) := by
  have h := hm.sound.represents
  refine ⟨(h.listsExactly hc).entry, (h.listsExactly hc).kept, h.slot c hc, ?_⟩
  intro call fuel s ha hop hexec
  have h' := h.start call
  cases Call.exec_outcome (h'.chainsEnd fun _ => ha.1) hexec with
  | kept hk hcode => exact absurd rfl (hcode (.inr hop))
  | written i hop' => rw [hop] at hop'; cases hop'
  | deleted i l _ _ hd hs =>
    subst hs
    obtain ⟨ho, hn, hx⟩ := search_eq_some hd.search
    refine ⟨i, ho, hn, hx, ?_⟩
    intro j
    by_cases hcp : c = call.request.parentClusterNumber
    · subst hcp
      rw [hd.deleted_parent, System.deletedTable]
      by_cases hji : j = i
      · subst hji
        simp [FAT32DirectoryTable.Occupied]
      · simp only [FAT32DirectoryTable.Occupied, FAT32DirectoryTable.set_table_of_ne hji, hji, and_false,
          not_false_eq_true, and_true]
        exact ⟨Iff.rfl, fun _ => rfl⟩
    · have htable := tableAt_congr (hd.deleted_of_ne ((h.live_lt hc).trans (by decide)) (h.live_ne_fatCluster hc) hcp)
      rw [htable]
      exact ⟨by simp [hcp]; rfl, fun _ => rfl⟩

/-- The first folder is listed in the root. -/
theorem directory_lists_history_folder :
    ∃! i, (tableAt (blankMachine.firstWrite (mkdirCall dotDot)).system.disk rootClusterNumber).Occupied i ∧
      ((tableAt (blankMachine.firstWrite (mkdirCall dotDot)).system.disk rootClusterNumber).table i).name = dotDot ∧
      ((tableAt (blankMachine.firstWrite (mkdirCall dotDot)).system.disk rootClusterNumber).table i).ext = (fun _ => 0) ∧
      ((tableAt (blankMachine.firstWrite (mkdirCall dotDot)).system.disk rootClusterNumber).table i).clusterNumber =
        firstWritten (blankMachine.firstWrite (mkdirCall dotDot)).system.accesses :=
  (directory_lists_history (blankMachine_fresh.firstWrite_reachable (mkdirCall_fitsRoot dotDot)
    (mkdirCall_folderOk dotDot)) (Live.root _)).2.1 dotDot (fun _ => 0) _ ⟨[], [], rfl, ⟨rfl, rfl, rfl⟩, by simp⟩

end Os2024
