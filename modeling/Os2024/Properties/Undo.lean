import Os2024.Fat32.Fresh

/-!
# A `delete` takes a `write` back

The walk of `delete` visits the cells that the loop of `write` has threaded, however they lie in the FAT
(`CanWrite.eq_of_canDelete`), and emptying them gives the FAT of before (`CanWrite.deletedFat_eq`). All that is left of
the two is in the data clusters and in the slot that `write` had found empty (`CanWrite.deletedTable_eq`):
`delete_undoes_write`.
-/

namespace Os2024

open LinkTable Scan

/-! ## A `delete` after a `write` -/

section Undo

variable {s u : System} {request request' : FAT32DriverRequest} {i j : Fin 64} {l : List (Fin 512)}

namespace CanWrite

variable (h : CanWrite s request i) (hdisk : u.disk = (s.written request i).disk)
  (hfat : u.fat = (s.written request i).fat) (hkey : request'.key = request.key)
include h hdisk hfat hkey

/-- A `delete` of what was just written finds its entry, and its cells. -/
theorem eq_of_canDelete (hd : CanDelete u request' j l) : j = i ∧ l = s.writtenCells request := by
  obtain ⟨hparent, hname, hext⟩ := FAT32DriverRequest.key_eq_iff.mp hkey
  have hsearch := hd.search
  rw [hparent, hname, hext, hdisk] at hsearch
  obtain rfl : j = i := Option.some.inj (hsearch.symm.trans h.found_written)
  have hchain := hd.chain
  rw [hparent, hdisk, h.written_table_self, System.writtenEntry_clusterNumber, hfat] at hchain
  exact ⟨rfl, hchain.unique h.chain⟩

omit h hdisk hkey in
/-- The cells taken become empty again, and they all were. -/
theorem deletedFat_eq : u.deletedFat (s.writtenCells request) = s.fat := by
  rw [System.deletedFat, hfat]
  exact clear_link fun a ha => (mem_writtenCells ha).2

omit hfat in
/-- The slot is released, and nothing else has changed. -/
theorem deletedTable_eq : u.deletedTable request' i =
    (tableAt s.disk request.parentClusterNumber).set i (s.writtenEntry request i).release := by
  have hparent : request'.parentClusterNumber = request.parentClusterNumber := congrArg Prod.fst hkey
  rw [System.deletedTable, hparent, hdisk, h.written_parent, System.writtenTable,
    FAT32DirectoryTable.set_table_self, FAT32DirectoryTable.set_set]

end CanWrite

/-- Whatever could be written before can be written again, to the same slot. -/
theorem CanWrite.of_undone {v : System} {e : FAT32DirectoryEntry} (h : CanWrite s request i) (hfat : v.fat = s.fat)
    (htable : tableAt v.disk request.parentClusterNumber = (tableAt s.disk request.parentClusterNumber).set i e)
    (he : e.occupied = false) : CanWrite v request i := by
  obtain ⟨hi, hfree⟩ := emptyEntry_eq_some h.emptyEntry
  obtain ⟨p, hp, h2, hend, hdir⟩ := h.valid
  refine ⟨⟨p, hp, h2, hfat ▸ hend, ?_⟩, ?_, ?_, hfat ▸ h.room⟩
  · rw [htable, FAT32DirectoryTable.set_table_of_ne]
    · exact hdir
    · rintro rfl
      exact absurd hi (by decide)
  · rw [htable, search_set hfree fun ho => absurd (he.symm.trans ho) Bool.false_ne_true]
    exact h.search
  · rw [htable, emptyEntry_set hfree he]
    exact h.emptyEntry

end Undo

/-! ## Whole runs -/

section Runs

variable {m : Machine} {w d : Call} {fuel fuel' : Nat} {s t : System}

/-- **A `delete` undoes the `write` before it**: both FATs are as before, and all `64` entries of the folder but for
what an entry that is not in use holds. -/
theorem delete_undoes_write (hm : m.Reachable) (ha : Allowed m.history w) (hop : w.op = .write)
    (hw : w.exec fuel m.system = .ok (0, s)) (hdop : d.op = .delete) (hkey : d.request.key = w.request.key)
    (hd : d.exec fuel' s = .ok (0, t)) :
    t.fat = m.system.fat ∧ readCluster t.disk fatClusterNumber = readCluster m.system.disk fatClusterNumber ∧
      ∀ j, ((tableAt t.disk w.request.parentClusterNumber).table j).occupied =
          ((tableAt m.system.disk w.request.parentClusterNumber).table j).occupied ∧
        (((tableAt m.system.disk w.request.parentClusterNumber).table j).occupied = true →
          (tableAt t.disk w.request.parentClusterNumber).table j =
            (tableAt m.system.disk w.request.parentClusterNumber).table j) := by
  have hrep := hm.sound.represents
  have hparent : d.request.parentClusterNumber = w.request.parentClusterNumber := congrArg Prod.fst hkey
  -- the `write` leaves a state in which the chains of the entries end
  have hafter : Represents (d.start s).disk (d.start s).fat (catalog (m.after w 0 s).history) :=
    (hrep.after (fun _ => ha.1) ha.2 hw).1
  have hlive : Live (catalog (m.after w 0 s).history) d.request.parentClusterNumber := by
    rw [Machine.catalog_after_write hop, hparent]
    exact live_cons_iff.mpr (.inl ha.1)
  have hends : (d.start s).ChainsEnd d.request := hafter.chainsEnd fun _ => hlive
  obtain ⟨i, hcan, rfl⟩ := Call.exec_write_ok hop hw
  obtain ⟨k, l, hcan', rfl⟩ := Call.exec_delete_ok hdop hends hd
  obtain ⟨rfl, rfl⟩ := hcan.eq_of_canDelete (u := d.start ((w.start m.system).written w.request i)) rfl rfl hkey hcan'
  have hfat : (d.start ((w.start m.system).written w.request k)).deletedFat
      ((w.start m.system).writtenCells w.request) = m.system.fat :=
    CanWrite.deletedFat_eq (s := w.start m.system) (i := k) rfl
  have htable := hcan'.deleted_parent
  rw [hparent, hcan.deletedTable_eq (u := d.start ((w.start m.system).written w.request k)) rfl hkey] at htable
  have hfree : ((tableAt m.system.disk w.request.parentClusterNumber).table k).occupied = false :=
    (emptyEntry_eq_some hcan.emptyEntry).2
  refine ⟨hfat, ?_, fun j => ?_⟩
  · rw [hcan'.deleted_fatCluster, hfat, hrep.stored]
  · rw [htable]
    by_cases hj : j = k
    · subst hj
      rw [FAT32DirectoryTable.set_table_self, hfree]
      exact ⟨rfl, fun ho => absurd ho Bool.false_ne_true⟩
    · rw [FAT32DirectoryTable.set_table_of_ne hj]
      exact ⟨rfl, fun _ => rfl⟩

/-- A file of two cells, made and deleted on a fresh disk. -/
theorem delete_undoes_write_two_cells :
    ∃ s t, (writeCall (fun _ => 97) 6000 fun _ => 7).exec 512 blankMachine.system = .ok (0, s) ∧
      (deleteCall fun _ => 97).exec 512 s = .ok (0, t) ∧ t.fat = blankMachine.system.fat := by
  have hfresh := blankMachine_fresh
  generalize blankMachine = m at hfresh ⊢
  have hfits := writeCall_fitsRoot (fun _ => 97) 6000 (fun _ => 7) (by decide)
  have hcan := hfresh.canDelete_firstWrite hfits (show (deleteCall fun _ => 97).request.key =
    (writeCall (fun _ => 97) 6000 fun _ => 7).request.key from rfl) fun h0 => absurd h0 (by decide)
  have hdelete := Call.exec_delete (show (deleteCall fun _ => 97).op = .delete from rfl) hcan
  have hundone := delete_undoes_write (d := deleteCall fun _ => 97) ⟨m, hfresh, .refl⟩
    ⟨Live.root _, writeCall_folderOk (by decide)⟩ rfl (hfresh.exec_write hfits) rfl rfl hdelete
  exact ⟨_, _, hfresh.exec_write hfits, hdelete, hundone.1⟩

end Runs

end Os2024
