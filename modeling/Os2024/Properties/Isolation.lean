import Os2024.Fat32.Entries
import Os2024.Fat32.Fresh

/-!
# Files do not disturb each other

An entry and the clusters of its chain are left alone by every call about another name, and so by a whole run
(`Machine.Reaches.sameEntry`). A `read` depends on nothing else, which gives `read_isolated`.
-/

namespace Os2024

open LinkTable

/-! ## Whole runs -/

section Runs

variable {m n : Machine} {p : UInt32 × Fin 64} {k : Key}

theorem Machine.Reaches.of_beside (h : Reaches (AllowedBeside k) m n) : Reaches Allowed m n :=
  h.mono fun _ _ ha => ha.1

/-- An entry is left alone by a run of calls about other names. -/
theorem Machine.Reaches.sameEntry
    (hr : Reaches (AllowedBeside (p.1, (entryAt m.system.disk p).name, (entryAt m.system.disk p).ext)) m n)
    (hm : Represents m.system.disk m.system.fat (catalog m.history))
    (hp : Lists m.system.disk (catalog m.history) p) :
    Lists n.system.disk (catalog n.history) p ∧ SameEntry m.system.disk n.system.disk m.system.fat n.system.fat p := by
  have hall := hr.invariant
    (P := fun k => Represents k.system.disk k.system.fat (catalog k.history) ∧
      Lists k.system.disk (catalog k.history) p ∧ SameEntry m.system.disk k.system.disk m.system.fat k.system.fat p)
    ⟨hm, hp, .refl _ _ _⟩ ?_
  · exact hall.2
  · rintro k call fuel code s ⟨hk, hpk, hsame⟩ ha hexec
    have hrep := (hk.after (fun _ => ha.1.1) ha.1.2 hexec).1
    rw [← hsame.entry] at ha
    obtain ⟨hps, hstep⟩ := hk.sameEntry_after hpk ha hexec
    exact ⟨hrep, hps, hsame.trans hstep⟩

/-- **Isolation of files.** -/
theorem read_isolated (hm : m.Reachable) (hp : Lists m.system.disk (catalog m.history) p)
    (hr : Machine.Reaches (AllowedBeside (p.1, (entryAt m.system.disk p).name, (entryAt m.system.disk p).ext)) m n) :
    Lists n.system.disk (catalog n.history) p ∧ entryAt n.system.disk p = entryAt m.system.disk p ∧
      ∀ (call : Call) (fuel : Nat), call.op = .read → 512 ≤ fuel →
        call.request.Names m.system.disk p →
        ∃ code s t, call.exec fuel m.system = .ok (code, s) ∧ call.exec fuel n.system = .ok (code, t) ∧
          t.memory = s.memory := by
  have h := hm.sound.represents
  have hn := hr.of_beside.represents h
  obtain ⟨hpn, hsame⟩ := hr.sameEntry h hp
  refine ⟨hpn, hsame.entry, ?_⟩
  intro call fuel hop hfuel hkey
  obtain ⟨l, hl, -⟩ := h.entry_chain hp
  obtain ⟨l', hl', -⟩ := hn.entry_chain hpn
  obtain ⟨s, hs, hsm⟩ := h.exec_read hp hop hkey hl hfuel
  obtain ⟨t, ht, htm⟩ := hn.exec_read hpn hop (hsame.names hkey) hl' hfuel
  have hanswer : readAnswer (entryAt n.system.disk p) (l'.map fun c => readCluster n.system.disk (clusterNum c)) call =
      readAnswer (entryAt m.system.disk p) (l.map fun c => readCluster m.system.disk (clusterNum c)) call := by
    rw [hsame.entry]
    cases hd : (entryAt m.system.disk p).isDirectory with
    | true => simp [readAnswer, hd]
    | false =>
      obtain ⟨hln, hdata⟩ := hsame.data hd l hl
      rw [hsame.entry] at hl'
      obtain rfl := hln.unique hl'
      rw [List.map_congr_left fun c hc => hdata c hc]
  rw [hanswer] at ht htm
  exact ⟨_, s, t, hs, ht, htm.trans hsm.symm⟩

/-- A file of one byte is not disturbed by the creation of a folder with another name. -/
theorem read_isolated_mkdir :
    ∃ code s, (mkdirCall fun _ => 98).exec 512
        (blankMachine.firstWrite (writeCall (fun _ => 97) 1 fun _ => 0)).system = .ok (code, s) ∧
      entryAt s.disk (rootClusterNumber, 2) =
        entryAt (blankMachine.firstWrite (writeCall (fun _ => 97) 1 fun _ => 0)).system.disk (rootClusterNumber, 2) := by
  have hfits := writeCall_fitsRoot (fun _ => 97) 1 (fun _ => 0) (by decide)
  have hm := blankMachine_fresh.firstWrite_reachable hfits (writeCall_folderOk (by decide))
  have hentry := blankMachine_fresh.firstWrite_entry hfits
  have hkey : (mkdirCall fun _ => 98).request.key ≠ (rootClusterNumber, (fun _ => 97), fun _ => 0) := fun h =>
    absurd (congrFun (congrArg (fun k : Key => k.2.1) h) 0) (by decide)
  obtain ⟨code, s, hexec⟩ := hm.sound.represents.returns (mkdirCall fun _ => 98) (Live.root _) (le_refl 512)
  refine ⟨code, s, hexec, (read_isolated hm (blankMachine_fresh.firstWrite_lists hfits) (.single (.call ⟨⟨Live.root _,
    mkdirCall_folderOk _⟩, ?_⟩ hexec))).2.1⟩
  rw [hentry]
  exact hkey

end Runs

end Os2024
