import Os2024.Fat32.Entries
import Os2024.Fat32.Fresh

/-!
# The buffer of a `read`

The loop of `read` copies as many clusters as the chain has cells, and `buffer_size` is compared with the filesize of
the entry. The two agree because no entry of a file has a chain longer than its filesize says: `write` counts a cluster
for every round and takes a cell for every two (`FitsSize.after`). So nothing is stored behind the buffer:
`read_within_buffer`.
-/

namespace Os2024

open LinkTable

/-- The clusters of the chain of a file fit into its filesize. -/
def FitsSize (disk : Disk) (fat : Fin 512 → UInt32) (p : UInt32 × Fin 64) : Prop :=
  (entryAt disk p).isDirectory = false → ∀ l, FatChain fat (entryAt disk p).clusterNumber l →
    l.length * 2048 ≤ (entryAt disk p).filesize.toNat

/-- A `read` that has answered `code` has stored nothing, or whole clusters inside of its buffer. -/
structure Call.ReadsWithin (call : Call) (s : System) (code : Int8) (t : System) : Prop where
  refused : code ≠ 0 → t.memory = call.memory ∧ t.accesses = [.read call.request.parentClusterNumber]
  copied : code = 0 → ∃ i, ∃ l : List (Fin 512), s.found call.request = some i ∧
    t.accesses = .read call.request.parentClusterNumber :: l.map (fun c => .read (clusterNum c)) ∧
    t.memory = call.memory.storeClusters call.request.buf (l.map fun c => readCluster s.disk (clusterNum c)) ∧
    let entry := (tableAt s.disk call.request.parentClusterNumber).table i
    l.length * 2048 ≤ entry.filesize.toNat ∧ entry.filesize ≤ call.request.bufferSize
  outside : ∀ a, call.request.bufferSize.toNat ≤ (a - call.request.buf).toNat → t.memory a = call.memory a

/-! ## Chains and filesizes -/

section Step

variable {s : System} {request : FAT32DriverRequest} {i : Fin 64} {m : Machine} {call : Call} {code : Int8} {fuel : Nat}
  {p : UInt32 × Fin 64}

/-- A new entry records a cluster for every round of `write`. -/
theorem CanWrite.fitsSize (hw : CanWrite s request i) :
    FitsSize (s.written request i).disk (s.written request i).fat (request.parentClusterNumber, i) := by
  intro _ l hl
  rw [hw.entryAt_written, System.writtenEntry_clusterNumber] at hl
  obtain rfl := hl.unique hw.chain
  have hroom : request.clusterCount ≤ 512 := clusterCount_le hw
  have hsize : (UInt32.ofNat (request.clusterCount * 2048)).toNat = request.clusterCount * 2048 :=
    UInt32.toNat_ofNat_of_lt' (by simp only [UInt32.size]; omega)
  rw [hw.entryAt_written, System.writtenEntry_filesize, hsize, hw.length_writtenCells]
  omega

theorem FitsSize.same {disk disk' : Disk} {fat fat' : Fin 512 → UInt32} {cat : List Record} (hf : FitsSize disk fat p)
    (h : Represents disk fat cat) (hp : Lists disk cat p) (hsame : SameEntry disk disk' fat fat' p) :
    FitsSize disk' fat' p := by
  intro hd l hl
  rw [hsame.entry] at hd hl ⊢
  obtain ⟨l', hl', -⟩ := h.entry_chain hp
  obtain rfl := hl.unique (hsame.data hd l' hl').1
  exact hf hd l hl'

/-- Every call keeps the chains of files within their filesizes. -/
theorem FitsSize.after (hf : ∀ p, Lists m.system.disk (catalog m.history) p → FitsSize m.system.disk m.system.fat p)
    (h : Represents m.system.disk m.system.fat (catalog m.history)) (ha : Allowed m.history call)
    (hexec : call.exec fuel m.system = .ok (code, s)) (hp : Lists s.disk (catalog (m.after call code s).history) p) :
    FitsSize s.disk s.fat p := by
  rcases h.lists_after ha hexec hp with ⟨hold, hsame⟩ | ⟨i, hw, rfl, rfl⟩
  · exact (hf p hold).same h hold hsame
  · exact hw.fitsSize

theorem Machine.Reachable.fitsSize (hm : m.Reachable) (hp : Lists m.system.disk (catalog m.history) p) :
    FitsSize m.system.disk m.system.fat p := by
  obtain ⟨m₀, hfresh, hreach⟩ := hm
  have hrun : m.Sound ∧ ∀ p, Lists m.system.disk (catalog m.history) p → FitsSize m.system.disk m.system.fat p := by
    refine hreach.invariant (P := fun n => n.Sound ∧ ∀ p, Lists n.system.disk (catalog n.history) p →
      FitsSize n.system.disk n.system.fat p) ⟨hfresh.sound, fun p hp => ?_⟩ ?_
    · obtain ⟨r, hr, -⟩ := hfresh.sound.represents.record_of_lists hp
      rw [hfresh.history] at hr
      cases hr
    · rintro n call fuel code s ⟨hsound, hfits⟩ ha hexec
      obtain ⟨hrep, hleak⟩ := hsound.represents.after (fun _ => ha.1) ha.2 hexec
      exact ⟨⟨hrep, hleak hsound.noLeak⟩, fun p hp => FitsSize.after hfits hsound.represents ha hexec hp⟩
  exact hrun.2 p hp

end Step

/-! ## The buffer -/

section Buffer

variable {m : Machine} {call : Call}

/-- **`read` stays within its buffer**: it stores nothing when it fails, and as many clusters as fit otherwise. -/
theorem read_within_buffer (hm : m.Reachable) (hop : call.op = .read)
    (hlive : Live (catalog m.history) call.request.parentClusterNumber) :
    ∃ code t, (∀ fuel, 512 ≤ fuel → call.exec fuel m.system = .ok (code, t)) ∧
      call.ReadsWithin m.system code t := by
  have h : Represents (call.start m.system).disk (call.start m.system).fat (catalog m.history) :=
    hm.sound.represents.start call
  have hv := h.parentValid rfl rfl hlive
  cases hs : m.system.found call.request with
  | none =>
    refine ⟨3, (call.start m.system).loadDirTable call.request.parentClusterNumber, fun fuel _ => ?_,
      fun _ => ⟨rfl, rfl⟩, fun h0 => absurd h0 (by decide), fun _ _ => rfl⟩
    exact Call.exec_read_absent hop hv hs
  | some i =>
    have hp : Lists m.system.disk (catalog m.history) (call.request.parentClusterNumber, i) :=
      ⟨hlive, (search_eq_some hs).1⟩
    obtain ⟨l, hl, hne, -⟩ := h.entry_chain hp
    have hload : ∀ code : Int8, code ≠ 0 → call.ReadsWithin m.system code
        ((call.start m.system).loadDirTable call.request.parentClusterNumber) := fun code hcode =>
      ⟨fun _ => ⟨rfl, rfl⟩, fun h0 => absurd h0 hcode, fun _ _ => rfl⟩
    cases hd : (entryAt m.system.disk (call.request.parentClusterNumber, i)).isDirectory with
    | true => exact ⟨1, _, fun fuel _ => Call.exec_read_folder hop hv hs hd, hload 1 (by decide)⟩
    | false =>
      by_cases hsmall : call.request.bufferSize <
          (entryAt m.system.disk (call.request.parentClusterNumber, i)).filesize
      · exact ⟨2, _, fun fuel _ => Call.exec_read_small hop hv hs hd hsmall, hload 2 (by decide)⟩
      · have hfits := hm.fitsSize hp hd l hl
        have hle := UInt32.not_lt.mp hsmall
        refine ⟨0, _, fun fuel hfuel =>
            Call.exec_read_file hop hv hs hd hsmall hl hne (hl.length_le.trans hfuel),
          fun h0 => absurd rfl h0, fun _ => ⟨i, l, hs, rfl, rfl, hfits, hle⟩, fun a ha => ?_⟩
        refine Memory.storeClusters_of_le ?_ call.request.bufferSize.toNat_lt ha
        rw [List.length_map]
        exact hfits.trans (UInt32.le_iff_toNat_le.mp hle)

/-- A file of two clusters, read into a buffer of two clusters. -/
theorem read_within_buffer_two_clusters :
    ∃ code t, (∀ fuel, 512 ≤ fuel → (readCall (fun _ => 97) 4096 fun _ => 0).exec fuel
        (blankMachine.firstWrite (writeCall (fun _ => 97) 2048 fun _ => 0)).system = .ok (code, t)) ∧
      (readCall (fun _ => 97) 4096 fun _ => 0).ReadsWithin
        (blankMachine.firstWrite (writeCall (fun _ => 97) 2048 fun _ => 0)).system code t :=
  read_within_buffer (blankMachine_fresh.firstWrite_reachable (writeCall_fitsRoot _ _ _ (by decide))
    (writeCall_folderOk (by decide))) rfl (Live.root _)

end Buffer

end Os2024
