import Os2024.Fat32.Volume

/-!
# The allocation loop of `write`

Round `i` of the loop searches from the cell of round `i - 1` on. That cell is not marked yet after an even round, so
an odd round finds it again, links it to itself and stores its cluster over the one before; only the next even round
moves on. After `n` rounds the first `(n + 1) / 2` free cells are threaded together (`fatAfter`) and round `i` has
stored its cluster to free cell `i / 2` (`dataWrites`): `writeLoop_rounds`.
-/

namespace Os2024

open LinkTable Scan

/-- The empty cells a search from `2` on finds, in order. -/
def freeCells (fat : Fin 512 → UInt32) : List (Fin 512) := hits 2 fun c => fat c == fat32FatEmptyEntry

/-- The free cell number `k`. -/
def freeCell (fat : Fin 512 → UInt32) (k : Nat) : Fin 512 := (freeCells fat).getD k 0

/-- The FAT after `n` rounds: the last cell is empty after an odd number of rounds, linked to itself after an even. -/
def fatAfter (fat : Fin 512 → UInt32) (n : Nat) : Fin 512 → UInt32 :=
  link clusterNum fat (if n % 2 = 1 then fat32FatEmptyEntry else clusterNum (freeCell fat ((n - 1) / 2)))
    ((freeCells fat).take ((n + 1) / 2))

/-- What the first `n` rounds store. -/
def dataWrites (request : FAT32DriverRequest) (s : System) (n : Nat) : List (UInt32 × Cluster) :=
  (List.range n).map fun i => (clusterNum (freeCell s.fat (i / 2)), request.chunk s.memory i)

/-- The system after `n` rounds that started in `s`. -/
def System.afterRounds (s : System) (request : FAT32DriverRequest) (i : Fin 64) (n : Nat) : System :=
  ((if n = 0 then s else s.setEntry i ((s.dirTable.table i).setCluster (clusterNum (freeCell s.fat 0)))).withFat
    (fatAfter s.fat n)).writeAll (dataWrites request s n)

/-! ## Free cells -/

section Free

variable {fat : Fin 512 → UInt32} {c : Fin 512} {k m n : Nat}

theorem mem_freeCells : c ∈ freeCells fat ↔ 2 ≤ c.val ∧ fat c = fat32FatEmptyEntry := by
  simp [freeCells]

theorem countAvailable_eq (s : System) : s.countAvailable = (freeCells s.fat).length := rfl

theorem freeCells_pairwise (fat : Fin 512 → UInt32) : (freeCells fat).Pairwise (· < ·) := hits_pairwise _ _

theorem freeCells_nodup (fat : Fin 512 → UInt32) : (freeCells fat).Nodup :=
  (freeCells_pairwise fat).imp fun h => h.ne

theorem freeCell_eq (hk : k < (freeCells fat).length) : freeCell fat k = (freeCells fat)[k] :=
  (List.getElem_eq_getD 0).symm

theorem freeCell_mem (hk : k < (freeCells fat).length) : freeCell fat k ∈ freeCells fat :=
  freeCell_eq hk ▸ List.getElem_mem hk

theorem two_le_freeCell (hk : k < (freeCells fat).length) : 2 ≤ (freeCell fat k).val :=
  (mem_freeCells.mp (freeCell_mem hk)).1

theorem fat_freeCell (hk : k < (freeCells fat).length) : fat (freeCell fat k) = fat32FatEmptyEntry :=
  (mem_freeCells.mp (freeCell_mem hk)).2

theorem freeCell_lt (hkm : k < m) (hm : m < (freeCells fat).length) : freeCell fat k < freeCell fat m := by
  rw [freeCell_eq hm, freeCell_eq (hkm.trans hm)]
  exact List.pairwise_iff_getElem.mp (freeCells_pairwise fat) k m _ hm hkm

theorem freeCell_inj (hk : k < (freeCells fat).length) (hm : m < (freeCells fat).length)
    (h : freeCell fat k = freeCell fat m) : k = m := by
  rcases lt_trichotomy k m with hlt | he | hgt
  · exact absurd h (freeCell_lt hlt hm).ne
  · exact he
  · exact absurd h.symm (freeCell_lt hgt hk).ne

/-- The free cell number `0` is the lowest. -/
theorem freeCell_zero_le (hc : c ∈ freeCells fat) : freeCell fat 0 ≤ c := by
  obtain ⟨k, hk, rfl⟩ := List.getElem_of_mem hc
  rw [← freeCell_eq hk]
  rcases Nat.eq_zero_or_pos k with rfl | hpos
  · exact le_rfl
  · exact (freeCell_lt hpos hk).le

theorem take_freeCells_succ (hm : m < (freeCells fat).length) :
    (freeCells fat).take (m + 1) = (freeCells fat).take m ++ [freeCell fat m] := by
  rw [freeCell_eq hm, List.take_succ_eq_append_getElem hm]

theorem freeCell_notMem_take (hm : m < (freeCells fat).length) : freeCell fat m ∉ (freeCells fat).take m := by
  intro h
  have hn := (freeCells_nodup fat).sublist (List.take_sublist (m + 1) _)
  rw [take_freeCells_succ hm] at hn
  exact (List.nodup_append.mp hn).2.2 _ h _ (List.mem_singleton_self _) rfl

/-- A free cell below the free cell number `m` is among the first `m`. -/
theorem mem_take_freeCells (hm : m < (freeCells fat).length) (hc : c ∈ freeCells fat) (hlt : c < freeCell fat m) :
    c ∈ (freeCells fat).take m :=
  mem_take_hits hc hm (freeCell_eq hm ▸ hlt)

end Free

/-! ## One round -/

section Round

variable {fat : Fin 512 → UInt32} {m n : Nat}

theorem fatAfter_zero : fatAfter fat 0 = fat := by simp [fatAfter, link]

/-- After an odd round the cell found is not marked. -/
theorem fatAfter_odd (hm : m < (freeCells fat).length) :
    fatAfter fat (2 * m + 1) = link clusterNum fat fat32FatEmptyEntry ((freeCells fat).take m ++ [freeCell fat m]) := by
  have h1 : (2 * m + 1) % 2 = 1 := by omega
  have h2 : (2 * m + 1 + 1) / 2 = m + 1 := by omega
  rw [fatAfter, if_pos h1, h2, take_freeCells_succ hm]

/-- After an even round the last cell is linked to itself. -/
theorem fatAfter_even (hm : m < (freeCells fat).length) :
    fatAfter fat (2 * m + 2) =
      link clusterNum fat (clusterNum (freeCell fat m)) ((freeCells fat).take m ++ [freeCell fat m]) := by
  have h1 : ¬ (2 * m + 2) % 2 = 1 := by omega
  have h2 : (2 * m + 2 + 1) / 2 = m + 1 := by omega
  have h3 : (2 * m + 2 - 1) / 2 = m := by omega
  rw [fatAfter, if_neg h1, h2, h3, take_freeCells_succ hm]

theorem nodup_take_concat (hm : m < (freeCells fat).length) :
    ((freeCells fat).take m ++ [freeCell fat m]).Nodup := by
  rw [← take_freeCells_succ hm]
  exact (freeCells_nodup fat).sublist (List.take_sublist _ _)

/-- The cell that round `n` marks, after it. -/
theorem fatAfter_succ (hn : (n + 1) / 2 < (freeCells fat).length) :
    Function.update (fatAfter fat (n + 1)) (freeCell fat (n / 2)) (clusterNum (freeCell fat ((n + 1) / 2))) =
      fatAfter fat (n + 2) := by
  rcases Nat.even_or_odd' n with ⟨m, rfl | rfl⟩
  · have h1 : 2 * m / 2 = m := by omega
    have h2 : (2 * m + 1) / 2 = m := by omega
    rw [h2] at hn
    rw [h1, h2, fatAfter_odd hn, fatAfter_even hn, update_link_concat (nodup_take_concat hn)]
  · have h1 : (2 * m + 1) / 2 = m := by omega
    have h2 : (2 * m + 1 + 1) / 2 = m + 1 := by omega
    rw [h2] at hn
    have hm : m < (freeCells fat).length := by omega
    have hnew : freeCell fat (m + 1) ∉ (freeCells fat).take m ++ [freeCell fat m] := by
      rw [← take_freeCells_succ hm]
      exact freeCell_notMem_take hn
    rw [h1, h2, show 2 * m + 1 + 1 = 2 * m + 2 from rfl, fatAfter_even hm, update_link_concat (nodup_take_concat hm),
      show 2 * m + 1 + 2 = 2 * (m + 1) + 1 from by ring, fatAfter_odd hn, take_freeCells_succ hm,
      ← link_concat_concat hnew, fat_freeCell hn]

/-- The first round marks nothing. -/
theorem fatAfter_one (h : 0 < (freeCells fat).length) : fatAfter fat 1 = fat := by
  have he : fat (freeCell fat 0) = start clusterNum fat32FatEmptyEntry [] := fat_freeCell h
  rw [show 1 = 2 * 0 + 1 from rfl, fatAfter_odd h, List.take_zero, List.nil_append, link, ← he]
  exact Function.update_eq_self _ _

/-- The search of round `n` starts at `2`, or at the cell of the round before. -/
def searchStart (fat : Fin 512 → UInt32) (n : Nat) : Fin 512 := if n = 0 then 2 else freeCell fat ((n - 1) / 2)

/-- Below the free cell number `m` no cell is empty after `m` cells have been threaded. -/
theorem link_ne_emptyEntry (last : UInt32) (hlast : last ≠ fat32FatEmptyEntry) (hm : m < (freeCells fat).length)
    {c : Fin 512} (h2 : 2 ≤ c.val) (hc : c < freeCell fat m) :
    link clusterNum fat last ((freeCells fat).take m) c ≠ fat32FatEmptyEntry := by
  by_cases ht : c ∈ (freeCells fat).take m
  · have hlink : link clusterNum fat last ((freeCells fat).take m) c = last ∨ _ := link_of_mem ht
    rcases hlink with h | ⟨b, hb, h⟩
    · rwa [h]
    · rw [h]
      exact clusterNum_ne_emptyEntry (mem_freeCells.mp (List.mem_of_mem_take hb)).1
  · rw [link_of_notMem ht]
    exact fun he => ht (mem_take_freeCells hm (mem_freeCells.mpr ⟨h2, he⟩) hc)

/-- Round `n` finds the free cell number `n / 2`. -/
theorem search_fatAfter (hn : n / 2 < (freeCells fat).length) :
    firstFrom (searchStart fat n).val (fun c => fatAfter fat n c == fat32FatEmptyEntry) =
      some (freeCell fat (n / 2)) := by
  simp only [firstFrom_eq_some, beq_iff_eq, beq_eq_false_iff_ne]
  match n with
  | 0 =>
    have h2 := two_le_freeCell hn
    refine ⟨h2, by rw [fatAfter_zero]; exact fat_freeCell hn, fun c hc hlt => ?_⟩
    have := link_ne_emptyEntry 1 (by decide) hn hc hlt
    simpa [fatAfter_zero, link] using this
  | n + 1 =>
    rcases Nat.even_or_odd' n with ⟨m, rfl | rfl⟩
    · -- the cell of the round before is still empty
      have h1 : (2 * m + 1) / 2 = m := by omega
      have hs : searchStart fat (2 * m + 1) = freeCell fat m := by simp [searchStart]
      rw [h1] at hn
      rw [h1, hs, fatAfter_odd hn]
      exact ⟨le_rfl, link_concat_self (nodup_take_concat hn), fun c hc hlt => absurd hlt (not_lt.mpr hc)⟩
    · -- it is linked to itself, and the next free cell follows it
      have h1 : (2 * m + 1 + 1) / 2 = m + 1 := by omega
      have hs : searchStart fat (2 * m + 1 + 1) = freeCell fat m := by
        simp [searchStart, show (2 * m + 1) / 2 = m by omega]
      rw [h1] at hn
      have hm : m < (freeCells fat).length := by omega
      rw [h1, hs, show 2 * m + 1 + 1 = 2 * m + 2 from rfl, fatAfter_even hm, ← take_freeCells_succ hm]
      refine ⟨(freeCell_lt (Nat.lt_succ_self m) hn).le, ?_, fun c hc hlt => ?_⟩
      · rw [link_of_notMem (freeCell_notMem_take hn)]
        exact fat_freeCell hn
      · exact link_ne_emptyEntry _ (clusterNum_ne_emptyEntry (two_le_freeCell hm)) hn
          ((two_le_freeCell hm).trans hc) hlt

end Round

/-! ## All rounds -/

section Rounds

variable {s : System} {request : FAT32DriverRequest} {i : Fin 64}

@[simp] theorem System.afterRounds_zero : s.afterRounds request i 0 = s := by
  simp [System.afterRounds, fatAfter_zero, dataWrites, System.writeAll, System.withFat]

theorem dataWrites_succ (n : Nat) : dataWrites request s (n + 1) =
    dataWrites request s n ++ [(clusterNum (freeCell s.fat (n / 2)), request.chunk s.memory n)] := by
  simp [dataWrites, List.range_succ]

theorem System.afterRounds_fat (n : Nat) : (s.afterRounds request i n).fat = fatAfter s.fat n := rfl

/-- Round `n`, as the loop performs it. -/
theorem System.writeRound_afterRounds {n : Nat} {prev : Fin 512} (hprev : n ≠ 0 → prev = searchStart s.fat n)
    (hn : n / 2 < (freeCells s.fat).length) :
    (s.afterRounds request i n).writeRound request i (freeCell s.fat (n / 2)) prev n =
      s.afterRounds request i (n + 1) := by
  unfold System.writeRound
  match n with
  | 0 =>
    rw [if_pos rfl, System.afterRounds_zero, System.writeClusters_eq, System.afterRounds, if_neg (by omega),
      fatAfter_one hn]
    rfl
  | n + 1 =>
    have hs : searchStart s.fat (n + 1) = freeCell s.fat (n / 2) := by simp [searchStart]
    rw [if_neg (by omega), System.writeClusters_eq, System.afterRounds, System.afterRounds, if_neg (by omega),
      if_neg (by omega), dataWrites_succ (n := n + 1), ← System.writeAll_writeAll, hprev (by omega), hs,
      ← fatAfter_succ hn]
    rfl

/-- The loop from round `n` on, with `m` rounds to go. -/
theorem writeLoop_from (hfree : (request.clusterCount - 1) / 2 < (freeCells s.fat).length) {m : Nat} (n fuel : Nat)
    (prev : Fin 512) (hprev : n ≠ 0 → prev = searchStart s.fat n) (hm : n + m + 1 = request.clusterCount)
    (hfuel : m < fuel) :
    writeLoop request i fuel (searchStart s.fat n) prev n (s.afterRounds request i n) =
      .ok (freeCell s.fat ((request.clusterCount - 1) / 2), request.clusterCount,
        s.afterRounds request i request.clusterCount) := by
  induction m generalizing n fuel prev with
  | zero =>
    obtain ⟨fuel, rfl⟩ : ∃ k, fuel = k + 1 := ⟨fuel - 1, by omega⟩
    have hn : n / 2 < (freeCells s.fat).length := by omega
    have hlast : ¬ n + 1 < request.clusterCount := by omega
    simp only [writeLoop, System.afterRounds_fat, search_fatAfter hn, System.writeRound_afterRounds hprev hn,
      if_neg hlast]
    rw [← hm, Nat.add_zero, Nat.add_sub_cancel]
  | succ m ih =>
    obtain ⟨fuel, rfl⟩ : ∃ k, fuel = k + 1 := ⟨fuel - 1, by omega⟩
    have hn : n / 2 < (freeCells s.fat).length := by omega
    have hmore : n + 1 < request.clusterCount := by omega
    have hs : searchStart s.fat (n + 1) = freeCell s.fat (n / 2) := by simp [searchStart]
    have hrec := ih (n + 1) fuel (freeCell s.fat (n / 2)) (fun _ => hs.symm) (by omega) (by omega)
    rw [hs] at hrec
    simp only [writeLoop, System.afterRounds_fat, search_fatAfter hn, System.writeRound_afterRounds hprev hn,
      if_pos hmore, hrec]

/-- **The loop of `write`**, when enough cells are free. -/
theorem writeLoop_rounds {fuel : Nat} (hfuel : request.clusterCount ≤ fuel)
    (hfree : (request.clusterCount - 1) / 2 < (freeCells s.fat).length) :
    writeLoop request i fuel 2 0 0 s =
      .ok (freeCell s.fat ((request.clusterCount - 1) / 2), request.clusterCount,
        s.afterRounds request i request.clusterCount) := by
  have hpos : 0 < request.clusterCount := Nat.succ_pos _
  have h := writeLoop_from (i := i) hfree (m := request.clusterCount - 1) 0 fuel 0 (fun h => absurd rfl h) (by omega)
    (by omega)
  rwa [System.afterRounds_zero] at h

/-- With the end mark in the last cell, the cells found form one thread. -/
theorem fatAfter_endOfFile {n : Nat} (hn : 0 < n) (hfree : (n - 1) / 2 < (freeCells s.fat).length) :
    Function.update (fatAfter s.fat n) (freeCell s.fat ((n - 1) / 2)) fat32FatEndOfFile =
      link clusterNum s.fat fat32FatEndOfFile ((freeCells s.fat).take ((n + 1) / 2)) := by
  obtain ⟨n, rfl⟩ : ∃ k, n = k + 1 := ⟨n - 1, by omega⟩
  rw [Nat.add_sub_cancel] at hfree ⊢
  rw [show (n + 1 + 1) / 2 = n / 2 + 1 by omega, fatAfter, show (n + 1 + 1) / 2 = n / 2 + 1 by omega,
    take_freeCells_succ hfree, update_link_concat (nodup_take_concat hfree)]

end Rounds

end Os2024
