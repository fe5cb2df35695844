import Os2024.Fat32.Volume

/-!
# The two walks along a chain

On a chain that ends, `read` copies its clusters to consecutive places of the buffer (`readLoop_chain`) and `delete`
empties its cells (`deleteLoop_chain`); one unit of fuel per cell is enough. More fuel than enough changes nothing
(`readLoop_mono`, `deleteLoop_mono`).
-/

namespace Os2024

open LinkTable

/-! ## Consecutive clusters in memory -/

namespace Memory

/-- The clusters `data`, one after the other from `ptr` on. -/
def storeClusters (mem : Memory) (ptr : UInt32) : List Cluster → Memory
  | [] => mem
  | c :: data => storeClusters (mem.store ptr c) (ptr + 2048) data

/-- Offsets from the next cluster on. -/
theorem toNat_sub_add (a ptr : UInt32) : (a - (ptr + 2048)).toNat =
    if (a - ptr).toNat < 2048 then (a - ptr).toNat + 2 ^ 32 - 2048 else (a - ptr).toNat - 2048 := by
  have hsub : a - (ptr + 2048) = a - ptr - 2048 := by
    simp only [UInt32.sub_eq_add_neg, UInt32.neg_add, UInt32.add_assoc]
  have hlt := (a - ptr).toNat_lt
  rw [hsub, UInt32.toNat_sub]
  generalize (a - ptr).toNat = k at hlt ⊢
  have h2048 : (2048 : UInt32).toNat = 2048 := rfl
  rw [h2048]
  split <;> omega

/-- What a byte is after the clusters have been stored. -/
theorem storeClusters_apply {data : List Cluster} (hd : data.length * 2048 ≤ 2 ^ 32) (mem : Memory) (ptr a : UInt32) :
    mem.storeClusters ptr data a =
      if (a - ptr).toNat < data.length * 2048 then
        data.getD ((a - ptr).toNat / 2048) (fun _ => 0) ⟨(a - ptr).toNat % 2048, Nat.mod_lt _ (by omega)⟩
      else mem a := by
  induction data generalizing mem ptr with
  | nil => rw [if_neg (by simp)]; rfl
  | cons c data ih =>
    rw [List.length_cons] at hd
    have ih := ih ((Nat.mul_le_mul_right 2048 (Nat.le_succ _)).trans hd) (mem.store ptr c) (ptr + 2048)
    have hstore : (mem.store ptr c) a = if h : (a - ptr).toNat < 2048 then c ⟨(a - ptr).toNat, h⟩ else mem a := rfl
    have hoff : (a - (ptr + 2048)).toNat =
        if (a - ptr).toNat < 2048 then (a - ptr).toNat + 2 ^ 32 - 2048 else (a - ptr).toNat - 2048 :=
      toNat_sub_add a ptr
    have hlt := (a - ptr).toNat_lt
    refine ih.trans ?_
    clear ih
    rw [hstore, hoff, List.length_cons]
    clear hstore hoff
    generalize (a - ptr).toNat = k at hlt ⊢
    by_cases hfirst : k < 2048
    · have h0 : k / 2048 = 0 := Nat.div_eq_of_lt hfirst
      have hmod : k % 2048 = k := Nat.mod_eq_of_lt hfirst
      rw [if_pos hfirst, if_neg (by omega), if_pos (by omega), dif_pos hfirst]
      simp only [h0, hmod, List.getD_cons_zero]
    · rw [if_neg hfirst, dif_neg hfirst]
      by_cases hin : k < (data.length + 1) * 2048
      · have hdiv : k / 2048 = (k - 2048) / 2048 + 1 := by omega
        have hmod : k % 2048 = (k - 2048) % 2048 := by omega
        rw [if_pos (by omega), if_pos hin]
        simp only [hdiv, hmod, List.getD_cons_succ]
      · rw [if_neg (by omega), if_neg hin]

/-- Clusters stored from `ptr` on change nothing behind the last of them. -/
theorem storeClusters_of_le {data : List Cluster} {size : Nat} (hd : data.length * 2048 ≤ size) (hsize : size < 2 ^ 32)
    {mem : Memory} {ptr a : UInt32} (ha : size ≤ (a - ptr).toNat) : mem.storeClusters ptr data a = mem a := by
  rw [storeClusters_apply (by omega), if_neg (by omega)]

/-- A byte after the clusters have been stored depends on that byte before. -/
theorem storeClusters_congr {mem mem' : Memory} {a : UInt32} (h : mem a = mem' a) {ptr : UInt32} (data : List Cluster) :
    mem.storeClusters ptr data a = mem'.storeClusters ptr data a := by
  induction data generalizing mem mem' ptr with
  | nil => exact h
  | cons c data ih =>
    have hstore : mem.store ptr c a = mem'.store ptr c a :=
      congrArg (fun b => if h : (a - ptr).toNat < 2048 then c ⟨_, h⟩ else b) h
    exact ih hstore

end Memory

/-! ## Reading a chain -/

/-- The system after `read` has copied the cells `l` to `buf`. -/
def System.readChain (s : System) (buf : UInt32) (l : List (Fin 512)) : System :=
  { s with
    memory := s.memory.storeClusters buf (l.map fun c => readCluster s.disk (clusterNum c))
    accesses := s.accesses ++ l.map fun c => .read (clusterNum c) }

theorem System.readChain_cons (s : System) (buf : UInt32) (c : Fin 512) (l : List (Fin 512)) :
    s.readChain buf (c :: l) = (s.readToBuf buf (clusterNum c)).readChain (buf + 2048) l := by
  simp [System.readChain, System.readToBuf_eq, Memory.storeClusters]

theorem readLoop_chain {v : UInt32} {l : List (Fin 512)} {s : System} (h : FatChain s.fat v l) :
    ∀ {fuel : Nat} {buf : UInt32}, l ≠ [] → l.length ≤ fuel → readLoop fuel buf v s = .ok (s.readChain buf l) := by
  generalize hfat : s.fat = fat at h
  induction h generalizing s with
  | nil => exact fun hl => absurd rfl hl
  | @cons a l ht ih =>
    intro fuel buf _ hfuel
    obtain ⟨fuel, rfl⟩ : ∃ k, fuel = k + 1 := ⟨fuel - 1, by simp at hfuel; omega⟩
    have hs : (s.readToBuf buf (clusterNum a)).fat = fat := hfat
    simp only [readLoop, System.clusterMap_clusterNum, hs, System.readChain_cons]
    cases l with
    | nil =>
      rw [ht.start_nil]
      simp [System.readChain, Memory.storeClusters, pure, Except.pure, bind, Except.bind]
    | cons b l =>
      have hne : fat a ≠ fat32FatEndOfFile := ht.start_cons ▸ clusterNum_ne_endOfFile b
      have hrec : readLoop fuel (buf + 2048) (fat a) (s.readToBuf buf (clusterNum a)) =
          .ok ((s.readToBuf buf (clusterNum a)).readChain (buf + 2048) (b :: l)) :=
        ih hs (List.cons_ne_nil b l) (by simpa using hfuel)
      simp only [bind, Except.bind, if_pos hne, hrec]

/-! ## Emptying a chain -/

theorem deleteLoop_chain {v : UInt32} {l : List (Fin 512)} {a : Fin 512} {s : System} (h : FatChain s.fat v (a :: l)) :
    ∀ {fuel : Nat}, (a :: l).length ≤ fuel →
      deleteLoop fuel v (s.fat a) s =
        .ok (clusterNum ((a :: l).getLast (List.cons_ne_nil a l)),
          s.withFat (clear fat32FatEmptyEntry s.fat (a :: l).dropLast)) := by
  induction l generalizing s v a with
  | nil =>
    intro fuel hfuel
    obtain ⟨fuel, rfl⟩ : ∃ k, fuel = k + 1 := ⟨fuel - 1, by simp at hfuel; omega⟩
    obtain rfl := h.start_cons
    have hend : s.fat a = fat32FatEndOfFile := h.tail.start_nil
    simp [deleteLoop, hend, System.withFat, pure, Except.pure]
  | cons b l ih =>
    intro fuel hfuel
    obtain ⟨fuel, rfl⟩ : ∃ k, fuel = k + 1 := ⟨fuel - 1, by simp at hfuel; omega⟩
    obtain rfl := h.start_cons
    have hnodup := List.nodup_cons.mp h.nodup
    have hb : s.fat a = clusterNum b := h.tail.start_cons
    -- the rest of the chain does not meet the cell just emptied
    have hrest : FatChain (Function.update s.fat a fat32FatEmptyEntry) (clusterNum b) (b :: l) :=
      (hb ▸ h.tail).congr fun c hc => Function.update_of_ne (ne_of_mem_of_not_mem hc hnodup.1) _ _
    have hrec : deleteLoop fuel _ _ _ = _ :=
      ih (s := s.withFat (Function.update s.fat a fat32FatEmptyEntry)) hrest (by simpa using hfuel)
    simp only [deleteLoop, hb, clusterNum_ne_endOfFile, ne_eq, not_false_eq_true, if_true,
      System.setClusterMap_clusterNum, System.clusterMap_clusterNum, bind, Except.bind, hrec]
    simp only [System.withFat_withFat, System.withFat_fat, clear_update, List.getLast_cons_cons,
      List.dropLast_cons_cons]

/-! ## Fuel -/

/-- An execution that did not run out of fuel. -/
def Exec.Final {α : Type} (r : Exec α) : Prop := ∀ s, r ≠ .error (.running, s)

theorem Exec.final_ok {α : Type} (a : α) : Exec.Final (.ok a) := fun _ h => by cases h

theorem Exec.Final.of_bind {α β : Type} {x : Exec α} {f : α → Exec β} (h : Exec.Final (x >>= f)) : Exec.Final x := by
  rintro s rfl
  exact h s rfl

theorem Exec.bind_eq_ok {α β : Type} {x : Exec α} {f : α → Exec β} {b : β} :
    x >>= f = .ok b ↔ ∃ a, x = .ok a ∧ f a = .ok b := by
  cases x <;> simp [bind, Except.bind]

theorem Exec.ok_bind {α β : Type} (a : α) (f : α → Exec β) : (Except.ok a : Exec α) >>= f = f a := rfl

theorem readLoop_mono : ∀ {fuel fuel' : Nat} {buf v : UInt32} {s : System}, (readLoop fuel buf v s).Final →
    fuel ≤ fuel' → readLoop fuel' buf v s = readLoop fuel buf v s
  | 0, _, _, _, s, h, _ => absurd rfl (h s)
  | fuel + 1, fuel', buf, v, s, h, hle => by
    obtain ⟨fuel', rfl⟩ : ∃ k, fuel' = k + 1 := ⟨fuel' - 1, by omega⟩
    simp only [readLoop] at h ⊢
    cases hc : (s.readToBuf buf v).clusterMap v with
    | error e => rfl
    | ok next =>
      simp only [hc, bind, Except.bind] at h ⊢
      split
      · next hn =>
        rw [if_pos hn] at h
        exact readLoop_mono h (by omega)
      · rfl

theorem writeLoop_mono {request : FAT32DriverRequest} {k : Fin 64} : ∀ {fuel fuel' : Nat} {fatIndex prev : Fin 512}
    {i : Nat} {s : System}, (writeLoop request k fuel fatIndex prev i s).Final → fuel ≤ fuel' →
      writeLoop request k fuel' fatIndex prev i s = writeLoop request k fuel fatIndex prev i s
  | 0, _, _, _, _, s, h, _ => absurd rfl (h s)
  | fuel + 1, fuel', fatIndex, prev, i, s, h, hle => by
    obtain ⟨fuel', rfl⟩ : ∃ k, fuel' = k + 1 := ⟨fuel' - 1, by omega⟩
    simp only [writeLoop] at h ⊢
    split
    · rfl
    · next c hc =>
      simp only [hc] at h
      split
      · next hlt =>
        rw [if_pos hlt] at h
        exact writeLoop_mono h (by omega)
      · rfl

theorem deleteLoop_mono : ∀ {fuel fuel' : Nat} {current next : UInt32} {s : System},
    (deleteLoop fuel current next s).Final → fuel ≤ fuel' →
      deleteLoop fuel' current next s = deleteLoop fuel current next s
  | 0, _, _, _, s, h, _ => absurd rfl (h s)
  | fuel + 1, fuel', current, next, s, h, hle => by
    obtain ⟨fuel', rfl⟩ : ∃ k, fuel' = k + 1 := ⟨fuel' - 1, by omega⟩
    simp only [deleteLoop] at h ⊢
    split
    · next hn =>
      rw [if_pos hn] at h
      cases hs : s.setClusterMap current fat32FatEmptyEntry with
      | error e => rfl
      | ok s₁ =>
        simp only [hs, bind, Except.bind] at h ⊢
        cases hc : s₁.clusterMap next with
        | error e => rfl
        | ok next' =>
          simp only [hc] at h ⊢
          exact deleteLoop_mono h (by omega)
    · rfl

end Os2024
