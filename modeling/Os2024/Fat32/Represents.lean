import Os2024.Fat32.Catalog
import Os2024.Fat32.Image

/-!
# A disk and a FAT that hold a catalog

`Represents disk fat cat` says that the tables of the live folders list exactly the records of `cat`, that each record
has a chain of its own, and that the reserved cells, the boot sector and the stored FAT are in order.

* `Represents.frame`: what is not in use may change.
* `Represents.insert`, `Represents.remove`: one table write adds a record whose chain is ready, or takes one away.
* `Represents.entry_chain`, `Represents.entry_disjoint`, `Represents.existsUnique_owner`: entries, chains and cells.
* `represents_fresh`: a freshly created file system represents the empty catalog.
-/

namespace Os2024

open LinkTable

/-- Entry `i` of a table is one of those that list files and folders, and is in use. -/
def FAT32DirectoryTable.Occupied (t : FAT32DirectoryTable) (i : Fin 64) : Prop :=
  2 ≤ i.val ∧ (t.table i).occupied = true

/-- An entry says what a record says. -/
structure Describes (e : FAT32DirectoryEntry) (r : Record) : Prop where
  name : e.name = r.name
  ext : e.ext = r.ext
  first : e.clusterNumber = r.first
  folder : r.folder = true → e.isDirectory = true

/-- The disk and the FAT hold the catalog `cat`. -/
structure Represents (disk : Disk) (fat : Fin 512 → UInt32) (cat : List Record) : Prop where
  reserved : fat 0 = cluster0Value ∧ fat 1 = cluster1Value ∧ fat 2 = fat32FatEndOfFile
  boot : disk bootSector = fsSignature
  stored : readCluster disk fatClusterNumber = FAT32FileAllocationTable.bytes ⟨fat⟩
  table : ∀ c, Live cat c → ((tableAt disk c).table 0).isDirectory = true
  entry : ∀ c, Live cat c → ∀ i, (tableAt disk c).Occupied i → ∃ r ∈ cat, r.parent = c ∧
    Describes ((tableAt disk c).table i) r
  record : ∀ r ∈ cat, Live cat r.parent ∧ ∃ i, (tableAt disk r.parent).Occupied i ∧
    Describes ((tableAt disk r.parent).table i) r
  slot : ∀ c, Live cat c → ∀ i j, (tableAt disk c).Occupied i → (tableAt disk c).Occupied j →
    ((tableAt disk c).table i).name = ((tableAt disk c).table j).name →
    ((tableAt disk c).table i).ext = ((tableAt disk c).table j).ext → i = j
  key_inj : ∀ r ∈ cat, ∀ r' ∈ cat, r.key = r'.key → r = r'
  chain : ∀ r ∈ cat, ∃ l, FatChain fat r.first l ∧ l ≠ [] ∧ (∀ c ∈ l, 3 ≤ c.val) ∧ (r.folder = true → l.length = 1)
  disjoint : ∀ r ∈ cat, ∀ r' ∈ cat, r ≠ r' → ∀ l l', FatChain fat r.first l → FatChain fat r'.first l' → l.Disjoint l'
  parent_ne : ∀ r ∈ cat, r.parent ≠ r.first

/-- A cell is reserved or lies on the chain of a record. -/
def InUse (fat : Fin 512 → UInt32) (cat : List Record) (c : Fin 512) : Prop :=
  c.val ≤ 2 ∨ ∃ r ∈ cat, ∃ l, FatChain fat r.first l ∧ c ∈ l

/-- Every cell that is not empty is in use. -/
def NoLeak (fat : Fin 512 → UInt32) (cat : List Record) : Prop :=
  ∀ c : Fin 512, fat c ≠ fat32FatEmptyEntry → InUse fat cat c

/-! ## Cells and chains -/

section Cells

variable {disk disk' : Disk} {fat fat' : Fin 512 → UInt32} {cat : List Record} {c : UInt32} {a : Fin 512} {r r' : Record}
  {l : List (Fin 512)}

theorem Live.root (cat : List Record) : Live cat rootClusterNumber := .inl rfl

theorem live_cons_iff : Live (r :: cat) c ↔ Live cat c ∨ (r.folder = true ∧ r.first = c) := by
  simp only [Live, List.mem_cons, or_and_right, exists_or, exists_eq_left, or_comm, or_left_comm]

namespace Represents

variable (h : Represents disk fat cat)
include h

theorem three_le (hr : r ∈ cat) (hl : FatChain fat r.first l) (ha : a ∈ l) : 3 ≤ a.val := by
  obtain ⟨l', hl', -, h3, -⟩ := h.chain r hr
  exact h3 a (hl.unique hl' ▸ ha)

/-- The chain of a folder is one cell. -/
theorem folder_chain (hr : r ∈ cat) (hf : r.folder = true) :
    ∃ p, r.first = clusterNum p ∧ 3 ≤ p.val ∧ fat p = fat32FatEndOfFile ∧ FatChain fat r.first [p] := by
  obtain ⟨l, hl, -, h3, hone⟩ := h.chain r hr
  obtain ⟨p, rfl⟩ := List.length_eq_one_iff.mp (hone hf)
  exact ⟨p, hl.start_cons, h3 p (by simp), hl.tail.start_nil, hl⟩

/-- The cluster of a live folder is a cell in use that holds the end mark. -/
theorem live_cell (hc : Live cat c) :
    ∃ p, c = clusterNum p ∧ 2 ≤ p.val ∧ fat p = fat32FatEndOfFile ∧ InUse fat cat p := by
  rcases hc with rfl | ⟨r, hr, hf, rfl⟩
  · exact ⟨2, rfl, le_rfl, h.reserved.2.2, .inl le_rfl⟩
  · obtain ⟨p, he, h3, hend, hl⟩ := h.folder_chain hr hf
    exact ⟨p, he, by omega, hend, .inr ⟨r, hr, [p], hl, by simp⟩⟩

theorem ne_fatCluster (hr : r ∈ cat) (hl : FatChain fat r.first l) (ha : a ∈ l) : clusterNum a ≠ fatClusterNumber := by
  have h3 := h.three_le hr hl ha
  rw [fatClusterNumber_eq, ne_eq, clusterNum_inj]
  rintro rfl
  exact absurd h3 (by decide)

/-- The cluster of a live folder is not one of a file's. -/
theorem file_ne_live (hr : r ∈ cat) (hf : r.folder = false) (hl : FatChain fat r.first l) (ha : a ∈ l)
    (hc : Live cat c) : clusterNum a ≠ c := by
  rcases hc with rfl | ⟨q, hq, hqf, rfl⟩
  · have h3 := h.three_le hr hl ha
    rw [rootClusterNumber_eq, ne_eq, clusterNum_inj]
    rintro rfl
    exact absurd h3 (by decide)
  · obtain ⟨b, hb, -, -, hqb⟩ := h.folder_chain hq hqf
    rw [hb, ne_eq, clusterNum_inj]
    rintro rfl
    refine h.disjoint r hr q hq ?_ l [a] hl hqb ha (by simp)
    rintro rfl
    rw [hqf] at hf
    cases hf

theorem live_ne_fatCluster (hc : Live cat c) : c ≠ fatClusterNumber := by
  obtain ⟨p, rfl, h2, -⟩ := h.live_cell hc
  rw [fatClusterNumber_eq, ne_eq, clusterNum_inj]
  rintro rfl
  exact absurd h2 (by decide)

theorem live_lt (hc : Live cat c) : c.toNat < 512 := by
  obtain ⟨p, rfl, -⟩ := h.live_cell hc
  rw [toNat_clusterNum]
  exact p.isLt

/-- Cells in use are not empty. -/
theorem ne_emptyEntry (ha : InUse fat cat a) : fat a ≠ fat32FatEmptyEntry := by
  rcases ha with ha | ⟨r, hr, l, hl, ha⟩
  · obtain ⟨h0, h1, h2⟩ := h.reserved
    obtain rfl | rfl | rfl : a = 0 ∨ a = 1 ∨ a = 2 := by
      simp only [Fin.ext_iff]
      change a.val = 0 ∨ a.val = 1 ∨ a.val = 2
      omega
    · rw [h0]; decide
    · rw [h1]; decide
    · rw [h2]; decide
  · exact hl.ne_emptyEntry (fun c hc => (h.three_le hr hl hc).trans' (by omega)) ha

theorem parentValid {s : System} (hs : s.disk = disk) (hf : s.fat = fat) (hc : Live cat c) : ParentValid s c := by
  obtain ⟨p, hp, h2, hend, -⟩ := h.live_cell hc
  exact ⟨p, hp, h2, hf ▸ hend, hs ▸ h.table c hc⟩

/-- A record lies in one slot. -/
theorem slot_of_describes (hr : r ∈ cat) {i j : Fin 64} (hi : (tableAt disk r.parent).Occupied i)
    (hj : (tableAt disk r.parent).Occupied j) (hdi : Describes ((tableAt disk r.parent).table i) r)
    (hdj : Describes ((tableAt disk r.parent).table j) r) : i = j :=
  h.slot r.parent (h.record r hr).1 i j hi hj (hdi.name.trans hdj.name.symm) (hdi.ext.trans hdj.ext.symm)

end Represents

end Cells

/-! ## Entries of live folders -/

/-- The occupied entries at index `2` to `63` of the live folders, by folder and index. -/
def Lists (disk : Disk) (cat : List Record) (p : UInt32 × Fin 64) : Prop :=
  Live cat p.1 ∧ (tableAt disk p.1).Occupied p.2

/-- The entry at a folder and an index. -/
def entryAt (disk : Disk) (p : UInt32 × Fin 64) : FAT32DirectoryEntry := (tableAt disk p.1).table p.2

section Entries

variable {disk : Disk} {fat : Fin 512 → UInt32} {cat : List Record} {p p' : UInt32 × Fin 64} {l l' : List (Fin 512)}
  {r : Record} {c : Fin 512}

namespace Represents

variable (h : Represents disk fat cat)
include h

/-- An entry is that of a record. -/
theorem record_of_lists (hp : Lists disk cat p) : ∃ r ∈ cat, r.parent = p.1 ∧ Describes (entryAt disk p) r :=
  h.entry p.1 hp.1 p.2 hp.2

/-- A record has exactly one entry. -/
theorem existsUnique_entry (hr : r ∈ cat) :
    ∃! p, Lists disk cat p ∧ p.1 = r.parent ∧ Describes (entryAt disk p) r := by
  obtain ⟨hlive, i, hi, hd⟩ := h.record r hr
  refine ⟨(r.parent, i), ⟨⟨hlive, hi⟩, rfl, hd⟩, ?_⟩
  rintro ⟨c, j⟩ ⟨⟨-, hj⟩, rfl, hdj⟩
  exact Prod.ext rfl (h.slot_of_describes hr hj hi hdj hd)

/-- Following the FAT from an entry. -/
theorem entry_chain (hp : Lists disk cat p) :
    ∃ l, FatChain fat (entryAt disk p).clusterNumber l ∧ l ≠ [] ∧ ∀ c ∈ l, 3 ≤ c.val ∧ fat c ≠ fat32FatEmptyEntry := by
  obtain ⟨r, hr, -, hd⟩ := h.record_of_lists hp
  obtain ⟨l, hl, hne, h3, -⟩ := h.chain r hr
  exact ⟨l, hd.first ▸ hl, hne, fun c hc => ⟨h3 c hc, h.ne_emptyEntry (.inr ⟨r, hr, l, hl, hc⟩)⟩⟩

/-- Chains of different entries are disjoint. -/
theorem entry_disjoint (hp : Lists disk cat p) (hp' : Lists disk cat p') (hne : p ≠ p')
    (hl : FatChain fat (entryAt disk p).clusterNumber l) (hl' : FatChain fat (entryAt disk p').clusterNumber l') :
    l.Disjoint l' := by
  obtain ⟨r, hr, hpr, hd⟩ := h.record_of_lists hp
  obtain ⟨r', hr', hpr', hd'⟩ := h.record_of_lists hp'
  rw [hd.first] at hl
  rw [hd'.first] at hl'
  refine h.disjoint r hr r' hr' ?_ l l' hl hl'
  rintro rfl
  exact hne ((h.existsUnique_entry hr).unique ⟨hp, hpr.symm, hd⟩ ⟨hp', hpr'.symm, hd'⟩)

/-- A cell in use from `3` on is on the chain of exactly one entry. -/
theorem existsUnique_owner (huse : InUse fat cat c) (h3 : 3 ≤ c.val) :
    ∃! p, Lists disk cat p ∧ ∃ l, FatChain fat (entryAt disk p).clusterNumber l ∧ c ∈ l := by
  rcases huse with h2 | ⟨r, hr, l, hl, hc⟩
  · omega
  · obtain ⟨p, ⟨hp, -, hd⟩, -⟩ := h.existsUnique_entry hr
    refine ⟨p, ⟨hp, l, hd.first ▸ hl, hc⟩, ?_⟩
    rintro q ⟨hq, m, hm, hcm⟩
    by_contra hne
    exact h.entry_disjoint hq hp hne hm (hd.first ▸ hl) hcm hc

end Represents

end Entries

/-! ## What is not in use may change -/

section Frame

variable {disk disk' : Disk} {fat fat' : Fin 512 → UInt32} {cat : List Record}

/-- Chains of records go through cells in use only. -/
theorem chain_congr (hcells : ∀ c, InUse fat cat c → fat' c = fat c) :
    ∀ r ∈ cat, ∀ l, FatChain fat r.first l → FatChain fat' r.first l := by
  intro r hr l hl
  exact hl.congr fun c hc => hcells c (.inr ⟨r, hr, l, hl, hc⟩)

theorem Represents.frame (h : Represents disk fat cat) (hboot : disk' bootSector = fsSignature)
    (hstored : readCluster disk' fatClusterNumber = FAT32FileAllocationTable.bytes ⟨fat'⟩)
    (htables : ∀ c, Live cat c → readCluster disk' c = readCluster disk c)
    (hcells : ∀ c, InUse fat cat c → fat' c = fat c) : Represents disk' fat' cat := by
  have hchain : ∀ r ∈ cat, ∀ l, FatChain fat r.first l → FatChain fat' r.first l := chain_congr hcells
  have hback : ∀ r ∈ cat, ∀ l, FatChain fat' r.first l → FatChain fat r.first l := by
    intro r hr l hl
    obtain ⟨l', hl', -⟩ := h.chain r hr
    exact hl.unique (hchain r hr l' hl') ▸ hl'
  have htab : ∀ c, Live cat c → tableAt disk' c = tableAt disk c := fun c hc => tableAt_congr (htables c hc)
  refine
    { reserved := ?reserved
      boot := hboot
      stored := hstored
      table := ?table
      entry := ?entry
      record := ?record
      slot := ?slot
      key_inj := h.key_inj
      chain := ?chain
      disjoint := ?disjoint
      parent_ne := h.parent_ne }
  case reserved =>
    rw [hcells 0 (.inl (by decide)), hcells 1 (.inl (by decide)), hcells 2 (.inl (by decide))]
    exact h.reserved
  case table =>
    intro c hc
    rw [htab c hc]
    exact h.table c hc
  case entry =>
    intro c hc
    rw [htab c hc]
    exact h.entry c hc
  case record =>
    intro r hr
    have hr' := h.record r hr
    rwa [htab _ hr'.1]
  case slot =>
    intro c hc
    rw [htab c hc]
    exact h.slot c hc
  case chain =>
    intro r hr
    obtain ⟨l, hl, hrest⟩ := h.chain r hr
    exact ⟨l, hchain r hr l hl, hrest⟩
  case disjoint =>
    intro r hr r' hr' hne l l' hl hl'
    exact h.disjoint r hr r' hr' hne l l' (hback r hr l hl) (hback r' hr' l' hl')

/-- The cells in use depend only on themselves. -/
theorem Represents.inUse_iff (h : Represents disk fat cat) (hcells : ∀ c, InUse fat cat c → fat' c = fat c)
    {a : Fin 512} : InUse fat' cat a ↔ InUse fat cat a := by
  have hchain : ∀ r ∈ cat, ∀ l, FatChain fat r.first l → FatChain fat' r.first l := chain_congr hcells
  apply or_congr_right
  constructor
  · rintro ⟨r, hr, l, hl, ha⟩
    obtain ⟨l', hl', -⟩ := h.chain r hr
    exact ⟨r, hr, l', hl', (hl.unique (hchain r hr l' hl')) ▸ ha⟩
  · rintro ⟨r, hr, l, hl, ha⟩
    exact ⟨r, hr, l, hchain r hr l hl, ha⟩

end Frame

/-! ## Adding a record -/

section Insert

variable {disk disk' : Disk} {fat : Fin 512 → UInt32} {cat : List Record} {r : Record} {i : Fin 64}
  {e : FAT32DirectoryEntry} {l : List (Fin 512)}

/-- A record that may be added: its parent is live, its name is not taken, and its chain is ready. -/
structure Addable (fat : Fin 512 → UInt32) (cat : List Record) (r : Record) (l : List (Fin 512)) : Prop where
  parent : Live cat r.parent
  key : ∀ r' ∈ cat, r'.key ≠ r.key
  chain : FatChain fat r.first l
  ne_nil : l ≠ []
  three_le : ∀ c ∈ l, 3 ≤ c.val
  folder : r.folder = true → l.length = 1
  fresh : ∀ c ∈ l, ¬ InUse fat cat c

/-- `disk'` is `disk` with `e` in entry `i` of the table in cluster `c`, as far as `cat` is concerned. -/
structure TableWrite (disk disk' : Disk) (cat : List Record) (c : UInt32) (i : Fin 64) (e : FAT32DirectoryEntry) :
    Prop where
  boot : disk' bootSector = disk bootSector
  stored : readCluster disk' fatClusterNumber = readCluster disk fatClusterNumber
  table : tableAt disk' c = (tableAt disk c).set i e
  other : ∀ c', Live cat c' → c' ≠ c → readCluster disk' c' = readCluster disk c'

namespace TableWrite

variable {c c' : UInt32} {j : Fin 64} (w : TableWrite disk disk' cat c i e)
include w

theorem table_of_ne_cluster (hc' : Live cat c') (hc : c' ≠ c) : tableAt disk' c' = tableAt disk c' :=
  tableAt_congr (w.other c' hc' hc)

theorem table_self : (tableAt disk' c).table i = e := by rw [w.table, FAT32DirectoryTable.set_table_self]

/-- Only one entry is another one. -/
theorem table_of_ne (hc' : Live cat c') (hne : ¬ (c' = c ∧ j = i)) :
    (tableAt disk' c').table j = (tableAt disk c').table j := by
  by_cases hc : c' = c
  · rw [hc, w.table, FAT32DirectoryTable.set_table_of_ne fun hj => hne ⟨hc, hj⟩]
  · rw [w.table_of_ne_cluster hc' hc]

theorem occupied_of_ne (hc' : Live cat c') (hne : ¬ (c' = c ∧ j = i)) :
    (tableAt disk' c').Occupied j ↔ (tableAt disk c').Occupied j := by
  rw [FAT32DirectoryTable.Occupied, FAT32DirectoryTable.Occupied, w.table_of_ne hc' hne]

theorem isDirectory_zero (hi : 2 ≤ i.val) (hc' : Live cat c') :
    ((tableAt disk' c').table 0).isDirectory = ((tableAt disk c').table 0).isDirectory := by
  rw [w.table_of_ne hc' fun h => absurd (h.2 ▸ hi) (by decide)]

/-- Once entry `i` is in use, the entries in use are it and those of before. -/
theorem occupied_filled (hi : 2 ≤ i.val) (he : e.occupied = true) (hc' : Live cat c') :
    (tableAt disk' c').Occupied j ↔ (c' = c ∧ j = i) ∨ (tableAt disk c').Occupied j := by
  by_cases hne : c' = c ∧ j = i
  · obtain ⟨rfl, rfl⟩ := hne
    exact iff_of_true ⟨hi, w.table_self ▸ he⟩ (.inl ⟨rfl, rfl⟩)
  · rw [w.occupied_of_ne hc' hne, or_iff_right hne]

/-- Once entry `i` is released, the entries in use are the others of before. -/
theorem occupied_released (he : e.occupied = false) (hc' : Live cat c') :
    (tableAt disk' c').Occupied j ↔ (tableAt disk c').Occupied j ∧ ¬ (c' = c ∧ j = i) := by
  by_cases hne : c' = c ∧ j = i
  · obtain ⟨rfl, rfl⟩ := hne
    refine iff_of_false ?_ fun h => h.2 ⟨rfl, rfl⟩
    rintro ⟨-, hj⟩
    rw [w.table_self, he] at hj
    cases hj
  · rw [w.occupied_of_ne hc' hne, and_iff_left hne]

end TableWrite

/-- A call of `write_clusters` with the table of a live folder. -/
theorem Represents.tableWrite (h : Represents disk fat cat) {c : UInt32} (hc : Live cat c) :
    TableWrite disk (applyWrites disk [(c, ((tableAt disk c).set i e).bytes)]) cat c i e := by
  have hlt := (h.live_lt hc).trans (show 512 < 2 ^ 30 by decide)
  have h0 : c ≠ 0 := by
    obtain ⟨p, rfl, h2, -⟩ := h.live_cell hc
    exact clusterNum_ne_emptyEntry h2
  refine ⟨writeCluster_bootSector hlt h0, readCluster_writeCluster_of_ne hlt (by decide) (h.live_ne_fatCluster hc).symm,
    ?_, fun c' hc' hne =>
      readCluster_writeCluster_of_ne hlt ((h.live_lt hc').trans (by decide)) hne⟩
  rw [tableAt]
  exact (congrArg _ readCluster_writeCluster_self).trans (FAT32DirectoryTable.ofBytes_bytes _)

theorem Addable.parent_ne (h : Represents disk fat cat) (ha : Addable fat cat r l) : r.parent ≠ r.first := by
  obtain ⟨a, l, rfl⟩ := List.exists_cons_of_ne_nil ha.ne_nil
  obtain ⟨p, hp, -, -, huse⟩ := h.live_cell ha.parent
  rw [hp, ha.chain.start_cons, ne_eq, clusterNum_inj]
  rintro rfl
  exact ha.fresh p (by simp) huse

/-- No entry of the parent has the name of a record that may be added. -/
theorem Addable.name_ne {j : Fin 64} (h : Represents disk fat cat) (ha : Addable fat cat r l)
    (hj : (tableAt disk r.parent).Occupied j) (hn : ((tableAt disk r.parent).table j).name = r.name) :
    ((tableAt disk r.parent).table j).ext ≠ r.ext := by
  intro hx
  obtain ⟨r', hr', hp, hd⟩ := h.entry _ ha.parent j hj
  refine ha.key r' hr' ?_
  rw [Record.key, Record.key, hp, ← hd.name, ← hd.ext, hn, hx]

theorem Represents.insert (h : Represents disk fat cat) (ha : Addable fat cat r l)
    (hi : 2 ≤ i.val) (hfree : ((tableAt disk r.parent).table i).occupied = false) (he : Describes e r)
    (hocc : e.occupied = true) (w : TableWrite disk disk' cat r.parent i e)
    (hnew : r.folder = true → (tableAt disk' r.first).IsEmpty) : Represents disk' fat (r :: cat) := by
  have hslot : ∀ {c j}, (tableAt disk c).Occupied j → ¬ (c = r.parent ∧ j = i) := by
    rintro c j ⟨-, hj⟩ ⟨rfl, rfl⟩
    rw [hfree] at hj
    cases hj
  -- an entry in use is the new one, or that of an old folder
  have hcases : ∀ {c j}, Live (r :: cat) c → (tableAt disk' c).Occupied j → (c = r.parent ∧ j = i) ∨
      (Live cat c ∧ (tableAt disk c).Occupied j ∧ (tableAt disk' c).table j = (tableAt disk c).table j) := by
    intro c j hc hj
    rcases live_cons_iff.mp hc with hc | ⟨hf, rfl⟩
    · rcases (w.occupied_filled hi hocc hc).mp hj with hnew | hold
      · exact .inl hnew
      · exact .inr ⟨hc, hold, w.table_of_ne hc (hslot hold)⟩
    · have hempty := (hnew hf).2 j hj.1
      rw [hj.2] at hempty
      cases hempty
  refine
    { reserved := h.reserved
      boot := w.boot.trans h.boot
      stored := w.stored.trans h.stored
      table := ?table
      entry := ?entry
      record := ?record
      slot := ?slot
      key_inj := ?key_inj
      chain := ?chain
      disjoint := ?disjoint
      parent_ne := ?parent_ne }
  case table =>
    intro c hc
    rcases live_cons_iff.mp hc with hc | ⟨hf, rfl⟩
    · rw [w.isDirectory_zero hi hc]
      exact h.table c hc
    · exact (hnew hf).1
  case entry =>
    intro c hc j hj
    rcases hcases hc hj with ⟨rfl, rfl⟩ | ⟨hc, hj, heq⟩
    · exact ⟨r, List.mem_cons_self, rfl, w.table_self ▸ he⟩
    · obtain ⟨r', hr', hp, hd⟩ := h.entry c hc j hj
      exact ⟨r', List.mem_cons_of_mem _ hr', hp, heq ▸ hd⟩
  case record =>
    intro r' hr'
    rcases List.mem_cons.mp hr' with rfl | hr'
    · exact ⟨live_cons_iff.mpr (.inl ha.parent), i, ⟨hi, w.table_self ▸ hocc⟩, w.table_self ▸ he⟩
    · obtain ⟨hlive, j, hj, hd⟩ := h.record r' hr'
      refine ⟨live_cons_iff.mpr (.inl hlive), j, (w.occupied_filled hi hocc hlive).mpr (.inr hj), ?_⟩
      rw [w.table_of_ne hlive (hslot hj)]
      exact hd
  case slot =>
    intro c hc j k hj hk hn hx
    rcases hcases hc hj with ⟨rfl, rfl⟩ | ⟨hcl, hj, hje⟩ <;> rcases hcases hc hk with ⟨hcp, rfl⟩ | ⟨-, hk, hke⟩
    · rfl
    · rw [w.table_self, hke] at hn hx
      exact absurd (hx.symm.trans he.ext) (ha.name_ne h hk (hn.symm.trans he.name))
    · subst hcp
      rw [w.table_self, hje] at hn hx
      exact absurd (hx.trans he.ext) (ha.name_ne h hj (hn.trans he.name))
    · rw [hje, hke] at hn hx
      exact h.slot c hcl j k hj hk hn hx
  case key_inj =>
    intro q hq q' hq' hk
    rcases List.mem_cons.mp hq with rfl | hqc <;> rcases List.mem_cons.mp hq' with rfl | hqc'
    · rfl
    · exact absurd hk.symm (ha.key q' hqc')
    · exact absurd hk (ha.key q hqc)
    · exact h.key_inj q hqc q' hqc' hk
  case chain =>
    intro q hq
    rcases List.mem_cons.mp hq with rfl | hq
    · exact ⟨l, ha.chain, ha.ne_nil, ha.three_le, ha.folder⟩
    · exact h.chain q hq
  case disjoint =>
    intro q hq q' hq' hne m m' hm hm'
    rcases List.mem_cons.mp hq with rfl | hqc <;> rcases List.mem_cons.mp hq' with rfl | hqc'
    · exact absurd rfl hne
    · obtain rfl := hm.unique ha.chain
      exact fun c hc hc' => ha.fresh c hc (.inr ⟨q', hqc', m', hm', hc'⟩)
    · obtain rfl := hm'.unique ha.chain
      exact fun c hc hc' => ha.fresh c hc' (.inr ⟨q, hqc, m, hm, hc⟩)
    · exact h.disjoint q hqc q' hqc' hne m m' hm hm'
  case parent_ne =>
    intro q hq
    rcases List.mem_cons.mp hq with rfl | hq
    · exact ha.parent_ne h
    · exact h.parent_ne q hq

end Insert

/-! ## Taking a record away -/

section Remove

variable {disk disk' : Disk} {fat : Fin 512 → UInt32} {cat : List Record} {r r' : Record} {i : Fin 64}
  {e : FAT32DirectoryEntry} {c : UInt32}

/-- The catalog without the record of a key. -/
def without (cat : List Record) (k : Key) : List Record := cat.filter fun r => r.key ≠ k

theorem mem_without {k : Key} : r ∈ without cat k ↔ r ∈ cat ∧ r.key ≠ k := by simp [without]

theorem Live.of_without {k : Key} (hc : Live (without cat k) c) : Live cat c :=
  hc.mono fun _ hr => (mem_without.mp hr).1

/-- A folder that holds a record is not the one that is taken away. -/
theorem Represents.live_without (h : Represents disk fat cat) (hr : r ∈ cat)
    (hempty : r.folder = true → ∀ j, ¬ (tableAt disk r.first).Occupied j) (hr' : r' ∈ cat) :
    Live (without cat r.key) r'.parent := by
  obtain ⟨hl, j, hj, -⟩ := h.record r' hr'
  rcases hl with hroot | ⟨q, hq, hf, hqf⟩
  · exact .inl hroot
  · refine .inr ⟨q, mem_without.mpr ⟨hq, fun hk => ?_⟩, hf, hqf⟩
    obtain rfl := h.key_inj q hq r hr hk
    exact hempty hf j (hqf ▸ hj)

theorem Represents.remove (h : Represents disk fat cat) (hr : r ∈ cat) (hi : (tableAt disk r.parent).Occupied i)
    (hd : Describes ((tableAt disk r.parent).table i) r)
    (hempty : r.folder = true → ∀ j, ¬ (tableAt disk r.first).Occupied j) (he : e.occupied = false)
    (w : TableWrite disk disk' cat r.parent i e) : Represents disk' fat (without cat r.key) := by
  -- entries still in use were in use
  have hback : ∀ {c j}, Live (without cat r.key) c → (tableAt disk' c).Occupied j → (tableAt disk c).Occupied j ∧
      ¬ (c = r.parent ∧ j = i) ∧ (tableAt disk' c).table j = (tableAt disk c).table j := by
    intro c j hc hj
    obtain ⟨hold, hne⟩ := (w.occupied_released he hc.of_without).mp hj
    exact ⟨hold, hne, w.table_of_ne hc.of_without hne⟩
  refine
    { reserved := h.reserved
      boot := w.boot.trans h.boot
      stored := w.stored.trans h.stored
      table := ?table
      entry := ?entry
      record := ?record
      slot := ?slot
      key_inj := fun q hq q' hq' => h.key_inj q (mem_without.mp hq).1 q' (mem_without.mp hq').1
      chain := fun q hq => h.chain q (mem_without.mp hq).1
      disjoint := fun q hq q' hq' => h.disjoint q (mem_without.mp hq).1 q' (mem_without.mp hq').1
      parent_ne := fun q hq => h.parent_ne q (mem_without.mp hq).1 }
  case table =>
    intro c hc
    rw [w.isDirectory_zero hi.1 hc.of_without]
    exact h.table c hc.of_without
  case entry =>
    intro c hc j hj
    obtain ⟨hold, hne, heq⟩ := hback hc hj
    obtain ⟨r', hr', hp, hdj⟩ := h.entry c hc.of_without j hold
    refine ⟨r', mem_without.mpr ⟨hr', fun hk => ?_⟩, hp, heq ▸ hdj⟩
    obtain rfl := h.key_inj r' hr' r hr hk
    subst hp
    exact hne ⟨rfl, h.slot_of_describes hr hold hi hdj hd⟩
  case record =>
    intro r' hr'
    obtain ⟨hr', hk⟩ := mem_without.mp hr'
    obtain ⟨hl, j, hj, hdj⟩ := h.record r' hr'
    -- another record lies in another slot
    have hne : ¬ (r'.parent = r.parent ∧ j = i) := by
      rintro ⟨hp, rfl⟩
      rw [hp] at hdj
      refine hk ?_
      rw [Record.key, Record.key, hp, ← hdj.name, ← hdj.ext, hd.name, hd.ext]
    refine ⟨h.live_without hr hempty hr', j, (w.occupied_released he hl).mpr ⟨hj, hne⟩, ?_⟩
    rw [w.table_of_ne hl hne]
    exact hdj
  case slot =>
    intro c hc j k hj hk hn hx
    obtain ⟨hj', -, hje⟩ := hback hc hj
    obtain ⟨hk', -, hke⟩ := hback hc hk
    rw [hje, hke] at hn hx
    exact h.slot c hc.of_without j k hj' hk' hn hx

end Remove

/-! ## A freshly created file system -/

section Fresh

variable {disk : Disk}

theorem newRootDirectoryTable_isEmpty : newRootDirectoryTable.IsEmpty := by
  refine ⟨by decide, fun i hi => ?_⟩
  have h0 : i ≠ 0 := fun h => absurd (h ▸ hi) (by decide)
  have h1 : i ≠ 1 := fun h => absurd (h ▸ hi) (by decide)
  simp only [newRootDirectoryTable, if_neg h0, if_neg h1]
  decide

theorem tableAt_createFat32_root : tableAt (createFat32 disk) rootClusterNumber = newRootDirectoryTable := by
  rw [tableAt, readCluster_createFat32_root, FAT32DirectoryTable.ofBytes_bytes]

theorem represents_fresh (disk : Disk) : Represents (createFat32 disk) newFat.clusterMap [] := by
  have hlive : ∀ c, Live [] c → tableAt (createFat32 disk) c = newRootDirectoryTable := by
    rintro c (rfl | ⟨r, hr, -⟩)
    · exact tableAt_createFat32_root
    · cases hr
  have hempty : ∀ c, Live [] c → ∀ i, ¬ (tableAt (createFat32 disk) c).Occupied i := by
    intro c hc i hi
    rw [hlive c hc, FAT32DirectoryTable.Occupied, newRootDirectoryTable_isEmpty.2 i hi.1] at hi
    exact absurd hi.2 Bool.false_ne_true
  refine
    { reserved := ⟨by decide, by decide, by decide⟩
      boot := createFat32_bootSector
      stored := readCluster_createFat32_fat
      table := ?table
      entry := fun c hc i hi => absurd hi (hempty c hc i)
      record := by simp
      slot := fun c hc i j hi => absurd hi (hempty c hc i)
      key_inj := by simp
      chain := by simp
      disjoint := by simp
      parent_ne := by simp }
  case table =>
    intro c hc
    rw [hlive c hc]
    exact newRootDirectoryTable_isEmpty.1

theorem noLeak_fresh : NoLeak newFat.clusterMap [] := by
  intro c hc
  refine .inl (Nat.not_lt.mp fun h => hc ?_)
  have h0 : c ≠ 0 := fun e => by simp [e] at h
  have h1 : c ≠ 1 := fun e => by simp [e] at h
  have h2 : c ≠ 2 := fun e => absurd (e ▸ h) (by decide)
  simp [newFat, h0, h1, h2]

end Fresh

end Os2024
