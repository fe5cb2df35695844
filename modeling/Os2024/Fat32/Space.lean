import Os2024.Fat32.Runs
import Os2024.Fat32.Fresh

/-!
# Free space

How many cells a file or folder takes follows from the request that has made it, so what is free follows from the
history of requests and answers: `Machine.Accounted`. How many entries a folder has in use is the number of records it
is the parent of (`Represents.length_occupied`).
-/

namespace Os2024

open LinkTable Scan Journal

/-- The cells a successful `write` takes: one for every two clusters it counts. -/
def FAT32DriverRequest.cells (request : FAT32DriverRequest) : Nat := (request.clusterCount + 1) / 2

/-- What a call that has returned does to the writes that are kept. -/
def Event.keeping (e : Event) : Effect Event Key :=
  if e.code ≠ 0 then .keep
  else match e.call.op with
  | .write => .insert e
  | .delete => .remove e.call.request.key
  | _ => .keep

/-- The name a call was about. -/
def Event.key (e : Event) : Key := e.call.request.key

/-- The successful writes of a history whose files and folders were not deleted since. -/
def keptWrites : List Event → List Event := records Event.key Event.keeping

/-- The record of a write. -/
def Event.record (e : Event) : Record := e.call.request.record (firstWritten e.accesses)

/-- The cells that should be taken after a history. -/
def cellsTaken (h : List Event) : Nat := ((keptWrites h).map fun e => e.call.request.cells).sum

/-- The catalog lists the records of the writes that are kept. -/
theorem catalog_eq_map (h : List Event) : catalog h = (keptWrites h).map Event.record := by
  refine records_map (fun _ => rfl) (fun e => ?_) h
  unfold Event.effect Event.keeping
  by_cases hc : e.code = 0
  · rw [if_neg (not_not.mpr hc), if_neg (not_not.mpr hc)]
    cases e.call.op with
    | read => rfl
    | readDirectory => rfl
    | write => rfl
    | delete => rfl
  · rw [if_pos hc, if_pos hc]
    rfl

theorem map_key_catalog (h : List Event) : (catalog h).map Record.key = (keptWrites h).map Event.key := by
  rw [catalog_eq_map, List.map_map]
  rfl

section After

variable {m : Machine} {call : Call} {code : Int8} {s : System}

theorem Machine.keptWrites_after_of_keep (h : call.op = .write ∨ call.op = .delete → code ≠ 0) :
    keptWrites (m.after call code s).history = keptWrites m.history := by
  have heff : Event.keeping ⟨call, code, s.memory, s.accesses⟩ = .keep := by
    unfold Event.keeping
    cases ho : call.op <;> simp_all
  rw [Machine.after, keptWrites, records, heff, Effect.apply]

theorem Machine.keptWrites_after_write (hop : call.op = .write) : keptWrites (m.after call 0 s).history =
    ⟨call, 0, s.memory, s.accesses⟩ :: keptWrites m.history := by
  rw [Machine.after, keptWrites, records, Event.keeping, if_neg (by simp), hop, Effect.apply]

/-- A successful `write` is kept at first. -/
theorem Machine.mem_keptWrites_after (m : Machine) (s : System) (hop : call.op = .write) :
    ⟨call, 0, s.memory, s.accesses⟩ ∈ keptWrites (m.after call 0 s).history := by
  rw [keptWrites_after_write hop]
  exact List.mem_cons_self

theorem Machine.keptWrites_after_delete (hop : call.op = .delete) : keptWrites (m.after call 0 s).history =
    (keptWrites m.history).filter fun e => e.key ≠ call.request.key := by
  rw [Machine.after, keptWrites, records, Event.keeping, if_neg (by simp), hop, Effect.apply]

end After

/-! ## The cells of a deleted chain -/

/-- The cells of a chain are free once they are emptied. -/
theorem length_freeCells_clear {fat : Fin 512 → UInt32} {l : List (Fin 512)} (hnodup : l.Nodup)
    (h2 : ∀ c ∈ l, 2 ≤ c.val) (hused : ∀ c ∈ l, fat c ≠ fat32FatEmptyEntry) :
    (freeCells (clear fat32FatEmptyEntry fat l)).length = (freeCells fat).length + l.length := by
  have hmem : ∀ c, c ∈ freeCells (clear fat32FatEmptyEntry fat l) ↔ c ∈ freeCells fat ++ l := by
    intro c
    rw [mem_freeCells, List.mem_append, mem_freeCells]
    by_cases hc : c ∈ l
    · simp [clear_of_mem hc, hc, h2 c hc]
    · simp [clear_of_notMem hc, hc]
  have hdisjoint : (freeCells fat).Disjoint l := fun c hfree hc => hused c hc (mem_freeCells.mp hfree).2
  have hnodup' : (freeCells fat ++ l).Nodup := (freeCells_nodup fat).append hnodup hdisjoint
  rw [((List.perm_ext_iff_of_nodup (freeCells_nodup _) hnodup').mpr hmem).length_eq, List.length_append]

/-! ## The chains of a run -/

/-- The chains of the kept writes have the property `P`. -/
def KeptChains (P : FAT32DriverRequest → List (Fin 512) → Prop) (m : Machine) : Prop :=
  ∀ e ∈ keptWrites m.history, ∀ l, FatChain m.system.fat (firstWritten e.accesses) l → P e.call.request l

theorem Machine.mem_catalog_of_kept {m : Machine} {e : Event} (he : e ∈ keptWrites m.history) :
    e.record ∈ catalog m.history := by
  rw [catalog_eq_map]
  exact List.mem_map_of_mem he

section Chains

variable {P : FAT32DriverRequest → List (Fin 512) → Prop} {m : Machine} {call : Call} {s : System} {code : Int8}
  {fuel : Nat} {i : Fin 64} {l : List (Fin 512)} (hP : KeptChains P m)
  (h : Represents m.system.disk m.system.fat (catalog m.history))
  (hlive : Live (catalog m.history) call.request.parentClusterNumber)
include hP h hlive

/-- A `write` leaves the chains alone and adds one. -/
theorem KeptChains.written (hop : call.op = .write) (hw : CanWrite (call.start m.system) call.request i)
    (hnew : P call.request ((call.start m.system).writtenCells call.request)) :
    KeptChains P (m.after call 0 ((call.start m.system).written call.request i)) := by
  have hadd := (h.start call).addable hw hlive
  intro e he l' hl'
  rw [Machine.keptWrites_after_write hop] at he
  rcases List.mem_cons.mp he with rfl | he
  · have hfirst : firstWritten ((call.start m.system).written call.request i).accesses =
        clusterNum (freeCell (call.start m.system).fat 0) := System.firstWritten_written rfl
    rw [hfirst] at hl'
    rw [hl'.unique hadd.chain]
    exact hnew
  · obtain ⟨l, hl, -⟩ := h.chain _ (Machine.mem_catalog_of_kept he)
    have hsame : FatChain ((call.start m.system).writtenFat call.request) (firstWritten e.accesses) l :=
      hl.congr fun c hc =>
        (h.start call).writtenFat_of_inUse (.inr ⟨e.record, Machine.mem_catalog_of_kept he, l, hl, hc⟩)
    rw [hl'.unique hsame]
    exact hP e he l hl

/-- A `delete` leaves the other chains alone. -/
theorem KeptChains.deleted (hop : call.op = .delete) (hd : CanDelete (call.start m.system) call.request i l) :
    KeptChains P (m.after call 0 ((call.start m.system).deleted call.request i l)) := by
  obtain ⟨r, hr, hkey, -, hdesc⟩ := (h.start call).record_of_search hlive hd.search
  have hl : FatChain m.system.fat r.first l := hdesc.first ▸ hd.chain
  intro e he l' hl'
  rw [Machine.keptWrites_after_delete hop] at he
  obtain ⟨he, hne⟩ := List.mem_filter.mp he
  have hwithout : e.record ∈ without (catalog m.history) r.key :=
    mem_without.mpr ⟨Machine.mem_catalog_of_kept he, fun heq => of_decide_eq_true hne (heq.trans hkey)⟩
  obtain ⟨l₀, hl₀, -⟩ := h.chain _ (Machine.mem_catalog_of_kept he)
  have hsame : FatChain ((call.start m.system).deletedFat l) (firstWritten e.accesses) l₀ :=
    hl₀.congr fun c hc => (h.start call).deletedFat_of_inUse hr hl (.inr ⟨e.record, hwithout, l₀, hl₀, hc⟩)
  rw [hl'.unique hsame]
  exact hP e he l₀ hl₀

/-- **One call** keeps a property of chains that a `write` gives them. -/
theorem KeptChains.after (hnew : ∀ i, CanWrite (call.start m.system) call.request i →
    P call.request ((call.start m.system).writtenCells call.request)) (hexec : call.exec fuel m.system = .ok (code, s)) :
    KeptChains P (m.after call code s) := by
  cases Call.exec_outcome ((h.start call).chainsEnd fun _ => hlive) hexec with
  | kept hk hcode =>
    intro e he l hl
    rw [Machine.keptWrites_after_of_keep hcode] at he
    exact hP e he l (hk.fat ▸ hl)
  | written i hop hcode hw hs =>
    subst hs hcode
    exact hP.written h hlive hop hw (hnew i hw)
  | deleted i l hop hcode hd hs =>
    subst hs hcode
    exact hP.deleted h hlive hop hd

end Chains

/-- **Every run** keeps a property of chains that a `write` gives them. -/
theorem Machine.Reachable.keptChains {P : FAT32DriverRequest → List (Fin 512) → Prop} {m : Machine}
    (hnew : ∀ {s request i}, CanWrite s request i → P request (s.writtenCells request)) (hm : m.Reachable) :
    KeptChains P m := by
  obtain ⟨m₀, hfresh, hreach⟩ := hm
  have hboth : m.Sound ∧ KeptChains P m := by
    refine hreach.invariant (P := fun k => k.Sound ∧ KeptChains P k) ⟨hfresh.sound, ?_⟩ ?_
    · intro e he
      rw [hfresh.history] at he
      cases he
    · intro k call fuel code s hk ha hexec
      obtain ⟨hr, hl⟩ := hk.1.represents.after (fun _ => ha.1) ha.2 hexec
      exact ⟨⟨hr, hl hk.1.noLeak⟩, hk.2.after hk.1.represents ha.1 (fun _ => hnew) hexec⟩
  exact hboth.2

/-- A chain has the cells its request takes. -/
theorem Machine.Reachable.chain_length {m : Machine} (hm : m.Reachable) :
    KeptChains (fun request l => l.length = request.cells) m :=
  hm.keptChains fun hw => hw.length_writtenCells

/-! ## The cells of a run -/

/-- The free cells are those the history tells. -/
structure Machine.Accounted (m : Machine) : Prop where
  keys : ((keptWrites m.history).map Event.key).Nodup
  total : m.system.countAvailable + cellsTaken m.history = 509

section Step

variable {m : Machine} {call : Call} {s : System} {code : Int8} {fuel : Nat} {i : Fin 64} {l : List (Fin 512)}

theorem Machine.Accounted.written (hacc : m.Accounted)
    (h : Represents m.system.disk m.system.fat (catalog m.history)) (hop : call.op = .write)
    (hlive : Live (catalog m.history) call.request.parentClusterNumber)
    (hw : CanWrite (call.start m.system) call.request i) :
    (m.after call 0 ((call.start m.system).written call.request i)).Accounted := by
  have hadd := (h.start call).addable hw hlive
  constructor
  · rw [Machine.keptWrites_after_write hop, List.map_cons, List.nodup_cons]
    refine ⟨fun hmem => ?_, hacc.keys⟩
    obtain ⟨e, he, hkey⟩ := List.mem_map.mp hmem
    exact hadd.key e.record (Machine.mem_catalog_of_kept he) hkey
  · have htotal := hacc.total
    have hcells : ((call.start m.system).written call.request i).countAvailable + call.request.cells =
        m.system.countAvailable := hw.countAvailable_written
    rw [cellsTaken] at htotal
    rw [cellsTaken, Machine.keptWrites_after_write hop, List.map_cons, List.sum_cons]
    change ((call.start m.system).written call.request i).countAvailable + (call.request.cells + _) = _
    omega

theorem Machine.Accounted.deleted (hacc : m.Accounted) (hlength : KeptChains (fun request l => l.length = request.cells) m)
    (h : Represents m.system.disk m.system.fat (catalog m.history)) (hop : call.op = .delete)
    (hlive : Live (catalog m.history) call.request.parentClusterNumber)
    (hd : CanDelete (call.start m.system) call.request i l) :
    (m.after call 0 ((call.start m.system).deleted call.request i l)).Accounted := by
  obtain ⟨r, hr, hkey, -, hdesc⟩ := (h.start call).record_of_search hlive hd.search
  obtain ⟨e, he, rfl⟩ : ∃ e ∈ keptWrites m.history, e.record = r := List.mem_map.mp (catalog_eq_map _ ▸ hr)
  have hl : FatChain m.system.fat e.record.first l := hdesc.first ▸ hd.chain
  have hkey : e.key = call.request.key := hkey
  constructor
  · rw [Machine.keptWrites_after_delete hop]
    exact hacc.keys.sublist (List.filter_sublist.map _)
  · have h2 : ∀ c ∈ l, 2 ≤ c.val := fun c hc => (by decide : 2 ≤ 3).trans (h.three_le hr hl hc)
    have hclear : ((call.start m.system).deleted call.request i l).countAvailable =
        m.system.countAvailable + l.length :=
      length_freeCells_clear hl.nodup h2 fun c hc => hl.ne_emptyEntry h2 hc
    have hsum := sum_filter_ne hacc.keys he fun e => e.call.request.cells
    have hlen : l.length = e.call.request.cells := hlength e he l hl
    have htotal := hacc.total
    rw [cellsTaken] at htotal
    rw [cellsTaken, Machine.keptWrites_after_delete hop, ← hkey]
    change ((call.start m.system).deleted call.request i l).countAvailable + _ = _
    omega

/-- **One call**: what is free follows the history. -/
theorem Machine.Accounted.after (hacc : m.Accounted) (hlength : KeptChains (fun request l => l.length = request.cells) m)
    (h : Represents m.system.disk m.system.fat (catalog m.history)) (ha : Allowed m.history call)
    (hexec : call.exec fuel m.system = .ok (code, s)) : (m.after call code s).Accounted := by
  cases Call.exec_outcome ((h.start call).chainsEnd fun _ => ha.1) hexec with
  | kept hk hcode =>
    obtain ⟨hkeys, htotal⟩ := hacc
    have hfree : s.countAvailable = m.system.countAvailable := by
      rw [countAvailable_eq, countAvailable_eq, hk.fat]
      rfl
    refine ⟨?_, ?_⟩
    · rwa [Machine.keptWrites_after_of_keep hcode]
    · rw [cellsTaken, Machine.keptWrites_after_of_keep hcode]
      exact (congrArg (· + cellsTaken m.history) hfree).trans htotal
  | written i hop hcode hw hs =>
    subst hs hcode
    exact hacc.written h hop ha.1 hw
  | deleted i l hop hcode hd hs =>
    subst hs hcode
    exact hacc.deleted hlength h hop ha.1 hd

theorem Machine.Fresh.accounted (h : m.Fresh) : m.Accounted := by
  refine ⟨?_, ?_⟩
  · rw [h.history]
    exact List.nodup_nil
  · rw [h.history, h.countAvailable]
    rfl

/-- **Every run** leaves as many cells free as its history tells. -/
theorem Machine.Reachable.accounted (hm : m.Reachable) : m.Accounted := by
  obtain ⟨m₀, hfresh, hreach⟩ := hm
  have hboth : m.Reachable ∧ m.Accounted := by
    refine hreach.invariant (P := fun k => k.Reachable ∧ k.Accounted) ⟨⟨m₀, hfresh, .refl⟩, hfresh.accounted⟩ ?_
    intro k call fuel code s ⟨hk, hacc⟩ ha hexec
    have hstep := hacc.after hk.chain_length hk.sound.represents ha hexec
    obtain ⟨m₁, hfresh₁, hreach₁⟩ := hk
    exact ⟨⟨m₁, hfresh₁, hreach₁.tail (.call ha hexec)⟩, hstep⟩
  exact hboth.2

end Step

/-! ## The entries of a folder -/

/-- The records whose parent is the folder `c`. -/
def recordsIn (h : List Event) (c : UInt32) : List Record := (catalog h).filter fun r => r.parent = c

section Entries

variable {disk : Disk} {fat : Fin 512 → UInt32} {h : List Event} {c : UInt32}

/-- **A folder has an entry in use for every record it is the parent of.** -/
theorem Represents.length_occupied (hr : Represents disk fat (catalog h))
    (hkeys : ((keptWrites h).map Event.key).Nodup) (hlive : Live (catalog h) c) :
    (hits 2 fun i => ((tableAt disk c).table i).occupied).length = (recordsIn h c).length := by
  let entryKey (i : Fin 64) : Key := (c, ((tableAt disk c).table i).name, ((tableAt disk c).table i).ext)
  have hocc : ∀ {i}, i ∈ (hits 2 fun i => ((tableAt disk c).table i).occupied) ↔ (tableAt disk c).Occupied i := mem_hits
  have hentries : ((hits 2 fun i => ((tableAt disk c).table i).occupied).map entryKey).Nodup := by
    refine List.Nodup.map_on (fun i hi j hj he => ?_) (hits_nodup _ _)
    obtain ⟨-, he⟩ := Prod.mk.inj he
    obtain ⟨hname, hext⟩ := Prod.mk.inj he
    exact hr.slot c hlive i j (hocc.mp hi) (hocc.mp hj) hname hext
  rw [← map_key_catalog] at hkeys
  have hrecords : ((recordsIn h c).map Record.key).Nodup := hkeys.sublist (List.filter_sublist.map _)
  have hmem : ∀ k, k ∈ (hits 2 fun i => ((tableAt disk c).table i).occupied).map entryKey ↔
      k ∈ (recordsIn h c).map Record.key := by
    intro k
    rw [List.mem_map, List.mem_map]
    constructor
    · rintro ⟨i, hi, rfl⟩
      obtain ⟨r, hrec, hp, hd⟩ := hr.entry c hlive i (hocc.mp hi)
      refine ⟨r, List.mem_filter.mpr ⟨hrec, decide_eq_true hp⟩, ?_⟩
      rw [Record.key, hp, ← hd.name, ← hd.ext]
    · rintro ⟨r, hrec, rfl⟩
      obtain ⟨hrec, hp⟩ := List.mem_filter.mp hrec
      obtain ⟨-, i, hi, hd⟩ := hr.record r hrec
      obtain rfl := of_decide_eq_true hp
      exact ⟨i, hocc.mpr hi, by rw [Record.key, ← hd.name, ← hd.ext]⟩
  have hperm := (List.perm_ext_iff_of_nodup hentries hrecords).mpr hmem
  rw [← List.length_map entryKey, hperm.length_eq, List.length_map]

/-- There is no entry left once the folder holds 62 files and folders. -/
theorem Represents.emptyEntry_eq_none (hr : Represents disk fat (catalog h))
    (hkeys : ((keptWrites h).map Event.key).Nodup) (hlive : Live (catalog h) c) :
    (tableAt disk c).emptyEntry = none ↔ 62 ≤ (recordsIn h c).length := by
  rw [← hr.length_occupied hkeys hlive]
  exact firstFrom_not_eq_none

end Entries

end Os2024
