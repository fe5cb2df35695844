import Mathlib.Data.List.Basic
import Mathlib.Data.List.Infix
import Mathlib.Logic.Function.Basic

/-!
# Chains in a table of links

A table `next : ι → κ` holds one link value for each cell. `code a` is the value that points to the cell `a`, `stop`
the value that ends a chain; every other value points nowhere. `Chain next v l` says that following the table from the
value `v` visits exactly the cells `l` and ends at `stop`.

* A chain is determined by its start (`Chain.unique`), visits no cell twice (`Chain.nodup`), and depends only on its
  own cells (`Chain.congr`).
* `link` threads a list of cells onto a table; `clear` writes one value into all of them, and so takes the thread off
  again (`clear_link`).
-/

namespace LinkTable

variable {ι κ : Type*}

/-- Following `next` from the value `v` visits the cells `l`, in order, and ends at `stop`. -/
inductive Chain (code : ι → κ) (stop : κ) (next : ι → κ) : κ → List ι → Prop
  | nil : Chain code stop next stop []
  | cons {a : ι} {l : List ι} : Chain code stop next (next a) l → Chain code stop next (code a) (a :: l)

/-! ## Chains of one table -/

section Chains

variable {code : ι → κ} {stop : κ} {next next' : ι → κ} {v w : κ} {a b : ι} {l l' : List ι}

theorem Chain.start_nil (h : Chain code stop next v []) : v = stop := by
  cases h; rfl

theorem Chain.start_cons (h : Chain code stop next v (a :: l)) : v = code a := by
  cases h; rfl

theorem Chain.tail (h : Chain code stop next v (a :: l)) : Chain code stop next (next a) l := by
  cases h; assumption

theorem Chain.ne_nil (h : Chain code stop next v l) (hv : v ≠ stop) : l ≠ [] := by
  cases h with
  | nil => exact absurd rfl hv
  | cons _ => simp

/-- A chain depends only on the cells it visits. -/
theorem Chain.congr (h : Chain code stop next v l) (hn : ∀ c ∈ l, next' c = next c) : Chain code stop next' v l := by
  induction h with
  | nil => exact .nil
  | @cons a l _ ih =>
    refine .cons ?_
    rw [hn a List.mem_cons_self]
    exact ih fun c hc => hn c (List.mem_cons_of_mem _ hc)

/-- Following the table from a cell of a chain gives the rest of the chain. -/
theorem Chain.suffix_of_mem (h : Chain code stop next v l) (hb : b ∈ l) :
    ∃ l', l' <:+ l ∧ Chain code stop next (code b) l' := by
  induction h with
  | nil => exact absurd hb List.not_mem_nil
  | @cons a l ht ih =>
    rcases List.mem_cons.mp hb with rfl | hb
    · exact ⟨_, List.suffix_refl _, .cons ht⟩
    · obtain ⟨l', hs, hc⟩ := ih hb
      exact ⟨l', hs.trans (List.suffix_cons a l), hc⟩

/-- The last cell of a chain holds the end mark. -/
theorem Chain.next_getLast (h : Chain code stop next v l) (hl : l ≠ []) : next (l.getLast hl) = stop := by
  induction h with
  | nil => exact absurd rfl hl
  | @cons a l ht ih =>
    cases l with
    | nil => simpa using ht.start_nil
    | cons b l => simpa using ih (List.cons_ne_nil b l)

/-- A cell of a chain holds the end mark or points to a cell of the chain. -/
theorem Chain.next_mem (h : Chain code stop next v l) (ha : a ∈ l) :
    next a = stop ∨ ∃ b ∈ l, next a = code b := by
  induction h with
  | nil => exact absurd ha List.not_mem_nil
  | @cons c l ht ih =>
    rcases List.mem_cons.mp ha with rfl | ha
    · cases l with
      | nil => exact .inl ht.start_nil
      | cons b l => exact .inr ⟨b, by simp, ht.start_cons⟩
    · exact (ih ha).imp_right fun ⟨b, hb, e⟩ => ⟨b, List.mem_cons_of_mem _ hb, e⟩

/-! From here on a value points to at most one cell, and `stop` to none. -/

variable (hcode : Function.Injective code) (hstop : ∀ a, code a ≠ stop)
include hcode hstop

/-- A chain is determined by its start. -/
theorem Chain.unique (h : Chain code stop next v l) (h' : Chain code stop next v l') : l = l' := by
  induction h generalizing l' with
  | nil =>
    generalize hv : stop = v at h'
    cases h' with
    | nil => rfl
    | cons _ => exact absurd hv.symm (hstop _)
  | @cons a l ht ih =>
    generalize hv : code a = v at h'
    cases h' with
    | nil => exact absurd hv (hstop a)
    | @cons b m ht' =>
      obtain rfl := hcode hv
      rw [ih ht']

/-- A cell holding the end mark can only be the last one. -/
theorem Chain.eq_getLast (h : Chain code stop next v l) (ha : a ∈ l) (hn : next a = stop) (hl : l ≠ []) :
    a = l.getLast hl := by
  obtain ⟨m, hs, hc⟩ := h.suffix_of_mem ha
  have hm : m = [a] := Chain.unique hcode hstop hc (.cons (hn ▸ .nil))
  subst hm
  exact (hs.getLast (List.cons_ne_nil _ _)).symm ▸ rfl

/-- A chain visits no cell twice. -/
theorem Chain.nodup (h : Chain code stop next v l) : l.Nodup := by
  induction h with
  | nil => exact List.nodup_nil
  | @cons a l ht ih =>
    refine List.nodup_cons.mpr ⟨fun ha => ?_, ih⟩
    obtain ⟨m, hs, hc⟩ := ht.suffix_of_mem ha
    have hm := Chain.unique hcode hstop hc (.cons ht)
    have hlen := hs.length_le
    rw [hm, List.length_cons] at hlen
    omega

end Chains

/-! ## Threading cells onto a table -/

section Link

variable [DecidableEq ι] (code : ι → κ) (next : ι → κ)

/-- The value that points to the first cell of `l`; `last` if there is none. -/
def start (last : κ) : List ι → κ
  | [] => last
  | a :: _ => code a

/-- Each cell of `l` points to the one after it, the last one holds `last`. -/
def link (last : κ) : List ι → ι → κ
  | [] => next
  | a :: l => Function.update (link last l) a (start code last l)

variable {code next}
variable {last v : κ} {a b c : ι} {l : List ι}

theorem link_of_notMem (h : c ∉ l) : link code next last l c = next c := by
  induction l with
  | nil => rfl
  | cons a l ih =>
    rw [List.mem_cons, not_or] at h
    rw [link, Function.update_of_ne h.1, ih h.2]

theorem link_of_mem (h : c ∈ l) : link code next last l c = last ∨ ∃ b ∈ l, link code next last l c = code b := by
  induction l with
  | nil => exact absurd h List.not_mem_nil
  | cons a l ih =>
    by_cases hc : c = a
    · subst hc
      cases l with
      | nil => exact .inl (by simp [link, start])
      | cons b l => exact .inr ⟨b, by simp, by simp [link, start]⟩
    · have hl : c ∈ l := (List.mem_cons.mp h).resolve_left hc
      rw [link, Function.update_of_ne hc]
      exact (ih hl).imp_right fun ⟨b, hb, e⟩ => ⟨b, List.mem_cons_of_mem _ hb, e⟩

/-- Threaded cells form a chain. -/
theorem chain_link {stop : κ} (hl : l.Nodup) : Chain code stop (link code next stop l) (start code stop l) l := by
  induction l with
  | nil => exact .nil
  | cons a l ih =>
    obtain ⟨ha, hl⟩ := List.nodup_cons.mp hl
    refine .cons ?_
    rw [link, Function.update_self]
    exact (ih hl).congr fun c hc => Function.update_of_ne (ne_of_mem_of_not_mem hc ha) _ _

/-- Writing the last cell changes what the thread ends with. -/
theorem update_link_concat (h : (l ++ [a]).Nodup) :
    Function.update (link code next last (l ++ [a])) a v = link code next v (l ++ [a]) := by
  induction l with
  | nil => simp [link, start]
  | cons b l ih =>
    obtain ⟨hb, hl⟩ := List.nodup_cons.mp h
    have hba : b ≠ a := fun e => hb (by simp [e])
    have hs : start code last (l ++ [a]) = start code v (l ++ [a]) := by cases l <;> rfl
    rw [List.cons_append, link, link, Function.update_comm hba, ih hl, hs]

theorem link_concat_self (h : (l ++ [a]).Nodup) : link code next last (l ++ [a]) a = last := by
  have hself : Function.update (link code next last (l ++ [a])) a last = link code next last (l ++ [a]) :=
    update_link_concat h
  rw [← hself, Function.update_self]

/-- Threading one more cell that is not itself written yet is writing its code into the last one. -/
theorem link_concat_concat (hc : c ∉ l ++ [a]) :
    link code next (next c) (l ++ [a] ++ [c]) = link code next (code c) (l ++ [a]) := by
  induction l with
  | nil =>
    simp [link, start]
  | cons b l ih =>
    have hl : c ∉ l ++ [a] := fun h => hc (List.mem_cons_of_mem _ h)
    have hs : start code (next c) (l ++ [a] ++ [c]) = start code (code c) (l ++ [a]) := by cases l <;> rfl
    rw [List.cons_append, List.cons_append, link, link, ih hl, hs]

end Link

/-! ## Clearing cells -/

section Clear

variable [DecidableEq ι] {code : ι → κ} {stop v : κ} {next : ι → κ} {a : ι} {l : List ι}

/-- The table with `empty` in every cell of `l`. -/
def clear (empty : κ) (next : ι → κ) (l : List ι) : ι → κ := fun c => if c ∈ l then empty else next c

variable {empty : κ}

theorem clear_of_mem (h : a ∈ l) : clear empty next l a = empty := if_pos h

theorem clear_of_notMem (h : a ∉ l) : clear empty next l a = next a := if_neg h

@[simp] theorem clear_nil : clear empty next [] = next := by
  funext c; simp [clear]

theorem clear_update : clear empty (Function.update next a empty) l = clear empty next (a :: l) := by
  funext c
  by_cases hl : c ∈ l
  · simp [clear, hl]
  · by_cases hc : c = a <;> simp [clear, hl, hc, Function.update_of_ne]

theorem update_clear_dropLast (hl : l ≠ []) :
    Function.update (clear empty next l.dropLast) (l.getLast hl) empty = clear empty next l := by
  funext c
  have hmem : c ∈ l ↔ c ∈ l.dropLast ∨ c = l.getLast hl := by
    conv_lhs => rw [← List.dropLast_append_getLast hl]
    simp
  by_cases hc : c = l.getLast hl
  · rw [hc, Function.update_self, clear_of_mem (List.getLast_mem hl)]
  · rw [Function.update_of_ne hc]
    simp [clear, hmem, hc]

/-- Clearing the cells of a thread gives the table back, if they were empty before. -/
theorem clear_link {last : κ} (h : ∀ c ∈ l, next c = empty) : clear empty (link code next last l) l = next := by
  funext c
  by_cases hc : c ∈ l
  · rw [clear_of_mem hc, h c hc]
  · rw [clear_of_notMem hc, link_of_notMem hc]

end Clear

end LinkTable
