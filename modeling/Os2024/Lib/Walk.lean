import Mathlib.Data.Fintype.Card
import Os2024.Lib.Chain

/-!
# Where a walk leads

Following a table of links over finitely many cells from any value, three things can happen: the walk `Ends` at `stop`,
it `Exits` through another value that points to no cell, or it `Cycles`. These are all (`walk_cases`), and a cycle
excludes the other two (`Cycles.not_ends`, `Cycles.not_exits`).

A walk that empties the cells behind it reads the empty value once it has come round. Where that value points to a cell
the walk goes on from there, and `ends_clear_iff` and `exits_clear_iff` say that the emptied cells make no difference to
where it leads.
-/

namespace LinkTable

variable {ι κ : Type*}

/-- The value points to no cell. -/
def Outside (code : ι → κ) (w : κ) : Prop := ∀ a, code a ≠ w

/-- Following the table from `v` comes to `stop`, after one cell at least. -/
def Ends (code : ι → κ) (stop : κ) (next : ι → κ) (v : κ) : Prop := ∃ l, l ≠ [] ∧ Chain code stop next v l

/-- Following the table from `v` leaves it, other than through `stop` in a cell. -/
def Exits (code : ι → κ) (stop : κ) (next : ι → κ) (v : κ) : Prop :=
  ∃ w l, Outside code w ∧ Chain code w next v l ∧ (w = stop → l = [])

/-- Following the table from `v` comes back to a cell it has visited. -/
def Cycles (code : ι → κ) (next : ι → κ) (v : κ) : Prop := ∃ l b, l.Nodup ∧ b ∈ l ∧ Chain code (code b) next v l

variable {code : ι → κ} {stop : κ} {next : ι → κ} {v w w' : κ} {a b : ι} {l l' : List ι}

/-! ## The three cases -/

theorem Chain.snoc (h : Chain code (code b) next v l) : Chain code (next b) next v (l ++ [b]) := by
  generalize hw : code b = w at h
  induction h with
  | nil => exact hw ▸ .cons .nil
  | cons _ ih => exact .cons ih

theorem Exits.outside (hv : Outside code v) : Exits code stop next v := ⟨v, [], hv, .nil, fun _ => rfl⟩

section Finite

variable [Fintype ι]

/-- A walk without repetition stops within the number of cells. -/
theorem exists_walk (code : ι → κ) (next : ι → κ) (v : κ) :
    ∃ l w, l.Nodup ∧ Chain code w next v l ∧ (Outside code w ∨ ∃ b ∈ l, w = code b) := by
  have hlong : ∀ n, (∃ l w, l.Nodup ∧ Chain code w next v l ∧ (Outside code w ∨ ∃ b ∈ l, w = code b)) ∨
      ∃ l w, l.length = n ∧ l.Nodup ∧ Chain code w next v l := by
    intro n
    induction n with
    | zero => exact .inr ⟨[], v, rfl, List.nodup_nil, .nil⟩
    | succ n ih =>
      rcases ih with h | ⟨l, w, hlen, hl, hc⟩
      · exact .inl h
      · by_cases hout : Outside code w
        · exact .inl ⟨l, w, hl, hc, .inl hout⟩
        · obtain ⟨b, rfl⟩ : ∃ b, code b = w := by simpa [Outside] using hout
          by_cases hb : b ∈ l
          · exact .inl ⟨l, code b, hl, hc, .inr ⟨b, hb, rfl⟩⟩
          · refine .inr ⟨l ++ [b], next b, by simp [hlen], ?_, hc.snoc⟩
            exact List.nodup_append.mpr ⟨hl, List.nodup_singleton b, fun x hx y hy => by
              rw [List.mem_singleton.mp hy]
              exact ne_of_mem_of_not_mem hx hb⟩
  rcases hlong (Fintype.card ι + 1) with h | ⟨l, w, hlen, hl, -⟩
  · exact h
  · have := hl.length_le_card
    omega

/-- A walk ends, leaves the table, or goes round. -/
theorem walk_cases (code : ι → κ) (stop : κ) (next : ι → κ) (v : κ) :
    Ends code stop next v ∨ Exits code stop next v ∨ Cycles code next v := by
  obtain ⟨l, w, hl, hc, hw | ⟨b, hb, rfl⟩⟩ := exists_walk code next v
  · by_cases hend : w = stop ∧ l ≠ []
    · exact .inl ⟨l, hend.2, hend.1 ▸ hc⟩
    · exact .inr (.inl ⟨w, l, hw, hc, fun he => by_contra fun hne => hend ⟨he, hne⟩⟩)
  · exact .inr (.inr ⟨l, b, hl, hb, hc⟩)

end Finite

/-! ## Cells that lead to each other only -/

/-- The cells of a cycle lead to each other only. -/
theorem Chain.closed_of_cycle (hb : b ∈ l) (h : Chain code (code b) next v l) (ha : a ∈ l) :
    ∃ c ∈ l, next a = code c := by
  rcases h.next_mem ha with he | ⟨c, hc, he⟩
  · exact ⟨b, hb, he⟩
  · exact ⟨c, hc, he⟩

theorem Cycles.closed (h : Cycles code next v) :
    ∃ l : List ι, (∃ a ∈ l, v = code a) ∧ ∀ a ∈ l, ∃ c ∈ l, next a = code c := by
  obtain ⟨l, b, -, hb, hc⟩ := h
  obtain ⟨a, l, rfl⟩ := List.exists_cons_of_ne_nil (List.ne_nil_of_mem hb)
  exact ⟨a :: l, ⟨a, List.mem_cons_self, hc.start_cons⟩, fun x hx => hc.closed_of_cycle hb hx⟩

section Closed

variable (hcode : Function.Injective code)
include hcode

theorem Chain.not_of_closed (hclosed : ∀ a ∈ l, ∃ b ∈ l, next a = code b) (hw : Outside code w)
    (h : Chain code w next v l') : ∀ a ∈ l, v ≠ code a := by
  induction h with
  | nil => exact fun a _ he => hw a he.symm
  | @cons c m _ ih =>
    intro a ha he
    obtain rfl := hcode he
    obtain ⟨b, hb, hn⟩ := hclosed c ha
    exact ih b hb hn

theorem Cycles.not_chain (h : Cycles code next v) (hw : Outside code w) : ¬ Chain code w next v l := by
  obtain ⟨m, ⟨a, ha, hv⟩, hclosed⟩ := h.closed
  exact fun hl => Chain.not_of_closed hcode hclosed hw hl a ha hv

theorem Cycles.not_ends (h : Cycles code next v) (hstop : Outside code stop) : ¬ Ends code stop next v :=
  fun ⟨_, _, hl⟩ => h.not_chain hcode hstop hl

theorem Cycles.not_exits (h : Cycles code next v) : ¬ Exits code stop next v :=
  fun ⟨_, _, hw, hl, _⟩ => h.not_chain hcode hw hl

end Closed

/-! ## Emptying cells behind a walk -/

section Clear

variable [DecidableEq ι] {z : ι} {empty : κ}

/-- A chain does not pass emptied cells when they lead back to its start. -/
theorem Chain.of_clear (hcode : Function.Injective code) (hw : Outside code w)
    (h : Chain code w (clear (code z) next l) (code z) l') : Chain code w next (code z) l' := by
  refine h.congr fun a ha => (clear_of_notMem fun hal => ?_).symm
  -- after an emptied cell the chain would start again
  obtain ⟨m, hs, hm⟩ := h.suffix_of_mem ha
  obtain ⟨b, m, rfl⟩ := List.exists_cons_of_ne_nil (hm.ne_nil (hw a))
  obtain rfl := hcode hm.start_cons
  have ht := hm.tail
  rw [clear_of_mem hal] at ht
  have hlen := hs.length_le
  rw [Chain.unique hcode hw ht h, List.length_cons] at hlen
  omega

/-- Emptying cells that lead to each other only does not disturb a chain. -/
theorem Chain.clear_of_closed (hcode : Function.Injective code) (hw : Outside code w)
    (hclosed : ∀ a ∈ l, ∃ b ∈ l, next a = code b) (h : Chain code w next v l') :
    Chain code w (clear empty next l) v l' := by
  refine h.congr fun c hc => clear_of_notMem fun hcl => ?_
  obtain ⟨m, -, hm⟩ := h.suffix_of_mem hc
  exact Chain.not_of_closed hcode hclosed hw hm c hcl rfl

theorem ends_clear_iff (hcode : Function.Injective code) (hstop : Outside code stop)
    (hclosed : ∀ a ∈ l, ∃ b ∈ l, next a = code b) :
    Ends code stop (clear (code z) next l) (code z) ↔ Ends code stop next (code z) := by
  constructor
  · exact fun ⟨m, hne, hm⟩ => ⟨m, hne, hm.of_clear hcode hstop⟩
  · exact fun ⟨m, hne, hm⟩ => ⟨m, hne, hm.clear_of_closed hcode hstop hclosed⟩

theorem exits_clear_iff (hcode : Function.Injective code) (hclosed : ∀ a ∈ l, ∃ b ∈ l, next a = code b) :
    Exits code stop (clear (code z) next l) (code z) ↔ Exits code stop next (code z) := by
  constructor
  · exact fun ⟨w, m, hw, hm, hwm⟩ => ⟨w, m, hw, hm.of_clear hcode hw, hwm⟩
  · exact fun ⟨w, m, hw, hm, hwm⟩ => ⟨w, m, hw, hm.clear_of_closed hcode hw hclosed, hwm⟩

/-- A walk that goes round goes round after the cells have been emptied, though not the same way. -/
theorem Cycles.clear [Fintype ι] (hcode : Function.Injective code) (hstop : Outside code stop)
    (hclosed : ∀ a ∈ l, ∃ b ∈ l, next a = code b) (h : Cycles code next (code z)) :
    Cycles code (clear (code z) next l) (code z) := by
  rcases walk_cases code stop (LinkTable.clear (code z) next l) (code z) with hends | hexits | hcycles
  · exact absurd ((ends_clear_iff hcode hstop hclosed).mp hends) (h.not_ends hcode hstop)
  · exact absurd ((exits_clear_iff hcode hclosed).mp hexits) (h.not_exits hcode)
  · exact hcycles

end Clear

end LinkTable
