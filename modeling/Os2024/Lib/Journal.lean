import Mathlib.Algebra.BigOperators.Group.List.Basic
import Mathlib.Algebra.Order.Ring.Nat
import Mathlib.Data.List.Basic

/-!
# The records a journal leaves

A journal is a list of events, newest first. An event may insert a record or remove the records of a key; what is left
after the last event is `records`. A record is left if and only if some event has inserted it and none since has removed
its key (`mem_records`). The records may be mapped as they are
inserted or at the end (`records_map`).
-/

namespace Journal

variable {Event Record Key : Type*}

/-- What one event does to the records. -/
inductive Effect (Record Key : Type*)
  | keep
  | insert (r : Record)
  | remove (k : Key)

variable [DecidableEq Key] (key : Record → Key)

/-- The records after an event. -/
def Effect.apply : Effect Record Key → List Record → List Record
  | keep, rs => rs
  | insert r, rs => r :: rs
  | remove k, rs => rs.filter fun r => key r ≠ k

variable (effect : Event → Effect Record Key)

/-- The records after the events of a journal. -/
def records : List Event → List Record
  | [] => []
  | e :: h => (effect e).apply key (records h)

variable {key effect} {r : Record} {rs : List Record}

theorem Effect.mem_apply {x : Effect Record Key} :
    r ∈ x.apply key rs ↔ x = .insert r ∨ (r ∈ rs ∧ x ≠ .remove (key r)) := by
  cases x with
  | keep => simp [apply]
  | insert r' => simp [apply, eq_comm (a := r)]
  | remove k => simp [apply, eq_comm (a := k)]

/-- A record is left if it was inserted and its key not removed since. -/
theorem mem_records {h : List Event} : r ∈ records key effect h ↔
    ∃ later e earlier, h = later ++ e :: earlier ∧ effect e = .insert r ∧
      ∀ e' ∈ later, effect e' ≠ .remove (key r) := by
  induction h with
  | nil => simp [records]
  | cons e h ih =>
    rw [records, Effect.mem_apply, ih]
    constructor
    · rintro (he | ⟨⟨later, e', earlier, rfl, he', hl⟩, hne⟩)
      · exact ⟨[], e, h, rfl, he, by simp⟩
      · exact ⟨e :: later, e', earlier, rfl, he', by simpa using ⟨hne, hl⟩⟩
    · rintro ⟨later, e', earlier, heq, he', hl⟩
      cases later with
      | nil =>
        obtain ⟨rfl, rfl⟩ := List.cons.inj heq
        exact .inl he'
      | cons e₀ later =>
        obtain ⟨rfl, rfl⟩ := List.cons.inj heq
        exact .inr ⟨⟨later, e', earlier, rfl, he', fun x hx => hl x (List.mem_cons_of_mem _ hx)⟩,
          hl e List.mem_cons_self⟩

section Maps

variable {Event Record Record' Key : Type*} [DecidableEq Key] {key : Record → Key} {key' : Record' → Key}
  {effect : Event → Effect Record Key} {effect' : Event → Effect Record' Key} {rs : List Record} {r : Record}

/-- An effect on the images of records. -/
def Effect.map (f : Record → Record') : Effect Record Key → Effect Record' Key
  | .keep => .keep
  | .insert r => .insert (f r)
  | .remove k => .remove k

/-- A map that keeps the keys may be applied to what is left. -/
theorem records_map {f : Record → Record'} (hkey : ∀ r, key' (f r) = key r) (heffect : ∀ e, effect' e = (effect e).map f)
    (journal : List Event) : records key' effect' journal = (records key effect journal).map f := by
  induction journal with
  | nil => rfl
  | cons e journal ih =>
    rw [records, records, heffect, ih]
    cases effect e with
    | keep => rfl
    | insert r => rfl
    | remove k =>
      rw [Effect.map, Effect.apply, Effect.apply, List.filter_map]
      refine congrArg (List.map f) (List.filter_congr fun r _ => ?_)
      rw [Function.comp_apply, hkey]

/-- What a removed record leaves of a sum. -/
theorem sum_filter_ne (hnodup : (rs.map key).Nodup) (hr : r ∈ rs) (size : Record → Nat) :
    ((rs.filter fun x => key x ≠ key r).map size).sum + size r = (rs.map size).sum := by
  induction rs with
  | nil => cases hr
  | cons x rs ih =>
    rw [List.map_cons, List.nodup_cons] at hnodup
    rcases List.mem_cons.mp hr with rfl | hr
    · have hrest : rs.filter (fun x => key x ≠ key r) = rs := List.filter_eq_self.mpr fun y hy =>
        decide_eq_true fun he => hnodup.1 (List.mem_map.mpr ⟨y, hy, he⟩)
      rw [List.filter_cons_of_neg (by simp), hrest, List.map_cons, List.sum_cons, Nat.add_comm]
    · have hx : key x ≠ key r := fun he => hnodup.1 (List.mem_map.mpr ⟨r, hr, he.symm⟩)
      rw [List.filter_cons_of_pos (by simpa using hx), List.map_cons, List.map_cons, List.sum_cons, List.sum_cons,
        Nat.add_assoc, ih hnodup.2 hr]

end Maps

end Journal
