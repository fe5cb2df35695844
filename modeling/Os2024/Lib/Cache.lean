import Mathlib.Logic.Function.Basic
import Mathlib.Logic.Relation

/-!
# Caches behind the program's back

A table that a program writes to, and a cache of what the entries say. The cache is filled from the table and loses
what it has at any time, and the hardware may change what of an entry is its own; only the program invalidates.

What is cached of an index says what the entry has said at some time since the index was last invalidated, and the
entry is, but for what is the hardware's own, what the program alone makes of it: `Explains.run`. So nothing stale is
cached of an index that was invalidated after its last write: `Explains.cached_of_settled`.
-/

namespace Cache

variable {ι α γ β : Type*}

/-- A table, and what may be used for each index. -/
structure State (ι α β : Type*) where
  table : ι → α
  cached : ι → β → Prop

/-- What a program does to an entry. -/
inductive Op (ι α : Type*) where
  | write (i : ι) (f : α → α)
  | invalidate (i : ι)

/-- How the hardware reads an entry: `core` is what it leaves of an entry, and `view` is what it caches of that. -/
structure Reading (α γ β : Type*) where
  core : α → γ
  view : γ → Option β

/-- What an entry is, and what it was since it was last invalidated. -/
structure Trace (α : Type*) where
  current : α
  past : List α

/-- The entry was invalidated since it was last written. -/
def Trace.Settled (a : Trace α) : Prop := a.past = []

/-- What the entry is, and what it was. -/
def Trace.values (a : Trace α) : List α := a.current :: a.past

/-- A step of the hardware. -/
inductive Change (r : Reading α γ β) : State ι α β → State ι α β → Prop
  | fill {s : State ι α β} (i : ι) (b : β) (h : r.view (r.core (s.table i)) = some b) :
    Change r s { s with cached := fun j c => s.cached j c ∨ j = i ∧ c = b }
  | evict {s : State ι α β} (kept : ι → β → Prop) (h : ∀ j c, kept j c → s.cached j c) :
    Change r s { s with cached := kept }
  | mark {s : State ι α β} (table : ι → α) (h : ∀ j, r.core (table j) = r.core (s.table j)) :
    Change r s { s with table := table }

section Ops

variable [DecidableEq ι]

/-- A step of the program. -/
def Op.exec : Op ι α → State ι α β → State ι α β
  | write i f, s => { s with table := Function.update s.table i (f (s.table i)) }
  | invalidate i, s => { s with cached := fun j c => j ≠ i ∧ s.cached j c }

/-- What the program alone makes of the entries. -/
def Op.trace : Op ι α → (ι → Trace α) → ι → Trace α
  | write i f, a => Function.update a i ⟨f (a i).current, (a i).values⟩
  | invalidate i, a => Function.update a i ⟨(a i).current, []⟩

/-- The index of a step of the program. -/
def Op.index : Op ι α → ι
  | write i _ => i
  | invalidate i => i

/-- The program writes the same, whatever is the hardware's own. -/
def Op.Uniform (r : Reading α γ β) : Op ι α → Prop
  | write _ f => ∀ x y, r.core x = r.core y → r.core (f x) = r.core (f y)
  | invalidate _ => True

/-- A run of a program, with the hardware at work between any two steps. -/
inductive Run (r : Reading α γ β) : List (Op ι α) → State ι α β → State ι α β → Prop
  | nil {s t : State ι α β} (h : Relation.ReflTransGen (Change r) s t) : Run r [] s t
  | cons {s s' t : State ι α β} {op : Op ι α} {ops : List (Op ι α)} (h : Relation.ReflTransGen (Change r) s s')
      (hrun : Run r ops (op.exec s') t) : Run r (op :: ops) s t

end Ops

/-- The state is what the program alone makes of it, and only what has been there is cached. -/
structure Explains (r : Reading α γ β) (a : ι → Trace α) (s : State ι α β) : Prop where
  table : ∀ i, r.core (s.table i) = r.core (a i).current
  cached : ∀ i b, s.cached i b → ∃ x ∈ (a i).values, r.view (r.core x) = some b

section Runs

variable {r : Reading α γ β} {a : ι → Trace α} {s t : State ι α β} {op : Op ι α} {ops : List (Op ι α)} {i : ι} {b : β}

theorem Explains.change (h : Explains r a s) (hc : Change r s t) : Explains r a t := by
  cases hc with
  | fill i b hview =>
    refine ⟨h.table, fun j c hcached => ?_⟩
    rcases hcached with hold | ⟨rfl, rfl⟩
    · exact h.cached j c hold
    · exact ⟨(a j).current, List.mem_cons_self, h.table j ▸ hview⟩
  | evict kept hkept => exact ⟨h.table, fun j c hcached => h.cached j c (hkept j c hcached)⟩
  | mark table hcore => exact ⟨fun j => (hcore j).trans (h.table j), h.cached⟩

theorem Explains.changes (h : Explains r a s) (hc : Relation.ReflTransGen (Change r) s t) : Explains r a t := by
  induction hc with
  | refl => exact h
  | tail _ hstep ih => exact ih.change hstep

/-- Nothing stale is cached of an index that was invalidated after its last write. -/
theorem Explains.cached_of_settled (h : Explains r a s) (hsettled : (a i).Settled) (hcached : s.cached i b) :
    r.view (r.core (s.table i)) = some b := by
  obtain ⟨x, hx, hview⟩ := h.cached i b hcached
  rw [Trace.values, hsettled, List.mem_singleton] at hx
  rw [h.table, ← hx, hview]

variable [DecidableEq ι]

theorem Explains.exec (h : Explains r a s) (hop : op.Uniform r) : Explains r (op.trace a) (op.exec s) := by
  cases op with
  | write i f =>
    refine ⟨fun j => ?_, fun j c hcached => ?_⟩
    · by_cases hj : j = i
      · subst hj
        have hwritten : ((Op.write j f).exec s).table j = f (s.table j) := Function.update_self ..
        rw [hwritten, Op.trace, Function.update_self]
        exact hop _ _ (h.table j)
      · have hkept : ((Op.write i f).exec s).table j = s.table j := Function.update_of_ne hj ..
        rw [hkept, Op.trace, Function.update_of_ne hj]
        exact h.table j
    · obtain ⟨x, hx, hview⟩ := h.cached j c hcached
      refine ⟨x, ?_, hview⟩
      by_cases hj : j = i
      · subst hj
        rw [Op.trace, Function.update_self]
        exact List.mem_cons_of_mem _ hx
      · rwa [Op.trace, Function.update_of_ne hj]
  | invalidate i =>
    refine ⟨fun j => ?_, fun j c hcached => ?_⟩
    · by_cases hj : j = i
      · subst hj
        rw [Op.trace, Function.update_self]
        exact h.table j
      · rw [Op.trace, Function.update_of_ne hj]
        exact h.table j
    · rw [Op.trace, Function.update_of_ne hcached.1]
      exact h.cached j c hcached.2

/-- The program leaves other entries. -/
theorem foldl_trace_of_ne (h : ∀ op ∈ ops, i ≠ op.index) :
    ops.foldl (fun a op => op.trace a) a i = a i := by
  induction ops generalizing a with
  | nil => rfl
  | cons op ops ih =>
    have hne := h op List.mem_cons_self
    rw [List.foldl_cons, ih fun op hop => h op (List.mem_cons_of_mem _ hop)]
    cases op <;> exact Function.update_of_ne hne ..

/-- **What a run leaves.** -/
theorem Explains.run (h : Explains r a s) (hops : ∀ op ∈ ops, op.Uniform r) (hrun : Run r ops s t) :
    Explains r (ops.foldl (fun a op => op.trace a) a) t := by
  induction hrun generalizing a with
  | nil hc => exact h.changes hc
  | cons hc _ ih =>
    exact ih ((h.changes hc).exec (hops _ List.mem_cons_self)) fun op hop => hops op (List.mem_cons_of_mem _ hop)

/-- The program alone. -/
theorem Run.foldl (r : Reading α γ β) (ops : List (Op ι α)) (s : State ι α β) :
    Run r ops s (ops.foldl (fun s op => op.exec s) s) := by
  induction ops generalizing s with
  | nil => exact .nil .refl
  | cons op ops ih => exact .cons .refl (ih (op.exec s))

theorem Run.tail (hrun : Run r ops s t) {u : State ι α β} (hc : Change r t u) : Run r ops s u := by
  induction hrun with
  | nil h => exact .nil (h.tail hc)
  | cons h _ ih => exact .cons h (ih hc)

/-- What the program makes an entry say can be cached. -/
theorem exists_cached (h : r.view (r.core ((ops.foldl (fun s op => op.exec s) s).table i)) = some b) :
    ∃ t, Run r ops s t ∧ t.cached i b :=
  ⟨_, (Run.foldl r ops s).tail (.fill i b h), .inr ⟨rfl, rfl⟩⟩

end Runs

end Cache
