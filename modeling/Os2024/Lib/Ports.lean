import Mathlib.Logic.Relation

/-!
# Programs that access ports

A program reads and writes ports and returns (`Program`); a bus says what the accesses do to the state of the devices
(`Bus`). Between two accesses the devices may change of their own accord. If a part of their state is kept by such
changes, and the accesses of a program see and change that part only as a smaller bus does, then the program returns
what it returns on the smaller bus without any interference (`Projects.returns`).
-/

namespace Ports

variable {P V α β σ τ : Type*}

/-- A program that reads and writes ports `P` with values `V`, and returns an `α`. -/
inductive Program (P V : Type*) (α : Type*) where
  | done (a : α)
  | read (port : P) (next : V → Program P V α)
  | write (port : P) (value : V) (next : Program P V α)

namespace Program

/-- One program after the other. -/
def andThen : Program P V α → (α → Program P V β) → Program P V β
  | done a, f => f a
  | read port next, f => read port fun v => (next v).andThen f
  | write port value next, f => write port value (next.andThen f)

/-- A single write. -/
def out (port : P) (value : V) : Program P V Unit := write port value (done ())

/-- Writes, one after the other. -/
def outs : List (P × V) → Program P V Unit
  | [] => done ()
  | (port, value) :: l => write port value (outs l)

/-- All accesses of the program are to the ports `A`. -/
def Uses (A : P → Prop) : Program P V α → Prop
  | done _ => True
  | read port next => A port ∧ ∀ v, (next v).Uses A
  | write port _ next => A port ∧ next.Uses A

theorem uses_of_forall {A : P → Prop} (h : ∀ port, A port) (p : Program P V α) : p.Uses A := by
  induction p with
  | done a => trivial
  | read port next ih => exact ⟨h port, ih⟩
  | write port value next ih => exact ⟨h port, ih⟩

theorem uses_outs {A : P → Prop} [DecidablePred A] {l : List (P × V)} (h : l.all (fun a => decide (A a.1)) = true) :
    (outs l).Uses A := by
  induction l with
  | nil => trivial
  | cons a l ih =>
    obtain ⟨ha, hl⟩ := Bool.and_eq_true_iff.mp h
    exact ⟨of_decide_eq_true ha, ih hl⟩

end Program

/-- What accesses do. -/
structure Bus (P V σ : Type*) where
  read : P → σ → V × σ
  write : P → V → σ → σ

namespace Bus

/-- The first access of a program, if there is one. -/
def access (bus : Bus P V σ) : Program P V α → σ → Option (Program P V α × σ)
  | .done _, _ => none
  | .read port next, s => some (next (bus.read port s).1, (bus.read port s).2)
  | .write port value next, s => some (next, bus.write port value s)

/-- The whole program, without interference. -/
def run (bus : Bus P V σ) : Program P V α → σ → α × σ
  | .done a, s => (a, s)
  | .read port next, s => bus.run (next (bus.read port s).1) (bus.read port s).2
  | .write port value next, s => bus.run next (bus.write port value s)

variable {bus : Bus P V σ} {p q : Program P V α} {s t : σ}

theorem run_access (h : bus.access p s = some (q, t)) : bus.run q t = bus.run p s := by
  cases p <;> cases h <;> rfl

/-- What accesses to the ports `A` keep is kept by a program that has no others. -/
theorem run_keeps {A : P → Prop} {part : σ → τ} (hread : ∀ port s, A port → part (bus.read port s).2 = part s)
    (hwrite : ∀ port value s, A port → part (bus.write port value s) = part s) (hp : p.Uses A) :
    part (bus.run p s).2 = part s := by
  induction p generalizing s with
  | done a => rfl
  | read port next ih => exact (ih _ (hp.2 _)).trans (hread port s hp.1)
  | write port value next ih => exact (ih hp.2).trans (hwrite port value s hp.1)

end Bus

/-! ## Interference -/

/-- An access of the program, or a change of the devices. -/
inductive Step (bus : Bus P V σ) (Env : σ → σ → Prop) : Program P V α × σ → Program P V α × σ → Prop
  | access {p q : Program P V α} {s t : σ} (h : bus.access p s = some (q, t)) : Step bus Env (p, s) (q, t)
  | env {p : Program P V α} {s t : σ} (h : Env s t) : Step bus Env (p, s) (p, t)

/-- A run without interference. -/
theorem Bus.reaches_run (bus : Bus P V σ) (Env : σ → σ → Prop) (p : Program P V α) (s : σ) :
    Relation.ReflTransGen (Step bus Env) (p, s) (.done (bus.run p s).1, (bus.run p s).2) := by
  induction p generalizing s with
  | done a => exact .refl
  | read port next ih => exact .head (.access rfl) (ih _ _)
  | write port value next ih => exact .head (.access rfl) (ih _)

/-- The accesses to the ports `A` act on the part `part` of the state as those of a smaller bus do, and interference
keeps it. -/
structure Projects (bus : Bus P V σ) (small : Bus P V τ) (Env : σ → σ → Prop) (A : P → Prop) (part : σ → τ) : Prop where
  read : ∀ port s, A port → ((bus.read port s).1, part (bus.read port s).2) = small.read port (part s)
  write : ∀ port value s, A port → part (bus.write port value s) = small.write port value (part s)
  env : ∀ {s t}, Env s t → part t = part s

namespace Projects

variable {bus : Bus P V σ} {small : Bus P V τ} {Env : σ → σ → Prop} {A : P → Prop} {part : σ → τ}
  {p q : Program P V α} {s t : σ} {a : α}

theorem access (h : Projects bus small Env A part) (hp : p.Uses A) (hacc : bus.access p s = some (q, t)) :
    q.Uses A ∧ small.access p (part s) = some (q, part t) := by
  cases p with
  | done a => cases hacc
  | read port next =>
    cases hacc
    refine ⟨hp.2 _, ?_⟩
    rw [Bus.access, ← h.read port s hp.1]
  | write port value next =>
    cases hacc
    refine ⟨hp.2, ?_⟩
    rw [Bus.access, h.write port value s hp.1]

/-- What is left of the program does to the part what the whole program does. -/
theorem run (h : Projects bus small Env A part) {x y : Program P V α × σ}
    (hrun : Relation.ReflTransGen (Step bus Env) x y) (hp : x.1.Uses A) :
    y.1.Uses A ∧ small.run y.1 (part y.2) = small.run x.1 (part x.2) := by
  induction hrun with
  | refl => exact ⟨hp, rfl⟩
  | tail _ hstep ih =>
    obtain ⟨huses, hsame⟩ := ih
    cases hstep with
    | access hacc =>
      obtain ⟨huses', hacc'⟩ := h.access huses hacc
      exact ⟨huses', (Bus.run_access hacc').trans hsame⟩
    | env henv => exact ⟨huses, by rw [← hsame, h.env henv]⟩

/-- **Interference does not show**: a program that has returned did so as on the smaller bus alone. -/
theorem returns (h : Projects bus small Env A part)
    (hrun : Relation.ReflTransGen (Step bus Env) (p, s) (.done a, t)) (hp : p.Uses A) :
    (a, part t) = small.run p (part s) := (h.run hrun hp).2

end Projects

end Ports
