import Mathlib.Logic.Function.Basic
import Mathlib.Data.List.Induction

/-!
# Terminals without scrolling

A grid of `width * height` cells, filled row by row. An input is a newline, which moves to the start of the next row,
or leaves its glyph in the cell at the cursor; behind the last cell the grid is blanked and the cursor starts over. How
inputs look, `glyph` and `blank`, is a parameter.

* `run_pos`: where the cursor is does not depend on how inputs look;
* `run_grid_eq_iff`: two looks that blank alike end in the same grid exactly when they agree on the inputs shown since
  the last blanking.
-/

namespace Terminal

variable {ι β : Type*}

/-- The cells, and the one at the cursor. -/
structure State (β : Type*) where
  pos : Nat
  grid : Nat → β

/-- The shape of a terminal, and which of its inputs are newlines. -/
structure Shape (ι : Type*) where
  width : Nat
  height : Nat
  newline : ι → Bool

/-- How inputs look. -/
structure Look (ι β : Type*) where
  glyph : ι → β
  blank : ι → β

namespace Shape

variable (d : Shape ι)

/-- The cell after an input, before the end of the grid is looked at. -/
def advance (i : ι) (pos : Nat) : Nat := if d.newline i then (pos / d.width + 1) * d.width else pos + 1

/-- The grid with the glyph of an input at the cursor, unless it is a newline. -/
def put (look : Look ι β) (i : ι) (s : State β) : Nat → β :=
  if d.newline i then s.grid else Function.update s.grid s.pos (look.glyph i)

/-- One input. -/
def step (look : Look ι β) (s : State β) (i : ι) : State β :=
  if d.width * d.height ≤ d.advance i s.pos then ⟨0, fun _ => look.blank i⟩
  else ⟨d.advance i s.pos, d.put look i s⟩

/-- Any number of inputs. -/
def run (look : Look ι β) (inputs : List ι) (s : State β) : State β := inputs.foldl (d.step look) s

/-- One input, for the cursor and the inputs that have left a glyph since the grid was blanked last. -/
def shownStep (s : Nat × List ι) (i : ι) : Nat × List ι :=
  if d.width * d.height ≤ d.advance i s.1 then (0, [])
  else (d.advance i s.1, if d.newline i then s.2 else s.2 ++ [i])

/-- The inputs of a sequence that have left a glyph since the grid was blanked last. -/
def shown (inputs : List ι) (pos : Nat) : List ι := (inputs.foldl d.shownStep (pos, [])).2

end Shape

section Runs

variable {d : Shape ι} {look look' : Look ι β} {inputs : List ι} {s s' : State β} {i : ι} {pos k : Nat}

theorem run_concat : d.run look (inputs ++ [i]) s = d.step look (d.run look inputs s) i := by
  rw [Shape.run, List.foldl_append]
  rfl

theorem advance_newline (h : d.newline i = true) : d.advance i pos = (pos / d.width + 1) * d.width := if_pos h

theorem advance_glyph (h : d.newline i = false) : d.advance i pos = pos + 1 := by simp [Shape.advance, h]

theorem put_newline (h : d.newline i = true) : d.put look i s = s.grid := if_pos h

theorem put_glyph (h : d.newline i = false) : d.put look i s = Function.update s.grid s.pos (look.glyph i) := by
  simp [Shape.put, h]

theorem lt_advance (hw : 0 < d.width) : pos < d.advance i pos := by
  cases hn : d.newline i with
  | true =>
    rw [advance_newline hn, Nat.mul_comm]
    exact Nat.lt_mul_div_succ pos hw
  | false =>
    rw [advance_glyph hn]
    exact Nat.lt_succ_self pos

/-- The cursor stays in the grid. -/
theorem step_pos_lt (hsize : 0 < d.width * d.height) : (d.step look s i).pos < d.width * d.height := by
  unfold Shape.step
  split
  · exact hsize
  · next h => exact Nat.lt_of_not_le h

theorem run_pos_lt (hsize : 0 < d.width * d.height) (hs : s.pos < d.width * d.height) :
    (d.run look inputs s).pos < d.width * d.height := by
  induction inputs using List.reverseRecOn with
  | nil => exact hs
  | append_singleton inputs i _ =>
    rw [run_concat]
    exact step_pos_lt hsize

/-- What holds of a cell and of everything that may be drawn keeps holding of it. -/
theorem step_grid_of {P : β → Prop} (hglyph : P (look.glyph i)) (hblank : P (look.blank i)) (h : P (s.grid k)) :
    P ((d.step look s i).grid k) := by
  unfold Shape.step
  split
  · exact hblank
  · change P (d.put look i s k)
    cases hn : d.newline i with
    | true =>
      rw [put_newline hn]
      exact h
    | false =>
      rw [put_glyph hn, Function.update_apply]
      split
      · exact hglyph
      · exact h

theorem run_grid_of {P : β → Prop} (hinputs : ∀ i ∈ inputs, P (look.glyph i) ∧ P (look.blank i)) (h : P (s.grid k)) :
    P ((d.run look inputs s).grid k) := by
  induction inputs generalizing s with
  | nil => exact h
  | cons i inputs ih =>
    have hi := hinputs i List.mem_cons_self
    exact ih (fun j hj => hinputs j (List.mem_cons_of_mem i hj)) (step_grid_of hi.1 hi.2 h)

/-- **The cursor** does not depend on how inputs look, nor on the grid. -/
theorem run_pos (hs : s'.pos = s.pos) : (d.run look' inputs s').pos = (d.run look inputs s).pos := by
  induction inputs using List.reverseRecOn with
  | nil => exact hs
  | append_singleton inputs i ih =>
    rw [run_concat, run_concat, Shape.step, Shape.step, ih]
    split <;> rfl

theorem shown_pos (look : Look ι β) : (inputs.foldl d.shownStep (s.pos, [])).1 = (d.run look inputs s).pos := by
  induction inputs using List.reverseRecOn with
  | nil => rfl
  | append_singleton inputs i ih =>
    rw [run_concat, List.foldl_append, List.foldl_cons, List.foldl_nil, Shape.shownStep, Shape.step, ih]
    split <;> rfl

theorem shown_concat (look : Look ι β) : d.shown (inputs ++ [i]) s.pos =
    if d.width * d.height ≤ d.advance i (d.run look inputs s).pos then []
    else if d.newline i then d.shown inputs s.pos else d.shown inputs s.pos ++ [i] := by
  rw [Shape.shown, List.foldl_append, List.foldl_cons, List.foldl_nil, Shape.shownStep, shown_pos look]
  split <;> rfl

/-- Two grids that agree at a cell differ, once the cell is replaced, exactly if the new cells do or they did. -/
theorem update_eq_update_iff {g g' : Nat → β} {a b : β} (hk : g k = g' k) :
    Function.update g k a = Function.update g' k b ↔ a = b ∧ g = g' := by
  constructor
  · intro h
    refine ⟨by simpa using congrFun h k, funext fun j => ?_⟩
    by_cases hj : j = k
    · rw [hj, hk]
    · simpa [hj] using congrFun h j
  · rintro ⟨rfl, rfl⟩
    rfl

/-- **Two looks end in the same grid** exactly when they agree on what is shown; behind the cursor they never differ. -/
theorem run_grid_eq_iff (inputs : List ι) (s : State β) (hw : 0 < d.width) (hblank : look.blank = look'.blank) :
    ((d.run look inputs s).grid = (d.run look' inputs s).grid ↔
      ∀ i ∈ d.shown inputs s.pos, look.glyph i = look'.glyph i) ∧
    ∀ k, (d.run look inputs s).pos ≤ k → (d.run look inputs s).grid k = (d.run look' inputs s).grid k := by
  induction inputs using List.reverseRecOn with
  | nil => exact ⟨by simp [Shape.run, Shape.shown], fun _ _ => rfl⟩
  | append_singleton inputs i ih =>
    obtain ⟨hgrid, hbehind⟩ := ih
    have hpos : (d.run look' inputs s).pos = (d.run look inputs s).pos := run_pos rfl
    have hnext : (d.run look inputs s).pos < d.advance i (d.run look inputs s).pos := lt_advance hw
    rw [run_concat, run_concat, shown_concat look, Shape.step, Shape.step, hpos]
    by_cases hend : d.width * d.height ≤ d.advance i (d.run look inputs s).pos
    · simp [hend, hblank]
    · simp only [if_neg hend]
      cases hn : d.newline i with
      | true =>
        simp only [put_newline hn, if_true]
        exact ⟨hgrid, fun k hk => hbehind k (by omega)⟩
      | false =>
        simp only [put_glyph hn, Bool.false_eq_true, if_false, hpos]
        rw [update_eq_update_iff (hbehind _ (Nat.le_refl _)), hgrid]
        refine ⟨by simp [or_imp, forall_and, and_comm], fun k hk => ?_⟩
        have hne : k ≠ (d.run look inputs s).pos := by omega
        rw [Function.update_of_ne hne, Function.update_of_ne hne]
        exact hbehind k (by omega)

/-- To compare the cells of the grid is to compare all. -/
theorem run_grid_eq_iff_forall (inputs : List ι) (hw : 0 < d.width) (hblank : look.blank = look'.blank)
    (hs : s.pos < d.width * d.height) :
    (∀ k < d.width * d.height, (d.run look inputs s).grid k = (d.run look' inputs s).grid k) ↔
      ∀ i ∈ d.shown inputs s.pos, look.glyph i = look'.glyph i := by
  obtain ⟨hgrid, hbehind⟩ := run_grid_eq_iff inputs s hw hblank
  rw [← hgrid]
  constructor
  · intro h
    funext k
    by_cases hk : k < d.width * d.height
    · exact h k hk
    · exact hbehind k (Nat.le_trans (Nat.le_of_lt (run_pos_lt (by omega) hs)) (Nat.not_lt.mp hk))
  · intro h k _
    rw [h]

end Runs

end Terminal
