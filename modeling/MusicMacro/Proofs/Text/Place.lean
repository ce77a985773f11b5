import MusicMacro.Text.Place

/-!
Places in the order of a text, and the places of a text that stands behind another one.
-/

namespace MusicMacro.Place

/-- A place on an earlier line, or in an earlier column of the same line. -/
def Before (p q : Place) : Prop := p.line < q.line ∨ (p.line = q.line ∧ p.column < q.column)

instance (p q : Place) : Decidable (p.Before q) := inferInstanceAs (Decidable (_ ∨ _))

section
variable {p q r : Place}

theorem not_before_self (p : Place) : ¬ p.Before p := by
  unfold Before
  omega

theorem Before.not_before (h : p.Before q) : ¬ q.Before p := by
  unfold Before at *
  omega

theorem eq_of_not_before (hpq : ¬ p.Before q) (hqp : ¬ q.Before p) : p = q := by
  obtain ⟨line, column⟩ := p
  obtain ⟨line', column'⟩ := q
  simp only [Before, Place.mk.injEq] at *
  omega

theorem Before.trans (hpq : p.Before q) (hqr : q.Before r) : p.Before r := by
  unfold Before at *
  omega

/-- What stands before a place stands before all that is not earlier than that place. -/
theorem Before.of_not_before (hpq : p.Before q) (hrq : ¬ r.Before q) : p.Before r := by
  unfold Before at *
  omega

end

theorem before_after (p : Place) (c : Char) : p.Before (p.after c) := by
  unfold Before after
  split
  · exact .inl (Nat.lt_succ_self _)
  · exact .inr ⟨rfl, Nat.lt_succ_self _⟩

theorem not_past_before (p : Place) (cs : List Char) : ¬ (p.past cs).Before p := by
  induction cs generalizing p with
  | nil => exact not_before_self p
  | cons c cs ih =>
      intro h
      exact ih (p.after c) (h.trans (before_after p c))

theorem before_past (p : Place) {cs : List Char} (h : cs ≠ []) : p.Before (p.past cs) := by
  cases cs with
  | nil => exact absurd rfl h
  | cons c cs => exact (before_after p c).of_not_before (not_past_before _ cs)

/-- Where a place of a text comes to stand if the text is put behind one that ends at the other
place: its first line goes on from there, and its other lines keep their columns. -/
def shift (p stop : Place) : Place where
  line := p.line - 1 + stop.line
  column := if p.line = 1 then p.column + (stop.column - 1) else p.column

theorem start_shift {stop : Place} (h : 1 ≤ stop.column) : ({} : Place).shift stop = stop := by
  obtain ⟨line, column⟩ := stop
  have hcolumn : 1 + (column - 1) = column := Nat.add_sub_cancel' h
  simp [shift, hcolumn]

theorem line_after (p : Place) (c : Char) : p.line ≤ (p.after c).line := by
  unfold after
  split
  · exact Nat.le_succ _
  · exact Nat.le_refl _

theorem after_shift {p : Place} (h : 1 ≤ p.line) (stop : Place) (c : Char) :
    (p.after c).shift stop = (p.shift stop).after c := by
  by_cases hc : c = '\n'
  · have hline : p.line ≠ 0 := by omega
    have hsum : p.line + stop.line = p.line - 1 + stop.line + 1 := by omega
    simp [shift, after, hc, hline, hsum]
  · by_cases hfirst : p.line = 1
    · simp [shift, after, hc, hfirst, Nat.add_right_comm]
    · simp [shift, after, hc, hfirst]

theorem line_past (p : Place) (cs : List Char) : p.line ≤ (p.past cs).line := by
  induction cs generalizing p with
  | nil => exact Nat.le_refl _
  | cons c cs ih => exact Nat.le_trans (line_after p c) (ih (p.after c))

theorem past_shift {p : Place} (h : 1 ≤ p.line) (stop : Place) (cs : List Char) :
    (p.past cs).shift stop = (p.shift stop).past cs := by
  induction cs generalizing p with
  | nil => rfl
  | cons c cs ih =>
      rw [past_cons, past_cons, ← after_shift h]
      exact ih (Nat.le_trans h (line_after p c))

end MusicMacro.Place
