import Mathlib.Tactic.IntervalCases
import MusicMacro.Tuning

/-!
Bounds of frequencies. The table has a row for every octave and in it a column for every letter, and
all its notes with their accidentals lie between fifteen and 16745 hertz.
-/

namespace MusicMacro

theorem Octave.mem_all (o : Octave) : o ∈ all := by
  obtain ⟨n, hlow, hhigh⟩ := o
  interval_cases n <;> simp [all]

theorem Letter.mem_all (l : Letter) : l ∈ all := by
  cases l <;> simp [all]

theorem Letter.index_lt (l : Letter) : l.index < 7 := by
  cases l <;> decide

def Accidental.all : List Accidental := [.sharp, .flat, .natural]

theorem Accidental.mem_all (a : Accidental) : a ∈ all := by
  cases a <;> simp [all]

namespace Tuning

/-- The row of an octave and the column of a letter lie within the table. -/
theorem table_entry (o : Octave) (l : Letter) :
    table[7 * (o.number - 1) + l.index]? = some (o, l, natural o l) := by
  obtain ⟨n, hlow, hhigh⟩ := o
  interval_cases n <;> cases l <;> rfl

theorem hertz_all : ∀ o ∈ Octave.all, ∀ l ∈ Letter.all, ∀ a ∈ Accidental.all,
    15 ≤ roundEven (Binary64.mul (natural o l) a.ratio) ∧
      roundEven (Binary64.mul (natural o l) a.ratio) ≤ 16745 := by
  decide +kernel

/-- The integer that a frequency is rounded to is a word as it stands. -/
theorem toNat_frequency (o : Octave) (l : Letter) (a : Accidental) :
    roundEven (Binary64.mul (natural o l) a.ratio) = (frequency o l a).toNat ∧
      15 ≤ (frequency o l a).toNat ∧ (frequency o l a).toNat ≤ 16745 := by
  obtain ⟨hlow, hhigh⟩ := hertz_all o o.mem_all l l.mem_all a a.mem_all
  have hword := Word.toNat_nearest (roundEven (Binary64.mul (natural o l) a.ratio))
  rw [frequency]
  omega

/-- The highest note is the sharp of the highest letter. -/
example : frequency ⟨10, by decide, by decide⟩ .b .sharp = 16745 := by decide +kernel

end Tuning

end MusicMacro
