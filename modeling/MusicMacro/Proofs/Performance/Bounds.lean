import Mathlib.Logic.Relation
import MusicMacro.Proofs.Pace.Dots
import MusicMacro.Proofs.Performance
import MusicMacro.Proofs.Settings
import MusicMacro.Proofs.Tuning

/-!
Bounds of a performance: what no token can carry a state beyond, and what bounds the tones that are
sounded in it. Inside the bounds nothing is cut off where a number becomes a word.
-/

namespace MusicMacro

/-- The states that tokens can lead to. -/
def State.Reaches (coupled : Bool) : State → State → Prop :=
  Relation.ReflTransGen fun s next => ∃ k effect, s.Steps coupled k next effect

/-- What holds of every state of a performance: no duration outlasts a whole note of the slowest
pace, unless the settings ask for it, and there is a pace of its own only where tempos count. -/
structure Settings.Bounds (settings : Settings) (s : State) : Prop where
  octave : 1 ≤ s.octave.number ∧ s.octave.number ≤ 10
  duration : s.duration.toNat ≤
    max settings.initialDuration.toNat (if settings.tempoCoupling then 4000 else 2000)
  pace : s.pace = {} ∨
    settings.tempoCoupling = true ∧ ∃ t : UInt32, 1 ≤ t.toNat ∧ Pace.ofTempo? t = some s.pace

namespace Settings

variable {settings : Settings} {s next : State}

theorem InRange.bounds (h : settings.InRange) : settings.Bounds h.state where
  octave := h.octave
  duration := le_max_left ..
  pace := .inl rfl

/-- A pace is that of a tempo whose whole note the bounds leave room for. -/
theorem Bounds.exists_tempo (h : settings.Bounds s) :
    ∃ t : UInt32, Pace.ofTempo? t = some s.pace ∧
      4000 ≤ (if settings.tempoCoupling then 4000 else 2000) * t.toNat := by
  rcases h.pace with hpace | ⟨hc, t, ht, hpace⟩
  · -- The default pace is that of tempo two, where a whole note takes two seconds.
    refine ⟨2, hpace ▸ Pace.ofTempo?_two, ?_⟩
    split <;> decide
  · refine ⟨t, hpace, ?_⟩
    rw [if_pos hc]
    exact Nat.le_mul_of_pos_right 4000 ht

theorem Bounds.step {k : Token.Kind} {effect : Effect} (h : settings.Bounds s)
    (hstep : s.Steps settings.tempoCoupling k next effect) : settings.Bounds next := by
  cases hstep with
  | note => exact h
  | octave => exact ⟨⟨Octave.one_le _, Octave.le_ten _⟩, h.duration, h.pace⟩
  | length hlength =>
      obtain ⟨t, hpace, hroom⟩ := h.exists_tempo
      refine ⟨h.octave, ?_, h.pace⟩
      exact (Pace.duration?_le hpace hlength hroom).trans (le_max_right ..)
  | tempo hc hpace =>
      have ht := Word.toNat_pos (Pace.ofTempo?_eq_some hpace).1
      exact ⟨h.octave, h.duration, .inr ⟨hc, _, ht, hpace⟩⟩
  | inert => exact h

/-- Bounds hold wherever a performance goes. -/
theorem Bounds.reaches (h : settings.Bounds s) (hreach : s.Reaches settings.tempoCoupling next) :
    settings.Bounds next := by
  induction hreach with
  | refl => exact h
  | tail _ hlast ih =>
      obtain ⟨k, effect, hstep⟩ := hlast
      exact ih.step hstep

theorem Bounds.duration_le (h : settings.Bounds s) (hrange : settings.InRange) :
    s.duration.toNat ≤ 60000 := by
  apply h.duration.trans
  apply max_le hrange.duration.2
  split <;> decide

theorem Bounds.scalar (h : settings.Bounds s) :
    0 < s.pace.scalar ∧ Binary64.IsFinite s.pace.scalar := by
  obtain ⟨t, hpace, -⟩ := h.exists_tempo
  exact ⟨Pace.scalar_pos hpace, Pace.scalar_isFinite hpace⟩

end Settings

namespace State

variable {coupled : Bool} {s : State}

theorem reaches_perform (s : State) (ks : List Token.Kind) :
    s.Reaches coupled (s.perform coupled ks).state := by
  fun_induction s.perform coupled ks with
  | case1 | case2 => exact .refl
  | case3 s k ks next effect hstep later ih => exact .head ⟨k, effect, steps_of_step hstep⟩ ih

/-- The numbers of a state become words as they are: the note that is looked up stands in the table,
and frequencies, durations and the half that a dot adds are what they were rounded to. Only the sum
of all dots is cut off. -/
structure Exact (s : State) : Prop where
  entry : ∀ letter : Letter, s.octave.number - 1 < 10 ∧ letter.index < 7 ∧
    Tuning.table[7 * (s.octave.number - 1) + letter.index]? =
      some (s.octave, letter, Tuning.natural s.octave letter)
  frequency : ∀ (letter : Letter) (accidental : Accidental),
    roundEven (Binary64.mul (Tuning.natural s.octave letter) accidental.ratio) =
      (Tuning.frequency s.octave letter accidental).toNat
  duration : ∀ n w : UInt32, s.pace.duration? n = some w →
    roundEven (Binary64.mul s.pace.scalar (Binary64.div 2000 n.toNat)) = w.toNat
  dots : ∀ dots : UInt32, ∃ half : ℕ, roundEven (Binary64.div s.duration.toNat 2) = half ∧
    (withDots s.duration dots).toNat = min (s.duration.toNat + dots.toNat * half) 4294967295

/-- The tones of all notes lie above fourteen and far below 32767 hertz, and no note is shorter than
the duration of the state. -/
theorem sound_bounds (s : State) (letter : Letter) (accidental : Option Accidental)
    (dots : UInt32) :
    let e := s.sound letter accidental dots
    15 ≤ e.frequency.toNat ∧ e.frequency.toNat ≤ 16745 ∧ s.duration ≤ e.duration := by
  obtain ⟨-, hlow, hhigh⟩ := Tuning.toNat_frequency s.octave letter (accidental.getD .natural)
  exact ⟨hlow, hhigh, le_withDots s.duration dots⟩

end State

theorem Settings.Bounds.exact {settings : Settings} {s : State} (h : settings.Bounds s) :
    s.Exact where
  entry := fun letter =>
    ⟨by have := h.octave; omega, letter.index_lt, Tuning.table_entry s.octave letter⟩
  frequency := fun letter accidental => (Tuning.toNat_frequency s.octave letter accidental).1
  duration := by
    intro n w hw
    obtain ⟨t, hpace, -⟩ := h.exists_tempo
    exact (Pace.toNat_duration? hpace hw).1
  dots := by
    intro dots
    obtain ⟨half, hhalf, -, hdots⟩ := toNat_withDots s.duration dots
    exact ⟨half, hhalf, hdots⟩

end MusicMacro
