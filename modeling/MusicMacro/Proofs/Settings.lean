import MusicMacro.Settings

/-!
Settings in range. A performance can begin with settings just if both of their numbers are in range,
and then its state is told by them. What the check finds is just what keeps a performance from
beginning.
-/

namespace MusicMacro.Settings

/-- The ranges of the octave and the duration in which a performance may begin. -/
structure InRange (settings : Settings) : Prop where
  octave : 1 ≤ settings.initialOctave.toNat ∧ settings.initialOctave.toNat ≤ 10
  duration : 1 ≤ settings.initialDuration.toNat ∧ settings.initialDuration.toNat ≤ 60000

/-- What is wrong with settings. The octave comes before the duration. -/
inductive Rejected (settings : Settings) : Fault → Prop
  | octave (h : ¬(1 ≤ settings.initialOctave.toNat ∧ settings.initialOctave.toNat ≤ 10)) :
      Rejected settings (.octaveOutOfRange settings.initialOctave)
  | duration (ho : 1 ≤ settings.initialOctave.toNat ∧ settings.initialOctave.toNat ≤ 10)
      (h : ¬(1 ≤ settings.initialDuration.toNat ∧ settings.initialDuration.toNat ≤ 60000)) :
      Rejected settings (.durationOutOfRange settings.initialDuration)

/-- The state in which a performance begins. -/
def InRange.state {settings : Settings} (h : settings.InRange) : State where
  octave := ⟨settings.initialOctave.toNat, h.octave.1, h.octave.2⟩
  duration := settings.initialDuration

variable {settings : Settings} {f : Fault}

theorem InRange.ofWord?_eq (h : settings.InRange) :
    Octave.ofWord? settings.initialOctave = some h.state.octave := dif_pos h.octave

theorem duration_inRange_iff : (1 ≤ settings.initialDuration ∧ settings.initialDuration ≤ 60000) ↔
    1 ≤ settings.initialDuration.toNat ∧ settings.initialDuration.toNat ≤ 60000 := by
  rw [UInt32.le_iff_toNat_le, UInt32.le_iff_toNat_le]
  rfl

/-- Settings are in range and pass their check, or there is one fault that it finds in them. -/
theorem check_cases (settings : Settings) :
    (settings.InRange ∧ settings.check = .ok ()) ∨
    ∃ f, settings.Rejected f ∧ settings.check = .error f := by
  by_cases ho : 1 ≤ settings.initialOctave.toNat ∧ settings.initialOctave.toNat ≤ 10
  · by_cases hd : 1 ≤ settings.initialDuration.toNat ∧ settings.initialDuration.toNat ≤ 60000
    · refine .inl ⟨⟨ho, hd⟩, ?_⟩
      rw [check, Octave.ofWord?, dif_pos ho]
      exact if_pos (duration_inRange_iff.2 hd)
    · refine .inr ⟨_, .duration ho hd, ?_⟩
      rw [check, Octave.ofWord?, dif_pos ho]
      exact if_neg (mt duration_inRange_iff.1 hd)
  · exact .inr ⟨_, .octave ho, by rw [check, Octave.ofWord?, dif_neg ho]⟩

theorem inRange_of_check (h : settings.check = .ok ()) : settings.InRange := by
  obtain ⟨hrange, -⟩ | ⟨f, -, hcheck⟩ := settings.check_cases
  · exact hrange
  · rw [hcheck] at h
    cases h

theorem start_eq_error_of_check (h : settings.check = .error f) : settings.start = .error f := by
  unfold start
  split
  next f' hcheck =>
    obtain rfl : f' = f := Except.error.inj (hcheck.symm.trans h)
    rfl
  next hcheck => cases hcheck.symm.trans h

/-- Settings that pass their check are in range, and a performance begins with just what they say. -/
theorem start_eq_of_check (h : settings.check = .ok ()) :
    settings.start = .ok (inRange_of_check h).state := by
  unfold start
  split
  next f' hcheck => cases hcheck.symm.trans h
  next =>
    simp only [(inRange_of_check h).ofWord?_eq, Option.get_some]
    rfl

/-- A performance can begin with settings just if they pass their check, and else the fault is the
one that the check finds. -/
theorem check_eq_start (settings : Settings) : settings.check = settings.start.map fun _ => () := by
  cases h : settings.check with
  | error f => rw [start_eq_error_of_check h]; rfl
  | ok => rw [start_eq_of_check h]; rfl

/-- Settings are in range, and a performance can begin, or there is one fault in them. -/
theorem start_cases (settings : Settings) :
    (∃ h : settings.InRange, settings.start = .ok h.state) ∨
    ∃ f, settings.Rejected f ∧ settings.start = .error f := by
  obtain ⟨hrange, hcheck⟩ | ⟨f, hf, hcheck⟩ := settings.check_cases
  · exact .inl ⟨hrange, start_eq_of_check hcheck⟩
  · exact .inr ⟨f, hf, start_eq_error_of_check hcheck⟩

theorem Rejected.not_inRange (h : settings.Rejected f) : ¬ settings.InRange := by
  intro hrange
  cases h with
  | octave ho => exact ho hrange.octave
  | duration _ hd => exact hd hrange.duration

theorem Rejected.unique {f' : Fault} (h : settings.Rejected f) (h' : settings.Rejected f') :
    f = f' := by
  cases h with
  | octave ho =>
      cases h' with
      | octave => rfl
      | duration ho' => exact absurd ho' ho
  | duration ho =>
      cases h' with
      | octave ho' => exact absurd ho ho'
      | duration => rfl

theorem InRange.start_eq (h : settings.InRange) : settings.start = .ok h.state := by
  obtain ⟨_, hstart⟩ | ⟨f, hf, -⟩ := settings.start_cases
  · exact hstart
  · exact absurd h hf.not_inRange

theorem Rejected.start_eq (h : settings.Rejected f) : settings.start = .error f := by
  obtain ⟨hrange, -⟩ | ⟨f', hf', hstart⟩ := settings.start_cases
  · exact absurd hrange h.not_inRange
  · rw [hstart, h.unique hf']

end MusicMacro.Settings
