import MusicMacro.Proofs.Performance.Bounds
import MusicMacro.Proofs.Run.Notes

/-!
Bounds of a run. However often the next event is asked for, the state stays within the bounds of the
settings, and so do the events.
-/

namespace MusicMacro

theorem isAudible_eq_of_le {f : UInt32} (h : f.toNat ≤ 16745) : isAudible f = decide (37 < f) := by
  have hlt : f < 32767 := by
    rw [UInt32.lt_iff_toNat_lt]
    exact h.trans_lt (by decide)
  rw [isAudible, decide_eq_true hlt, Bool.and_true]

namespace Run

theorem coupled_next (r : Run) : r.next.run.coupled = r.coupled := by
  fun_induction next r with
  | case6 r hf s behind skips t hs state effect hstep performed records he hlt later ih => exact ih
  | _ => rfl

theorem reaches_next (r : Run) : r.state.Reaches r.coupled r.next.run.state := by
  fun_induction next r with
  | case5 r hf s behind skips t hs state effect hstep performed records event he =>
      exact .single ⟨_, _, State.steps_of_step hstep⟩
  | case6 r hf s behind skips t hs state effect hstep performed records he hlt later ih =>
      exact .head ⟨_, _, State.steps_of_step hstep⟩ ih
  | _ => exact .refl

theorem reaches_after (r : Run) (n : Nat) : r.state.Reaches r.coupled (r.after n).state := by
  induction n generalizing r with
  | zero => exact .refl
  | succ n ih =>
      have hlater := ih r.next.run
      rw [coupled_next] at hlater
      exact r.reaches_next.trans hlater

/-- Behind any number of requests, and before any token of the text, the state is within the bounds
of the settings: its duration is at most a minute, its scalar a finite double above zero, and every
number in it becomes a word as it is. Every event lies between fifteen and 16745 hertz, so that only
low tones are out of hearing, and is no shorter than the duration of the state. -/
theorem after_inBounds (source : String) (settings : Settings) (h : settings.check = .ok ()) :
    let tokens := (TokenStream.ofText source).transcript.tokens.map Token.kind
    ∃ s r, settings.start = .ok s ∧ start source settings = .ok r ∧
      (∀ reached, (∃ n, reached = (r.after n).state) ∨
          (∃ i, reached = (s.perform settings.tempoCoupling (tokens.take i)).state) →
        settings.Bounds reached ∧ reached.duration.toNat ≤ 60000 ∧
        0 < reached.pace.scalar ∧ Binary64.IsFinite reached.pace.scalar ∧ reached.Exact) ∧
      (∀ n e, (r.after n).next.answer = .event e →
        15 ≤ e.frequency.toNat ∧ e.frequency.toNat ≤ 16745 ∧
        isAudible e.frequency = decide (37 < e.frequency) ∧
        (r.after (n + 1)).state.duration ≤ e.duration) := by
  intro tokens
  have hrange := Settings.inRange_of_check h
  have hstart : start source settings =
      .ok ⟨.ofText source, settings.tempoCoupling, hrange.state, false⟩ := by
    rw [start, hrange.start_eq]
  refine ⟨hrange.state, _, hrange.start_eq, hstart, ?_, ?_⟩
  · intro reached hreached
    have hreach : hrange.state.Reaches settings.tempoCoupling reached := by
      rcases hreached with ⟨n, rfl⟩ | ⟨i, rfl⟩
      · exact reaches_after ⟨.ofText source, settings.tempoCoupling, hrange.state, false⟩ n
      · exact State.reaches_perform _ _
    have hbounds := hrange.bounds.reaches hreach
    obtain ⟨hpos, hfinite⟩ := hbounds.scalar
    exact ⟨hbounds, hbounds.duration_le hrange, hpos, hfinite, hbounds.exact⟩
  · intro n e he
    obtain ⟨t, letter, accidental, argument, dots, -, -, rfl⟩ := ready_start.exists_note he
    obtain ⟨hlow, hhigh, hduration⟩ :=
      (Run.after _ (n + 1)).state.sound_bounds letter accidental dots
    exact ⟨hlow, hhigh, isAudible_eq_of_le hhigh, hduration⟩

/-- The highest note at the slowest tempo, with a dot. -/
theorem after_inBounds_slowest :
    let settings : Settings := { tempoCoupling := true }
    settings.check = .ok () ∧ ∃ r, start "O10T1L1B#." settings = .ok r ∧
      r.next.answer = .event ⟨16745, 6000⟩ ∧ settings.Bounds r.next.run.state ∧
      r.next.run.state.duration = 4000 ∧ isAudible 16745 = true := by
  have hcheck : ({ tempoCoupling := true } : Settings).check = .ok () := rfl
  obtain ⟨s, r, hs, hstart, hbounds, hevents⟩ := after_inBounds "O10T1L1B#." _ hcheck
  obtain rfl : ⟨⟨1, by decide, by decide⟩, 200, {}⟩ = s := Except.ok.inj hs
  obtain rfl : ⟨.ofText "O10T1L1B#.", true, ⟨⟨1, by decide, by decide⟩, 200, {}⟩, false⟩ = r :=
    Except.ok.inj hstart
  have hanswer : (next ⟨.ofText "O10T1L1B#.", true, ⟨⟨1, by decide, by decide⟩, 200, {}⟩,
      false⟩).answer = .event ⟨16745, 6000⟩ := by decide +kernel
  obtain ⟨-, -, haudible, -⟩ := hevents 0 _ hanswer
  refine ⟨hcheck, _, hstart, hanswer, (hbounds _ (.inl ⟨1, rfl⟩)).1, ?_, haudible⟩
  decide +kernel

end Run

end MusicMacro
