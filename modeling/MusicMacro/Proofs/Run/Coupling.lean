import MusicMacro.Proofs.Performance.Coupling
import MusicMacro.Proofs.Run.Alike
import MusicMacro.Proofs.Run.Bounds

/-!
Runs of one text with and without coupled tempos. What coupling changes are the durations behind a
length that is set behind a tempo, and that a tempo can be refused.
-/

namespace MusicMacro

namespace Settings

variable (settings : Settings)

/-- The settings where tempos do not count. -/
def uncoupled : Settings := { settings with tempoCoupling := false }

/-- The settings where tempos count. -/
def coupled : Settings := { settings with tempoCoupling := true }

end Settings

namespace Transcript

variable {x : Transcript} {s : State}

theorem course_fault_of_refusal {coupled : Bool} {refusal : Refusal}
    (h : (s.perform coupled (x.tokens.map Token.kind)).refusal = some refusal) :
    (x.course coupled s).fault = some (.refused refusal) := by
  rw [course, h]
  rfl

theorem course_fault_of_no_refusal {coupled : Bool}
    (h : (s.perform coupled (x.tokens.map Token.kind)).refusal = none) :
    (x.course coupled s).fault = x.fault.map Fault.lexical := by
  rw [course, h]
  rfl

/-- Only a refused tempo can be a fault for the coupling alone. -/
theorem course_fault_uncoupled {fault : Fault} (h : (x.course true s).fault = some fault)
    (hfault : ∀ n, fault ≠ .refused (.tempo n)) : (x.course false s).fault = some fault := by
  obtain ⟨-, ⟨n, hrefusal⟩ | ⟨hrefusal, -⟩⟩ :=
    State.perform_abreast (rfl : s.octave = s.octave) (x.tokens.map Token.kind)
  · rw [course_fault_of_refusal hrefusal] at h
    exact absurd (Option.some.inj h).symm (hfault n)
  · cases hcoupled : (s.perform true (x.tokens.map Token.kind)).refusal with
    | none =>
        rw [course_fault_of_no_refusal hcoupled] at h
        rw [course_fault_of_no_refusal (hrefusal.symm.trans hcoupled), h]
    | some refusal =>
        rw [course_fault_of_refusal hcoupled] at h
        rw [course_fault_of_refusal (hrefusal.symm.trans hcoupled), h]

/-- A coupled course without a fault is that of the uncoupled one but for durations. -/
theorem course_uncoupled (h : (x.course true s).fault = none) :
    (x.course false s).fault = none ∧
      (x.course true s).events.map Event.frequency =
        (x.course false s).events.map Event.frequency ∧
      (x.course true s).state.octave = (x.course false s).state.octave := by
  obtain ⟨hrefusal, hread⟩ := course_fault_eq_none.1 h
  obtain ⟨-, ⟨n, hparted⟩ | ⟨heq, hfrequencies, hoctave⟩⟩ :=
    State.perform_abreast (rfl : s.octave = s.octave) (x.tokens.map Token.kind)
  · rw [hparted] at hrefusal
    cases hrefusal
  · exact ⟨course_fault_eq_none.2 ⟨heq.symm.trans hrefusal, hread⟩, hfrequencies, hoctave⟩

theorem length_events_course (h : (x.course true s).fault = none) :
    (x.course true s).events.length = (x.course false s).events.length := by
  have hlength := congrArg List.length (course_uncoupled h).2.1
  rwa [List.length_map, List.length_map] at hlength

/-- Without a length behind a tempo, the events are the same. -/
theorem events_course (h : (x.course true s).fault = none)
    (hks : ¬ Token.Kind.Retimed (x.tokens.map Token.kind)) :
    (x.course true s).events = (x.course false s).events := by
  have htime : State.InTime (x.tokens.map Token.kind) s s := ⟨rfl, rfl, fun _ _ => rfl⟩
  exact (htime.perform hks).eq_of_length (length_events_course h)

/-- As far as no length is set behind a tempo, the events are the same. -/
theorem take_events_course (h : (x.course true s).fault = none) {i : ℕ}
    (hi : ¬ Token.Kind.Retimed ((x.tokens.map Token.kind).take i)) :
    let notes := ((x.tokens.map Token.kind).take i).countP Token.Kind.isNote
    (x.course true s).events.take notes = (x.course false s).events.take notes := by
  obtain ⟨hrefusal, -⟩ := course_fault_eq_none.1 h
  obtain ⟨hrefusal', -⟩ := course_fault_eq_none.1 (course_uncoupled h).1
  have htime : State.InTime ((x.tokens.map Token.kind).take i) s s := ⟨rfl, rfl, fun _ _ => rfl⟩
  have hfront := htime.perform hi
  intro notes
  change (s.perform true _).events.take notes = (s.perform false _).events.take notes
  rw [← State.take_events_perform hrefusal, ← State.take_events_perform hrefusal'] at hfront
  apply hfront.eq_of_length
  rw [List.length_take, List.length_take]
  exact congrArg (min notes) (length_events_course h)

end Transcript

/-- Of two runs of a text that differ in the coupling of tempos alone, the uncoupled one keeps the
default pace behind every request. If the coupled one has no fault, neither has the other; they have
the same frequencies and end in the same octave, and all events from notes before the first length
behind a tempo are the same, so that they all are if there is no such length. If the coupled one
has a fault, the other has it too, unless it is a refused tempo; then the coupled one has no more
events, and their frequencies are the first of the other. -/
theorem performance_coupled (source : String) (settings : Settings)
    (h : settings.check = .ok ()) :
    let tokens := (TokenStream.ofText source).transcript.tokens.map Token.kind
    ∃ r free coupled, Run.start source settings.uncoupled = .ok r ∧
      performance source settings.uncoupled = .ok free ∧
      performance source settings.coupled = .ok coupled ∧
      (∀ n, (r.after n).state.pace = {}) ∧
      (coupled.fault = none → free.fault = none ∧
        coupled.events.map Event.frequency = free.events.map Event.frequency ∧
        coupled.state.octave = free.state.octave ∧
        (∀ i, ¬ Token.Kind.Retimed (tokens.take i) →
          let notes := (tokens.take i).countP Token.Kind.isNote
          coupled.events.take notes = free.events.take notes) ∧
        (¬ Token.Kind.Retimed tokens → coupled.events = free.events)) ∧
      (∀ fault, coupled.fault = some fault → (∀ n, fault ≠ .refused (.tempo n)) →
        free.fault = some fault) ∧
      (∀ n, coupled.fault = some (.refused (.tempo n)) →
        coupled.events.length ≤ free.events.length ∧
        coupled.events.map Event.frequency <+: free.events.map Event.frequency) := by
  intro tokens
  have hrange := Settings.inRange_of_check h
  have hfree : settings.uncoupled.InRange := ⟨hrange.octave, hrange.duration⟩
  have hcoupled : settings.coupled.InRange := ⟨hrange.octave, hrange.duration⟩
  let x := (TokenStream.ofText source).transcript
  let s := hrange.state
  have hfrequencies : (x.course true s).events.map Event.frequency <+:
      (x.course false s).events.map Event.frequency := (State.perform_abreast rfl _).frequencies
  refine ⟨⟨.ofText source, false, s, false⟩, x.course false s, x.course true s, ?_, ?_, ?_, ?_, ?_,
    ?_, ?_⟩
  · rw [Run.start, hfree.start_eq]
    rfl
  · rw [performance_eq, hfree.start_eq]
    rfl
  · rw [performance_eq, hcoupled.start_eq]
    rfl
  · intro n
    have hbounds : settings.uncoupled.Bounds
        (Run.after ⟨.ofText source, false, s, false⟩ n).state :=
      hfree.bounds.reaches (Run.reaches_after ⟨.ofText source, false, s, false⟩ n)
    exact hbounds.pace.resolve_right fun hpace => Bool.false_ne_true hpace.1
  · intro hfault
    obtain ⟨hnone, hall, hoctave⟩ := Transcript.course_uncoupled hfault
    exact ⟨hnone, hall, hoctave, fun i hi => Transcript.take_events_course hfault hi,
      fun hks => Transcript.events_course hfault hks⟩
  · intro fault hfault hnot
    exact Transcript.course_fault_uncoupled hfault hnot
  · intro n hfault
    refine ⟨?_, hfrequencies⟩
    have hlength := hfrequencies.length_le
    rwa [List.length_map, List.length_map] at hlength

/-- The second length is set behind a tempo, and the second tempo is refused where tempos count. -/
theorem performance_coupled_zero_tempo :
    ({} : Settings).check = .ok () ∧ ∃ free coupled,
      performance "L4CT4L4CT0D" ({} : Settings).uncoupled = .ok free ∧
      performance "L4CT4L4CT0D" ({} : Settings).coupled = .ok coupled ∧
      free.events = [⟨16, 500⟩, ⟨16, 500⟩, ⟨18, 500⟩] ∧ free.fault = none ∧
      coupled.events = [⟨16, 500⟩, ⟨16, 250⟩] ∧ coupled.fault = some (.refused (.tempo 0)) ∧
      coupled.events.map Event.frequency <+: free.events.map Event.frequency := by
  have hcheck : ({} : Settings).check = .ok () := rfl
  obtain ⟨r, free, coupled, -, hfree, hcoupled, -, -, -, htempo⟩ :=
    performance_coupled "L4CT4L4CT0D" {} hcheck
  let s : State := ⟨⟨1, by decide, by decide⟩, 200, {}⟩
  have hfree' : performance "L4CT4L4CT0D" ({} : Settings).uncoupled =
      .ok ⟨[⟨16, 500⟩, ⟨16, 500⟩, ⟨18, 500⟩], none, { s with duration := 500 }⟩ := by
    decide +kernel
  have hcoupled' : performance "L4CT4L4CT0D" ({} : Settings).coupled =
      .ok ⟨[⟨16, 500⟩, ⟨16, 250⟩], some (.refused (.tempo 0)),
        { s with duration := 250, pace := ⟨1 / 2⟩ }⟩ := by
    decide +kernel
  obtain rfl := Except.ok.inj (hfree'.symm.trans hfree)
  obtain rfl := Except.ok.inj (hcoupled'.symm.trans hcoupled)
  exact ⟨hcheck, _, _, hfree, hcoupled, rfl, rfl, rfl, rfl, (htempo 0 rfl).2⟩

end MusicMacro
