import MusicMacro.Proofs.Run.Course
import MusicMacro.Proofs.Token.Boundary

/-!
Runs one after the other. Behind a text that a run gets through, another text goes on from the state
that the run has ended in, if no token can reach over the boundary between them.
-/

namespace MusicMacro

namespace Transcript

variable {x : Transcript} {coupled : Bool} {s : State}

theorem course_fault_eq_none : (x.course coupled s).fault = none ↔
    (s.perform coupled (x.tokens.map Token.kind)).refusal = none ∧ x.fault = none := by
  simp [course]

theorem course_append_of_refusal
    (h : (s.perform coupled (x.tokens.map Token.kind)).refusal ≠ none) (y : Transcript) :
    (x.append y).course coupled s = x.course coupled s := by
  obtain ⟨refusal, hrefusal⟩ := Option.ne_none_iff_exists'.1 h
  simp only [course, append, List.map_append, State.perform_append_of_refusal h, hrefusal]
  rfl

theorem course_append_of_no_fault (h : (x.course coupled s).fault = none) (y : Transcript) :
    (x.append y).course coupled s =
      let later := y.course coupled (x.course coupled s).state
      { later with events := (x.course coupled s).events ++ later.events } := by
  obtain ⟨hrefusal, -⟩ := course_fault_eq_none.1 h
  simp only [course, append, List.map_append, State.perform_append hrefusal]

/-- Only the place of a fault tells where a text stands. -/
theorem course_shift (y : Transcript) (stop : Place) :
    (y.shift stop).course coupled s =
      let later := s.perform coupled (y.tokens.map Token.kind)
      { events := later.events
        fault := (later.refusal.map Fault.refused).or
          (y.fault.map fun fault => .lexical (fault.shift stop))
        state := later.state } := by
  have hkinds : (y.shift stop).tokens.map Token.kind = y.tokens.map Token.kind := by
    simp [shift, Token.shift]
  rw [course, hkinds]
  simp only [shift, Option.map_map]
  rfl

end Transcript

namespace Run

/-- A run over a text behind another: where the run over the first ends in a fault, it ends, and
else the tokens of the second are performed from the state in which the first leaves the run. A
fault in the second text has the place that it comes to stand at. -/
theorem course_append (settings : Settings) (h : settings.check = .ok ()) (a b : String)
    (hb : BeginsApart b.toList) :
    ∃ first both, start a settings = .ok first ∧ start (a ++ b) settings = .ok both ∧
      (first.course.fault ≠ none → both.course = first.course) ∧
      (first.course.fault = none →
        let y := (TokenStream.ofText b).transcript
        let later := first.course.state.perform settings.tempoCoupling (y.tokens.map Token.kind)
        both.course =
          { events := first.course.events ++ later.events
            fault := (later.refusal.map Fault.refused).or
              (y.fault.map fun fault => .lexical (fault.shift (Place.behind a.toList)))
            state := later.state }) := by
  obtain ⟨state, hstate, hfirst⟩ := start_of_check a h
  have hboth : start (a ++ b) settings =
      .ok ⟨.ofText (a ++ b), settings.tempoCoupling, state, false⟩ := by
    rw [start, hstate]
  refine ⟨_, _, hfirst, hboth, ?_, ?_⟩
  · rw [course_start, course_start]
    intro hfault
    by_cases hx : (TokenStream.ofText a).transcript.fault = none
    · rw [TokenStream.transcript_append_of_no_fault hb hx]
      apply Transcript.course_append_of_refusal
      intro hrefusal
      exact hfault (Transcript.course_fault_eq_none.2 ⟨hrefusal, hx⟩)
    · rw [TokenStream.transcript_append_of_fault hb hx]
  · rw [course_start, course_start]
    intro hfault
    have hx := (Transcript.course_fault_eq_none.1 hfault).2
    rw [TokenStream.transcript_append_of_no_fault hb hx,
      Transcript.course_append_of_no_fault hfault, Transcript.course_shift]

/-- Octave and length of the first text hold for the note of the second, which ends in a fault. -/
theorem course_append_bare_octave :
    ({} : Settings).check = .ok () ∧ BeginsApart " C?O".toList ∧
      ∃ both, start ("O3C\nL4" ++ " C?O") {} = .ok both ∧ both.course =
        { events := [⟨65, 200⟩, ⟨65, 500⟩]
          fault := some (.lexical ⟨.missingArgument 'O', ⟨2, 6⟩⟩)
          state := ⟨⟨3, by decide, by decide⟩, 500, {}⟩ } := by
  have hcheck : ({} : Settings).check = .ok () := rfl
  have hb : BeginsApart " C?O".toList := by
    intro c hc
    obtain rfl : ' ' = c := Option.some.inj hc
    decide
  obtain ⟨first, both, hfirst, hboth, -, happend⟩ := course_append {} hcheck "O3C\nL4" " C?O" hb
  let state : State := ⟨⟨1, by decide, by decide⟩, 200, {}⟩
  obtain rfl : ⟨.ofText "O3C\nL4", false, state, false⟩ = first := Except.ok.inj hfirst
  have hcourse : (TokenStream.ofText "O3C\nL4").transcript.course false state =
      ⟨[⟨65, 200⟩], none, ⟨⟨3, by decide, by decide⟩, 500, {}⟩⟩ := by decide +kernel
  refine ⟨hcheck, hb, both, hboth, ?_⟩
  rw [course_start, hcourse] at happend
  rw [happend rfl]
  decide +kernel

end Run

end MusicMacro
