import MusicMacro.Proofs.Performance.History
import MusicMacro.Proofs.Token.Transcript
import MusicMacro.Run

/-!
Runs: the events that come of asking for the next one, however often it is asked for. A request is
told from the course of what is left: its tokens read first and then performed one after the other.
-/

namespace MusicMacro

def Answer.event? : Answer → Option Event
  | .event e => some e
  | _ => none

/-- How a run goes: its events, the fault that ends it, if any, and the state it ends in. -/
structure Course where
  events : List Event
  fault : Option Fault
  state : State
  deriving DecidableEq, Repr

/-- The answers that tell of a course before all further ones are ends. -/
def Course.answers (c : Course) : List Answer :=
  c.events.map .event ++ c.fault.toList.map .failed

namespace Transcript

/-- All tokens performed from a state. A refusal ends the course before the fault of the text, which
stands behind all tokens. -/
def course (x : Transcript) (coupled : Bool) (s : State) : Course :=
  let performed := s.perform coupled (x.tokens.map Token.kind)
  { events := performed.events
    fault := (performed.refusal.map Fault.refused).or (x.fault.map Fault.lexical)
    state := performed.state }

variable {coupled : Bool} {s : State}

theorem course_cons {next : State} {t : Token} {effect : Effect} {ts : List Token}
    {skipped : List Skipped} {fault : Option LexicalFault}
    (hstep : s.step coupled t.kind = .ok (next, effect)) :
    course ⟨t :: ts, skipped, fault⟩ coupled s =
      { course ⟨ts, skipped, fault⟩ coupled next with
        events := effect.event?.toList ++ (course ⟨ts, skipped, fault⟩ coupled next).events } := by
  simp only [course, List.map_cons, State.perform_ok hstep]

theorem course_refused {t : Token} {refusal : Refusal} {ts : List Token}
    {skipped : List Skipped} {fault : Option LexicalFault}
    (hstep : s.step coupled t.kind = .error refusal) :
    course ⟨t :: ts, skipped, fault⟩ coupled s = ⟨[], some (.refused refusal), s⟩ := by
  simp only [course, List.map_cons, State.perform_error hstep]
  rfl

end Transcript

namespace Run

/-- The answers to a number of requests for the next event, in order. -/
def answers (r : Run) : Nat → List Answer
  | 0 => []
  | n + 1 => r.next.answer :: r.next.run.answers n

/-- The course of what is left of the text, its tokens read before any is performed. -/
def inPhases (r : Run) : Course :=
  if r.finished then ⟨[], none, r.state⟩ else r.stream.transcript.course r.coupled r.state

theorem inPhases_of_finished {r : Run} (h : r.finished = true) :
    r.inPhases = ⟨[], none, r.state⟩ := if_pos h

theorem inPhases_of_unfinished {r : Run} (h : r.finished = false) :
    r.inPhases = r.stream.transcript.course r.coupled r.state := by
  rw [inPhases, h, if_neg Bool.false_ne_true]

theorem next_of_finished {r : Run} (h : r.finished = true) : r.next = ⟨[], .ended, r⟩ := by
  rw [next, if_pos h]

/-- A request takes the first event of the course, or ends it. -/
theorem inPhases_next (r : Run) : r.inPhases = match r.next.answer with
    | .ended => ⟨[], none, r.next.run.state⟩
    | .failed fault => ⟨[], some fault, r.next.run.state⟩
    | .event e => { r.next.run.inPhases with events := e :: r.next.run.inPhases.events } := by
  fun_induction next r with
  | case1 r hf => exact inPhases_of_finished hf
  | case2 r hf s behind skips hs =>
      rw [inPhases, if_neg hf, TokenStream.transcript_of_ended hs]
      rfl
  | case3 r hf s behind skips fault hs =>
      rw [inPhases, if_neg hf, TokenStream.transcript_of_failed hs]
      rfl
  | case4 r hf s behind skips t hs refusal hstep =>
      rw [inPhases, if_neg hf, TokenStream.transcript_of_token hs, Transcript.course_refused hstep]
  | case5 r hf s behind skips t hs state effect hstep performed records event he =>
      rw [inPhases, if_neg hf, TokenStream.transcript_of_token hs, Transcript.course_cons hstep, he,
        inPhases, if_neg hf]
      rfl
  | case6 r hf s behind skips t hs state effect hstep performed records he hlt later ih =>
      rw [← ih, inPhases, if_neg hf, TokenStream.transcript_of_token hs,
        Transcript.course_cons hstep, he, inPhases, if_neg hf]
      rfl

theorem finished_next {r : Run} (h : r.next.answer.event? = none) : r.next.run.finished = true := by
  fun_induction next r with
  | case1 r hf => exact hf
  | case2 => rfl
  | case3 => rfl
  | case4 => rfl
  | case5 => cases h
  | case6 r hf s behind skips t hs state effect hstep performed records he hlt later ih =>
      exact ih h

/-- What is left of the text, performed at once. -/
def performed (r : Run) : Performed :=
  r.state.perform r.coupled (r.stream.transcript.tokens.map Token.kind)

def toCome (r : Run) : List Event := if r.finished then [] else r.performed.events

theorem toCome_of_finished {r : Run} (h : r.finished = true) : r.toCome = [] := if_pos h

theorem toCome_eq (r : Run) : r.toCome = r.inPhases.events := by
  rw [toCome, inPhases]
  split <;> rfl

/-- A request answers with the first of the events to come, if there is one. -/
theorem toCome_next (r : Run) : r.toCome = r.next.answer.event?.toList ++ r.next.run.toCome := by
  rw [toCome_eq, inPhases_next]
  cases ha : r.next.answer with
  | event e =>
      rw [toCome_eq]
      rfl
  | failed fault =>
      rw [toCome_of_finished (finished_next (by rw [ha]; rfl))]
      rfl
  | ended =>
      rw [toCome_of_finished (finished_next (by rw [ha]; rfl))]
      rfl

theorem events_answers (r : Run) (n : Nat) :
    (r.answers n).filterMap Answer.event? = r.toCome.take n := by
  induction n generalizing r with
  | zero => rfl
  | succ n ih =>
      have hnext := r.toCome_next
      rw [answers]
      cases he : r.next.answer.event? with
      | some e =>
          rw [he] at hnext
          rw [List.filterMap_cons_some he, ih, hnext]
          rfl
      | none =>
          have hnone := toCome_of_finished (finished_next he)
          rw [he, hnone] at hnext
          rw [List.filterMap_cons_none he, ih, hnone, hnext, Option.toList_none, List.nil_append,
            List.take_nil, List.take_nil]

theorem start_of_check (source : String) {settings : Settings} (h : settings.check = .ok ()) :
    ∃ state, settings.start = .ok state ∧
      start source settings = .ok ⟨.ofText source, settings.tempoCoupling, state, false⟩ := by
  have hstart := Settings.start_eq_of_check h
  exact ⟨_, hstart, by rw [start, hstart]⟩

/-- The events of a run, however often the next one is asked for, are the tones of the notes before
the first token that cannot be read or performed. Each is told from the settings and the tokens
before its note. -/
theorem answers_are_tones (source : String) (settings : Settings) (h : settings.check = .ok ()) :
    let tokens := (TokenStream.ofText source).transcript.tokens.map Token.kind
    ∃ r events, start source settings = .ok r ∧
      (∀ n, (r.answers n).filterMap Answer.event? = events.take n) ∧
      settings.AreTones [] (tokens.takeWhile (Token.Kind.isAllowed settings.tempoCoupling))
        events := by
  intro tokens
  obtain ⟨state, hstate, hstart⟩ := start_of_check source h
  refine ⟨_, _, hstart, events_answers _, ?_⟩
  exact (Settings.explains_start hstate).areTones_perform tokens

/-- The length was set in the default pace, whatever tempo stands between it and the note. -/
theorem answers_length_before_tempo :
    let settings : Settings := { tempoCoupling := true }
    settings.check = .ok () ∧
      ∃ r, start "L4T4D" settings = .ok r ∧
        (r.answers 2).filterMap Answer.event? = [⟨18, 500⟩] := by
  have hcheck : ({ tempoCoupling := true } : Settings).check = .ok () := rfl
  obtain ⟨r, events, hstart, hanswers, htones⟩ := answers_are_tones "L4T4D" _ hcheck
  have htokens : ((TokenStream.ofText "L4T4D").transcript.tokens.map Token.kind).takeWhile
      (Token.Kind.isAllowed true) =
        [.length (some 4), .tempo (some 4), .note .d none none 0] := by decide +kernel
  rw [htokens] at htones
  obtain ⟨octave, duration, hoctave, hduration, hevent⟩ := htones.tone 2 .d none none 0 rfl
  obtain rfl : ⟨1, by decide, by decide⟩ = octave := Option.some.inj hoctave
  obtain rfl : 500 = duration := Option.some.inj ((by decide +kernel : _ = _).trans hduration)
  have hone : events.length = 1 := htones.length
  have htone : (⟨Tuning.frequency ⟨1, by decide, by decide⟩ .d .natural, withDots 500 0⟩ : Event) =
      ⟨18, 500⟩ := by decide +kernel
  have hevents : events = [⟨18, 500⟩] := by
    obtain ⟨event, rfl⟩ := List.length_eq_one_iff.1 hone
    rw [← htone]
    exact congrArg (fun e => [e]) (Option.some.inj hevent)
  refine ⟨hcheck, r, hstart, ?_⟩
  rw [hanswers, hevents]
  rfl

end Run

end MusicMacro
