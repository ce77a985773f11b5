import MusicMacro.Proofs.Run
import MusicMacro.Proofs.Token.Order

/-!
The course of a run. A run reads and performs token by token, each when it is needed; it goes as if
all tokens of its text were read first and then performed one after the other.
-/

namespace MusicMacro

namespace Transcript

variable (x : Transcript) (coupled : Bool) (s : State)

/-- The answer behind a number of events, with the state then shown and the place of the token that
the answer comes from. The tokens before that one are performed without a refusal. -/
inductive Answers (n : Nat) : Answer → State → Option Place → Prop
  | event {before after : List Token} {t : Token} {events : List Event} {reached next : State}
      {e : Event} : x.tokens = before ++ t :: after →
      s.perform coupled (before.map Token.kind) = ⟨events, reached, none⟩ → events.length = n →
      reached.step coupled t.kind = .ok (next, .sounded e) →
      Answers n (.event e) next (some t.place)
  | refused {before after : List Token} {t : Token} {events : List Event} {reached : State}
      {refusal : Refusal} : x.tokens = before ++ t :: after →
      s.perform coupled (before.map Token.kind) = ⟨events, reached, none⟩ → events.length = n →
      reached.step coupled t.kind = .error refusal →
      Answers n (.failed (.refused refusal)) reached (some t.place)
  | unread {events : List Event} {reached : State} {fault : LexicalFault} :
      s.perform coupled (x.tokens.map Token.kind) = ⟨events, reached, none⟩ → events.length = n →
      x.fault = some fault → Answers n (.failed (.lexical fault)) reached (some fault.place)
  | ended {events : List Event} {reached : State} :
      s.perform coupled (x.tokens.map Token.kind) = ⟨events, reached, none⟩ → events.length = n →
      x.fault = none → Answers n .ended reached none

variable {x coupled s}

/-- A token in front of the others is performed before them. -/
theorem Answers.cons {later : Transcript} {next : State} {t : Token} {effect : Effect} {n : Nat}
    {a : Answer} {reached : State} {origin : Option Place}
    (h : later.Answers coupled next n a reached origin) (htokens : x.tokens = t :: later.tokens)
    (hfault : x.fault = later.fault) (hstep : s.step coupled t.kind = .ok (next, effect)) :
    x.Answers coupled s (effect.event?.toList.length + n) a reached origin := by
  have hperform : ∀ {ts : List Token} {events : List Event} {reached : State},
      next.perform coupled (ts.map Token.kind) = ⟨events, reached, none⟩ →
      s.perform coupled ((t :: ts).map Token.kind) =
        ⟨effect.event?.toList ++ events, reached, none⟩ := by
    intro ts events reached hts
    rw [List.map_cons, State.perform_ok hstep, hts]
  cases h with
  | event hsplit hbefore hlength hlast =>
      rw [hsplit] at htokens
      exact .event htokens (hperform hbefore) (by rw [List.length_append, hlength]) hlast
  | refused hsplit hbefore hlength hlast =>
      rw [hsplit] at htokens
      exact .refused htokens (hperform hbefore) (by rw [List.length_append, hlength]) hlast
  | unread hall hlength hlast =>
      rw [← hfault] at hlast
      have hall' := hperform hall
      rw [← htokens] at hall'
      exact .unread hall' (by rw [List.length_append, hlength]) hlast
  | ended hall hlength hlast =>
      rw [← hfault] at hlast
      have hall' := hperform hall
      rw [← htokens] at hall'
      exact .ended hall' (by rw [List.length_append, hlength]) hlast

end Transcript

namespace TokenStream

variable {x : TokenStream} {t : Token}

theorem answers_of_token {coupled : Bool} {s next reached : State} {effect : Effect} {n : Nat}
    {a : Answer} {origin : Option Place} (ht : x.next.1 = .token t)
    (hstep : s.step coupled t.kind = .ok (next, effect))
    (h : x.next.2.transcript.Answers coupled next n a reached origin) :
    x.transcript.Answers coupled s (effect.event?.toList.length + n) a reached origin := by
  have htranscript := transcript_of_token ht
  exact h.cons (by rw [htranscript]) (by rw [htranscript]) hstep

theorem skippedBefore_of_token (ht : x.next.1 = .token t) :
    x.transcript.skippedBefore = x.next.2.transcript.skippedBefore := by
  rw [transcript_of_token ht]
  rfl

end TokenStream

theorem Effect.eq_sounded {effect : Effect} {e : Event} (h : effect.event? = some e) :
    effect = .sounded e := by
  cases effect with
  | sounded event => exact congrArg sounded (Option.some.inj h)
  | _ => cases h

namespace Run

/-- The run behind a number of requests. -/
def after (r : Run) : Nat → Run
  | 0 => r
  | n + 1 => r.next.run.after n

/-- Asks for the next event until there is none. -/
def course (r : Run) : Course :=
  match h : r.next.answer with
  | .ended => ⟨[], none, r.next.run.state⟩
  | .failed fault => ⟨[], some fault, r.next.run.state⟩
  | .event e =>
    have : r.next.run.stream.rest.length < r.stream.rest.length := rest_lt_of_event h
    let later := r.next.run.course
    { later with events := e :: later.events }
termination_by r.stream.rest.length

theorem course_eq (r : Run) : r.course = r.inPhases := by
  fun_induction course r with
  | case1 r h => rw [inPhases_next, h]
  | case2 r fault h => rw [inPhases_next, h]
  | case3 r e h hlt later ih =>
      rw [inPhases_next, h, ← ih]

theorem course_start (source : String) (coupled : Bool) (state : State) :
    course ⟨.ofText source, coupled, state, false⟩ =
      (TokenStream.ofText source).transcript.course coupled state := by
  rw [course_eq]
  exact inPhases_of_unfinished rfl

section
variable {r : Run}

theorem answers_of_finished (h : r.finished = true) (n : Nat) :
    r.answers n = List.replicate n Answer.ended := by
  induction n with
  | zero => rfl
  | succ n ih =>
      rw [answers, next_of_finished h, ih]
      rfl

/-- The answers to requests tell of the course, and behind it there are ends alone. -/
theorem answers_eq (r : Run) (n : Nat) : r.answers n =
    r.inPhases.answers.take n ++ List.replicate (n - r.inPhases.answers.length) Answer.ended := by
  induction n generalizing r with
  | zero => simp [answers]
  | succ n ih =>
      rw [answers, inPhases_next]
      cases ha : r.next.answer with
      | event e =>
          rw [ih]
          simp [Course.answers]
      | failed fault =>
          rw [answers_of_finished (finished_next (by rw [ha]; rfl))]
          simp [Course.answers]
      | ended =>
          rw [answers_of_finished (finished_next (by rw [ha]; rfl))]
          simp [Course.answers, List.replicate_succ]

theorem after_of_finished (h : r.finished = true) (n : Nat) : r.after n = r := by
  induction n with
  | zero => rfl
  | succ n ih => rw [after, next_of_finished h, ih]

theorem after_add (r : Run) (m n : Nat) : r.after (m + n) = (r.after m).after n := by
  induction m generalizing r with
  | zero => rw [Nat.zero_add, after]
  | succ m ih => rw [Nat.add_right_comm, after, ih, after]

theorem after_succ (r : Run) (n : Nat) : r.after (n + 1) = (r.after n).next.run := by
  rw [after_add, after, after]

/-- A run that has not ended, whose stream can be read on. -/
structure Ready (r : Run) : Prop where
  unfinished : r.finished = false
  readable : r.stream.failed = false
  ordered : r.stream.Ordered

theorem Ready.perform (h : r.Ready) {t : Token} (ht : r.stream.next.1 = .token t) (state : State) :
    Ready { r with stream := r.stream.next.2, state } where
  unfinished := h.unfinished
  readable := TokenStream.failed_next h.readable ht
  ordered := h.ordered.next h.readable (congrArg Find.place? ht)

/-- An answer of a ready run is told from its transcript, and so is what it has skipped then. -/
theorem Ready.answers_next (h : r.Ready) : ∃ origin,
    r.stream.transcript.Answers r.coupled r.state 0 r.next.answer r.next.run.state origin ∧
    r.next.run.stream.skipped = r.stream.transcript.skippedBefore origin := by
  have hskipped := h.ordered.skipped_next h.readable
  fun_induction next r with
  | case1 r hf => exact absurd hf (by rw [h.unfinished]; exact Bool.false_ne_true)
  | case2 r hf s behind skips hs =>
      have hfind : r.stream.next.1 = .ended := hs
      rw [hfind] at hskipped
      refine ⟨none, ?_, hskipped⟩
      rw [TokenStream.transcript_of_ended hfind]
      exact .ended rfl rfl rfl
  | case3 r hf s behind skips fault hs =>
      have hfind : r.stream.next.1 = .failed fault := hs
      rw [hfind] at hskipped
      refine ⟨some fault.place, ?_, hskipped⟩
      rw [TokenStream.transcript_of_failed hfind]
      exact .unread rfl rfl rfl
  | case4 r hf s behind skips t hs refusal hstep =>
      have hfind : r.stream.next.1 = .token t := hs
      rw [hfind] at hskipped
      refine ⟨some t.place, ?_, hskipped⟩
      rw [TokenStream.transcript_of_token hfind]
      exact .refused (List.nil_append _).symm rfl rfl hstep
  | case5 r hf s behind skips t hs state effect hstep performed records event he =>
      have hfind : r.stream.next.1 = .token t := hs
      rw [hfind] at hskipped
      rw [Effect.eq_sounded he] at hstep
      refine ⟨some t.place, ?_, hskipped⟩
      rw [TokenStream.transcript_of_token hfind]
      exact .event (List.nil_append _).symm rfl rfl hstep
  | case6 r hf s behind skips t hs state effect hstep performed records he hlt later ih =>
      have hfind : r.stream.next.1 = .token t := hs
      have hready : performed.Ready := h.perform hfind state
      obtain ⟨origin, hanswer, hlater⟩ := ih hready (hready.ordered.skipped_next hready.readable)
      have hanswers := TokenStream.answers_of_token hfind hstep hanswer
      rw [he, Option.toList_none, List.length_nil, Nat.zero_add] at hanswers
      refine ⟨origin, hanswers, ?_⟩
      rw [TokenStream.skippedBefore_of_token hfind]
      exact hlater

/-- What a request leaves of a run that it does not end: the same text from a later place on, where
the events are one fewer. -/
structure Continues (r later : Run) : Prop where
  ready : later.Ready
  coupled : later.coupled = r.coupled
  skipped : later.stream.transcript.skippedBefore = r.stream.transcript.skippedBefore
  answers : ∀ {n a reached origin},
    later.stream.transcript.Answers r.coupled later.state n a reached origin →
    r.stream.transcript.Answers r.coupled r.state (n + 1) a reached origin

theorem Ready.continues (h : r.Ready) {e : Event} (he : r.next.answer = .event e) :
    r.Continues r.next.run := by
  fun_induction next r with
  | case1 | case2 | case3 | case4 => cases he
  | case5 r hf s behind skips t hs state effect hstep performed records event heffect =>
      have hfind : r.stream.next.1 = .token t := hs
      refine ⟨h.perform hfind state, rfl, (TokenStream.skippedBefore_of_token hfind).symm, ?_⟩
      intro n a reached origin hanswer
      have hanswers := TokenStream.answers_of_token hfind hstep hanswer
      rwa [heffect, Option.toList_some, List.length_singleton, Nat.add_comm] at hanswers
  | case6 r hf s behind skips t hs state effect hstep performed records heffect hlt later ih =>
      have hfind : r.stream.next.1 = .token t := hs
      obtain ⟨hready, hcoupled, hskipped, hlater⟩ := ih (h.perform hfind state) he
      refine ⟨hready, hcoupled, ?_, ?_⟩
      · rw [TokenStream.skippedBefore_of_token hfind]
        exact hskipped
      · intro n a reached origin hanswer
        have hanswers := TokenStream.answers_of_token hfind hstep (hlater hanswer)
        rwa [heffect, Option.toList_none, List.length_nil, Nat.zero_add] at hanswers

theorem Ready.answers_after (h : r.Ready) {n : Nat} (hn : n ≤ r.inPhases.events.length) :
    ∃ origin, r.stream.transcript.Answers r.coupled r.state n (r.after n).next.answer
        (r.after (n + 1)).state origin ∧
      (r.after (n + 1)).stream.skipped = r.stream.transcript.skippedBefore origin := by
  induction n generalizing r with
  | zero => exact h.answers_next
  | succ n ih =>
      rw [inPhases_next] at hn
      cases ha : r.next.answer with
      | event e =>
          rw [ha] at hn
          have hlater := h.continues ha
          obtain ⟨origin, hanswer, hskipped⟩ := ih hlater.ready (Nat.le_of_succ_le_succ hn)
          rw [hlater.coupled] at hanswer
          rw [hlater.skipped] at hskipped
          exact ⟨origin, hlater.answers hanswer, hskipped⟩
      | failed fault =>
          rw [ha] at hn
          exact absurd hn (Nat.not_succ_le_zero n)
      | ended =>
          rw [ha] at hn
          exact absurd hn (Nat.not_succ_le_zero n)

end

theorem ready_start {source : String} {settings : Settings} {state : State} :
    Ready ⟨.ofText source, settings.tempoCoupling, state, false⟩ :=
  ⟨rfl, rfl, TokenStream.ordered_ofText source⟩

/-- A run answers as if its text were read to the end or to the first fault, and its tokens then
performed one after the other from the initial state. Behind each request the state and the skipped
characters are those before the token that the answer comes from, the token itself counting for the
state if it could be performed. An answer without an event is followed by ends alone. -/
theorem answers_in_two_phases (source : String) (settings : Settings)
    (h : settings.check = .ok ()) :
    let x := (TokenStream.ofText source).transcript
    ∃ s r, settings.start = .ok s ∧ start source settings = .ok r ∧
      let c := x.course settings.tempoCoupling s
      (∀ n, r.answers n =
        c.answers.take n ++ List.replicate (n - c.answers.length) Answer.ended) ∧
      (∀ n ≤ c.events.length, ∃ origin,
        x.Answers settings.tempoCoupling s n (r.after n).next.answer (r.after (n + 1)).state
          origin ∧
        (r.after (n + 1)).stream.skipped = x.skippedBefore origin) ∧
      (∀ n, (r.after n).next.answer.event? = none → ∀ m,
        (r.after (n + 1 + m)).next.answer = .ended ∧
        (r.after (n + 1 + m)).state = (r.after (n + 1)).state ∧
        (r.after (n + 1 + m)).stream.skipped = (r.after (n + 1)).stream.skipped) := by
  intro x
  obtain ⟨state, hstate, hstart⟩ := start_of_check source h
  refine ⟨state, _, hstate, hstart, ?_, ?_, ?_⟩
  · intro n
    exact answers_eq _ n
  · intro n hn
    exact ready_start.answers_after hn
  · intro n hnone m
    have hfinished := finished_next hnone
    rw [← after_succ] at hfinished
    rw [after_add, after_of_finished hfinished, next_of_finished hfinished]
    exact ⟨rfl, rfl, rfl⟩

/-- The octave is refused before the misread token behind it is reached. -/
theorem answers_refused_before_misread :
    let settings : Settings := {}
    settings.check = .ok () ∧ ∃ r, start "C?O11!O" settings = .ok r ∧
      r.answers 3 = [.event ⟨16, 200⟩, .failed (.refused (.octave 11)), .ended] := by
  have hcheck : ({} : Settings).check = .ok () := rfl
  obtain ⟨state, r, hstate, hstart, hanswers, -, -⟩ := answers_in_two_phases "C?O11!O" {} hcheck
  obtain rfl : ⟨⟨1, by decide, by decide⟩, 200, {}⟩ = state := Except.ok.inj hstate
  have hcourse : (TokenStream.ofText "C?O11!O").transcript.course false
      ⟨⟨1, by decide, by decide⟩, 200, {}⟩ =
        ⟨[⟨16, 200⟩], some (.refused (.octave 11)), ⟨⟨1, by decide, by decide⟩, 200, {}⟩⟩ := by
    decide +kernel
  refine ⟨hcheck, r, hstart, ?_⟩
  rw [hanswers, hcourse]
  rfl

end Run

end MusicMacro
