import MusicMacro.Proofs.Run.Composition
import MusicMacro.Proofs.Token.Cut

/-!
Playing and collecting. An instrument is sent the events of a run one by one, also those before a
fault; collecting gives them all or the fault.
-/

namespace MusicMacro

/-- What is left of a course when its events are collected: a fault drops them. -/
def Course.result (c : Course) : Except Fault (List Event) :=
  match c.fault with
  | none => .ok c.events
  | some fault => .error fault

theorem Course.result_eq_ok {c : Course} {events : List Event} :
    c.result = .ok events ↔ c.fault = none ∧ c.events = events := by
  unfold result
  split <;> simp_all

theorem Course.result_eq_error {c : Course} {fault : Fault} :
    c.result = .error fault ↔ c.fault = some fault := by
  unfold result
  split <;> simp_all

namespace Run

theorem events_next (r : Run) : r.events = match r.next.answer with
    | .ended => .ok []
    | .failed fault => .error fault
    | .event e => (e :: ·) <$> r.next.run.events := by
  rw [events]
  split
  next h => rw [h]
  next fault h => rw [h]
  next e h => simp only [h]

theorem play_next {ε : Type} [Instrument ε] (r : Run) (instrument : ε) (sent : Nat) :
    r.play instrument sent = match r.next.answer with
    | .ended => ⟨r.next.records, .ok sent, instrument⟩
    | .failed fault => ⟨r.next.records, .error fault, instrument⟩
    | .event e =>
      let later := r.next.run.play (Instrument.play instrument e).1 (sent + 1)
      { later with
        records := r.next.records ++ (Instrument.play instrument e).2 ++ later.records } := by
  rw [Run.play]
  split
  next h => rw [h]
  next fault h => rw [h]
  next e h => simp only [h]

theorem events_eq (r : Run) : r.events = r.course.result := by
  fun_induction course r with
  | case1 r h =>
      rw [events_next, h]
      rfl
  | case2 r fault h =>
      rw [events_next, h]
      rfl
  | case3 r e h hlt later ih =>
      rw [events_next, h, ih]
      unfold Course.result
      cases later.fault <;> rfl

/-- Playing sends the events of the course, whatever the instrument. -/
theorem play_result {ε : Type} [Instrument ε] (r : Run) (instrument : ε) (sent : Nat) :
    (r.play instrument sent).result = r.course.result.map (sent + ·.length) := by
  fun_induction course r generalizing instrument sent with
  | case1 r h =>
      rw [play_next, h]
      rfl
  | case2 r fault h =>
      rw [play_next, h]
      rfl
  | case3 r e h hlt later ih =>
      rw [play_next, h]
      refine (ih (Instrument.play instrument e).1 (sent + 1)).trans ?_
      unfold Course.result
      cases later.fault with
      | none => simp [later, Except.map, Nat.add_assoc, Nat.add_comm 1]
      | some fault => rfl

theorem play_recorder (r : Run) (old : Recorder) (sent : Nat) :
    (r.play old sent).instrument = ⟨old.events ++ r.course.events⟩ := by
  fun_induction course r generalizing old sent with
  | case1 r h =>
      rw [play_next, h]
      exact congrArg Recorder.mk (List.append_nil _).symm
  | case2 r fault h =>
      rw [play_next, h]
      exact congrArg Recorder.mk (List.append_nil _).symm
  | case3 r e h hlt later ih =>
      rw [play_next, h]
      refine (ih ⟨old.events ++ [e]⟩ (sent + 1)).trans ?_
      simp [later]

end Run

namespace Transcript

variable {coupled : Bool} {s : State}

/-- A course that ends in a fault ends at a token: the first that is refused, or the one that cannot
be read. -/
theorem answers_of_fault {x : Transcript} {fault : Fault}
    (h : (x.course coupled s).fault = some fault) :
    ∃ p, x.Answers coupled s (x.course coupled s).events.length (.failed fault)
      (x.course coupled s).state (some p) := by
  obtain ⟨ts, skipped, misread⟩ := x
  induction ts generalizing s with
  | nil =>
      cases misread with
      | none => cases h
      | some f =>
          obtain rfl : .lexical f = fault := Option.some.inj h
          exact ⟨f.place, .unread rfl rfl rfl⟩
  | cons t ts ih =>
      cases hstep : s.step coupled t.kind with
      | error refusal =>
          rw [course_refused hstep] at h ⊢
          obtain rfl : .refused refusal = fault := Option.some.inj h
          exact ⟨t.place, .refused (List.nil_append _).symm rfl rfl hstep⟩
      | ok result =>
          obtain ⟨next, effect⟩ := result
          rw [course_cons hstep] at h ⊢
          obtain ⟨p, hanswer⟩ := ih h
          rw [List.length_append]
          exact ⟨p, hanswer.cons rfl rfl hstep⟩

/-- The text before the token at which a course ends brings the same events and no fault. -/
theorem Answers.exists_front {source : String} {n : Nat} {fault : Fault} {reached : State}
    {p : Place}
    (h : (TokenStream.ofText source).transcript.Answers coupled s n (.failed fault) reached
      (some p)) : ∃ front, front <+: source.toList ∧ Place.behind front = p ∧
      (TokenStream.ofText (String.ofList front)).transcript.course coupled s =
        ⟨((TokenStream.ofText source).transcript.course coupled s).events, none, reached⟩ := by
  cases h with
  | refused hsplit hbefore hlength hstep =>
      obtain ⟨front, hcut⟩ := TokenStream.exists_cutBefore_token hsplit
      refine ⟨front, hcut.isFront, hcut.place, ?_⟩
      have hrefusal := congrArg Performed.refusal hbefore
      simp only [course, hcut.tokens, hcut.fault, hsplit, List.map_append, List.map_cons,
        State.perform_append hrefusal, hbefore, State.perform_error hstep, List.append_nil]
      rfl
  | unread hall hlength hfault =>
      obtain ⟨front, hcut⟩ := TokenStream.exists_cutBefore_fault hfault
      refine ⟨front, hcut.isFront, hcut.place, ?_⟩
      simp only [course, hcut.tokens, hcut.fault, hall]
      rfl

end Transcript

theorem eventsOf_of_start {settings : Settings} {state : State} (h : settings.start = .ok state)
    (source : String) : eventsOf source settings =
      ((TokenStream.ofText source).transcript.course settings.tempoCoupling state).result := by
  rw [eventsOf, Run.start, h, ← Run.course_start, ← Run.events_eq]
  rfl

theorem play_of_start {settings : Settings} {state : State} (h : settings.start = .ok state)
    (source : String) (old : Recorder) :
    let c := (TokenStream.ofText source).transcript.course settings.tempoCoupling state
    (play source settings old).result = c.result.map List.length ∧
    (play source settings old).instrument = ⟨old.events ++ c.events⟩ := by
  intro c
  let r : Run := ⟨.ofText source, settings.tempoCoupling, state, false⟩
  have hresult := r.play_result old 0
  have hinstrument := r.play_recorder old 0
  rw [Run.course_start] at hresult hinstrument
  simp only [Nat.zero_add] at hresult
  rw [play, Run.start, h]
  exact ⟨hresult, hinstrument⟩

/-- Playing into a recorder sends the events that collecting gives, and fails with the fault with
which collecting fails. Settings that are out of range leave the recorder as it is. Any other fault
comes from a token of the text, and what is recorded then are the events of the text before that
token, which has no fault. -/
theorem play_records_events (source : String) (settings : Settings) (old : Recorder) :
    let played := play source settings old
    played.result = (eventsOf source settings).map List.length ∧
    (∀ events, eventsOf source settings = .ok events →
      played.instrument = ⟨old.events ++ events⟩) ∧
    (∀ fault, eventsOf source settings = .error (.settings fault) → played.instrument = old) ∧
    (∀ fault, eventsOf source settings = .error fault → (∀ f, fault ≠ .settings f) →
      ∃ state reached p front events, settings.start = .ok state ∧
        (TokenStream.ofText source).transcript.Answers settings.tempoCoupling state events.length
          (.failed fault) reached (some p) ∧
        front <+: source.toList ∧ Place.behind front = p ∧
        eventsOf (String.ofList front) settings = .ok events ∧
        played.instrument = ⟨old.events ++ events⟩) := by
  intro played
  cases hstart : settings.start with
  | error f =>
      have hevents : eventsOf source settings = .error (.settings f) := by
        rw [eventsOf, Run.start, hstart]
        rfl
      have hplayed : played = ⟨[], .error (.settings f), old⟩ := by
        unfold played play
        rw [Run.start, hstart]
      rw [hevents, hplayed]
      refine ⟨rfl, ?_, ?_, ?_⟩
      · intro events h
        cases h
      · intro fault h
        rfl
      · intro fault h hnot
        exact absurd (Except.error.inj h).symm (hnot f)
  | ok state =>
      obtain ⟨hresult, hinstrument⟩ := play_of_start hstart source old
      rw [eventsOf_of_start hstart]
      refine ⟨hresult, ?_, ?_, ?_⟩
      · intro events h
        rw [← (Course.result_eq_ok.1 h).2]
        exact hinstrument
      · intro fault h
        obtain ⟨p, hanswer⟩ := Transcript.answers_of_fault (Course.result_eq_error.1 h)
        cases hanswer
      · intro fault h hnot
        obtain ⟨p, hanswer⟩ := Transcript.answers_of_fault (Course.result_eq_error.1 h)
        obtain ⟨front, hfront, hplace, hcourse⟩ := hanswer.exists_front
        refine ⟨state, _, p, front, _, rfl, hanswer, hfront, hplace, ?_, hinstrument⟩
        rw [eventsOf_of_start hstart, hcourse]
        rfl

end MusicMacro
