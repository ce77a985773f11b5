import MusicMacro.Proofs.Run.Playing

/-!
Runs that go alike. What a run shows depends on what the tokens of its text say and on the fault
behind them, so texts that agree in these are performed alike, request by request.
-/

namespace MusicMacro

/-- Streams whose tokens say the same and end in the same fault, if any. -/
structure TokenStream.Alike (x y : TokenStream) : Prop where
  kinds : x.transcript.tokens.map Token.kind = y.transcript.tokens.map Token.kind
  fault : x.transcript.fault = y.transcript.fault

/-- Streams that are alike answer alike, and stay so behind a token. -/
theorem TokenStream.Alike.next {x y : TokenStream} (h : x.Alike y) :
    (x.next.1 = .ended ∧ y.next.1 = .ended) ∨
    (∃ fault, x.next.1 = .failed fault ∧ y.next.1 = .failed fault) ∨
    ∃ t u, x.next.1 = .token t ∧ y.next.1 = .token u ∧ t.kind = u.kind ∧
      x.next.2.Alike y.next.2 := by
  obtain ⟨hkinds, hfault⟩ := h
  cases hx : x.next.1 with
  | ended =>
      rw [transcript_of_ended hx] at hkinds hfault
      cases hy : y.next.1 with
      | ended => exact .inl ⟨rfl, rfl⟩
      | failed fault =>
          rw [transcript_of_failed hy] at hfault
          cases hfault
      | token u =>
          rw [transcript_of_token hy] at hkinds
          cases hkinds
  | failed fault =>
      rw [transcript_of_failed hx] at hkinds hfault
      cases hy : y.next.1 with
      | ended =>
          rw [transcript_of_ended hy] at hfault
          cases hfault
      | failed fault' =>
          rw [transcript_of_failed hy] at hfault
          obtain rfl := Option.some.inj hfault
          exact .inr (.inl ⟨fault, rfl, rfl⟩)
      | token u =>
          rw [transcript_of_token hy] at hkinds
          cases hkinds
  | token t =>
      rw [transcript_of_token hx] at hkinds hfault
      cases hy : y.next.1 with
      | ended =>
          rw [transcript_of_ended hy] at hkinds
          cases hkinds
      | failed fault =>
          rw [transcript_of_failed hy] at hkinds
          cases hkinds
      | token u =>
          rw [transcript_of_token hy] at hkinds hfault
          obtain ⟨hkind, hlater⟩ := List.cons.inj hkinds
          exact .inr (.inr ⟨t, u, rfl, rfl, hkind, hlater, hfault⟩)

namespace Run

/-- A request by what comes next in the text. -/
theorem next_of_unfinished {r : Run} (hf : r.finished = false) :
    (r.next.answer, r.next.run) =
      let behind := { r with stream := r.stream.next.2 }
      match r.stream.next.1 with
      | .ended => (.ended, { behind with finished := true })
      | .failed fault => (.failed (.lexical fault), { behind with finished := true })
      | .token t => match r.state.step r.coupled t.kind with
        | .error refusal => (.failed (.refused refusal), { behind with finished := true })
        | .ok (state, effect) => match effect.event? with
          | some event => (.event event, { behind with state })
          | none => ((next { behind with state }).answer, (next { behind with state }).run) := by
  fun_induction next r with
  | case1 r hfinished => exact absurd hfinished (by rw [hf]; exact Bool.false_ne_true)
  | case2 r hfinished s behind skips hs =>
      have hfind : r.stream.next.1 = .ended := hs
      rw [hfind]
      rfl
  | case3 r hfinished s behind skips fault hs =>
      have hfind : r.stream.next.1 = .failed fault := hs
      rw [hfind]
      rfl
  | case4 r hfinished s behind skips t hs refusal hstep =>
      have hfind : r.stream.next.1 = .token t := hs
      simp only [hfind, hstep]
      rfl
  | case5 r hfinished s behind skips t hs state effect hstep performed records event he =>
      have hfind : r.stream.next.1 = .token t := hs
      simp only [hfind, hstep, he]
      rfl
  | case6 r hfinished s behind skips t hs state effect hstep performed records he hlt later ih =>
      have hfind : r.stream.next.1 = .token t := hs
      simp only [hfind, hstep, he]
      rfl

/-- Runs in one state, over texts that are alike unless the runs have ended. -/
inductive Alike : Run → Run → Prop
  | finished {x y : TokenStream} {coupled : Bool} {state : State} :
      Alike ⟨x, coupled, state, true⟩ ⟨y, coupled, state, true⟩
  | unfinished {x y : TokenStream} {coupled : Bool} {state : State} : x.Alike y →
      Alike ⟨x, coupled, state, false⟩ ⟨y, coupled, state, false⟩

theorem alike_next {x y : TokenStream} (h : x.Alike y) (coupled : Bool) (state : State) :
    let r : Run := ⟨x, coupled, state, false⟩
    let q : Run := ⟨y, coupled, state, false⟩
    r.next.answer = q.next.answer ∧ r.next.run.Alike q.next.run := by
  intro r q
  induction hn : x.rest.length using Nat.strongRecOn generalizing x y state with
  | ind n ih =>
      subst hn
      change (r.next.answer, r.next.run).1 = (q.next.answer, q.next.run).1 ∧
        (r.next.answer, r.next.run).2.Alike (q.next.answer, q.next.run).2
      rw [next_of_unfinished (r := r) rfl, next_of_unfinished (r := q) rfl]
      obtain ⟨hx, hy⟩ | ⟨fault, hx, hy⟩ | ⟨t, u, hx, hy, hkind, hlater⟩ := h.next
      · simp only [r, q, hx, hy]
        exact ⟨trivial, .finished⟩
      · simp only [r, q, hx, hy]
        exact ⟨trivial, .finished⟩
      · simp only [r, q, hx, hy, ← hkind]
        cases hstep : state.step coupled t.kind with
        | error refusal => exact ⟨rfl, .finished⟩
        | ok result =>
            obtain ⟨next, effect⟩ := result
            dsimp only
            cases he : effect.event? with
            | some event => exact ⟨rfl, .unfinished hlater⟩
            | none => exact ih _ (TokenStream.rest_lt_of_search hx) hlater next rfl

/-- Runs that are alike answer alike, and stay so behind each request. -/
theorem Alike.next {r q : Run} (h : r.Alike q) :
    r.next.answer = q.next.answer ∧ r.next.run.Alike q.next.run := by
  cases h with
  | finished =>
      rw [next_of_finished rfl, next_of_finished rfl]
      exact ⟨rfl, .finished⟩
  | unfinished hstream => exact alike_next hstream _ _

theorem Alike.state_eq {r q : Run} (h : r.Alike q) : r.state = q.state := by
  cases h <;> rfl

/-- What a run shows up to a number of requests: the answers, and the state behind the last. -/
def shown (r : Run) (n : ℕ) : List Answer × State := (r.answers n, (r.after n).state)

theorem Alike.shown_eq {r q : Run} (h : r.Alike q) : r.shown = q.shown := by
  funext n
  induction n generalizing r q with
  | zero => rw [shown, shown, answers, answers, after, after, h.state_eq]
  | succ n ih =>
      obtain ⟨hanswer, hlater⟩ := h.next
      obtain ⟨hanswers, hstate⟩ := Prod.mk.inj (ih hlater)
      rw [shown, shown, answers, answers, after, after, hanswer, hanswers, hstate]

end Run

/-- A run over a text from beginning to end, unless it cannot begin. -/
def performance (source : String) (settings : Settings) : Except Fault Course :=
  (Run.start source settings).map Run.course

theorem performance_eq (source : String) (settings : Settings) :
    performance source settings = match settings.start with
    | .error fault => .error (.settings fault)
    | .ok state =>
      .ok ((TokenStream.ofText source).transcript.course settings.tempoCoupling state) := by
  rw [performance, Run.start]
  cases settings.start with
  | error fault => rfl
  | ok state => exact congrArg Except.ok (Run.course_start source _ state)

theorem eventsOf_eq (source : String) (settings : Settings) :
    eventsOf source settings = (performance source settings).bind Course.result := by
  rw [eventsOf, performance]
  cases Run.start source settings with
  | error fault => rfl
  | ok r => exact r.events_eq

namespace TokenStream.Alike

variable {a b : String}

theorem shown_eq (h : (ofText a).Alike (ofText b)) (settings : Settings) :
    (Run.start a settings).map Run.shown = (Run.start b settings).map Run.shown := by
  rw [Run.start, Run.start]
  split
  next => rfl
  next => exact congrArg Except.ok (Run.Alike.unfinished h).shown_eq

theorem performance_eq (h : (ofText a).Alike (ofText b)) (settings : Settings) :
    performance a settings = performance b settings := by
  rw [MusicMacro.performance_eq, MusicMacro.performance_eq]
  simp only [Transcript.course, h.kinds, h.fault]

end TokenStream.Alike

end MusicMacro
