import MusicMacro.Proofs.Performance
import MusicMacro.Proofs.Settings

/-!
The state of a performance told from its past. Of all tokens before a note, the last octave and the
last length count, and for the length the last tempo before it.
-/

namespace MusicMacro

/-- The last value that elements of a list have, and the elements before that one. -/
def lastOf {α β : Type} (value? : α → Option β) : List α → Option (β × List α)
  | [] => none
  | x :: xs => match lastOf value? xs with
    | some (b, before) => some (b, x :: before)
    | none => (value? x).map (·, [])

section
variable {α β : Type} {value? : α → Option β} {x : α}

theorem lastOf_concat_some {b : β} (h : value? x = some b) (xs : List α) :
    lastOf value? (xs ++ [x]) = some (b, xs) := by
  induction xs with
  | nil => simp [lastOf, h]
  | cons y xs ih => rw [List.cons_append, lastOf, ih]

theorem lastOf_concat_none (h : value? x = none) (xs : List α) :
    lastOf value? (xs ++ [x]) = lastOf value? xs := by
  induction xs with
  | nil => simp [lastOf, h]
  | cons y xs ih => rw [List.cons_append, lastOf, ih, lastOf]

end

namespace Token.Kind

def octave? : Kind → Option UInt32
  | .octave n => some n
  | _ => none

def length? : Kind → Option UInt32
  | .length n => n
  | _ => none

def tempo? : Kind → Option UInt32
  | .tempo n => n
  | _ => none

end Token.Kind

namespace Settings

variable (settings : Settings) (past : List Token.Kind)

/-- The number of the octave behind some tokens: that of the last octave token. -/
def octaveAt : UInt32 :=
  match lastOf Token.Kind.octave? past with
  | some (n, _) => n
  | none => settings.initialOctave

/-- The pace behind some tokens: that of the last tempo, if tempos are coupled to it. -/
def paceAt : Option Pace :=
  match if settings.tempoCoupling then lastOf Token.Kind.tempo? past else none with
  | some (tempo, _) => Pace.ofTempo? tempo
  | none => some {}

/-- The duration behind some tokens: that of the last length in the pace behind the tokens before
that length. -/
def durationAt : Option UInt32 :=
  match lastOf Token.Kind.length? past with
  | some (denominator, before) => (settings.paceAt before).bind (·.duration? denominator)
  | none => some settings.initialDuration

/-- The state that is told from the past alone. -/
structure Explains (s : State) : Prop where
  octave : Octave.ofWord? (settings.octaveAt past) = some s.octave
  pace : settings.paceAt past = some s.pace
  duration : settings.durationAt past = some s.duration

/-- The events are the tones of the notes among the tokens, in order. Each has the octave and the
duration behind the tokens before it. -/
structure AreTones (tokens : List Token.Kind) (events : List Event) : Prop where
  length : events.length = tokens.countP Token.Kind.isNote
  tone : ∀ i letter accidental argument dots,
    tokens[i]? = some (.note letter accidental argument dots) → ∃ octave duration,
      Octave.ofWord? (settings.octaveAt (past ++ tokens.take i)) = some octave ∧
      settings.durationAt (past ++ tokens.take i) = some duration ∧
      events[(tokens.take i).countP Token.Kind.isNote]? =
        some ⟨Tuning.frequency octave letter (accidental.getD .natural), withDots duration dots⟩

variable {settings : Settings} {past : List Token.Kind} {k : Token.Kind}

theorem octaveAt_concat_octave (n : UInt32) : settings.octaveAt (past ++ [.octave n]) = n := by
  rw [octaveAt, lastOf_concat_some (show Token.Kind.octave? (.octave n) = some n from rfl)]

theorem octaveAt_concat_none (h : k.octave? = none) :
    settings.octaveAt (past ++ [k]) = settings.octaveAt past := by
  rw [octaveAt, lastOf_concat_none h, octaveAt]

theorem paceAt_concat_tempo (hc : settings.tempoCoupling = true) (n : UInt32) :
    settings.paceAt (past ++ [.tempo (some n)]) = Pace.ofTempo? n := by
  rw [paceAt, if_pos hc,
    lastOf_concat_some (show Token.Kind.tempo? (.tempo (some n)) = some n from rfl)]

theorem paceAt_concat_none (h : settings.tempoCoupling = true → k.tempo? = none) :
    settings.paceAt (past ++ [k]) = settings.paceAt past := by
  unfold paceAt
  cases hc : settings.tempoCoupling with
  | false => rfl
  | true => rw [lastOf_concat_none (h hc)]

theorem durationAt_concat_length (n : UInt32) :
    settings.durationAt (past ++ [.length (some n)]) =
      (settings.paceAt past).bind (·.duration? n) := by
  rw [durationAt,
    lastOf_concat_some (show Token.Kind.length? (.length (some n)) = some n from rfl)]

theorem durationAt_concat_none (h : k.length? = none) :
    settings.durationAt (past ++ [k]) = settings.durationAt past := by
  rw [durationAt, lastOf_concat_none h, durationAt]

theorem explains_start {s : State} (h : settings.start = .ok s) : settings.Explains [] s := by
  obtain ⟨hrange, hstart⟩ | ⟨f, -, hstart⟩ := settings.start_cases
  · obtain rfl : hrange.state = s := Except.ok.inj (hstart.symm.trans h)
    exact ⟨hrange.ofWord?_eq, by simp [paceAt, lastOf, InRange.state], rfl⟩
  · cases hstart.symm.trans h

theorem Explains.keep {s : State} (h : settings.Explains past s) (hoctave : k.octave? = none)
    (hlength : k.length? = none) (htempo : settings.tempoCoupling = true → k.tempo? = none) :
    settings.Explains (past ++ [k]) s where
  octave := by rw [octaveAt_concat_none hoctave, h.octave]
  pace := by rw [paceAt_concat_none htempo, h.pace]
  duration := by rw [durationAt_concat_none hlength, h.duration]

/-- A step adds its token to the past that explains the state. -/
theorem Explains.step {s next : State} {effect : Effect} (h : settings.Explains past s)
    (hstep : s.Steps settings.tempoCoupling k next effect) :
    settings.Explains (past ++ [k]) next := by
  cases hstep with
  | note letter accidental argument dots => exact h.keep rfl rfl fun _ => rfl
  | octave ho =>
      refine ⟨?_, ?_, ?_⟩
      · rw [octaveAt_concat_octave, ho]
      · rw [paceAt_concat_none fun _ => rfl, h.pace]
      · rw [durationAt_concat_none rfl, h.duration]
  | length hd =>
      refine ⟨?_, ?_, ?_⟩
      · rw [octaveAt_concat_none rfl, h.octave]
      · rw [paceAt_concat_none fun _ => rfl, h.pace]
      · rw [durationAt_concat_length, h.pace, Option.bind_some, hd]
  | tempo hc hp =>
      refine ⟨?_, ?_, ?_⟩
      · rw [octaveAt_concat_none rfl, h.octave]
      · rw [paceAt_concat_tempo hc, hp]
      · rw [durationAt_concat_none rfl, h.duration]
  | inert hk =>
      cases k with
      | note => exact absurd hk Bool.false_ne_true
      | octave => exact absurd hk Bool.false_ne_true
      | length argument =>
          obtain rfl : argument = none := Option.isNone_iff_eq_none.1 hk
          exact h.keep rfl rfl fun _ => rfl
      | tempo argument =>
          refine h.keep rfl rfl fun hc => ?_
          rw [Token.Kind.isInert, hc, Bool.not_true, Bool.or_false] at hk
          exact Option.isNone_iff_eq_none.1 hk
      | _ => exact h.keep rfl rfl fun _ => rfl

theorem areTones_nil : settings.AreTones past [] [] := ⟨rfl, by simp⟩

theorem AreTones.cons {s next : State} {effect : Effect} {tokens : List Token.Kind}
    {events : List Event} (h : settings.AreTones (past ++ [k]) tokens events)
    (hs : settings.Explains past s) (hstep : s.Steps settings.tempoCoupling k next effect) :
    settings.AreTones past (k :: tokens) (effect.event?.toList ++ events) where
  length := by
    rw [List.length_append, h.length, List.countP_cons, ← hstep.event?_isSome]
    cases effect.event? with
    | none => simp
    | some event => simp [Nat.add_comm]
  tone := by
    intro i letter accidental argument dots hi
    cases i with
    | zero =>
        obtain rfl : k = .note letter accidental argument dots := Option.some.inj hi
        cases hstep with
        | note =>
            refine ⟨s.octave, s.duration, ?_, ?_, rfl⟩
            · rw [List.take_zero, List.append_nil]
              exact hs.octave
            · rw [List.take_zero, List.append_nil]
              exact hs.duration
        | inert hk => exact absurd hk Bool.false_ne_true
    | succ i =>
        obtain ⟨octave, duration, ho, hd, hevent⟩ := h.tone i letter accidental argument dots hi
        rw [List.append_assoc, List.singleton_append] at ho hd
        refine ⟨octave, duration, ho, hd, ?_⟩
        rw [List.take_succ_cons, List.countP_cons, ← hevent, ← hstep.event?_isSome]
        cases effect.event? with
        | none => rfl
        | some event => rfl

/-- Performed from a state that the past explains, tokens make their tones up to the first
refusal. -/
theorem Explains.areTones_perform {s : State} (h : settings.Explains past s)
    (tokens : List Token.Kind) :
    settings.AreTones past (tokens.takeWhile (Token.Kind.isAllowed settings.tempoCoupling))
      (s.perform settings.tempoCoupling tokens).events := by
  induction tokens generalizing past s with
  | nil => exact areTones_nil
  | cons k tokens ih =>
      cases hk : k.isAllowed settings.tempoCoupling with
      | false =>
          obtain ⟨refusal, hstep⟩ := State.step_of_not_isAllowed (s := s) hk
          rw [State.perform_error hstep, List.takeWhile_cons_of_neg (by simp [hk])]
          exact areTones_nil
      | true =>
          obtain ⟨next, effect, hstep⟩ := State.step_of_isAllowed (s := s) hk
          have hsteps := State.steps_of_step hstep
          rw [State.perform_ok hstep, List.takeWhile_cons_of_pos hk]
          exact (ih (h.step hsteps)).cons h hsteps

end Settings

end MusicMacro
