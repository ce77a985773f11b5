import MusicMacro.Performance

/-!
Tokens performed one after the other. Whether a token is refused shows at the token alone, whatever
the state, and only a note makes an event.
-/

namespace MusicMacro

namespace Pace

theorem ofTempo?_eq_none_iff {n : UInt32} : ofTempo? n = none ↔ n = 0 := by
  unfold ofTempo?
  split <;> simp_all

theorem duration?_eq_none_iff {p : Pace} {n : UInt32} : p.duration? n = none ↔ n = 0 := by
  unfold duration?
  split <;> simp_all

end Pace

namespace Token.Kind

def isNote : Kind → Bool
  | .note .. => true
  | _ => false

/-- Whether a token can be performed. -/
def isAllowed (coupled : Bool) : Kind → Bool
  | .octave n => decide (1 ≤ n.toNat ∧ n.toNat ≤ 10)
  | .length (some n) => n != 0
  | .tempo (some n) => !coupled || n != 0
  | _ => true

/-- Whether a token leaves the state as it is and makes no event. -/
def isInert (coupled : Bool) : Kind → Bool
  | .note .. => false
  | .octave _ => false
  | .length argument => argument.isNone
  | .tempo argument => argument.isNone || !coupled
  | _ => true

/-- The tokens that are refused: an octave that does not exist, a length by zero, and a tempo of zero
where tempos count. -/
inductive Refused (coupled : Bool) : Kind → Refusal → Prop
  | octave {n : UInt32} (h : ¬(1 ≤ n.toNat ∧ n.toNat ≤ 10)) :
      Refused coupled (.octave n) (.octave n)
  | length : Refused coupled (.length (some 0)) (.length 0)
  | tempo (h : coupled = true) : Refused coupled (.tempo (some 0)) (.tempo 0)

theorem Refused.unique {coupled : Bool} {k : Kind} {r r' : Refusal} (h : k.Refused coupled r)
    (h' : k.Refused coupled r') : r = r' := by
  cases h with
  | octave => cases h'; rfl
  | length => cases h'; rfl
  | tempo => cases h'; rfl

theorem exists_refused {coupled : Bool} {k : Kind} (h : k.isAllowed coupled = false) :
    ∃ refusal, k.Refused coupled refusal := by
  cases k with
  | octave n => exact ⟨_, .octave (of_decide_eq_false h)⟩
  | length argument =>
      cases argument with
      | none => exact absurd h (by simp [isAllowed])
      | some n =>
          obtain rfl : n = 0 := by simpa [isAllowed] using h
          exact ⟨_, .length⟩
  | tempo argument =>
      cases argument with
      | none => exact absurd h (by simp [isAllowed])
      | some n =>
          obtain ⟨hc, rfl⟩ : coupled = true ∧ n = 0 := by simpa [isAllowed] using h
          exact ⟨_, .tempo hc⟩
  | _ => exact absurd h (by simp [isAllowed])

end Token.Kind

/-- Tokens performed: their events, the state behind the last of them, and the refusal of the next
one, if any. -/
structure Performed where
  events : List Event
  state : State
  refusal : Option Refusal
  deriving DecidableEq, Repr

namespace State

/-- Performs tokens up to the first refusal. -/
def perform (coupled : Bool) (s : State) : List Token.Kind → Performed
  | [] => ⟨[], s, none⟩
  | k :: ks => match s.step coupled k with
    | .error refusal => ⟨[], s, some refusal⟩
    | .ok (next, effect) =>
      let later := next.perform coupled ks
      { later with events := effect.event?.toList ++ later.events }

/-- All that a token can bring about. -/
inductive Steps (coupled : Bool) (s : State) : Token.Kind → State → Effect → Prop
  | note (letter : Letter) (accidental : Option Accidental) (argument : Option UInt32)
      (dots : UInt32) : Steps coupled s (.note letter accidental argument dots) s
        (.sounded (s.sound letter accidental dots))
  | octave {n : UInt32} {octave : Octave} (h : Octave.ofWord? n = some octave) :
      Steps coupled s (.octave n) { s with octave } (.octaveSet n)
  | length {n duration : UInt32} (h : s.pace.duration? n = some duration) :
      Steps coupled s (.length (some n)) { s with duration } (.lengthSet n duration)
  | tempo {n : UInt32} {pace : Pace} (hc : coupled = true) (h : Pace.ofTempo? n = some pace) :
      Steps coupled s (.tempo (some n)) { s with pace } (.paceSet n pace.scalar)
  | inert {k : Token.Kind} (h : k.isInert coupled = true) : Steps coupled s k s .silence

variable {coupled : Bool} {s next : State} {k : Token.Kind} {effect : Effect}

theorem steps_of_step (h : s.step coupled k = .ok (next, effect)) :
    s.Steps coupled k next effect := by
  cases k with
  | note letter accidental argument dots =>
      cases h
      exact .note letter accidental argument dots
  | octave n =>
      rw [step] at h
      cases ho : Octave.ofWord? n with
      | none => simp [ho] at h
      | some octave =>
          simp only [ho] at h
          cases h
          exact .octave ho
  | length argument =>
      cases argument with
      | none =>
          cases h
          exact .inert rfl
      | some n =>
          rw [step] at h
          cases hd : s.pace.duration? n with
          | none => simp [hd] at h
          | some duration =>
              simp only [hd] at h
              cases h
              exact .length hd
  | tempo argument =>
      cases argument with
      | none =>
          cases h
          exact .inert rfl
      | some n =>
          cases coupled with
          | false =>
              cases h
              exact .inert rfl
          | true =>
              rw [step, if_pos rfl] at h
              cases hp : Pace.ofTempo? n with
              | none => simp [hp] at h
              | some pace =>
                  simp only [hp] at h
                  cases h
                  exact .tempo rfl hp
  | _ =>
      cases h
      exact .inert rfl

/-- Notes make an event, and nothing else does. -/
theorem Steps.event?_isSome (h : s.Steps coupled k next effect) :
    effect.event?.isSome = k.isNote := by
  cases h with
  | inert hk =>
      cases k with
      | note => exact absurd hk Bool.false_ne_true
      | _ => rfl
  | _ => rfl

theorem perform_ok (h : s.step coupled k = .ok (next, effect)) (ks : List Token.Kind) :
    s.perform coupled (k :: ks) = { next.perform coupled ks with
      events := effect.event?.toList ++ (next.perform coupled ks).events } := by
  rw [perform, h]

theorem perform_error {refusal : Refusal} (h : s.step coupled k = .error refusal)
    (ks : List Token.Kind) : s.perform coupled (k :: ks) = ⟨[], s, some refusal⟩ := by
  rw [perform, h]

theorem step_of_isAllowed (h : k.isAllowed coupled = true) :
    ∃ next effect, s.step coupled k = .ok (next, effect) := by
  cases k with
  | octave n =>
      have hn : 1 ≤ n.toNat ∧ n.toNat ≤ 10 := of_decide_eq_true h
      exact ⟨_, _, by rw [step, Octave.ofWord?, dif_pos hn]⟩
  | length argument =>
      cases argument with
      | none => exact ⟨_, _, rfl⟩
      | some n =>
          have hn : n ≠ 0 := by simpa [Token.Kind.isAllowed] using h
          cases hd : s.pace.duration? n with
          | none => exact absurd (Pace.duration?_eq_none_iff.1 hd) hn
          | some duration => exact ⟨_, _, by rw [step, hd]⟩
  | tempo argument =>
      cases argument with
      | none => exact ⟨_, _, rfl⟩
      | some n =>
          cases coupled with
          | false => exact ⟨_, _, rfl⟩
          | true =>
              have hn : n ≠ 0 := by simpa [Token.Kind.isAllowed] using h
              cases hp : Pace.ofTempo? n with
              | none => exact absurd (Pace.ofTempo?_eq_none_iff.1 hp) hn
              | some pace => exact ⟨_, _, by rw [step, if_pos rfl, hp]⟩
  | _ => exact ⟨_, _, rfl⟩

theorem step_of_refused {refusal : Refusal} (h : k.Refused coupled refusal) :
    s.step coupled k = .error refusal := by
  cases h with
  | octave h => rw [step, Octave.ofWord?, dif_neg h]
  | length => rw [step, Pace.duration?_eq_none_iff.2 rfl]
  | tempo h => rw [step, if_pos h, Pace.ofTempo?_eq_none_iff.2 rfl]

theorem step_of_not_isAllowed (h : k.isAllowed coupled = false) :
    ∃ refusal, s.step coupled k = .error refusal := by
  obtain ⟨refusal, hrefused⟩ := Token.Kind.exists_refused h
  exact ⟨refusal, step_of_refused hrefused⟩

/-- The state has no part in a refusal. -/
theorem step_eq_error_iff {refusal : Refusal} :
    s.step coupled k = .error refusal ↔ k.Refused coupled refusal := by
  constructor
  · intro h
    cases hk : k.isAllowed coupled with
    | true =>
        obtain ⟨next, effect, hstep⟩ := step_of_isAllowed (s := s) hk
        rw [h] at hstep
        cases hstep
    | false =>
        obtain ⟨refusal', hrefused⟩ := Token.Kind.exists_refused hk
        have hstep := step_of_refused (s := s) hrefused
        rw [h] at hstep
        exact Except.error.inj hstep ▸ hrefused
  · exact step_of_refused

theorem not_refused_of_step (h : s.step coupled k = .ok (next, effect)) (refusal : Refusal) :
    ¬ k.Refused coupled refusal := by
  intro hrefused
  rw [step_of_refused hrefused] at h
  cases h

theorem step_of_isInert (h : k.isInert coupled = true) : s.step coupled k = .ok (s, .silence) := by
  cases k with
  | note => exact absurd h Bool.false_ne_true
  | octave => exact absurd h Bool.false_ne_true
  | length argument =>
      obtain rfl : argument = none := Option.isNone_iff_eq_none.1 h
      rfl
  | tempo argument =>
      cases argument with
      | none => rfl
      | some n =>
          obtain rfl : coupled = false := by simpa [Token.Kind.isInert] using h
          rfl
  | _ => rfl

theorem Steps.step_eq (h : s.Steps coupled k next effect) :
    s.step coupled k = .ok (next, effect) := by
  cases h with
  | note => rfl
  | octave ho => rw [step, ho]
  | length hd => rw [step, hd]
  | tempo hc hp => rw [step, if_pos hc, hp]
  | inert hk => exact step_of_isInert hk

theorem perform_refusal_eq_none_iff {ks : List Token.Kind} :
    (s.perform coupled ks).refusal = none ↔
      ∀ k ∈ ks, ∀ refusal, ¬ k.Refused coupled refusal := by
  fun_induction s.perform coupled ks with
  | case1 s => simp
  | case2 s k ks refusal hstep =>
      have hrefused := step_eq_error_iff.1 hstep
      constructor
      · intro h
        cases h
      · intro h
        exact absurd hrefused (h k List.mem_cons_self refusal)
  | case3 s k ks next effect hstep later ih =>
      rw [List.forall_mem_cons]
      exact ⟨fun h => ⟨not_refused_of_step hstep, ih.1 h⟩, fun h => ih.2 h.2⟩

/-- Tokens performed end at the first that is refused. -/
theorem exists_of_perform_refusal {ks : List Token.Kind} {refusal : Refusal}
    (h : (s.perform coupled ks).refusal = some refusal) :
    ∃ before k after, ks = before ++ k :: after ∧ k.Refused coupled refusal ∧
      ∀ b ∈ before, ∀ r, ¬ b.Refused coupled r := by
  fun_induction s.perform coupled ks with
  | case1 s => cases h
  | case2 s k ks refusal' hstep =>
      obtain rfl : refusal' = refusal := Option.some.inj h
      exact ⟨[], k, ks, rfl, step_eq_error_iff.1 hstep, by simp⟩
  | case3 s k ks next effect hstep later ih =>
      obtain ⟨before, k', after, rfl, hrefused, hbefore⟩ := ih h
      refine ⟨k :: before, k', after, rfl, hrefused, ?_⟩
      intro b hb r hr
      rcases List.mem_cons.1 hb with rfl | hb
      · exact not_refused_of_step hstep r hr
      · exact hbefore b hb r hr

theorem perform_append_of_refusal {ks : List Token.Kind} (h : (s.perform coupled ks).refusal ≠ none)
    (ls : List Token.Kind) : s.perform coupled (ks ++ ls) = s.perform coupled ks := by
  fun_induction s.perform coupled ks with
  | case1 s => exact absurd rfl h
  | case2 s k ks refusal hstep => rw [List.cons_append, perform_error hstep]
  | case3 s k ks next effect hstep later ih => rw [List.cons_append, perform_ok hstep, ih h]

/-- Tokens that are not refused hand their state on to those behind them. -/
theorem perform_append {ks : List Token.Kind} (h : (s.perform coupled ks).refusal = none)
    (ls : List Token.Kind) : s.perform coupled (ks ++ ls) =
      let later := (s.perform coupled ks).state.perform coupled ls
      { later with events := (s.perform coupled ks).events ++ later.events } := by
  fun_induction s.perform coupled ks with
  | case1 s => rfl
  | case2 s k ks refusal hstep => cases h
  | case3 s k ks next effect hstep later ih =>
      rw [List.cons_append, perform_ok hstep, ih h]
      simp only [List.append_assoc, later]

/-- Tokens that are not refused make as many events as there are notes among them. -/
theorem length_events_perform {ks : List Token.Kind}
    (h : (s.perform coupled ks).refusal = none) :
    (s.perform coupled ks).events.length = ks.countP Token.Kind.isNote := by
  fun_induction s.perform coupled ks with
  | case1 s => rfl
  | case2 s k ks refusal hstep => cases h
  | case3 s k ks next effect hstep later ih =>
      rw [List.length_append, ih h, List.countP_cons, ← (steps_of_step hstep).event?_isSome]
      cases effect.event? with
      | none => simp
      | some event => simp [Nat.add_comm]

/-- The events of the first tokens are the first of the events. -/
theorem take_events_perform {ks : List Token.Kind} (h : (s.perform coupled ks).refusal = none)
    (i : Nat) : (s.perform coupled ks).events.take ((ks.take i).countP Token.Kind.isNote) =
      (s.perform coupled (ks.take i)).events := by
  have hfront : (s.perform coupled (ks.take i)).refusal = none := by
    rw [perform_refusal_eq_none_iff] at h ⊢
    exact fun k hk => h k (List.mem_of_mem_take hk)
  have hall := perform_append hfront (ks.drop i)
  rw [List.take_append_drop] at hall
  rw [hall, ← length_events_perform hfront]
  exact List.take_left

end State

end MusicMacro
