import MusicMacro.Proofs.Performance

/-!
Tempos that count and tempos that do not. Of two performances of the same tokens, one coupled and
one free, the coupled one sounds the same frequencies until a tempo is refused, and up to the first
length that is set behind a tempo it sounds the same events.
-/

namespace MusicMacro

namespace Token.Kind

variable {k : Kind} {ks : List Kind}

/-- Whether a length is set among the tokens behind a tempo. -/
def Retimed (ks : List Kind) : Prop :=
  ∃ before n between d after,
    ks = before ++ .tempo (some n) :: (between ++ .length (some d) :: after)

theorem Retimed.cons (h : Retimed ks) (k : Kind) : Retimed (k :: ks) := by
  obtain ⟨before, n, between, d, after, rfl⟩ := h
  exact ⟨k :: before, n, between, d, after, rfl⟩

theorem retimed_of_mem {d : UInt32} (h : .length (some d) ∈ ks) (n : UInt32) :
    Retimed (.tempo (some n) :: ks) := by
  obtain ⟨between, after, rfl⟩ := List.append_of_mem h
  exact ⟨[], n, between, d, after, rfl⟩

theorem isInert_uncoupled (h : k.isInert true = true) : k.isInert false = true := by
  cases k with
  | tempo argument =>
      cases argument with
      | none => rfl
      | some n => exact absurd h Bool.false_ne_true
  | _ => exact h

/-- Only a tempo can be refused for the coupling alone. -/
theorem Refused.uncoupled {r : Refusal} (h : k.Refused true r) :
    k.Refused false r ∨ ∃ n, r = .tempo n := by
  cases h with
  | octave h => exact .inl (.octave h)
  | length => exact .inl .length
  | tempo h => exact .inr ⟨0, rfl⟩

end Token.Kind

namespace State

variable {free coupled next : State} {k : Token.Kind} {ks : List Token.Kind} {effect : Effect}

/-- States that are still timed alike, for what length is to come. -/
structure InTime (ks : List Token.Kind) (free coupled : State) : Prop where
  octave : free.octave = coupled.octave
  duration : free.duration = coupled.duration
  pace : ∀ d, .length (some d) ∈ ks → free.pace = coupled.pace

theorem Steps.uncoupled (h : free.octave = coupled.octave)
    (hstep : coupled.Steps true k next effect) : ∃ next' effect', free.Steps false k next' effect' ∧
      next'.octave = next.octave ∧
      effect'.event?.map Event.frequency = effect.event?.map Event.frequency := by
  cases hstep with
  | note letter accidental argument dots =>
      refine ⟨free, _, .note letter accidental argument dots, h, ?_⟩
      simp only [Effect.event?, Option.map_some, sound, h]
  | octave ho => exact ⟨_, _, .octave ho, rfl, rfl⟩
  | @length n _ hd =>
      cases hfree : free.pace.duration? n with
      | none =>
          rw [Pace.duration?_eq_none_iff.2 (Pace.duration?_eq_none_iff.1 hfree)] at hd
          cases hd
      | some duration => exact ⟨_, _, .length hfree, h, rfl⟩
  | tempo => exact ⟨free, _, .inert rfl, h, rfl⟩
  | inert hk => exact ⟨free, _, .inert (Token.Kind.isInert_uncoupled hk), h, rfl⟩

theorem InTime.step (h : InTime (k :: ks) free coupled) (hks : ¬ Token.Kind.Retimed (k :: ks))
    (hstep : coupled.Steps true k next effect) :
    ∃ next' effect', free.Steps false k next' effect' ∧ InTime ks next' next ∧
      effect'.event? = effect.event? := by
  have hpace : ∀ d, .length (some d) ∈ ks → free.pace = coupled.pace :=
    fun d hd => h.pace d (List.mem_cons_of_mem k hd)
  cases hstep with
  | note letter accidental argument dots =>
      refine ⟨free, _, .note letter accidental argument dots, ⟨h.octave, h.duration, hpace⟩, ?_⟩
      simp only [Effect.event?, sound, h.octave, h.duration]
  | octave ho => exact ⟨_, _, .octave ho, ⟨rfl, h.duration, hpace⟩, rfl⟩
  | @length n _ hd =>
      rw [← h.pace n List.mem_cons_self] at hd
      exact ⟨_, _, .length hd, ⟨h.octave, rfl, hpace⟩, rfl⟩
  | @tempo n _ hc hp =>
      -- The paces part here, but no length is to come.
      refine ⟨free, _, .inert rfl, ⟨h.octave, h.duration, fun d hd => ?_⟩, rfl⟩
      exact absurd (Token.Kind.retimed_of_mem hd n) hks
  | inert hk =>
      exact ⟨free, _, .inert (Token.Kind.isInert_uncoupled hk), ⟨h.octave, h.duration, hpace⟩, rfl⟩

end State

/-- What a coupled performance tells of the free one. -/
structure Performed.Abreast (free coupled : Performed) : Prop where
  frequencies : coupled.events.map Event.frequency <+: free.events.map Event.frequency
  parted : (∃ n, coupled.refusal = some (.tempo n)) ∨
    coupled.refusal = free.refusal ∧
    coupled.events.map Event.frequency = free.events.map Event.frequency ∧
    coupled.state.octave = free.state.octave

namespace State

variable {free coupled : State}

theorem perform_abreast (h : free.octave = coupled.octave) (ks : List Token.Kind) :
    Performed.Abreast (free.perform false ks) (coupled.perform true ks) := by
  induction ks generalizing free coupled with
  | nil => exact ⟨List.prefix_rfl, .inr ⟨rfl, rfl, h.symm⟩⟩
  | cons k ks ih =>
      cases hstep : coupled.step true k with
      | error refusal =>
          rw [perform_error hstep]
          refine ⟨List.nil_prefix, ?_⟩
          obtain hrefused | ⟨n, rfl⟩ := (step_eq_error_iff.1 hstep).uncoupled
          · rw [perform_error (step_of_refused hrefused)]
            exact .inr ⟨rfl, rfl, h.symm⟩
          · exact .inl ⟨n, rfl⟩
      | ok result =>
          obtain ⟨next, effect⟩ := result
          obtain ⟨next', effect', hfree, hnext, hfrequency⟩ :=
            Steps.uncoupled h (steps_of_step hstep)
          obtain ⟨hfrequencies, hparted⟩ := ih hnext
          have hlist : effect.event?.toList.map Event.frequency =
              effect'.event?.toList.map Event.frequency := by
            rw [← Option.toList_map, ← Option.toList_map, hfrequency]
          rw [perform_ok hstep, perform_ok hfree.step_eq]
          refine ⟨?_, hparted.imp_right ?_⟩
          · simp only [List.map_append, hlist]
            exact (List.prefix_append_right_inj _).2 hfrequencies
          · rintro ⟨hrefusal, hall, hoctave⟩
            refine ⟨hrefusal, ?_, hoctave⟩
            simp only [List.map_append, hlist, hall]

/-- As long as no length is set behind a tempo, the events are the same. -/
theorem InTime.perform {ks : List Token.Kind} (h : InTime ks free coupled)
    (hks : ¬ Token.Kind.Retimed ks) :
    (coupled.perform true ks).events <+: (free.perform false ks).events := by
  induction ks generalizing free coupled with
  | nil => exact List.prefix_rfl
  | cons k ks ih =>
      cases hstep : coupled.step true k with
      | error refusal =>
          rw [perform_error hstep]
          exact List.nil_prefix
      | ok result =>
          obtain ⟨next, effect⟩ := result
          obtain ⟨next', effect', hfree, hnext, hevent⟩ := h.step hks (steps_of_step hstep)
          have hlater := ih hnext fun hlater => hks (hlater.cons k)
          rw [perform_ok hstep, perform_ok hfree.step_eq, hevent]
          exact (List.prefix_append_right_inj _).2 hlater

end State

end MusicMacro
