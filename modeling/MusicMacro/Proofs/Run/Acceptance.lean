import MusicMacro.Proofs.Run.Playing
import MusicMacro.Proofs.Settings

/-!
Which texts can be performed. A text is refused for its settings, or else for the first place in it
at which a token asks for what does not exist or cannot be read; nothing else in it can be wrong.
-/

namespace MusicMacro

namespace Transcript

/-- Where a text cannot be performed, and why. -/
inductive Offence (x : Transcript) (coupled : Bool) : Place → Fault → Prop
  | refused {t : Token} {refusal : Refusal} : t ∈ x.tokens → t.kind.Refused coupled refusal →
      Offence x coupled t.place (.refused refusal)
  | unread {fault : LexicalFault} : x.fault = some fault →
      Offence x coupled fault.place (.lexical fault)

/-- The offence with no other before it. -/
def FirstOffence (x : Transcript) (coupled : Bool) (fault : Fault) : Prop :=
  ∃ p, x.Offence coupled p fault ∧ ∀ q other, x.Offence coupled q other → ¬ q.Before p

section
variable {x : Transcript} {coupled : Bool} {s : State}

theorem course_fault_eq_none_iff :
    (x.course coupled s).fault = none ↔ ∀ p fault, ¬ x.Offence coupled p fault := by
  rw [course_fault_eq_none, State.perform_refusal_eq_none_iff, List.forall_mem_map]
  constructor
  · rintro ⟨hallowed, hread⟩ p fault h
    cases h with
    | refused ht hrefused => exact hallowed _ ht _ hrefused
    | unread hfault =>
        rw [hread] at hfault
        cases hfault
  · intro h
    refine ⟨fun t ht r hr => h _ _ (.refused ht hr), ?_⟩
    rw [Option.eq_none_iff_forall_ne_some]
    exact fun fault hfault => h _ _ (.unread hfault)

end

/-- Without offence is a text that can be read and asks for nothing that does not exist. -/
theorem no_offence_iff {x : Transcript} {coupled : Bool} :
    (∀ p fault, ¬ x.Offence coupled p fault) ↔ x.fault = none ∧
      (∀ t ∈ x.tokens, ∀ n, t.kind = .octave n → 1 ≤ n.toNat ∧ n.toNat ≤ 10) ∧
      (∀ t ∈ x.tokens, t.kind ≠ .length (some 0)) ∧
      (coupled = true → ∀ t ∈ x.tokens, t.kind ≠ .tempo (some 0)) := by
  constructor
  · intro h
    refine ⟨?_, ?_, ?_, ?_⟩
    · rw [Option.eq_none_iff_forall_ne_some]
      exact fun fault hfault => h _ _ (.unread hfault)
    · intro t ht n hn
      by_contra hrange
      have hrefused : t.kind.Refused coupled (.octave n) := hn ▸ .octave hrange
      exact h _ _ (.refused ht hrefused)
    · intro t ht hk
      have hrefused : t.kind.Refused coupled (.length 0) := hk ▸ .length
      exact h _ _ (.refused ht hrefused)
    · intro hc t ht hk
      have hrefused : t.kind.Refused coupled (.tempo 0) := hk ▸ .tempo hc
      exact h _ _ (.refused ht hrefused)
  · rintro ⟨hread, hoctave, hlength, htempo⟩ p fault h
    cases h with
    | @refused t r ht hr =>
        generalize hk : t.kind = k at hr
        cases hr with
        | octave hrange => exact hrange (hoctave t ht _ hk)
        | length => exact hlength t ht hk
        | tempo hc => exact htempo hc t ht hk
    | unread hfault =>
        rw [hread] at hfault
        cases hfault

section
variable {source : String} {coupled : Bool} {s : State} {fault fault' : Fault}

/-- The fault that ends a course is the first offence of the text. -/
theorem firstOffence_of_course
    (h : ((TokenStream.ofText source).transcript.course coupled s).fault = some fault) :
    (TokenStream.ofText source).transcript.FirstOffence coupled fault := by
  unfold course at h
  dsimp only at h
  cases hrefusal : (s.perform coupled
      ((TokenStream.ofText source).transcript.tokens.map Token.kind)).refusal with
  | some refusal =>
      rw [hrefusal] at h
      obtain rfl : .refused refusal = fault := Option.some.inj h
      obtain ⟨before, k, after, hkinds, hrefused, hbefore⟩ :=
        State.exists_of_perform_refusal hrefusal
      obtain ⟨early, late, htokens, rfl, hlate⟩ := List.map_eq_append_iff.1 hkinds
      obtain ⟨t, later, rfl, rfl, rfl⟩ := List.map_eq_cons_iff.1 hlate
      have hmem : t ∈ (TokenStream.ofText source).transcript.tokens := by simp [htokens]
      refine ⟨t.place, .refused hmem hrefused, ?_⟩
      intro q other hother
      cases hother with
      | @refused u r hu hr =>
          have hord := TokenStream.tokens_ordered source
          rw [htokens] at hu hord
          -- A token before this one is not refused, and one behind it does not stand before it.
          rcases List.mem_append.1 hu with hu | hu
          · exact absurd hr (hbefore _ (List.mem_map_of_mem hu) r)
          · rcases List.mem_cons.1 hu with rfl | hu
            · exact Place.not_before_self _
            · have htail := (List.pairwise_cons.1 (List.pairwise_append.1 hord).2.1).1
              exact (htail u hu).not_before
      | unread hfault => exact (TokenStream.before_fault hmem hfault).not_before
  | none =>
      rw [hrefusal] at h
      obtain ⟨f, hfault, rfl⟩ := Option.map_eq_some_iff.1 h
      refine ⟨f.place, .unread hfault, ?_⟩
      intro q other hother
      cases hother with
      | refused ht hrefused =>
          have hallowed := State.perform_refusal_eq_none_iff.1 hrefusal
          exact absurd hrefused (hallowed _ (List.mem_map_of_mem ht) _)
      | unread hother =>
          obtain rfl := Option.some.inj (hfault.symm.trans hother)
          exact Place.not_before_self _

theorem Offence.unique {p q : Place}
    (h : (TokenStream.ofText source).transcript.Offence coupled p fault)
    (h' : (TokenStream.ofText source).transcript.Offence coupled q fault') (hpq : p = q) :
    fault = fault' := by
  cases h with
  | @refused t r ht hr =>
      cases h' with
      | @refused u r' hu hr' =>
          have hpiece := piece_unique (TokenStream.mem_pieces_of_token ht)
            (TokenStream.mem_pieces_of_token hu) rfl (congrArg some hpq.symm)
          obtain rfl := Piece.token.inj hpiece
          rw [hr.unique hr']
      | unread hfault =>
          have hbefore := TokenStream.before_fault ht hfault
          exact absurd (hpq ▸ hbefore) (Place.not_before_self _)
  | unread hfault =>
      cases h' with
      | refused hu hr' =>
          have hbefore := TokenStream.before_fault hu hfault
          exact absurd (hpq ▸ hbefore) (Place.not_before_self _)
      | unread hfault' => rw [Option.some.inj (hfault.symm.trans hfault')]

theorem FirstOffence.unique
    (h : (TokenStream.ofText source).transcript.FirstOffence coupled fault)
    (h' : (TokenStream.ofText source).transcript.FirstOffence coupled fault') :
    fault = fault' := by
  obtain ⟨p, hp, hfirst⟩ := h
  obtain ⟨q, hq, hfirst'⟩ := h'
  exact hp.unique hq (Place.eq_of_not_before (hfirst' p _ hp) (hfirst q _ hq))

/-- A character that no token begins with is no offence. -/
theorem Offence.ne_skipped {p : Place} {c : Skipped}
    (h : (TokenStream.ofText source).transcript.Offence coupled p fault)
    (hc : c ∈ (TokenStream.ofText source).transcript.skipped) : c.place ≠ p := by
  intro hp
  have hskipped := TokenStream.mem_pieces_of_skipped hc
  cases h with
  | refused ht =>
      cases piece_unique hskipped (TokenStream.mem_pieces_of_token ht) rfl (congrArg some hp.symm)
  | unread hfault =>
      obtain ⟨taken, hfailed⟩ := TokenStream.exists_mem_pieces_of_fault hfault
      cases piece_unique hskipped hfailed rfl (congrArg some hp.symm)

end

end Transcript

section
variable {source : String} {settings : Settings}

theorem eventsOf_of_rejected {f : Settings.Fault} (h : settings.Rejected f) (source : String) :
    eventsOf source settings = .error (.settings f) := by
  rw [eventsOf, Run.start, h.start_eq]
  rfl

theorem eventsOf_isOk_iff (h : settings.InRange) :
    (∃ events, eventsOf source settings = .ok events) ↔
      ∀ p fault, ¬ (TokenStream.ofText source).transcript.Offence settings.tempoCoupling p fault
        := by
  rw [eventsOf_of_start h.start_eq, ← Transcript.course_fault_eq_none_iff (s := h.state)]
  simp only [Course.result_eq_ok, exists_and_left, exists_eq', and_true]

theorem firstOffence_of_eventsOf (h : settings.InRange) {fault : Fault}
    (hfault : eventsOf source settings = .error fault) :
    (TokenStream.ofText source).transcript.FirstOffence settings.tempoCoupling fault := by
  rw [eventsOf_of_start h.start_eq, Course.result_eq_error] at hfault
  exact Transcript.firstOffence_of_course hfault

end

/-- Collecting the events of a text succeeds just if the settings are in range, all tokens can be
read, each octave exists, no length is by zero and, where tempos count, no tempo is zero. Else the
fault is that of the settings or, if they are in range, the one that stands first in the text. No
skipped character is a fault, and a token without effect is performed in any state. -/
theorem eventsOf_outcome (source : String) (settings : Settings) :
    let x := (TokenStream.ofText source).transcript
    let coupled := settings.tempoCoupling
    ((∃ events, eventsOf source settings = .ok events) ↔
      settings.InRange ∧ x.fault = none ∧
      (∀ t ∈ x.tokens, ∀ n, t.kind = .octave n → 1 ≤ n.toNat ∧ n.toNat ≤ 10) ∧
      (∀ t ∈ x.tokens, t.kind ≠ .length (some 0)) ∧
      (coupled = true → ∀ t ∈ x.tokens, t.kind ≠ .tempo (some 0))) ∧
    (∀ fault, eventsOf source settings = .error fault ↔
      (∃ f, settings.Rejected f ∧ fault = .settings f) ∨
      (settings.InRange ∧ x.FirstOffence coupled fault)) ∧
    (∀ p fault, x.Offence coupled p fault → ∀ c ∈ x.skipped, c.place ≠ p) ∧
    (∀ (s : State) (k : Token.Kind), k.isInert coupled = true →
      s.step coupled k = .ok (s, .silence)) := by
  intro x coupled
  refine ⟨?_, ?_, ?_, ?_⟩
  · by_cases hrange : settings.InRange
    · rw [eventsOf_isOk_iff hrange, Transcript.no_offence_iff]
      exact ⟨fun h => ⟨hrange, h⟩, And.right⟩
    · obtain ⟨f, hf, -⟩ := settings.start_cases.resolve_left fun ⟨h, _⟩ => hrange h
      rw [eventsOf_of_rejected hf]
      constructor
      · rintro ⟨events, hevents⟩
        cases hevents
      · rintro ⟨h, -⟩
        exact absurd h hrange
  · intro fault
    constructor
    · intro hfault
      obtain ⟨hrange, -⟩ | ⟨f, hf, -⟩ := settings.start_cases
      · exact .inr ⟨hrange, firstOffence_of_eventsOf hrange hfault⟩
      · rw [eventsOf_of_rejected hf] at hfault
        exact .inl ⟨f, hf, (Except.error.inj hfault).symm⟩
    · rintro (⟨f, hf, rfl⟩ | ⟨hrange, hfirst⟩)
      · exact eventsOf_of_rejected hf source
      · cases hevents : eventsOf source settings with
        | ok events =>
            obtain ⟨p, hp, -⟩ := hfirst
            exact absurd hp ((eventsOf_isOk_iff hrange).1 ⟨events, hevents⟩ p fault)
        | error fault' => rw [(firstOffence_of_eventsOf hrange hevents).unique hfirst]
  · intro p fault hoffence c hc
    exact hoffence.ne_skipped hc
  · intro s k hk
    exact State.step_of_isInert hk

end MusicMacro
