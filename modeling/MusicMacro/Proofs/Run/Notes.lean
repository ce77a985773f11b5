import MusicMacro.Proofs.Run.Course

/-!
Notes and events. The events of a run come from the notes of its text in order, each in the state
that the run shows behind it.
-/

namespace MusicMacro

theorem State.Steps.exists_note {coupled : Bool} {s next : State} {k : Token.Kind} {e : Event}
    (h : s.Steps coupled k next (.sounded e)) : ∃ letter accidental argument dots,
      k = .note letter accidental argument dots ∧ e = next.sound letter accidental dots := by
  generalize heffect : Effect.sounded e = effect at h
  cases h with
  | note letter accidental argument dots =>
      exact ⟨letter, accidental, argument, dots, rfl, Effect.sounded.inj heffect⟩
  | _ => cases heffect

/-- The notes of a text in order. -/
def Transcript.notes (x : Transcript) : List Token := x.tokens.filter fun t => t.kind.isNote

/-- The answer behind a number of events comes from the note of that number. -/
theorem Transcript.Answers.exists_note {x : Transcript} {coupled : Bool} {s reached : State}
    {n : Nat} {e : Event} {origin : Option Place}
    (h : x.Answers coupled s n (.event e) reached origin) :
    ∃ t letter accidental argument dots, x.notes[n]? = some t ∧
      t.kind = .note letter accidental argument dots ∧
      e = reached.sound letter accidental dots := by
  cases h with
  | @event before after t events state _ _ hsplit hbefore hlength hstep =>
      obtain ⟨letter, accidental, argument, dots, hkind, he⟩ :=
        (State.steps_of_step hstep).exists_note
      refine ⟨t, letter, accidental, argument, dots, ?_, hkind, he⟩
      have hnotes := State.length_events_perform (congrArg Performed.refusal hbefore)
      rw [hbefore, hlength, List.countP_map] at hnotes
      have hfront : (before.filter fun t => t.kind.isNote).length = n := by
        rw [hnotes, List.countP_eq_length_filter]
        rfl
      rw [notes, hsplit, List.filter_append, List.filter_cons_of_pos (by rw [hkind]; rfl), ← hfront,
        List.getElem?_append_right (Nat.le_refl _), Nat.sub_self]
      rfl

namespace Run

theorem length_le_of_event {r : Run} {n : Nat} {e : Event}
    (h : (r.after n).next.answer = .event e) : n ≤ r.inPhases.events.length := by
  induction n generalizing r with
  | zero => exact Nat.zero_le _
  | succ n ih =>
      have hlater := ih h
      rw [inPhases_next]
      cases ha : r.next.answer with
      | event e' => exact Nat.succ_le_succ hlater
      | failed | ended =>
          have hfinished := finished_next (r := r) (by rw [ha]; rfl)
          rw [after, after_of_finished hfinished, next_of_finished hfinished] at h
          cases h

theorem Ready.exists_note {r : Run} (hr : r.Ready) {n : Nat} {e : Event}
    (h : (r.after n).next.answer = .event e) :
    ∃ t letter accidental argument dots, r.stream.transcript.notes[n]? = some t ∧
      t.kind = .note letter accidental argument dots ∧
      e = (r.after (n + 1)).state.sound letter accidental dots := by
  obtain ⟨origin, hanswer, -⟩ := hr.answers_after (length_le_of_event h)
  rw [h] at hanswer
  exact hanswer.exists_note

end Run

end MusicMacro
