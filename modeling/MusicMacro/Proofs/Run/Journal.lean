import MusicMacro.Proofs.Run.Instruments

/-!
The journal of a text. A run that is played records the pieces of its text in order, each in the
state behind the pieces before it, up to the first token that cannot be read or performed.
-/

namespace MusicMacro

/-- What a search passes on its way are separators and skipped characters. -/
theorem Search.exists_gap (k : Cursor) (cs : List Char) : ∃ gap : List Piece,
    (∀ q ∈ gap, q.origin? = none) ∧ gap.filterMap Piece.skipped? = (run k cs).skipped ∧
      match (run k cs).find with
      | .ended => pieces k.place cs = gap
      | .failed fault => ∃ taken, pieces k.place cs = gap ++ [.failed fault taken]
      | .token t =>
        pieces k.place cs = gap ++ .token t :: pieces (run k cs).cursor.place (run k cs).rest := by
  induction cs generalizing k with
  | nil => exact ⟨[], List.forall_mem_nil _, rfl, pieces_nil _⟩
  | cons c cs ih =>
      obtain ⟨gap, hgap, hskipped, hfind⟩ := ih (k.after c)
      cases hc : isSeparator c with
      | true =>
          refine ⟨.separator c :: gap, List.forall_mem_cons.2 ⟨rfl, hgap⟩, ?_, ?_⟩
          · rw [run_separator hc]
            exact hskipped
          · rw [run_separator hc, pieces_separator hc]
            split at hfind
            · exact congrArg _ hfind
            · obtain ⟨taken, htaken⟩ := hfind
              exact ⟨taken, congrArg _ htaken⟩
            · exact congrArg _ hfind
      | false =>
          cases hr : Reading.ofText c cs with
          | token kind taken rest =>
              refine ⟨[], List.forall_mem_nil _, by rw [run_token hc hr]; rfl, ?_⟩
              rw [run_token hc hr, pieces_token hc hr, Cursor.place_past]
              rfl
          | failed cause taken rest =>
              refine ⟨[], List.forall_mem_nil _, by rw [run_failed hc hr]; rfl, ?_⟩
              rw [run_failed hc hr, pieces_failed hc hr]
              exact ⟨taken, rfl⟩
          | unknown =>
              refine ⟨.skipped ⟨c, k.place⟩ :: gap, List.forall_mem_cons.2 ⟨rfl, hgap⟩, ?_, ?_⟩
              · rw [run_unknown hc hr]
                exact congrArg _ hskipped
              · rw [run_unknown hc hr, pieces_unknown hc hr]
                split at hfind
                next h =>
                  simp only [h]
                  exact congrArg _ hfind
                next h =>
                  obtain ⟨taken, htaken⟩ := hfind
                  simp only [h]
                  exact ⟨taken, congrArg _ htaken⟩
                next h =>
                  simp only [h]
                  exact congrArg _ hfind

namespace Piece

/-- Whether a piece is no token, or one that can be read and performed. -/
def isAllowed (coupled : Bool) : Piece → Bool
  | .token t => t.kind.isAllowed coupled
  | .failed .. => false
  | _ => true

/-- What is recorded of a piece, given the states before and behind it. -/
def records (coupled : Bool) (before behind : State) : Piece → List Record
  | .skipped s => [.skipped s]
  | .token t => match t.kind with
    | .note letter accidental _ dots => [.event t.text (before.sound letter accidental dots)]
    | .octave n => [.octaveSet n]
    | .length (some n) => [.lengthSet n behind.duration]
    | .tempo (some n) => if coupled then [.paceSet n behind.pace.scalar] else []
    | _ => []
  | _ => []

/-- The token that a fault comes from, as it cannot be read or is refused. -/
inductive Causes (coupled : Bool) : Piece → Fault → Prop
  | unread (fault : LexicalFault) (taken : List Char) :
      Causes coupled (.failed fault taken) (.lexical fault)
  | refused {t : Token} {refusal : Refusal} (h : t.kind.Refused coupled refusal) :
      Causes coupled (.token t) (.refused refusal)

/-- The pieces of a text up to the first token that cannot be read or performed. -/
def performed (coupled : Bool) (ps : List Piece) : List Piece := ps.takeWhile (isAllowed coupled)

variable {coupled : Bool}

theorem isAllowed_of_origin? {q : Piece} (h : q.origin? = none) : q.isAllowed coupled = true := by
  cases q with
  | token | failed => cases h
  | separator | skipped => rfl

theorem performed_append {gap : List Piece} (h : ∀ q ∈ gap, q.origin? = none) (ps : List Piece) :
    performed coupled (gap ++ ps) = gap ++ performed coupled ps :=
  List.takeWhile_append_of_pos fun q hq => isAllowed_of_origin? (h q hq)

variable {q : Piece} {ps : List Piece}

theorem performed_cons (h : q.isAllowed coupled = true) :
    performed coupled (q :: ps) = q :: performed coupled ps :=
  List.takeWhile_cons_of_pos h

theorem performed_of_not_isAllowed (h : q.isAllowed coupled = false) :
    performed coupled (q :: ps) = [] :=
  List.takeWhile_cons_of_neg (by rw [h]; exact Bool.false_ne_true)

section
variable {s next : State} {t : Token} {effect : Effect}

theorem isAllowed_of_step (h : s.step coupled t.kind = .ok (next, effect)) :
    (token t).isAllowed coupled = true := by
  by_contra hk
  obtain ⟨refusal, hstep⟩ := State.step_of_not_isAllowed (s := s) (Bool.not_eq_true _ ▸ hk)
  rw [h] at hstep
  cases hstep

theorem isAllowed_eq_false {refusal : Refusal} (h : s.step coupled t.kind = .error refusal) :
    (token t).isAllowed coupled = false := by
  by_contra hk
  obtain ⟨next, effect, hstep⟩ := State.step_of_isAllowed (s := s) (Bool.not_eq_false _ ▸ hk)
  rw [h] at hstep
  cases hstep

end

/-- Pieces that all are performed, or the first of the others with the fault that comes from it. -/
inductive StopsWith (coupled : Bool) : List Piece → Option Fault → Prop
  | ended : StopsWith coupled [] none
  | cause {q : Piece} {after : List Piece} {fault : Fault} (h : q.isAllowed coupled = false)
      (hq : q.Causes coupled fault) : StopsWith coupled (q :: after) (some fault)
  | cons {q : Piece} {ps : List Piece} {fault : Option Fault} (h : q.isAllowed coupled = true)
      (hps : StopsWith coupled ps fault) : StopsWith coupled (q :: ps) fault

theorem StopsWith.performed_eq (h : StopsWith coupled ps none) : performed coupled ps = ps := by
  generalize hfault : (none : Option Fault) = fault at h
  induction h with
  | ended => rfl
  | cause => cases hfault
  | cons hq hps ih => rw [performed_cons hq, ih hfault]

theorem StopsWith.exists_cause {fault : Fault} (h : StopsWith coupled ps (some fault)) :
    ∃ q after, ps = performed coupled ps ++ q :: after ∧ q.Causes coupled fault := by
  generalize hfault : some fault = f at h
  induction h with
  | ended => cases hfault
  | @cause q after fault' hq hcauses =>
      obtain rfl := Option.some.inj hfault
      rw [performed_of_not_isAllowed hq]
      exact ⟨q, after, rfl, hcauses⟩
  | @cons q ps f hq hps ih =>
      obtain ⟨q', after, hsplit, hcauses⟩ := ih hfault
      rw [performed_cons hq]
      exact ⟨q', after, congrArg (q :: ·) hsplit, hcauses⟩

end Piece

/-- The first fault of a course comes from the first piece that is not performed. -/
theorem Transcript.stopsWith_course_fault (coupled : Bool) (s : State) (p : Place)
    (cs : List Char) : Piece.StopsWith coupled (pieces p cs)
      ((ofPieces (pieces p cs)).course coupled s).fault := by
  induction p, cs using pieces_induction generalizing s with
  | nil p =>
      rw [pieces_nil]
      exact .ended
  | separator p c cs hc ih =>
      rw [pieces_separator hc]
      exact (ih s).cons rfl
  | unknown p c cs hc hr ih =>
      rw [pieces_unknown hc hr]
      exact (ih s).cons rfl
  | failed p c cs cause taken rest hc hr =>
      rw [pieces_failed hc hr]
      exact .cause rfl (.unread _ taken)
  | token p c cs kind taken rest hc hr ih =>
      rw [pieces_token hc hr, ofPieces_token]
      cases hstep : s.step coupled kind with
      | error refusal =>
          rw [course_refused hstep]
          exact .cause (Piece.isAllowed_eq_false hstep) (.refused (State.step_eq_error_iff.1 hstep))
      | ok result =>
          obtain ⟨next, effect⟩ := result
          rw [course_cons hstep]
          exact (ih next).cons (Piece.isAllowed_of_step hstep)

namespace State

variable {coupled : Bool} {s next : State} {t : Token} {effect : Effect}

/-- The state behind a piece. -/
def behind (coupled : Bool) (s : State) (q : Piece) : State :=
  (s.perform coupled (q.token?.toList.map Token.kind)).state

/-- What is recorded of pieces, one after the other. -/
def journal (coupled : Bool) (s : State) : List Piece → List Record
  | [] => []
  | q :: ps => q.records coupled s (s.behind coupled q) ++ (s.behind coupled q).journal coupled ps

theorem behind_token (h : s.step coupled t.kind = .ok (next, effect)) :
    s.behind coupled (.token t) = next := by
  change (s.perform coupled [t.kind]).state = next
  rw [perform_ok h]
  rfl

/-- A token is recorded by its effect. -/
theorem Steps.records_eq (h : s.Steps coupled t.kind next effect) :
    (Piece.token t).records coupled s next = effect.records t.text := by
  obtain ⟨k, operator, text, place⟩ := t
  cases h with
  | tempo hc => exact if_pos hc
  | inert hk =>
      cases k with
      | note | octave => exact absurd hk Bool.false_ne_true
      | length argument =>
          obtain rfl : argument = none := Option.isNone_iff_eq_none.1 hk
          rfl
      | tempo argument =>
          cases argument with
          | none => rfl
          | some n =>
              obtain rfl : coupled = false := by simpa [Token.Kind.isInert] using hk
              rfl
      | _ => rfl
  | _ => rfl

theorem journal_token (h : s.step coupled t.kind = .ok (next, effect)) (ps : List Piece) :
    s.journal coupled (.token t :: ps) = effect.records t.text ++ next.journal coupled ps := by
  rw [journal, behind_token h, (steps_of_step h).records_eq]

theorem journal_append {gap : List Piece} (h : ∀ q ∈ gap, q.origin? = none) (ps : List Piece) :
    s.journal coupled (gap ++ ps) =
      (gap.filterMap Piece.skipped?).map Record.skipped ++ s.journal coupled ps := by
  induction gap with
  | nil => rfl
  | cons q gap ih =>
      obtain ⟨hq, hgap⟩ := List.forall_mem_cons.1 h
      rw [List.cons_append, journal]
      cases q with
      | token | failed => cases hq
      | separator c => exact ih hgap
      | skipped c => exact congrArg (Record.skipped c :: ·) (ih hgap)

end State

namespace Record

def skipped? : Record → Option Skipped
  | .skipped s => some s
  | _ => none

theorem filter_warn (rs : List Record) :
    rs.filter (fun r => r.level = .warn) = (rs.filterMap skipped?).map .skipped := by
  refine filter_eq_map ?_ rs
  intro r
  cases r <;> rfl

theorem filter_trace (rs : List Record) :
    (rs.filter fun r => r.level = .trace).map event? = (rs.filterMap event?).map some := by
  induction rs with
  | nil => rfl
  | cons r rs ih =>
      cases r with
      | event text e => exact congrArg (some e :: ·) ih
      | _ => exact ih

end Record

theorem Effect.skipped_records (effect : Effect) (text : String) :
    (effect.records text).filterMap Record.skipped? = [] := by
  cases effect <;> rfl

namespace Run

/-- The journal of what is left of a run. -/
def journal (r : Run) : List Record :=
  if r.finished then []
  else r.state.journal r.coupled
    (Piece.performed r.coupled (pieces r.stream.cursor.place r.stream.rest))

theorem journal_of_finished {r : Run} (h : r.finished = true) : r.journal = [] := if_pos h

/-- First in a journal are the characters that the search for a token skips, then comes what is
recorded from that token on. -/
theorem Ready.journal_eq {r : Run} (h : r.Ready) :
    r.journal = r.stream.search.skipped.map .skipped ++
      match r.stream.search.find with
      | .token t => r.state.journal r.coupled (Piece.performed r.coupled
          (.token t :: pieces r.stream.search.cursor.place r.stream.search.rest))
      | _ => [] := by
  obtain ⟨gap, hgap, hskipped, hfind⟩ := Search.exists_gap r.stream.cursor r.stream.rest
  rw [← TokenStream.search_eq_run h.readable] at hskipped hfind
  have hfront : ∀ ps, r.state.journal r.coupled (Piece.performed r.coupled (gap ++ ps)) =
      r.stream.search.skipped.map .skipped ++
        r.state.journal r.coupled (Piece.performed r.coupled ps) := by
    intro ps
    rw [Piece.performed_append hgap, State.journal_append hgap, hskipped]
  rw [journal, h.unfinished, if_neg Bool.false_ne_true]
  split at hfind
  next hs =>
    rw [hfind, ← List.append_nil gap, hfront, hs]
    rfl
  next hs =>
    obtain ⟨taken, htaken⟩ := hfind
    rw [htaken, hfront, hs]
    rfl
  next t hs => rw [hfind, hfront, hs]

/-- A request records the front of the journal. -/
theorem Ready.journal_next {r : Run} (h : r.Ready) :
    r.journal = r.next.records ++ r.next.run.journal := by
  have hjournal := h.journal_eq
  fun_induction next r with
  | case1 r hf => exact absurd hf (by rw [h.unfinished]; exact Bool.false_ne_true)
  | case2 r hf s behind skips hs | case3 r hf s behind skips fault hs =>
      rw [hjournal, hs]
      rfl
  | case4 r hf s behind skips t hs refusal hstep =>
      rw [hjournal, hs]
      dsimp only
      rw [Piece.performed_of_not_isAllowed (Piece.isAllowed_eq_false hstep)]
      rfl
  | case5 r hf s behind skips t hs state effect hstep performed records event he =>
      rw [hjournal, hs]
      dsimp only
      rw [Piece.performed_cons (Piece.isAllowed_of_step hstep), State.journal_token hstep,
        ← List.append_assoc, journal, if_neg hf]
      rfl
  | case6 r hf s behind skips t hs state effect hstep performed records he hlt later ih =>
      have hready : performed.Ready := h.perform hs state
      rw [hjournal, hs]
      dsimp only
      rw [Piece.performed_cons (Piece.isAllowed_of_step hstep), State.journal_token hstep,
        List.append_assoc, ← ih hready hready.journal_eq, ← List.append_assoc, journal, if_neg hf]
      rfl

/-- A request adds the characters that it records to those that were skipped. -/
theorem skipped_next (r : Run) :
    r.next.run.stream.skipped = r.stream.skipped ++ r.next.records.filterMap Record.skipped? := by
  have hskips : ∀ skipped : List Skipped,
      (skipped.map Record.skipped).filterMap Record.skipped? = skipped := by
    intro skipped
    rw [List.filterMap_map]
    exact List.filterMap_some
  fun_induction next r with
  | case1 => exact (List.append_nil _).symm
  | case2 | case3 | case4 => rw [hskips]; rfl
  | case5 r hf s behind skips t hs state effect hstep performed records event he =>
      rw [List.filterMap_append, hskips, effect.skipped_records, List.append_nil]
      rfl
  | case6 r hf s behind skips t hs state effect hstep performed records he hlt later ih =>
      rw [List.filterMap_append, List.filterMap_append, hskips, effect.skipped_records,
        List.append_nil, ← List.append_assoc]
      exact ih

/-- Of the characters of a text, what has been skipped and what the journal is still to tell are
always the same together. -/
theorem Ready.skipped_after {r : Run} (h : r.Ready) (n : Nat) :
    (r.after n).stream.skipped ++ (r.after n).journal.filterMap Record.skipped? =
      r.stream.skipped ++ r.journal.filterMap Record.skipped? := by
  induction n generalizing r with
  | zero => rfl
  | succ n ih =>
      rw [h.journal_next, List.filterMap_append, ← List.append_assoc, ← skipped_next]
      cases ha : r.next.answer with
      | event e => exact ih (h.continues ha).ready
      | failed fault | ended =>
          have hfinished := finished_next (r := r) (by rw [ha]; rfl)
          exact congrArg (fun x : Run => x.stream.skipped ++ x.journal.filterMap Record.skipped?)
            (after_of_finished hfinished n)

/-- Behind its last event the next request finishes a run. -/
theorem finished_after_course (r : Run) :
    (r.after (r.course.events.length + 1)).finished = true := by
  fun_induction course r with
  | case1 r h | case2 r fault h => exact finished_next (by rw [h]; rfl)
  | case3 r e h hlt later ih => exact ih

theorem finished_after {r : Run} {n : Nat} (h : r.course.events.length < n) :
    (r.after n).finished = true := by
  obtain ⟨m, rfl⟩ := Nat.exists_eq_add_of_le h
  rw [Nat.succ_eq_add_one, after_add, after_of_finished r.finished_after_course]
  exact r.finished_after_course

theorem Ready.play_records {r : Run} (h : r.Ready) (old : Recorder) (sent : Nat) :
    (r.play old sent).records = r.journal := by
  fun_induction course r generalizing old sent with
  | case1 r ha | case2 r fault ha =>
      rw [play_next, ha, h.journal_next, journal_of_finished (finished_next (by rw [ha]; rfl))]
      exact (List.append_nil _).symm
  | case3 r e ha hlt later ih =>
      rw [play_next, ha, h.journal_next, ← ih (h.continues ha).ready ⟨old.events ++ [e]⟩ (sent + 1)]
      dsimp only [Instrument.play]
      rw [List.append_nil]

theorem Ready.skipped_eq {r : Run} (h : r.Ready) {n : Nat} (hn : r.course.events.length < n) :
    (r.after n).stream.skipped = r.stream.skipped ++ r.journal.filterMap Record.skipped? := by
  rw [← h.skipped_after n, journal_of_finished (finished_after hn)]
  exact (List.append_nil _).symm

end Run

/-- A text is played to its end, or up to the piece that the fault comes from. -/
theorem stopsWith_of_play {settings : Settings} {s : State} (h : settings.start = .ok s)
    (source : String) (old : Recorder) :
    let played := play source settings old
    let stopsWith := Piece.StopsWith settings.tempoCoupling (pieces {} source.toList)
    (∀ n, played.result = .ok n → stopsWith none) ∧
    ∀ fault, played.result = .error fault → stopsWith (some fault) := by
  intro played stopsWith
  let c := (TokenStream.ofText source).transcript.course settings.tempoCoupling s
  have hstops : stopsWith c.fault := by
    unfold c
    rw [TokenStream.transcript_ofText]
    exact Transcript.stopsWith_course_fault _ s {} source.toList
  rw [show played.result = c.result.map List.length from (play_of_start h source old).1]
  cases hcourse : c.result with
  | ok events =>
      rw [(Course.result_eq_ok.1 hcourse).1] at hstops
      exact ⟨fun _ _ => hstops, nofun⟩
  | error fault =>
      rw [Course.result_eq_error.1 hcourse] at hstops
      refine ⟨nofun, ?_⟩
      intro fault' hfault
      obtain rfl : fault = fault' := Except.error.inj hfault
      exact hstops

/-- The records of a text that is played are those of its pieces in order, up to the first token
that cannot be read or performed, and this token is where the fault comes from. The warnings are the
characters that have been skipped when the run is finished, the traces are the events that the
recorder has been sent. Each record reads as its kind does. Settings that are refused leave no
record. -/
theorem play_journal (source : String) (settings : Settings) (old : Recorder) :
    let played := play source settings old
    let all := pieces {} source.toList
    let performed := Piece.performed settings.tempoCoupling all
    (∀ fault, settings.start = .error fault → played.records = []) ∧
    (∀ s, settings.start = .ok s →
      played.records = s.journal settings.tempoCoupling performed ∧
      (∀ x ∈ played.records, x.Reads x.level x.message x.fields) ∧
      (∀ n, played.result = .ok n → performed = all) ∧
      (∀ fault, played.result = .error fault → ∃ q after, all = performed ++ q :: after ∧
        q.Causes settings.tempoCoupling fault) ∧
      ∃ r events, Run.start source settings = .ok r ∧
        played.instrument.events = old.events ++ events ∧
        (played.records.filter fun x => x.level = .trace).map Record.event? = events.map some ∧
        ∀ n, events.length < n → played.records.filter (fun x => x.level = .warn) =
          (r.after n).stream.skipped.map .skipped) := by
  intro played all performed
  constructor
  · intro fault h
    unfold played play
    rw [Run.start, h]
  · intro s h
    let r : Run := ⟨.ofText source, settings.tempoCoupling, s, false⟩
    have hready : r.Ready := Run.ready_start
    have hstart : Run.start source settings = .ok r := by rw [Run.start, h]
    have hplayed : played = r.play old 0 := by
      unfold played play
      rw [hstart]
    have hrecords : played.records = r.journal := by rw [hplayed, hready.play_records]
    obtain ⟨hended, hstopped⟩ := stopsWith_of_play h source old
    refine ⟨hrecords, fun x _ => x.reads, ?_, ?_, r, r.course.events, hstart, ?_, ?_, ?_⟩
    · intro n hn
      exact (hended n hn).performed_eq
    · intro fault hfault
      exact (hstopped fault hfault).exists_cause
    · rw [hplayed, r.play_recorder old 0]
    · rw [Record.filter_trace, hplayed, (r.play_recorder_records old 0).2]
    · intro n hn
      rw [Record.filter_warn, hready.skipped_eq hn, hrecords]
      rfl

/-- Nothing is recorded of the octave that is refused, nor of what stands behind it. -/
example : (play "C?L4O11?D" {} ({} : Recorder)).records =
    [.event "C" ⟨16, 200⟩, .skipped ⟨'?', ⟨1, 2⟩⟩, .lengthSet 4 500] := by decide +kernel

end MusicMacro
