import MusicMacro.Proofs.Run.Playing

/-!
Two instruments at the same text. A beeper is sent what a recorder is sent, and its journal is that
of the recorder with a tone behind each event that can be heard.
-/

namespace MusicMacro

namespace Record

/-- How each kind of record reads: its level, its message, and its values under their names. -/
inductive Reads : Record → Level → String → List (String × Value) → Prop
  | skipped (c : Char) (p : Place) : Reads (.skipped ⟨c, p⟩) .warn "skipping unrecognized character"
      [("line", .count p.line), ("column", .count p.column), ("character", .character c)]
  | octaveSet (n : UInt32) : Reads (.octaveSet n) .debug "octave set" [("octave", .word n)]
  | lengthSet (n duration : UInt32) : Reads (.lengthSet n duration) .debug "length set"
      [("denominator", .word n), ("duration_ms", .word duration)]
  | paceSet (tempo : UInt32) (scalar : Rat) : Reads (.paceSet tempo scalar) .debug "rhythm set"
      [("tempo", .word tempo), ("scalar", .double scalar)]
  | event (text : String) (frequency duration : UInt32) :
      Reads (.event text ⟨frequency, duration⟩) .trace "event"
        [("text", .text text), ("frequency", .word frequency), ("duration", .word duration)]
  | tone (frequency duration : UInt32) : Reads (.tone ⟨frequency, duration⟩) .info "tone"
      [("frequency", .word frequency), ("duration_ms", .word duration)]

theorem reads (r : Record) : r.Reads r.level r.message r.fields := by
  cases r <;> constructor

def event? : Record → Option Event
  | .event _ e => some e
  | _ => none

def tone? : Record → Option Event
  | .tone e => some e
  | _ => none

/-- Records of one kind, told apart by a test and put together again from what they hold. -/
theorem filter_eq_map {α : Type} {p : Record → Bool} {kind? : Record → Option α}
    {make : α → Record} (h : ∀ r, Option.guard p r = (kind? r).map make) (rs : List Record) :
    rs.filter p = (rs.filterMap kind?).map make := by
  rw [← List.filterMap_eq_filter, List.map_filterMap]
  exact congrArg (List.filterMap · rs) (funext h)

theorem filter_tone (rs : List Record) :
    rs.filter (fun r => r.level = .info ∧ r.message = "tone") = (rs.filterMap tone?).map .tone := by
  refine filter_eq_map ?_ rs
  intro r
  cases r <;> rfl

/-- A record with what a beeper adds behind it. -/
def sounded : Record → List Record
  | .event text e => .event text e :: Beeper.tones e
  | r => [r]

section
variable {rs : List Record}

/-- The tones that a beeper adds are those of the audible events. -/
theorem tones_of_sounded (h : ∀ r ∈ rs, r.tone? = none) :
    (rs.flatMap sounded).filterMap tone? =
      (rs.filterMap event?).filter fun e => isAudible e.frequency := by
  induction rs with
  | nil => rfl
  | cons r rs ih =>
      obtain ⟨hr, hrs⟩ := List.forall_mem_cons.1 h
      rw [List.flatMap_cons, List.filterMap_append, ih hrs]
      cases r with
      | tone => cases hr
      | event text e =>
          rw [sounded, Beeper.tones, List.filterMap_cons_some (show event? (.event text e) = some e
            from rfl), List.filter_cons]
          split <;> rfl
      | _ => rfl

/-- Without the tones the journal is as it was. -/
theorem filter_sounded (h : ∀ r ∈ rs, r.tone? = none) :
    (rs.flatMap sounded).filter (fun r => r.tone?.isNone) = rs := by
  induction rs with
  | nil => rfl
  | cons r rs ih =>
      obtain ⟨hr, hrs⟩ := List.forall_mem_cons.1 h
      rw [List.flatMap_cons, List.filter_append, ih hrs]
      cases r with
      | tone => cases hr
      | event text e =>
          rw [sounded, Beeper.tones]
          split <;> rfl
      | _ => rfl

/-- Each tone stands directly behind the event that it sounds. -/
def Accompanied (rs : List Record) : Prop :=
  ∀ before after e, rs = before ++ .tone e :: after → ∃ front text, before = front ++ [.event text e]

theorem Accompanied.cons (h : Accompanied rs) {r : Record} (hr : r.tone? = none) :
    Accompanied (r :: rs) := by
  intro before after e hsplit
  cases before with
  | nil =>
      obtain ⟨rfl, -⟩ := List.cons.inj hsplit
      cases hr
  | cons first before =>
      obtain ⟨rfl, hrest⟩ := List.cons.inj hsplit
      obtain ⟨front, text, rfl⟩ := h before after e hrest
      exact ⟨r :: front, text, rfl⟩

theorem Accompanied.event (h : Accompanied rs) (text : String) (e : Event) :
    Accompanied (.event text e :: (Beeper.tones e ++ rs)) := by
  unfold Beeper.tones
  split
  · -- The tone in question is the one that was put in front, or one further behind.
    intro before after e' hsplit
    cases before with
    | nil => cases (List.cons.inj hsplit).1
    | cons first before =>
        obtain ⟨rfl, hrest⟩ := List.cons.inj hsplit
        cases before with
        | nil =>
            obtain ⟨htone, -⟩ := List.cons.inj hrest
            obtain rfl : e = e' := Record.tone.inj htone
            exact ⟨[], text, rfl⟩
        | cons second before =>
            obtain ⟨rfl, hlater⟩ := List.cons.inj hrest
            obtain ⟨front, text', rfl⟩ := h before after e' hlater
            exact ⟨.event text e :: .tone e :: front, text', rfl⟩
  · exact h.cons rfl

theorem accompanied_sounded (h : ∀ r ∈ rs, r.tone? = none) : Accompanied (rs.flatMap sounded) := by
  induction rs with
  | nil =>
      intro before after e hsplit
      simp at hsplit
  | cons r rs ih =>
      obtain ⟨hr, hrs⟩ := List.forall_mem_cons.1 h
      cases r with
      | event text e => exact (ih hrs).event text e
      | _ => exact (ih hrs).cons hr

end

/-- Whether a record is of no sound at all. -/
def Quiet (r : Record) : Prop := r.event? = none ∧ r.tone? = none

/-- Records on the way to an event, which comes last, or to none. No tone is among them. -/
inductive LeadTo : List Record → Option Event → Prop
  | silence {rs : List Record} (h : ∀ r ∈ rs, r.Quiet) : LeadTo rs none
  | event {rs : List Record} (h : ∀ r ∈ rs, r.Quiet) (text : String) (e : Event) :
      LeadTo (rs ++ [.event text e]) (some e)

section
variable {rs : List Record} {answer : Option Event}

theorem LeadTo.append (h : LeadTo rs answer) {before : List Record}
    (hbefore : ∀ r ∈ before, r.Quiet) : LeadTo (before ++ rs) answer := by
  cases h with
  | silence hrs => exact .silence (List.forall_mem_append.2 ⟨hbefore, hrs⟩)
  | @event rs hrs text e =>
      rw [← List.append_assoc]
      exact .event (List.forall_mem_append.2 ⟨hbefore, hrs⟩) text e

theorem LeadTo.quiet (h : LeadTo rs none) : ∀ r ∈ rs, r.Quiet := by
  cases h with
  | silence hrs => exact hrs

theorem LeadTo.no_tone (h : LeadTo rs answer) : ∀ r ∈ rs, r.tone? = none := by
  cases h with
  | silence hrs => exact fun r hr => (hrs r hr).2
  | event hrs =>
      rw [List.forall_mem_append]
      exact ⟨fun r hr => (hrs r hr).2, by simp [tone?]⟩

theorem filterMap_event?_of_quiet (h : ∀ r ∈ rs, r.Quiet) : rs.filterMap event? = [] :=
  List.filterMap_eq_nil_iff.2 fun r hr => (h r hr).1

theorem LeadTo.events (h : LeadTo rs answer) : rs.filterMap event? = answer.toList := by
  cases h with
  | silence hrs => exact filterMap_event?_of_quiet hrs
  | event hrs =>
      rw [List.filterMap_append, filterMap_event?_of_quiet hrs]
      rfl

theorem flatMap_sounded_of_quiet (h : ∀ r ∈ rs, r.Quiet) : rs.flatMap sounded = rs := by
  induction rs with
  | nil => rfl
  | cons r rs ih =>
      obtain ⟨hr, hrs⟩ := List.forall_mem_cons.1 h
      rw [List.flatMap_cons, ih hrs]
      cases r with
      | event => cases hr.1
      | _ => rfl

/-- What a beeper adds to such records stands behind them all. -/
theorem LeadTo.sounded (h : LeadTo rs answer) :
    rs.flatMap sounded = rs ++ (answer.map Beeper.tones).getD [] := by
  cases h with
  | silence hrs => exact (flatMap_sounded_of_quiet hrs).trans (List.append_nil _).symm
  | event hrs =>
      rw [List.flatMap_append, flatMap_sounded_of_quiet hrs]
      simp [Record.sounded]

end

end Record

theorem Effect.records_leadTo (effect : Effect) (text : String) :
    Record.LeadTo (effect.records text) effect.event? := by
  cases effect with
  | sounded event => exact .event (List.forall_mem_nil _) text event
  | _ => exact .silence (by simp [records, Record.Quiet, Record.event?, Record.tone?])

namespace Run

/-- The records of a request lead to its answer. -/
theorem records_leadTo (r : Run) : Record.LeadTo r.next.records r.next.answer.event? := by
  have hskips : ∀ skipped : List Skipped, ∀ x ∈ skipped.map Record.skipped, x.Quiet := by
    intro skipped
    rw [List.forall_mem_map]
    exact fun _ _ => ⟨rfl, rfl⟩
  fun_induction next r with
  | case1 => exact .silence (by simp)
  | case2 | case3 | case4 => exact .silence (hskips _)
  | case5 r hf s behind skips t hs state effect hstep performed records event he =>
      have heffect := effect.records_leadTo t.text
      rw [he] at heffect
      exact heffect.append (hskips _)
  | case6 r hf s behind skips t hs state effect hstep performed records he hlt later ih =>
      have heffect := effect.records_leadTo t.text
      rw [he] at heffect
      exact ih.append (List.forall_mem_append.2 ⟨hskips _, heffect.quiet⟩)

/-- A recorder adds no records of its own: those of the run are its events, and none is a tone. -/
theorem play_recorder_records (r : Run) (old : Recorder) (sent : Nat) :
    (∀ x ∈ (r.play old sent).records, x.tone? = none) ∧
      (r.play old sent).records.filterMap Record.event? = r.course.events := by
  fun_induction course r generalizing old sent with
  | case1 r h | case2 r fault h =>
      have hrecords := r.records_leadTo
      rw [play_next, h]
      rw [h] at hrecords
      exact ⟨hrecords.no_tone, hrecords.events⟩
  | case3 r e h hlt later ih =>
      have hrecords := r.records_leadTo
      rw [h] at hrecords
      obtain ⟨htones, hevents⟩ := ih ⟨old.events ++ [e]⟩ (sent + 1)
      rw [play_next, h]
      dsimp only [Instrument.play]
      rw [List.append_nil, List.forall_mem_append, List.filterMap_append, hrecords.events, hevents]
      exact ⟨⟨hrecords.no_tone, htones⟩, rfl⟩

/-- A beeper adds the tones of the events. -/
theorem play_beeper_records (r : Run) (b : Beeper) (old : Recorder) (sent : Nat) :
    (r.play b sent).records = (r.play old sent).records.flatMap Record.sounded := by
  fun_induction course r generalizing b old sent with
  | case1 r h | case2 r fault h =>
      have hrecords := r.records_leadTo.sounded
      rw [h] at hrecords
      rw [play_next, play_next, h]
      exact (hrecords.trans (List.append_nil _)).symm
  | case3 r e h hlt later ih =>
      have hrecords := r.records_leadTo.sounded
      rw [h] at hrecords
      rw [play_next, play_next, h]
      dsimp only [Instrument.play]
      rw [ih b ⟨old.events ++ [e]⟩ (sent + 1), List.append_nil, List.flatMap_append, hrecords]
      rfl

end Run

namespace Recorder

theorem toNat_foldl_duration (es : List Event) (sum : UInt64)
    (h : sum.toNat + es.length * 4294967295 < 18446744073709551616) :
    (es.foldl (fun sum e => sum + UInt64.ofNat e.duration.toNat) sum).toNat =
      sum.toNat + (es.map fun e => e.duration.toNat).sum := by
  induction es generalizing sum with
  | nil => rfl
  | cons e es ih =>
      have hlt := e.duration.toNat_lt
      rw [List.length_cons] at h
      have hadd : (sum + UInt64.ofNat e.duration.toNat).toNat = sum.toNat + e.duration.toNat := by
        rw [UInt64.toNat_add, UInt64.toNat_ofNat']
        omega
      rw [List.foldl_cons, ih _ (by omega), hadd, List.map_cons, List.sum_cons, Nat.add_assoc]

/-- Of up to 2 ^ 32 events the total duration is the exact sum. -/
theorem toNat_totalDuration (r : Recorder) (h : r.events.length ≤ 4294967296) :
    r.totalDuration.toNat = (r.audible.map fun e => e.duration.toNat).sum := by
  have hlength : r.audible.length ≤ r.events.length := List.length_filter_le _ _
  rw [totalDuration, toNat_foldl_duration]
  · exact Nat.zero_add _
  · rw [UInt64.toNat_zero]
    omega

end Recorder

/-- The journals of a beeper and of a new recorder. -/
theorem play_records (source : String) (settings : Settings) (b : Beeper) :
    let recorded := play source settings ({} : Recorder)
    (play source settings b).records = recorded.records.flatMap Record.sounded ∧
    (∀ r ∈ recorded.records, r.tone? = none) ∧
    recorded.records.filterMap Record.event? = recorded.instrument.events := by
  intro recorded
  unfold recorded play
  cases Run.start source settings with
  | error fault => exact ⟨rfl, List.forall_mem_nil _, rfl⟩
  | ok r =>
      obtain ⟨htones, hevents⟩ := r.play_recorder_records {} 0
      refine ⟨r.play_beeper_records b {} 0, htones, hevents.trans ?_⟩
      rw [r.play_recorder {} 0]
      rfl

/-- A beeper and a new recorder agree on every text and all settings. They are sent the same number
of events or see the same fault. The tones of the beeper are the audible events of the recorder and
take its total duration, if it counts that far. They are the records of level INFO that read as a
tone. Without them the journal of the beeper is that of the recorder, and each of them stands
directly behind its event. -/
theorem play_beeper_recorder (source : String) (settings : Settings) (b : Beeper) :
    let timed := play source settings b
    let recorded := play source settings ({} : Recorder)
    let tones := timed.records.filterMap Record.tone?
    timed.result = recorded.result ∧
    tones = recorded.instrument.audible ∧
    (recorded.instrument.events.length ≤ 4294967296 →
      (tones.map fun e => e.duration.toNat).sum = recorded.instrument.totalDuration.toNat) ∧
    timed.records.filter (fun r => r.tone?.isNone) = recorded.records ∧
    Record.Accompanied timed.records ∧
    (∀ r ∈ timed.records, r.Reads r.level r.message r.fields) ∧
    timed.records.filter (fun r => r.level = .info ∧ r.message = "tone") = tones.map .tone := by
  intro timed recorded tones
  obtain ⟨hrecords, htones, hevents⟩ := play_records source settings b
  have haudible : tones = recorded.instrument.audible := by
    unfold tones timed
    rw [hrecords, Record.tones_of_sounded htones, hevents]
    rfl
  refine ⟨?_, haudible, ?_, ?_, ?_, fun r _ => r.reads, Record.filter_tone timed.records⟩
  · unfold timed recorded play
    cases Run.start source settings with
    | error fault => rfl
    | ok r => exact (r.play_result b 0).trans (r.play_result ({} : Recorder) 0).symm
  · intro hlength
    rw [haudible, Recorder.toNat_totalDuration _ hlength]
  · exact (congrArg _ hrecords).trans (Record.filter_sounded htones)
  · exact (congrArg Record.Accompanied hrecords).mpr (Record.accompanied_sounded htones)

end MusicMacro
