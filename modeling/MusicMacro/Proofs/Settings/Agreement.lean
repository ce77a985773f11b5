import MusicMacro.Proofs.Run.Acceptance
import MusicMacro.Proofs.Settings.Lines

/-!
Settings that are read and settings that are given. Both are checked alike, so what a text of
settings is refused for is what runs with these settings are refused for, and settings that have
been read are never refused.
-/

namespace MusicMacro

/-- Playing fails as collecting does, whatever the instrument. -/
theorem play_result_eq {ε : Type} [Instrument ε] (source : String) (settings : Settings)
    (instrument : ε) :
    (play source settings instrument).result = (eventsOf source settings).map List.length := by
  unfold play eventsOf
  cases Run.start source settings with
  | error fault => rfl
  | ok r =>
      have hresult := r.play_result instrument 0
      simp only [Nat.zero_add] at hresult
      exact hresult.trans (congrArg _ r.events_eq.symm)

section
variable {settings : Settings} {state : State} (h : settings.start = .ok state) (source : String)
  (f : Settings.Fault)
include h

/-- Settings with which a performance can begin are no fault of any run. -/
theorem eventsOf_ne_settings : eventsOf source settings ≠ .error (.settings f) := by
  rw [eventsOf_of_start h]
  intro hfault
  obtain ⟨p, hanswer⟩ := Transcript.answers_of_fault (Course.result_eq_error.1 hfault)
  cases hanswer

theorem play_ne_settings {ε : Type} [Instrument ε] (instrument : ε) :
    (play source settings instrument).result ≠ .error (.settings f) := by
  have hevents := eventsOf_ne_settings h source f
  rw [play_result_eq]
  cases hresult : eventsOf source settings with
  | ok events => exact nofun
  | error fault =>
      rw [hresult] at hevents
      intro hplay
      exact hevents (congrArg _ (Except.error.inj hplay))

end

namespace Settings

/-- A text and settings that agree: reading the text gives the settings if a performance can begin
with them, and else the one fault for which it cannot. -/
inductive Agrees (s : Settings) (text : String) : Prop
  | accepted {state : State} (hstart : s.start = .ok state) (hread : ofYaml text = .ok s) :
      Agrees s text
  | refused {f : Fault} (hf : s.Rejected f) (hstart : s.start = .error f)
      (hread : ofYaml text = .error f)
      (hrun : ∀ source, eventsOf source s = .error (.settings f)) : Agrees s text

theorem agrees_of_ofYaml {s : Settings} {text : String}
    (h : ofYaml text = s.check.map fun _ => s) : s.Agrees text := by
  obtain ⟨hrange, hstart⟩ | ⟨f, hf, hstart⟩ := s.start_cases
  · refine .accepted hstart ?_
    rw [h, check_eq_start, hstart]
    rfl
  · refine .refused hf hstart ?_ fun source => eventsOf_of_rejected hf source
    rw [h, check_eq_start, hstart]
    rfl

theorem Agrees.read_eq_error {s : Settings} {text : String} {f : Fault} (h : s.Agrees text)
    (hf : s.Rejected f) : ofYaml text = .error f := by
  cases h with
  | accepted hstart =>
      rw [hf.start_eq] at hstart
      cases hstart
  | refused hf' _ hread => rw [hread, hf.unique hf']

theorem keeping_all {c : Settings} {fs : List Field} (h : ∀ f, f ∈ fs) : c.keeping fs = c := by
  simp [keeping, h]

theorem agrees_written {c : Settings} {lines : List Line}
    (h : ∀ l ∈ lines, l.name.length ≤ 1024) (hfields : (lines.filterMap Line.field?).Nodup) :
    (c.keeping (lines.filterMap Line.field?)).Agrees (c.written lines) :=
  agrees_of_ofYaml (ofYaml_written h hfields)

theorem agrees_toYaml (c : Settings) : c.Agrees c.toYaml := by
  have hfields : (Field.all.map Line.field).filterMap Line.field? = Field.all := by decide
  have hagrees : (c.keeping ((Field.all.map Line.field).filterMap Line.field?)).Agrees
      (c.written (Field.all.map .field)) := agrees_written (by decide) (by decide)
  rw [hfields, keeping_all fun f => by cases f <;> decide] at hagrees
  rw [toYaml_eq]
  exact hagrees

/-- What has been read is in range. -/
theorem check_of_ofYaml {text : String} {s : Settings} (h : ofYaml text = .ok s) :
    s.check = .ok () := by
  unfold ofYaml at h
  split at h
  · obtain rfl : {} = s := Except.ok.inj h
    rfl
  · cases hread : ofDocument (.ofText text) with
    | error f =>
        rw [hread] at h
        cases h
    | ok given =>
        rw [hread] at h
        cases hcheck : given.check with
        | error f =>
            change (given.check >>= fun _ => Except.ok given) = _ at h
            rw [hcheck] at h
            cases h
        | ok =>
            change (given.check >>= fun _ => Except.ok given) = _ at h
            rw [hcheck] at h
            obtain rfl : given = s := Except.ok.inj h
            exact hcheck

/-- Settings agree with the text that they are written to, and with any lines that have some of
their fields, each at most once and in any order, among remarks with names that a colon reaches; the
fields without a line then have their defaults. Of any text at all, the settings that are read from
it pass their check, and no run has a fault for them. -/
theorem agrees_lines (c : Settings) (lines : List Line)
    (hnames : ∀ l ∈ lines, l.name.length ≤ 1024)
    (hfields : (lines.filterMap Line.field?).Nodup) :
    c.Agrees c.toYaml ∧
    (c.keeping (lines.filterMap Line.field?)).Agrees (c.written lines) ∧
    ((∀ f, f ∈ lines.filterMap Line.field?) → c.Agrees (c.written lines)) ∧
    ∀ text s, ofYaml text = .ok s → s.check = .ok () ∧ (∃ state, s.start = .ok state) ∧
      ∀ source f, eventsOf source s ≠ .error (.settings f) ∧
        ∀ {ε : Type} [Instrument ε] (instrument : ε),
          (play source s instrument).result ≠ .error (.settings f) := by
  have hwritten := agrees_written (c := c) hnames hfields
  refine ⟨c.agrees_toYaml, hwritten, ?_, ?_⟩
  · intro hall
    rwa [keeping_all hall] at hwritten
  · intro text s h
    have hcheck := check_of_ofYaml h
    have hstart := (inRange_of_check hcheck).start_eq
    refine ⟨hcheck, ⟨_, hstart⟩, ?_⟩
    intro source f
    exact ⟨eventsOf_ne_settings hstart source f, play_ne_settings hstart source f⟩

/-- With the octave left out, what is wrong with the duration is found. -/
theorem agrees_lines_two_faults :
    let c : Settings := ⟨11, 0, true⟩
    let remark : Remark := ⟨['n', 'o', 't', 'e'], ['0', '0', '7'], List.all_eq_true.1 rfl,
      List.all_eq_true.1 rfl, nofun⟩
    let lines : List Line := [.remark remark, .field .tempoCoupling, .field .initialDuration]
    (∀ l ∈ lines, l.name.length ≤ 1024) ∧ (lines.filterMap Line.field?).Nodup ∧
      c.written lines = "x-note: 007\ntempo-coupling: true\ninitial-duration-ms: 0\n" ∧
      ofYaml c.toYaml = .error (.octaveOutOfRange 11) ∧
      ofYaml (c.written lines) = .error (.durationOutOfRange 0) := by
  intro c remark lines
  have hnames : ∀ l ∈ lines, l.name.length ≤ 1024 := by decide
  have hfields : (lines.filterMap Line.field?).Nodup := by decide
  obtain ⟨hyaml, hwritten, -, -⟩ := agrees_lines c lines hnames hfields
  exact ⟨hnames, hfields, by decide +kernel, hyaml.read_eq_error (.octave (by decide)),
    hwritten.read_eq_error (.duration (by decide) (by decide))⟩

/-- A remark may have a name that is too long for a key, and then no settings are read. -/
theorem ofYaml_remark_out_of_reach :
    let name := "x-" ++ String.ofList (List.replicate 1023 'a')
    ({} : Settings).check = .ok () ∧ ofYaml (name ++ ": 1\n") =
      .error (complaint (.scalar { text := name }) .settings { mark := {} }) := by
  intro name
  let remark : Remark := ⟨List.replicate 1023 'a', ['1'],
    fun c hc => by rw [List.eq_of_mem_replicate hc]; rfl, List.all_eq_true.1 rfl, nofun⟩
  have hlong : 1024 < (Line.remark remark).name.length := by
    rw [Line.length_name_remark, List.length_replicate]
    decide
  have htext : ({} : Settings).written [.remark remark] = name ++ ": 1\n" := by
    have hvalue : ": " ++ (String.ofList ['1'] ++ "\n") = ": 1\n" := rfl
    rw [written_singleton, Line.text, String.append_assoc, String.append_assoc, ← hvalue]
    rfl
  rw [← htext]
  exact ⟨rfl, ofYaml_long_name hlong []⟩

end Settings

end MusicMacro
