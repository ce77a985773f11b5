import MusicMacro.CommandLine
import MusicMacro.Proofs.Run.Instruments
import MusicMacro.Proofs.Run.Printing
import MusicMacro.Proofs.Settings.Agreement
import MusicMacro.Proofs.Text.Slice

/-!
Printing and sounding the same score. Both commands succeed on the same arguments. Otherwise both
report the first thing that is wrong: the arguments, the file, its settings, or the score.
-/

namespace MusicMacro.CommandLine

/-- The arguments that are accepted, with the path and the score that they give. Any text is a
score, also the name of the option. -/
inductive Accepts : List String → Option String → String → Prop
  | alone (score : String) : Accepts [score] none score
  | configured (path score : String) : Accepts ["--config", path, score] (some path) score

/-- The settings for a score: the defaults, or those of the file that is named. -/
inductive Configured (files : Files) : Option String → Settings → Prop
  | default : Configured files none {}
  | named {path text : String} {settings : Settings} (hfile : files path = .ok text.toByteArray)
      (hread : Settings.ofYaml text = .ok settings) : Configured files (some path) settings

/-- What is wrong with a file of settings: it cannot be read, it is no text, or no settings are read
from its text. -/
inductive Misconfigured (files : Files) (path : String) : Failure → Prop
  | unread {fault : FileFault} (hfile : files path = .error fault) :
      Misconfigured files path (.file path fault)
  | notText {bytes : ByteArray} (hfile : files path = .ok bytes) (htext : ¬ bytes.IsValidUTF8) :
      Misconfigured files path (.file path .notText)
  | settings {text : String} {fault : Settings.Fault} (hfile : files path = .ok text.toByteArray)
      (hread : Settings.ofYaml text = .error fault) : Misconfigured files path (.settings fault)

/-- Arguments that are accepted and name a score with events. -/
inductive Performs (files : Files) (args : List String) (events : List Event) : Prop
  | intro {path? : Option String} {score : String} {settings : Settings}
      (hargs : Accepts args path? score) (hconfig : Configured files path? settings)
      (hscore : eventsOf score settings = .ok events)

/-- The first thing that is wrong. -/
inductive Fails (files : Files) (args : List String) : Failure → Prop
  | usage (hargs : ∀ path? score, ¬ Accepts args path? score) : Fails files args .usage
  | config {path score : String} {failure : Failure} (hargs : Accepts args (some path) score)
      (hconfig : Misconfigured files path failure) : Fails files args failure
  | performance {path? : Option String} {score : String} {settings : Settings} {fault : Fault}
      (hargs : Accepts args path? score) (hconfig : Configured files path? settings)
      (hscore : eventsOf score settings = .error fault) : Fails files args (.performance fault)

/-- The wording of what is wrong with a score: the token that cannot be read, with its place, or the
number that is refused. -/
inductive Says : Fault → String → Prop
  | missingArgument (c : Char) (p : Place) : Says (.lexical ⟨.missingArgument c, p⟩)
      ("Parse error at line " ++ Nat.repr p.line ++ ", column " ++ Nat.repr p.column ++ ": " ++
        ("'" ++ c.toString ++ "' requires a numeric argument"))
  | numberTooLarge (digits : String) (p : Place) : Says (.lexical ⟨.numberTooLarge digits, p⟩)
      ("Parse error at line " ++ Nat.repr p.line ++ ", column " ++ Nat.repr p.column ++ ": " ++
        ("Number '" ++ digits ++ "' is too large"))
  | octave (n : UInt32) : Says (.refused (.octave n))
      ("Octave " ++ Nat.repr n.toNat ++ " is outside the supported range 1-10")
  | length (n : UInt32) : Says (.refused (.length n)) ("Invalid note length: " ++ Nat.repr n.toNat)
  | tempo (n : UInt32) : Says (.refused (.tempo n)) ("Invalid tempo: " ++ Nat.repr n.toNat)

/-- The wording of what is wrong with settings. A document that holds none is refused in the words
of its reader. -/
inductive Refuses : Settings.Fault → String → Prop
  | octave (n : UInt32) : Refuses (.octaveOutOfRange n)
      ("initial-octave must be between 1 and 10, got " ++ Nat.repr n.toNat)
  | duration (n : UInt32) : Refuses (.durationOutOfRange n)
      ("initial-duration-ms must be between 1 and 60000, got " ++ Nat.repr n.toNat)
  | document {fault : Settings.Fault} (h : ∀ settings : Settings, ¬ settings.Rejected fault) :
      Refuses fault fault.detail

/-- What is reported of each stage. A file that cannot be read is reported with the reason that was
given for it. -/
inductive Reports : Failure → String → Prop
  | usage : Reports .usage
      ("Usage: mml table\n" ++
        "       mml events [--config <config.yaml>] <notation>\n" ++
        "       mml play [--config <config.yaml>] <notation>")
  | notText (path : String) : Reports (.file path .notText)
      ("Error reading config '" ++ path ++ "': " ++ "stream did not contain valid UTF-8")
  | unread (path : String) {fault : FileFault} (h : fault ≠ .notText) :
      Reports (.file path fault) ("Error reading config '" ++ path ++ "': " ++ fault.message)
  | settings {fault : Settings.Fault} {text : String} (h : Refuses fault text) :
      Reports (.settings fault) ("Invalid configuration: " ++ text)
  | performance {fault : Fault} {text : String} (h : Says fault text) :
      Reports (.performance fault) ("Interpretation error: " ++ text)

/-- The events that arguments come to, or the first thing that is wrong. -/
def collect (files : Files) (args : List String) : Except Failure (List Event) :=
  match Invocation.ofArgs? args with
  | none => .error .usage
  | some i => match i.settings files with
    | .error failure => .error failure
    | .ok settings => (eventsOf i.score settings).mapError .performance

section
variable {files : Files} {args : List String} {path? : Option String} {path score : String}
  {settings : Settings} {failure : Failure} {events : List Event}

theorem Accepts.ofArgs?_eq (h : Accepts args path? score) :
    Invocation.ofArgs? args = some ⟨path?, score⟩ := by
  cases h <;> simp [Invocation.ofArgs?]

theorem accepts_of_ofArgs? {i : Invocation} (h : Invocation.ofArgs? args = some i) :
    Accepts args i.path i.score := by
  unfold Invocation.ofArgs? at h
  split at h <;> cases h
  · exact .configured _ _
  · exact .alone _

theorem readText_of_text {text : String} (h : files path = .ok text.toByteArray) :
    readText files path = .ok text := by
  simp only [readText, h, Text.fromUTF8?_toByteArray]

theorem Configured.settings_eq (h : Configured files path? settings) (score : String) :
    Invocation.settings files ⟨path?, score⟩ = .ok settings := by
  cases h with
  | default => rfl
  | named hfile hread =>
      simp only [Invocation.settings, readText_of_text hfile, Except.bind, hread]
      rfl

theorem Misconfigured.settings_eq (h : Misconfigured files path failure) (score : String) :
    Invocation.settings files ⟨some path, score⟩ = .error failure := by
  cases h with
  | unread hfile =>
      simp only [Invocation.settings, readText, hfile]
      rfl
  | notText hfile htext =>
      simp only [Invocation.settings, readText, hfile, String.fromUTF8?, dif_neg htext]
      rfl
  | settings hfile hread =>
      simp only [Invocation.settings, readText_of_text hfile, Except.bind, hread]
      rfl

theorem configured_or_misconfigured (files : Files) (path? : Option String) :
    (∃ settings, Configured files path? settings) ∨
      ∃ path failure, path? = some path ∧ Misconfigured files path failure := by
  cases path? with
  | none => exact .inl ⟨_, .default⟩
  | some path =>
      cases hfile : files path with
      | error fault => exact .inr ⟨path, _, rfl, .unread hfile⟩
      | ok bytes =>
          by_cases htext : bytes.IsValidUTF8
          · have hbytes : files path = .ok (String.fromUTF8 bytes htext).toByteArray := hfile
            cases hread : Settings.ofYaml (String.fromUTF8 bytes htext) with
            | error fault => exact .inr ⟨path, _, rfl, .settings hbytes hread⟩
            | ok settings => exact .inl ⟨settings, .named hbytes hread⟩
          · exact .inr ⟨path, _, rfl, .notText hfile htext⟩

theorem Performs.collect_eq (h : Performs files args events) : collect files args = .ok events := by
  obtain ⟨hargs, hconfig, hscore⟩ := h
  simp only [collect, hargs.ofArgs?_eq, hconfig.settings_eq, hscore]
  rfl

theorem Fails.collect_eq (h : Fails files args failure) : collect files args = .error failure := by
  cases h with
  | usage hargs =>
      cases hi : Invocation.ofArgs? args with
      | none => simp only [collect, hi]
      | some i => exact absurd (accepts_of_ofArgs? hi) (hargs _ _)
  | config hargs hconfig => simp only [collect, hargs.ofArgs?_eq, hconfig.settings_eq]
  | performance hargs hconfig hscore =>
      simp only [collect, hargs.ofArgs?_eq, hconfig.settings_eq, hscore]
      rfl

theorem performs_or_fails (files : Files) (args : List String) :
    (∃ events, Performs files args events) ∨ ∃ failure, Fails files args failure := by
  by_cases hargs : ∃ path? score, Accepts args path? score
  · obtain ⟨path?, score, hargs⟩ := hargs
    obtain ⟨settings, hconfig⟩ | ⟨path, failure, rfl, hconfig⟩ :=
      configured_or_misconfigured files path?
    · cases hscore : eventsOf score settings with
      | error fault => exact .inr ⟨_, .performance hargs hconfig hscore⟩
      | ok events => exact .inl ⟨events, .intro hargs hconfig hscore⟩
    · exact .inr ⟨failure, .config hargs hconfig⟩
  · exact .inr ⟨.usage, .usage fun path? score h => hargs ⟨path?, score, h⟩⟩

/-- The first of the two commands prints what is collected. -/
theorem run_events (files : Files) (args : List String) : run files ("events" :: args) =
    match collect files args with
    | .error failure => failure.outcome
    | .ok events => { stdout := Event.listToYaml events } := by
  simp only [run, Command.ofArgs?, collect]
  cases Invocation.ofArgs? args with
  | none => rfl
  | some i =>
      simp only [Option.map_some, Command.run, Invocation.events]
      cases i.settings files with
      | error failure => rfl
      | ok settings =>
          simp only
          cases eventsOf i.score settings with
          | error fault => rfl
          | ok events => rfl

/-- The tones of a score that has events are those of them that can be heard. -/
theorem tones_of_play {source : String} {settings : Settings} {events : List Event}
    (h : eventsOf source settings = .ok events) :
    tones (MusicMacro.play source settings Beeper.mk).records =
      events.filter fun e => isAudible e.frequency := by
  have hrecorded :
      (MusicMacro.play source settings ({} : Recorder)).instrument.events = events := by
    cases hstart : settings.start with
    | error f =>
        rw [eventsOf, Run.start, hstart] at h
        cases h
    | ok state =>
        rw [eventsOf_of_start hstart] at h
        rw [(play_of_start hstart source {}).2, ← (Course.result_eq_ok.1 h).2]
        rfl
  obtain ⟨hrecords, htones, hevents⟩ := play_records source settings Beeper.mk
  rw [show tones = List.filterMap Record.tone? from rfl, hrecords, Record.tones_of_sounded htones,
    hevents, hrecorded]

/-- The other command fails alike, perhaps behind some tones, and else counts what is collected. -/
theorem run_play (files : Files) (args : List String) : run files ("play" :: args) =
    match collect files args with
    | .error failure => { failure.outcome with tones := (run files ("play" :: args)).tones }
    | .ok events =>
      { stderr := "Played " ++ Nat.repr events.length ++ " events\n",
        tones := events.filter fun e => isAudible e.frequency } := by
  simp only [run, Command.ofArgs?, collect]
  cases Invocation.ofArgs? args with
  | none => rfl
  | some i =>
      simp only [Option.map_some, Command.run, Invocation.play]
      cases i.settings files with
      | error failure => rfl
      | ok settings =>
          have hresult := play_result_eq i.score settings Beeper.mk
          simp only
          cases hscore : eventsOf i.score settings with
          | error fault =>
              rw [hscore] at hresult
              simp only [hresult, Except.map, Except.mapError]
          | ok events =>
              rw [hscore] at hresult
              simp only [hresult, Except.map, Except.mapError, tones_of_play hscore]

/-- Both commands end well on arguments with events. -/
theorem Performs.run_eq (h : Performs files args events) :
    run files ("events" :: args) = { stdout := Event.listToYaml events } ∧
    run files ("play" :: args) =
      { stderr := "Played " ++ Nat.repr events.length ++ " events\n",
        tones := events.filter fun e => isAudible e.frequency } := by
  have hprinted := run_events files args
  have hplayed := run_play files args
  rw [h.collect_eq] at hprinted hplayed
  exact ⟨hprinted, hplayed⟩

/-- Both commands fail alike on all others. -/
theorem Fails.run_eq (h : Fails files args failure) :
    let played := run files ("play" :: args)
    run files ("events" :: args) = failure.outcome ∧
    played = { failure.outcome with tones := played.tones } := by
  have hprinted := run_events files args
  have hplayed := run_play files args
  rw [h.collect_eq] at hprinted hplayed
  exact ⟨hprinted, hplayed⟩

/-- The outcome is settled by the file that the arguments name, and by no other. -/
theorem run_congr {files' : Files}
    (h : ∀ path score, Accepts args (some path) score → files' path = files path) :
    run files' ("events" :: args) = run files ("events" :: args) ∧
      run files' ("play" :: args) = run files ("play" :: args) := by
  simp only [run, Command.ofArgs?]
  cases hi : Invocation.ofArgs? args with
  | none => exact ⟨rfl, rfl⟩
  | some i =>
      have hsettings : i.settings files' = i.settings files := by
        obtain ⟨path?, score⟩ := i
        cases path? with
        | none => rfl
        | some path =>
            simp only [Invocation.settings, readText, h path score (accepts_of_ofArgs? hi)]
      simp only [Option.map_some, Command.run, Invocation.events, Invocation.play, hsettings]
      exact ⟨trivial, trivial⟩

theorem Configured.exists_start (h : Configured files path? settings) :
    ∃ state, settings.start = .ok state := by
  cases h with
  | default => exact ⟨_, rfl⟩
  | named hfile hread =>
      exact ⟨_, (Settings.inRange_of_check (Settings.check_of_ofYaml hread)).start_eq⟩

/-- A fault of a performance is one of the score. -/
theorem Fails.not_settings {fault : Settings.Fault} :
    ¬ Fails files args (.performance (.settings fault)) := by
  intro h
  cases h with
  | config hargs hconfig => cases hconfig
  | performance hargs hconfig hscore =>
      obtain ⟨state, hstart⟩ := hconfig.exists_start
      exact eventsOf_ne_settings hstart _ _ hscore

theorem says_message {fault : Fault} (h : ∀ f, fault ≠ .settings f) : Says fault fault.message := by
  cases fault with
  | lexical f =>
      obtain ⟨cause, place⟩ := f
      cases cause with
      | missingArgument c => exact .missingArgument c place
      | numberTooLarge digits => exact .numberTooLarge digits place
  | refused refusal =>
      cases refusal with
      | octave n => exact .octave n
      | length n => exact .length n
      | tempo n => exact .tempo n
  | settings f => exact absurd rfl (h f)

theorem refuses_detail (fault : Settings.Fault) : Refuses fault fault.detail := by
  cases fault with
  | octaveOutOfRange n => exact .octave n
  | durationOutOfRange n => exact .duration n
  | _ => exact .document fun settings h => by cases h

/-- The message of the first thing that is wrong tells the stage and what is wrong there. -/
theorem Fails.reports (h : Fails files args failure) : Reports failure failure.message := by
  cases failure with
  | usage => exact .usage
  | file path fault =>
      by_cases hfault : fault = .notText
      · subst hfault
        exact .notText path
      · exact .unread path hfault
  | settings fault => exact .settings (refuses_detail fault)
  | performance fault =>
      refine .performance (says_message ?_)
      rintro f rfl
      exact h.not_settings

end

/-- Printing and sounding are all or nothing, and they agree. On the same arguments and files both
succeed if the arguments are accepted, the file they name has settings, and the score has events:
then one prints these events, in a way that tells them from all others, and the other one counts
them. Otherwise both report the one thing that is the first to be wrong, in the words for its stage,
and nothing is printed. No file but the one that is named has a part in this. -/
theorem run_all_or_nothing (files : Files) (args : List String) :
    let printed := run files ("events" :: args)
    let played := run files ("play" :: args)
    (printed.code = 0 ↔ ∃ events, Performs files args events) ∧
    (played.code = 0 ↔ printed.code = 0) ∧
    (∀ events, Performs files args events →
      printed = { stdout := Event.listToYaml events } ∧
      played = { stderr := "Played " ++ Nat.repr events.length ++ " events\n",
                 tones := events.filter fun e => isAudible e.frequency }) ∧
    (printed.code ≠ 0 → ∃ failure, Fails files args failure) ∧
    (∀ failure, Fails files args failure →
      Reports failure failure.message ∧
      printed = { code := 1, stderr := failure.message ++ "\n" } ∧
      played = { printed with tones := played.tones } ∧
      (∀ failure', Fails files args failure' → failure' = failure) ∧
      ∀ fault, failure ≠ .performance (.settings fault)) ∧
    (∀ files' : Files, (∀ path score, Accepts args (some path) score →
        files' path = files path) →
      run files' ("events" :: args) = printed ∧ run files' ("play" :: args) = played) ∧
    (∀ events, Event.listToYaml events =
      if events = [] then "[]\n"
      else String.join (events.map fun e =>
        "- frequency: " ++ Nat.repr e.frequency.toNat ++ "\n" ++
        "  duration: " ++ Nat.repr e.duration.toNat ++ "\n")) ∧
    Function.Injective Event.listToYaml := by
  intro printed played
  refine ⟨⟨?_, ?_⟩, ?_, fun events h => h.run_eq, ?_, ?_, fun files' h => run_congr h,
    Event.listToYaml_eq, Event.listToYaml_injective⟩
  · intro hcode
    refine (performs_or_fails files args).resolve_right ?_
    rintro ⟨failure, h⟩
    unfold printed at hcode
    rw [h.run_eq.1] at hcode
    cases hcode
  · rintro ⟨events, h⟩
    unfold printed
    rw [h.run_eq.1]
  · unfold printed played
    obtain ⟨events, h⟩ | ⟨failure, h⟩ := performs_or_fails files args
    all_goals rw [h.run_eq.1, h.run_eq.2]
  · intro hcode
    refine (performs_or_fails files args).resolve_left ?_
    rintro ⟨events, h⟩
    unfold printed at hcode
    rw [h.run_eq.1] at hcode
    exact hcode rfl
  · intro failure h
    obtain ⟨hprinted, hplayed⟩ := h.run_eq
    refine ⟨h.reports, hprinted, ?_, ?_, ?_⟩
    · unfold printed
      rw [hprinted]
      exact hplayed
    · intro failure' h'
      exact Except.error.inj (h'.collect_eq.symm.trans h.collect_eq)
    · rintro fault rfl
      exact h.not_settings

end MusicMacro.CommandLine
