import MusicMacro.Files
import MusicMacro.Run
import MusicMacro.Settings.Reading
import MusicMacro.Text.Column

/-!
The command line: three commands, two of which perform a score with settings that may come from a
file. What a command prints and how it exits is a function of its arguments and of that file.
-/

namespace MusicMacro

namespace CommandLine

/-- A score to perform, and the file of its settings if one is named. -/
structure Invocation where
  path : Option String
  score : String
  deriving DecidableEq, Repr

inductive Command
  | table
  | events (invocation : Invocation)
  | play (invocation : Invocation)
  deriving DecidableEq, Repr

/-- The option that names a file counts only if something follows it. -/
def Invocation.ofArgs? : List String → Option Invocation
  | ["--config", path, score] => some ⟨some path, score⟩
  | [score] => some ⟨none, score⟩
  | _ => none

def Command.ofArgs? : List String → Option Command
  | "table" :: _ => some .table
  | "events" :: args => (Invocation.ofArgs? args).map .events
  | "play" :: args => (Invocation.ofArgs? args).map .play
  | _ => none

def Command.path? : Command → Option String
  | .table => none
  | .events i => i.path
  | .play i => i.path

inductive Failure
  | usage
  | file (path : String) (fault : FileFault)
  | settings (fault : Settings.Fault)
  | performance (fault : Fault)
  deriving DecidableEq, Repr

def usageText : String :=
  "Usage: mml table\n" ++
  "       mml events [--config <config.yaml>] <notation>\n" ++
  "       mml play [--config <config.yaml>] <notation>"

def Failure.message : Failure → String
  | .usage => usageText
  | .file path fault => "Error reading config '" ++ path ++ "': " ++ fault.message
  | .settings fault => fault.message
  | .performance fault => "Interpretation error: " ++ fault.message

/-- The end of a command: tones to sound first, then what is printed, and the exit code. -/
structure Outcome where
  code : UInt32 := 0
  stdout : String := ""
  stderr : String := ""
  tones : List Event := []
  deriving DecidableEq, Repr

def Failure.outcome (f : Failure) : Outcome := { code := 1, stderr := f.message ++ "\n" }

def readText (files : Files) (path : String) : Except Failure String :=
  match files path with
  | .error fault => .error (.file path fault)
  | .ok bytes => match String.fromUTF8? bytes with
    | some text => .ok text
    | none => .error (.file path .notText)

def Invocation.settings (files : Files) (i : Invocation) : Except Failure Settings :=
  match i.path with
  | none => .ok {}
  | some path => (readText files path).bind fun text => (Settings.ofYaml text).mapError .settings

/-- A frequency with two decimal places. -/
def hertzText (x : Rat) : String :=
  let n := (roundEven (x * 100)).toNat
  let places := Nat.repr (n % 100)
  Nat.repr (n / 100) ++ "." ++ (if n % 100 < 10 then "0" ++ places else places)

/-- A row of the table: the note, its frequency, and that of the note one semitone above. -/
def tableRow (o : Octave) (l : Letter) (base : Rat) : String :=
  Text.alignRight 6 (Nat.repr o.number) ++ " " ++ Text.alignRight 4 l.name ++ " " ++
    Text.alignRight 7 (hertzText base) ++ " " ++
    Text.alignRight 5 (Nat.repr (Tuning.frequency o l .sharp).toNat) ++ "\n"

def tableText : String :=
  "octave note natural sharp\n" ++
    String.join (Tuning.table.map fun (o, l, base) => tableRow o l base)

/-- Prints the events of a score once all of them are known. -/
def Invocation.events (files : Files) (i : Invocation) : Outcome :=
  match i.settings files with
  | .error failure => failure.outcome
  | .ok settings => match eventsOf i.score settings with
    | .error fault => (Failure.performance fault).outcome
    | .ok events => { stdout := Event.listToYaml events }

def tones (records : List Record) : List Event :=
  records.filterMap fun
    | .tone event => some event
    | _ => none

/-- Sounds a score and reports how many events it has. -/
def Invocation.play (files : Files) (i : Invocation) : Outcome :=
  match i.settings files with
  | .error failure => failure.outcome
  | .ok settings =>
    let played := MusicMacro.play i.score settings Beeper.mk
    let outcome := match played.result with
      | .error fault => (Failure.performance fault).outcome
      | .ok sent => { stderr := "Played " ++ Nat.repr sent ++ " events\n" }
    { outcome with tones := tones played.records }

def Command.run (files : Files) : Command → Outcome
  | .table => { stdout := tableText }
  | .events i => i.events files
  | .play i => i.play files

/-- What the arguments come to. They are judged before any file is read. -/
def run (files : Files) (args : List String) : Outcome :=
  match Command.ofArgs? args with
  | none => Failure.usage.outcome
  | some command => command.run files

end CommandLine

end MusicMacro
