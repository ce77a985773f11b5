import MusicMacro.Performance
import MusicMacro.Yaml.Flaw
import MusicMacro.Yaml.Scalar

/-! Settings of a performance: their fields, their ranges, and what may be wrong with them. -/

namespace MusicMacro

/-- The settings, not yet checked against their ranges. -/
structure Settings where
  initialOctave : UInt32 := 1
  initialDuration : UInt32 := 200
  tempoCoupling : Bool := false
  deriving DecidableEq, Repr

namespace Settings

inductive Field
  | initialOctave | initialDuration | tempoCoupling
  deriving DecidableEq, Repr

namespace Field

def all : List Field := [.initialOctave, .initialDuration, .tempoCoupling]

def name : Field → String
  | .initialOctave => "initial-octave"
  | .initialDuration => "initial-duration-ms"
  | .tempoCoupling => "tempo-coupling"

def ofName? (s : String) : Option Field := all.find? fun f => f.name == s

end Field

/-- What stands in a document where something else is wanted. -/
inductive Stray
  | scalar (meaning : Yaml.Meaning)
  | sequence
  | mapping
  deriving DecidableEq, Repr

/-- What is wanted at a place of a document. -/
inductive Wanted
  | settings | field | word | boolean
  deriving DecidableEq, Repr

/-- Where a document goes wrong: the key whose value is read, if any, and the mark. -/
structure Spot where
  key : Option String := none
  mark : Yaml.Mark
  deriving DecidableEq, Repr

inductive Fault
  | unreadable (flaw : Yaml.Flaw)
  | stray (found : Stray) (wanted : Wanted) (spot : Spot)
  | mistagged (text : String) (tag : Yaml.CoreTag) (spot : Spot)
  | tooLarge (value : Nat) (spot : Spot)
  | duplicate (field : Field) (spot : Spot)
  | octaveOutOfRange (number : UInt32)
  | durationOutOfRange (duration : UInt32)
  deriving DecidableEq, Repr

/-- The octave is checked before the duration. -/
def check (s : Settings) : Except Fault Unit :=
  match Octave.ofWord? s.initialOctave with
  | none => .error (.octaveOutOfRange s.initialOctave)
  | some _ =>
    if 1 ≤ s.initialDuration ∧ s.initialDuration ≤ 60000 then .ok ()
    else .error (.durationOutOfRange s.initialDuration)

theorem isSome_of_check {s : Settings} (h : s.check = .ok ()) :
    (Octave.ofWord? s.initialOctave).isSome = true := by
  unfold check at h
  split at h
  next => cases h
  next hoctave => exact Option.isSome_of_eq_some hoctave

/-- The state in which a performance begins. Settings are checked first, so that their octave is one
of the ten. -/
def start (s : Settings) : Except Fault State :=
  match h : s.check with
  | .error f => .error f
  | .ok () => .ok
      { octave := (Octave.ofWord? s.initialOctave).get (isSome_of_check h)
        duration := s.initialDuration }

def toYaml (s : Settings) : String :=
  Field.initialOctave.name ++ ": " ++ Nat.repr s.initialOctave.toNat ++ "\n" ++
  Field.initialDuration.name ++ ": " ++ Nat.repr s.initialDuration.toNat ++ "\n" ++
  Field.tempoCoupling.name ++ ": " ++ (if s.tempoCoupling then "true" else "false") ++ "\n"

end Settings

end MusicMacro
