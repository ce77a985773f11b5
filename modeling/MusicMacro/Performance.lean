import MusicMacro.Pace
import MusicMacro.Token
import MusicMacro.Tuning

/-! What a performance carries from token to token, and what a single token does to it. -/

namespace MusicMacro

/-- A tone to be played: hertz and milliseconds. -/
structure Event where
  frequency : UInt32
  duration : UInt32
  deriving DecidableEq, Repr

structure State where
  octave : Octave
  duration : UInt32
  pace : Pace := {}
  deriving DecidableEq, Repr

/-- A value that a token asks for and that does not exist. -/
inductive Refusal
  | octave (number : UInt32)
  | length (denominator : UInt32)
  | tempo (tempo : UInt32)
  deriving DecidableEq, Repr

inductive Effect
  | silence
  | octaveSet (number : UInt32)
  | lengthSet (denominator duration : UInt32)
  | paceSet (tempo : UInt32) (scalar : Rat)
  | sounded (event : Event)
  deriving DecidableEq, Repr

def Effect.event? : Effect → Option Event
  | .sounded event => some event
  | _ => none

namespace State

/-- The tone of a note. The length written at the note has no part in it. -/
def sound (s : State) (letter : Letter) (accidental : Option Accidental) (dots : UInt32) :
    Event where
  frequency := Tuning.frequency s.octave letter (accidental.getD .natural)
  duration := withDots s.duration dots

/-- Performs one token. A tempo counts only if it is coupled to the pace. -/
def step (coupled : Bool) (s : State) : Token.Kind → Except Refusal (State × Effect)
  | .note letter accidental _ dots => .ok (s, .sounded (s.sound letter accidental dots))
  | .octave n => match Octave.ofWord? n with
    | some octave => .ok ({ s with octave }, .octaveSet n)
    | none => .error (.octave n)
  | .length (some n) => match s.pace.duration? n with
    | some duration => .ok ({ s with duration }, .lengthSet n duration)
    | none => .error (.length n)
  | .tempo (some n) =>
    if coupled then match Pace.ofTempo? n with
      | some pace => .ok ({ s with pace }, .paceSet n pace.scalar)
      | none => .error (.tempo n)
    else .ok (s, .silence)
  | _ => .ok (s, .silence)

end State

end MusicMacro
