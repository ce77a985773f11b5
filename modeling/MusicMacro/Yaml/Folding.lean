import MusicMacro.Yaml.Flaw

/-!
Gaps inside a scalar: white within a line is kept, lines are joined by a space or their breaks.
-/

namespace MusicMacro.Yaml

/-- What lies between two words of a scalar. -/
inductive Gap
  | none
  | white (cs : List Char)
  | lines (first : Option Char) (later : List Char)
  deriving DecidableEq, Repr

namespace Gap

/-- White is kept within a line and dropped at the front of one. -/
def addWhite (g : Gap) (c : Char) : Gap :=
  match g with
  | .none => .white [c]
  | .white cs => .white (cs ++ [c])
  | .lines first later => .lines first later

def addBreak (g : Gap) (c : Char) : Gap :=
  match g with
  | .lines first later => .lines first (later ++ [c])
  | _ => .lines (some c) []

/-- A single line feed counts as a space, and the first of several as nothing. -/
def text : Gap → List Char
  | .none => []
  | .white cs => cs
  | .lines .none later => later
  | .lines (some '\n') [] => [' ']
  | .lines (some '\n') later => later
  | .lines (some c) later => c :: later

def isNone : Gap → Bool
  | .none => true
  | _ => false

def isBroken : Gap → Bool
  | .lines _ _ => true
  | _ => false

end Gap

end MusicMacro.Yaml
