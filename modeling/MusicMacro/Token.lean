import MusicMacro.NoteName
import MusicMacro.Text.Place

/-! Tokens of the notation: an operator character with what it owns of the text behind it. -/

namespace MusicMacro

inductive Direction
  | up | down
  deriving DecidableEq, Repr

namespace Token

/-- What a token says. An argument is absent when no digits were written. -/
inductive Kind
  | numbered (number dots : UInt32)
  | note (letter : Letter) (accidental : Option Accidental) (length : Option UInt32)
      (dots : UInt32)
  | shift (direction : Direction)
  | rest (length : Option UInt32) (dots : UInt32)
  | tempo (argument : Option UInt32)
  | volume (argument : Option UInt32)
  | length (argument : Option UInt32)
  | sustain (argument : Option UInt32)
  | envelope (argument : Option UInt32)
  | octave (argument : UInt32)
  | register (argument : UInt32)
  deriving DecidableEq, Repr

end Token

/-- A token with its operator as written, its whole text and the place where it begins. -/
structure Token where
  kind : Token.Kind
  operator : Char
  text : String
  place : Place
  deriving DecidableEq, Repr

/-- The operators, and so the rules: no character opens more than one. -/
inductive Operator
  | numbered
  | note (letter : Letter)
  | shift (direction : Direction)
  | rest
  | tempo
  | volume
  | length
  | sustain
  | envelope
  | octave
  | register
  deriving DecidableEq, Repr

namespace Operator

/-- The operator a character writes. Case counts for note letters alone. -/
def ofChar? (c : Char) : Option Operator :=
  match c with
  | 'N' | 'n' => some .numbered
  | '>' => some (.shift .up)
  | '<' => some (.shift .down)
  | 'R' | 'r' => some .rest
  | 'T' | 't' => some .tempo
  | 'V' | 'v' => some .volume
  | 'L' | 'l' => some .length
  | 'S' | 's' => some .sustain
  | 'M' | 'm' => some .envelope
  | 'O' | 'o' => some .octave
  | 'Y' | 'y' => some .register
  | _ => (Letter.ofChar? c).map .note

def takesSigns : Operator → Bool
  | .note _ => true
  | _ => false

def takesDigits : Operator → Bool
  | .shift _ => false
  | _ => true

def takesDots : Operator → Bool
  | .numbered | .note _ | .rest => true
  | _ => false

/-- The kind of token an operator makes, unless it lacks an argument that it needs. -/
def kind? (op : Operator) (accidental : Option Accidental) (argument : Option UInt32)
    (dots : UInt32) : Option Token.Kind :=
  match op with
  | .numbered => argument.map (.numbered · dots)
  | .note letter => some (.note letter accidental argument dots)
  | .shift direction => some (.shift direction)
  | .rest => some (.rest argument dots)
  | .tempo => some (.tempo argument)
  | .volume => some (.volume argument)
  | .length => some (.length argument)
  | .sustain => some (.sustain argument)
  | .envelope => some (.envelope argument)
  | .octave => argument.map .octave
  | .register => argument.map .register

end Operator

end MusicMacro
