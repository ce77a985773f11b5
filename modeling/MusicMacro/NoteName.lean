/-! Note letters, accidentals and octaves. -/

namespace MusicMacro

/-- The seven natural notes, in the order of an octave. -/
inductive Letter
  | c | d | e | f | g | a | b
  deriving DecidableEq, Repr, Inhabited

namespace Letter

def all : List Letter := [.c, .d, .e, .f, .g, .a, .b]

def toChar : Letter → Char
  | .c => 'C' | .d => 'D' | .e => 'E' | .f => 'F' | .g => 'G' | .a => 'A' | .b => 'B'

/-- The letter a character writes. Only capitals write one. -/
def ofChar? : Char → Option Letter
  | 'C' => some .c
  | 'D' => some .d
  | 'E' => some .e
  | 'F' => some .f
  | 'G' => some .g
  | 'A' => some .a
  | 'B' => some .b
  | _ => none

def index : Letter → Nat
  | .c => 0 | .d => 1 | .e => 2 | .f => 3 | .g => 4 | .a => 5 | .b => 6

def name (l : Letter) : String := String.ofList [l.toChar]

@[simp] theorem ofChar?_toChar (l : Letter) : ofChar? l.toChar = some l := by cases l <;> rfl

end Letter

inductive Accidental
  | sharp | flat | natural
  deriving DecidableEq, Repr, Inhabited

namespace Accidental

/-- The accidental a sign writes. A natural has no sign. -/
def ofChar? : Char → Option Accidental
  | '#' => some .sharp
  | '+' => some .sharp
  | 'b' => some .flat
  | '-' => some .flat
  | _ => none

def isSign (c : Char) : Bool := (ofChar? c).isSome

end Accidental

/-- One of the ten octaves. -/
structure Octave where
  number : Nat
  one_le : 1 ≤ number := by decide
  le_ten : number ≤ 10 := by decide
  deriving DecidableEq, Repr

namespace Octave

def ofWord? (n : UInt32) : Option Octave :=
  if h : 1 ≤ n.toNat ∧ n.toNat ≤ 10 then some ⟨n.toNat, h.1, h.2⟩ else none

def all : List Octave :=
  [⟨1, by decide, by decide⟩, ⟨2, by decide, by decide⟩, ⟨3, by decide, by decide⟩,
    ⟨4, by decide, by decide⟩, ⟨5, by decide, by decide⟩, ⟨6, by decide, by decide⟩,
    ⟨7, by decide, by decide⟩, ⟨8, by decide, by decide⟩, ⟨9, by decide, by decide⟩,
    ⟨10, by decide, by decide⟩]

end Octave

end MusicMacro
