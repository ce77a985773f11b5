/-!
Places in a YAML text, the classes of characters that its structure rests on, and a cursor that
walks over it.
-/

namespace MusicMacro.Yaml

/-- What has been passed so far, counted from zero: the bytes of the UTF-8 form of the text, its
lines, and the characters of the last line. -/
structure Mark where
  index : Nat := 0
  line : Nat := 0
  column : Nat := 0
  deriving DecidableEq, Repr, Inhabited

namespace Mark

def after (m : Mark) (c : Char) : Mark := ⟨m.index + c.utf8Size, m.line, m.column + 1⟩

def past (m : Mark) (cs : List Char) : Mark := cs.foldl after m

def newline (m : Mark) (size : Nat) : Mark := ⟨m.index + size, m.line + 1, 0⟩

def isAt (m k : Mark) : Bool := m.line == k.line && m.column == k.column

/-- The mark in words. The very beginning of a text is not worth a mention. -/
def mention (m : Mark) : String :=
  if m.isAt {} then ""
  else " at line " ++ Nat.repr (m.line + 1) ++ " column " ++ Nat.repr (m.column + 1)

end Mark

/-- Whether a text may hold the character at all. -/
def isAllowed (c : Char) : Bool :=
  let n := c.toNat
  n == 0x09 || n == 0x0A || n == 0x0D || (0x20 ≤ n && n ≤ 0x7E) || n == 0x85 ||
    (0xA0 ≤ n && n ≤ 0xD7FF) || (0xE000 ≤ n && n ≤ 0xFFFD) || 0x10000 ≤ n

def isBreak (c : Char) : Bool :=
  c == '\n' || c == '\r' || c == '\x85' || c == '\u2028' || c == '\u2029'

def isWhite (c : Char) : Bool := c == ' ' || c == '\t'

/-- The letters, digits and signs that names are made of. -/
def isNameChar (c : Char) : Bool := c.isAlphanum || c == '_' || c == '-'

/-- Whether a word has ended: at white, at a break, or at the end of the text. -/
def atGap : List Char → Bool
  | [] => true
  | c :: _ => isWhite c || isBreak c

/-- Whether a document marker stands at the front: three dashes or dots by themselves. -/
def atMarker : List Char → Bool
  | '-' :: '-' :: '-' :: cs => atGap cs
  | '.' :: '.' :: '.' :: cs => atGap cs
  | _ => false

/-- The line break at the front of a text: what it counts as, its bytes, and the text behind it.
Only the two Unicode separators are kept apart from a plain line feed. -/
def lineBreak? : List Char → Option (Char × Nat × List Char)
  | '\r' :: '\n' :: cs => some ('\n', 2, cs)
  | c :: cs =>
    if isBreak c then some (if c == '\u2028' || c == '\u2029' then c else '\n', c.utf8Size, cs)
    else none
  | [] => none

/-- The text still to be read, and the mark reached. -/
structure Cursor where
  rest : List Char
  mark : Mark := {}
  deriving DecidableEq, Repr

namespace Cursor

/-- Passes over characters of a line. -/
def forward (k : Cursor) (n : Nat) : Cursor := ⟨k.rest.drop n, k.mark.past (k.rest.take n)⟩

/-- The characters of a class at the front, and the cursor behind them. -/
def span (p : Char → Bool) (k : Cursor) : List Char × Cursor :=
  let cs := k.rest.takeWhile p
  (cs, ⟨k.rest.dropWhile p, k.mark.past cs⟩)

/-- The cursor behind a line break at the front, and what the break counts as. -/
def newline? (k : Cursor) : Option (Char × Cursor) :=
  (lineBreak? k.rest).map fun (c, size, rest) => (c, ⟨rest, k.mark.newline size⟩)

/-- The cursor behind white and a comment to the end of the line. -/
def skipRemark (k : Cursor) : Cursor :=
  let k := (k.span isWhite).2
  match k.rest with
  | '#' :: _ => (k.span fun c => !isBreak c).2
  | _ => k

end Cursor

end MusicMacro.Yaml
