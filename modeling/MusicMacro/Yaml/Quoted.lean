import MusicMacro.Yaml.Folding
import MusicMacro.Yaml.Scalar

/-! Quoted scalars. Single quotes know one escape, the quote itself; double quotes know many. -/

namespace MusicMacro.Yaml.Quoted

/-- The character that a single character behind a backslash stands for. -/
def short? : Char → Option Char
  | '0' => some '\x00'
  | 'a' => some '\x07'
  | 'b' => some '\x08'
  | 't' | '\t' => some '\t'
  | 'n' => some '\n'
  | 'v' => some '\x0B'
  | 'f' => some '\x0C'
  | 'r' => some '\r'
  | 'e' => some '\x1B'
  | ' ' => some ' '
  | '\x22' => some '\x22'
  | '/' => some '/'
  | '\\' => some '\\'
  | 'N' => some '\x85'
  | '_' => some '\xA0'
  | 'L' => some '\u2028'
  | 'P' => some '\u2029'
  | _ => none

/-- How many hexadecimal digits follow the sign of a code point. -/
def width? : Char → Option Nat
  | 'x' => some 2
  | 'u' => some 4
  | 'U' => some 8
  | _ => none

/-- Reads an escape from its backslash on. -/
def escape (start : Mark) (k : Cursor) : Read (Char × Cursor) :=
  match k.rest.drop 1 with
  | [] => .error (k.flaw .unknownEscape start)
  | c :: cs =>
    match short? c, width? c with
    | some meant, _ => .ok (meant, k.forward 2)
    | none, none => .error (k.flaw .unknownEscape start)
    | none, some width =>
      let digits := cs.take width
      match if digits.length < width then none else number? 16 digits with
      | none => .error ((k.forward 2).flaw .missingDigit start)
      | some n =>
        if n.isValidChar then .ok (Char.ofNat n, k.forward (width + 2))
        else .error ((k.forward 2).flaw .noCharacter start)

/-- Reads on behind the opening quote, with the text so far in reverse and the gap behind it.
Every round takes a character, so the length of the text is enough fuel. -/
def readFrom (double : Bool) (start : Mark) : Nat → List Char → Gap → Cursor →
    Read (List Char × Cursor)
  | 0, _, _, k => .error (k.flaw .openQuotes start)
  | fuel + 1, done, gap, k =>
    match k.rest with
    | [] => .error (k.flaw .openQuotes start)
    | c :: cs =>
      if isWhite c then readFrom double start fuel done (gap.addWhite c) (k.forward 1)
      else match k.newline? with
      | some (b, k) => readFrom double start fuel done (gap.addBreak b) k
      | none =>
        if k.mark.column = 0 && atMarker k.rest then .error (k.flaw .markerInQuotes start)
        else
          let done := gap.text.reverse ++ done
          if double && c == '\\' then
            match (k.forward 1).newline? with
            | some (_, k) => readFrom double start fuel done (.lines none []) k
            | none =>
              match escape start k with
              | .ok (meant, k) => readFrom double start fuel (meant :: done) .none k
              | .error flaw => .error flaw
          else if !double && c == '\'' && cs.head? == some '\'' then
            readFrom double start fuel ('\'' :: done) .none (k.forward 2)
          else if c == (if double then '\x22' else '\'') then .ok (done.reverse, k.forward 1)
          else readFrom double start fuel (c :: done) .none (k.forward 1)

def read (double : Bool) (k : Cursor) : Read (List Char × Cursor) :=
  readFrom double k.mark k.rest.length [] .none (k.forward 1)

end MusicMacro.Yaml.Quoted
