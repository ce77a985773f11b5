import MusicMacro.Yaml.Token

/-! Tags, anchors, aliases and directives. -/

namespace MusicMacro.Yaml

namespace Tag

/-- The characters of a tag besides letters, digits, underscores and dashes. -/
def signs : List Char :=
  [';', '/', '?', ':', '@', '&', '=', '+', '$', '.', '!', '~', '*', '\'', '(', ')']

/-- Whether a tag may hold the character. Only a tag that is marked off may hold flow signs. -/
def holds (marked : Bool) (c : Char) : Bool :=
  isNameChar c || signs.contains c || (marked && (c == ',' || c == '[' || c == ']'))

/-- An octet written as a percent sign and two hexadecimal digits. -/
def octet (directive : Bool) (start : Mark) (k : Cursor) : Read Nat :=
  let octet? := match k.rest with
    | '%' :: a :: b :: _ => number? 16 [a, b]
    | _ => none
  match octet? with
  | some n => .ok n
  | none => .error (k.flaw (.missingOctet directive) start)

def width? (octet : Nat) : Option Nat :=
  if octet < 128 then some 1
  else if octet / 32 = 6 then some 2
  else if octet / 16 = 14 then some 3
  else if octet / 8 = 30 then some 4
  else none

/-- The octets that continue a sequence, each adding six bits to the value. -/
def continued (directive : Bool) (start : Mark) : Nat → Nat → Cursor → Read (Nat × Cursor)
  | 0, value, k => .ok (value, k)
  | n + 1, value, k => do
    let octet ← octet directive start k
    if octet / 64 = 2 then continued directive start n (64 * value + octet % 64) (k.forward 3)
    else .error (k.flaw (.trailingOctet directive) start)

/-- The character that percent escapes write. A value that the sequence is too long for, or that is
no character, counts as the replacement character. -/
def escaped (directive : Bool) (start : Mark) (k : Cursor) : Read (Char × Cursor) := do
  let first ← octet directive start k
  match width? first with
  | none => .error (k.flaw (.leadingOctet directive) start)
  | some 1 => return (Char.ofNat first, k.forward 3)
  | some width =>
    let bits := first % Nat.pow 2 (7 - width)
    let (value, k) ← continued directive start (width - 1) bits (k.forward 3)
    let least := if width = 2 then 128 else if width = 3 then 2048 else 65536
    return (if value < least || !value.isValidChar then '\uFFFD' else Char.ofNat value, k)

/-- The characters of a tag from here on, escapes resolved. Each round takes a character. -/
def readFrom (marked directive : Bool) (start : Mark) : Nat → List Char → Cursor →
    Read (List Char × Cursor)
  | 0, done, k => .ok (done.reverse, k)
  | fuel + 1, done, k =>
    match k.rest with
    | [] => .ok (done.reverse, k)
    | c :: _ =>
      if c == '%' then do
        let (c, k) ← escaped directive start k
        readFrom marked directive start fuel (c :: done) k
      else if holds marked c then readFrom marked directive start fuel (c :: done) (k.forward 1)
      else .ok (done.reverse, k)

def chars (marked directive : Bool) (start : Mark) (k : Cursor) : Read (List Char × Cursor) :=
  readFrom marked directive start (k.rest.length + 1) [] k

/-- The characters of a tag, of which there has to be one. -/
def someChars (marked directive : Bool) (start : Mark) (k : Cursor) :
    Read (List Char × Cursor) := do
  let (cs, k) ← chars marked directive start k
  if cs.isEmpty then .error (k.flaw (.missingUri directive) start) else return (cs, k)

/-- The part of a tag that counts: a zero character, which only an escape can write, ends it. -/
def counting (cs : List Char) : List Char := cs.takeWhile (· != '\x00')

/-- A handle: an exclamation mark, a name, and if it stands there a second exclamation mark. -/
def handle? (k : Cursor) : Option (List Char × Cursor) :=
  match k.rest with
  | '!' :: _ =>
    let (name, k) := (k.forward 1).span isNameChar
    match k.rest with
    | '!' :: _ => some ('!' :: (name ++ ['!']), k.forward 1)
    | _ => some ('!' :: name, k)
  | _ => none

def isClosed (handle : List Char) : Bool := 1 < handle.length && handle.getLast? == some '!'

/-- The handle and the suffix of a tag in any of its forms: marked off, by a closed handle, or by
the primary handle. -/
def parts (k : Cursor) : Read (List Char × List Char × Cursor) :=
  let start := k.mark
  match k.rest, handle? k with
  | '!' :: '<' :: _, _ => do
    let (tag, k) ← someChars true false start (k.forward 2)
    if k.rest.head? == some '>' then return ([], counting tag, k.forward 1)
    else .error (k.flaw .openTag start)
  | _, none => .error (k.flaw .openTag start)
  | _, some (handle, k) =>
    if isClosed handle then do
      let (suffix, k) ← someChars false false start k
      return (handle, counting suffix, k)
    else do
      let (suffix, k) ← chars false false start k
      let suffix := counting (handle.drop 1 ++ suffix)
      return if suffix.isEmpty then ([], ['!'], k) else (['!'], suffix, k)

/-- Reads a tag from its exclamation mark on. -/
def read (flow : Bool) (k : Cursor) : Read (Token.Kind × Cursor) := do
  let start := k.mark
  let (handle, suffix, k) ← parts k
  if atGap k.rest || (flow && k.rest.head? == some ',') then
    return (.tag (String.ofList handle) (String.ofList suffix), k)
  else .error (k.flaw .tagTail start)

end Tag

namespace Anchor

/-- Whether a name may end in front of the text. -/
def ends (cs : List Char) : Bool :=
  atGap cs || (match cs with
    | c :: _ => ['?', ':', ',', ']', '}', '%', '@', '\x60'].contains c
    | [] => true)

/-- Reads the name of an anchor or alias from its indicator on. -/
def read (aliased : Bool) (k : Cursor) : Read (Token.Kind × Cursor) :=
  let start := k.mark
  let (name, k) := (k.forward 1).span isNameChar
  if name.isEmpty || !ends k.rest then .error (k.flaw (.missingName aliased) start)
  else .ok (if aliased then .alias (String.ofList name) else .anchor (String.ofList name), k)

end Anchor

namespace Directive

def number (start : Mark) (k : Cursor) : Read (Nat × Cursor) :=
  let (digits, after) := k.span Char.isDigit
  if digits.isEmpty then .error (k.flaw .missingVersion start)
  else if 9 < digits.length then .error ((k.forward 9).flaw .longVersion start)
  else .ok (Decimal.value digits, after)

def version (start : Mark) (k : Cursor) : Read (Token.Kind × Cursor) := do
  let (major, k) ← number start (k.span isWhite).2
  if k.rest.head? != some '.' then .error (k.flaw .missingPoint start)
  else
    let (minor, k) ← number start (k.forward 1)
    return (.version major minor, k)

def handle (start : Mark) (k : Cursor) : Read (Token.Kind × Cursor) :=
  let k := (k.span isWhite).2
  match Tag.handle? k with
  | none => .error (k.flaw .missingHandle start)
  | some (handle, k) => do
    if handle != ['!'] && !Tag.isClosed handle then .error (k.flaw .openHandle start)
    else
      let (gap, k) := k.span isWhite
      if gap.isEmpty then .error (k.flaw .handleTail start)
      else
        let (expansion, k) ← Tag.someChars true true start k
        if !atGap k.rest then .error (k.flaw .expansionTail start)
        else
          let expansion := Tag.counting expansion
          return (.handle (String.ofList handle) (String.ofList expansion), k)

/-- What a directive says, by its name. -/
def content (start : Mark) (name : List Char) (k : Cursor) : Read (Token.Kind × Cursor) :=
  if name.isEmpty then .error (k.flaw .unnamedDirective start)
  else if !atGap k.rest then .error (k.flaw .misnamedDirective start)
  else if name == ['Y', 'A', 'M', 'L'] then version start k
  else if name == ['T', 'A', 'G'] then handle start k
  else .error (k.flaw .unknownDirective start)

/-- Reads a directive from its percent sign to the end of its line. -/
def read (k : Cursor) : Read (Token.Kind × Mark × Cursor) := do
  let start := k.mark
  let (name, k) := (k.forward 1).span isNameChar
  let (kind, k) ← content start name k
  let next ← k.nextLine .directiveTail start
  return (kind, k.mark, next)

end Directive

end MusicMacro.Yaml
