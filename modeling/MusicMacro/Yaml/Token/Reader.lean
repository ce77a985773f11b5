import MusicMacro.Yaml.Block
import MusicMacro.Yaml.Plain
import MusicMacro.Yaml.Quoted
import MusicMacro.Yaml.Tag

/-!
The tokens of a YAML text. What a word is often shows only behind it: a scalar turns out to be a key
when a colon follows. The beginnings of possible keys are kept, one for each open collection, and
the tokens that open a key and its mapping are then put in front of what has been read since.
-/

namespace MusicMacro.Yaml

/-- The beginning of what may be a key: how many tokens stand before it, and whether it has to be
one. -/
structure PossibleKey where
  before : Nat
  required : Bool
  mark : Mark
  deriving DecidableEq, Repr

structure Reader where
  cursor : Cursor
  tokens : List Token := []
  indent : Int := -1
  indents : List Int := []
  keyAllowed : Bool := true
  possible : Option PossibleKey := none
  outer : List (Option PossibleKey) := []
  deriving DecidableEq, Repr

namespace Reader

def inFlow (x : Reader) : Bool := !x.outer.isEmpty

def mark (x : Reader) : Mark := x.cursor.mark

def push (x : Reader) (kind : Token.Kind) (k : Cursor) : Reader :=
  { x with tokens := x.tokens ++ [⟨kind, x.mark, k.mark⟩], cursor := k }

/-- Puts an empty token in front of all tokens but the first ones. -/
def insert (x : Reader) (before : Nat) (kind : Token.Kind) (m : Mark) : Reader :=
  { x with tokens := x.tokens.take before ++ ⟨kind, m, m⟩ :: x.tokens.drop before }

def keys (x : Reader) : List PossibleKey := (x.possible :: x.outer).filterMap id

/-- The tokens that no colon can still put anything in front of. -/
def settled (x : Reader) : List Token :=
  x.tokens.take ((x.keys.map PossibleKey.before).foldl min x.tokens.length)

/-- Whether a possible key is out of reach of a colon here: on an earlier line, or more than 1024
bytes back. -/
def isStale (m : Mark) (key : PossibleKey) : Bool :=
  key.mark.line < m.line || key.mark.index + 1024 < m.index

def flaw (x : Reader) (cause : Cause) : Flaw := x.cursor.flaw cause x.mark

/-- Drops the keys out of reach, of which none may be required. -/
def dropStale (x : Reader) : Read Reader :=
  match x.keys.reverse.find? fun key => isStale x.mark key && key.required with
  | some key => .error (x.cursor.flaw .missingColon key.mark)
  | none =>
    let keep := fun key? : Option PossibleKey => key?.filter fun key => !isStale x.mark key
    .ok { x with possible := keep x.possible, outer := x.outer.map keep }

/-- Gives up the possible key of the innermost collection, which may not be required. -/
def dropKey (x : Reader) : Read Reader :=
  match x.possible.filter PossibleKey.required with
  | some key => .error (x.cursor.flaw .missingColon key.mark)
  | none => .ok { x with possible := none }

def saveKey (x : Reader) : Read Reader :=
  if x.keyAllowed then do
    let required := !x.inFlow && x.indent == (x.mark.column : Int)
    let y ← x.dropKey
    return { y with possible := some ⟨x.tokens.length, required, x.mark⟩ }
  else return x

/-- Closes the blocks that are indented more than a column. -/
def closeBlocks (x : Reader) (column : Int) : Reader :=
  if x.inFlow then x else go x.indent x.indents x
where
  go (indent : Int) : List Int → Reader → Reader
    | [], x => { x with indent, indents := [] }
    | outer :: indents, x =>
      if column < indent then go outer indents (x.push .blockEnd x.cursor)
      else { x with indent, indents := outer :: indents }

/-- Opens a block at a column that is indented more than the present one. -/
def openBlock (x : Reader) (kind : Token.Kind) (before : Nat) (m : Mark) : Reader :=
  if x.inFlow || (m.column : Int) ≤ x.indent then x
  else { x.insert before kind m with indent := m.column, indents := x.indent :: x.indents }

/-- The text behind white, comments and line breaks. A new line of a block may begin with a key, and
then a tab is no white. -/
def skipGap (x : Reader) : Reader := go x.keyAllowed false x.mark x.cursor.rest
where
  go (keyAllowed comment : Bool) (m : Mark) : List Char → Reader
    | '\r' :: '\n' :: cs => go (keyAllowed || !x.inFlow) false (m.newline 2) cs
    | c :: cs =>
      if isBreak c then go (keyAllowed || !x.inFlow) false (m.newline c.utf8Size) cs
      else if comment || c == '#' then go keyAllowed true (m.after c) cs
      else if c == ' ' || (c == '\t' && (x.inFlow || !keyAllowed)) ||
          (c == '\uFEFF' && m.column == 0) then
        go keyAllowed false (m.after c) cs
      else { x with cursor := ⟨c :: cs, m⟩, keyAllowed }
    | [] => { x with cursor := ⟨[], m⟩, keyAllowed }

/-- The end of the text closes all blocks on a line of its own. -/
def streamEnd (x : Reader) : Read Reader := do
  let m := x.mark
  let k : Cursor := ⟨x.cursor.rest, if m.column = 0 then m else ⟨m.index, m.line + 1, 0⟩⟩
  let x := { x with cursor := k }
  let x ← (x.closeBlocks (-1)).dropKey
  return { x.push .streamEnd x.cursor with keyAllowed := false }

def directive (x : Reader) : Read Reader := do
  let x ← (x.closeBlocks (-1)).dropKey
  let (kind, stop, k) ← Directive.read x.cursor
  return { x with
    tokens := x.tokens ++ [⟨kind, x.mark, stop⟩], cursor := k, keyAllowed := false }

def documentMarker (x : Reader) (kind : Token.Kind) : Read Reader := do
  let x ← (x.closeBlocks (-1)).dropKey
  return { x.push kind (x.cursor.forward 3) with keyAllowed := false }

def flowOpening (x : Reader) (kind : Token.Kind) : Read Reader := do
  let x ← x.saveKey
  let x := x.push kind (x.cursor.forward 1)
  return { x with keyAllowed := true, possible := none, outer := x.possible :: x.outer }

def flowClosing (x : Reader) (kind : Token.Kind) : Read Reader := do
  let x ← x.dropKey
  let x := x.push kind (x.cursor.forward 1)
  return match x.outer with
    | possible :: outer => { x with keyAllowed := false, possible, outer }
    | [] => { x with keyAllowed := false }

def comma (x : Reader) : Read Reader := do
  let x ← x.dropKey
  return { x.push .comma (x.cursor.forward 1) with keyAllowed := true }

def entry (x : Reader) : Read Reader := do
  if !x.inFlow && !x.keyAllowed then throw (x.flaw .strayEntry)
  else
    let x ← (x.openBlock .blockSequence x.tokens.length x.mark).dropKey
    return { x.push .entry (x.cursor.forward 1) with keyAllowed := true }

def key (x : Reader) : Read Reader := do
  if !x.inFlow && !x.keyAllowed then throw (x.flaw .strayKey)
  else
    let x ← (x.openBlock .blockMapping x.tokens.length x.mark).dropKey
    return { x.push .key (x.cursor.forward 1) with keyAllowed := !x.inFlow }

/-- A colon makes a key of the possible key, if there is one. -/
def value (x : Reader) : Read Reader :=
  match x.possible with
  | some k =>
    let x := (x.insert k.before .key k.mark).openBlock .blockMapping k.before k.mark
    .ok { x.push .value (x.cursor.forward 1) with possible := none, keyAllowed := false }
  | none =>
    if !x.inFlow && !x.keyAllowed then .error (x.flaw .strayValue)
    else
      let x := x.openBlock .blockMapping x.tokens.length x.mark
      .ok { x.push .value (x.cursor.forward 1) with keyAllowed := !x.inFlow }

/-- A token that may be a key or the front of one. -/
def keyed (x : Reader) (read : Cursor → Read (Token.Kind × Cursor)) : Read Reader := do
  let x ← x.saveKey
  let (kind, k) ← read x.cursor
  return { x.push kind k with keyAllowed := false }

def blockScalar (x : Reader) (literal : Bool) : Read Reader := do
  let x ← x.dropKey
  let (text, k) ← Block.read literal x.indent x.cursor
  let style := if literal then Style.literal else .folded
  return { x.push (.scalar (String.ofList text) style) k with keyAllowed := true }

def quoted (x : Reader) (double : Bool) : Read Reader :=
  x.keyed fun k => (Quoted.read double k).map fun (text, k) =>
    (.scalar (String.ofList text) (if double then .doubleQuoted else .singleQuoted), k)

def plain (x : Reader) : Read Reader := do
  let x ← x.saveKey
  let p ← Plain.read x.inFlow (x.indent + 1) x.cursor
  return { x with
    tokens := x.tokens ++ [⟨.scalar (String.ofList p.text) .plain, x.mark, p.stop⟩]
    cursor := p.cursor
    keyAllowed := p.broken }

/-- The characters that open something other than a plain scalar wherever they stand. -/
def openers : List Char :=
  ['#', '&', '*', '!', '|', '>', '\'', '\x22', '%', '@', '\x60', ',', '[', ']', '{', '}']

/-- Whether a plain scalar may begin with a character, given the text behind it. -/
def startsPlain (flow : Bool) (c : Char) (cs : List Char) : Bool :=
  if c == '-' then !(cs.head?.map isWhite).getD false
  else if c == '?' || c == ':' then !flow && !atGap cs
  else !isWhite c && !openers.contains c

def token (x : Reader) : Read Reader :=
  match x.cursor.rest with
  | [] => x.streamEnd
  | c :: cs =>
    if x.mark.column = 0 && c == '%' then x.directive
    else if x.mark.column = 0 && atMarker (c :: cs) then
      x.documentMarker (if c == '-' then .documentStart else .documentEnd)
    else if c == '[' then x.flowOpening .flowSequence
    else if c == '{' then x.flowOpening .flowMapping
    else if c == ']' then x.flowClosing .flowSequenceEnd
    else if c == '}' then x.flowClosing .flowMappingEnd
    else if c == ',' then x.comma
    else if c == '-' && atGap cs then x.entry
    else if c == '?' && (x.inFlow || atGap cs) then x.key
    else if c == ':' && (x.inFlow || atGap cs) then x.value
    else if c == '*' then x.keyed (Anchor.read true)
    else if c == '&' then x.keyed (Anchor.read false)
    else if c == '!' then x.keyed (Tag.read x.inFlow)
    else if c == '|' && !x.inFlow then x.blockScalar true
    else if c == '>' && !x.inFlow then x.blockScalar false
    else if c == '\'' then x.quoted false
    else if c == '\x22' then x.quoted true
    else if startsPlain x.inFlow c cs then x.plain
    else .error (x.flaw .strayCharacter)

/-- Reads the next token and what has to come before it. -/
def next (x : Reader) : Read Reader := do
  let x ← x.skipGap.dropStale
  let x ← (x.closeBlocks x.mark.column).token
  x.dropStale

/-- All tokens, up to the end of the text or to the flaw that ends them. Of a flawed text there are
the tokens that were settled before. Every round takes a character or ends the text, so more fuel
than the text is long is enough. -/
def readFrom : Nat → Reader → List Token × Option Flaw
  | 0, x => (x.settled, some (x.flaw .strayCharacter))
  | fuel + 1, x =>
    match x.next with
    | .ok y =>
      if (y.tokens.getLast?.map Token.kind) == some .streamEnd then (y.tokens, none)
      else readFrom fuel y
    | .error flaw => (x.settled, some flaw)

end Reader

/-- The tokens of a text, and the flaw that ends them early. Without one they end with a stream
end. -/
def tokens (s : String) : List Token × Option Flaw :=
  let cs := s.toList
  match cs.dropWhile isAllowed with
  | [] => Reader.readFrom (cs.length + 1) { cursor := ⟨cs, {}⟩ }
  | _ => ([], some (.character (({} : Mark).past (cs.takeWhile isAllowed)).index))

end MusicMacro.Yaml
