import MusicMacro.Yaml.Mark

/-!
What keeps a text from being one whole YAML document. A flaw has a cause, which says what is wrong
and what was being read, and the marks of both.
-/

namespace MusicMacro.Yaml

inductive Cause
  | strayCharacter
  | missingColon
  | strayEntry
  | strayKey
  | strayValue
  | unnamedDirective
  | misnamedDirective
  | unknownDirective
  | directiveTail
  | missingVersion
  | longVersion
  | missingPoint
  | missingHandle
  | openHandle
  | handleTail
  | expansionTail
  | missingUri (directive : Bool)
  | missingOctet (directive : Bool)
  | leadingOctet (directive : Bool)
  | trailingOctet (directive : Bool)
  | openTag
  | tagTail
  | missingName (aliased : Bool)
  | zeroIncrement
  | headerTail
  | tabInBlock
  | markerInQuotes
  | openQuotes
  | unknownEscape
  | missingDigit
  | noCharacter
  | colonInPlain
  | tabInPlain
  | missingDocument
  | secondVersion
  | foreignVersion
  | secondHandle
  | unknownHandle
  | missingNode (block : Bool)
  | missingEntry
  | missingKey
  | openSequence
  | openMapping
  deriving DecidableEq, Repr

namespace Cause

def problem : Cause → String
  | .strayCharacter => "found character that cannot start any token"
  | .missingColon => "could not find expected ':'"
  | .strayEntry => "block sequence entries are not allowed in this context"
  | .strayKey => "mapping keys are not allowed in this context"
  | .strayValue => "mapping values are not allowed in this context"
  | .unnamedDirective => "could not find expected directive name"
  | .misnamedDirective => "found unexpected non-alphabetical character"
  | .unknownDirective => "found unknown directive name"
  | .directiveTail | .headerTail => "did not find expected comment or line break"
  | .missingVersion => "did not find expected version number"
  | .longVersion => "found extremely long version number"
  | .missingPoint => "did not find expected digit or '.' character"
  | .missingHandle | .openHandle => "did not find expected '!'"
  | .handleTail => "did not find expected whitespace"
  | .expansionTail | .tagTail => "did not find expected whitespace or line break"
  | .missingUri _ => "did not find expected tag URI"
  | .missingOctet _ => "did not find URI escaped octet"
  | .leadingOctet _ => "found an incorrect leading UTF-8 octet"
  | .trailingOctet _ => "found an incorrect trailing UTF-8 octet"
  | .openTag => "did not find the expected '>'"
  | .missingName _ => "did not find expected alphabetic or numeric character"
  | .zeroIncrement => "found an indentation indicator equal to 0"
  | .tabInBlock => "found a tab character where an indentation space is expected"
  | .markerInQuotes => "found unexpected document indicator"
  | .openQuotes => "found unexpected end of stream"
  | .unknownEscape => "found unknown escape character"
  | .missingDigit => "did not find expected hexadecimal number"
  | .noCharacter => "found invalid Unicode character escape code"
  | .colonInPlain => "found unexpected ':'"
  | .tabInPlain => "found a tab character that violates indentation"
  | .missingDocument => "did not find expected <document start>"
  | .secondVersion => "found duplicate %YAML directive"
  | .foreignVersion => "found incompatible YAML document"
  | .secondHandle => "found duplicate %TAG directive"
  | .unknownHandle => "found undefined tag handle"
  | .missingNode _ => "did not find expected node content"
  | .missingEntry => "did not find expected '-' indicator"
  | .missingKey => "did not find expected key"
  | .openSequence => "did not find expected ',' or ']'"
  | .openMapping => "did not find expected ',' or '\x7d'"

/-- What was being read, where that is told. -/
def setting : Cause → Option String
  | .strayEntry | .strayKey | .strayValue => none
  | .missingDocument | .secondVersion | .foreignVersion | .secondHandle => none
  | .strayCharacter => some "while scanning for the next token"
  | .missingColon => some "while scanning a simple key"
  | .unnamedDirective | .misnamedDirective | .unknownDirective | .directiveTail =>
    some "while scanning a directive"
  | .missingVersion | .longVersion | .missingPoint => some "while scanning a %YAML directive"
  | .missingHandle => some "while scanning a tag directive"
  | .openHandle => some "while parsing a tag directive"
  | .handleTail | .expansionTail => some "while scanning a %TAG directive"
  | .missingUri directive | .missingOctet directive | .leadingOctet directive
  | .trailingOctet directive =>
    some (if directive then "while parsing a %TAG directive" else "while parsing a tag")
  | .openTag | .tagTail => some "while scanning a tag"
  | .missingName aliased =>
    some (if aliased then "while scanning an alias" else "while scanning an anchor")
  | .zeroIncrement | .headerTail | .tabInBlock => some "while scanning a block scalar"
  | .markerInQuotes | .openQuotes => some "while scanning a quoted scalar"
  | .unknownEscape | .missingDigit | .noCharacter => some "while parsing a quoted scalar"
  | .colonInPlain | .tabInPlain => some "while scanning a plain scalar"
  | .unknownHandle => some "while parsing a node"
  | .missingNode block =>
    some (if block then "while parsing a block node" else "while parsing a flow node")
  | .missingEntry => some "while parsing a block collection"
  | .missingKey => some "while parsing a block mapping"
  | .openSequence => some "while parsing a flow sequence"
  | .openMapping => some "while parsing a flow mapping"

end Cause

/-- A flaw: a character that no text may hold, with its distance in bytes; a cause, with the mark
where it shows and the mark of what was being read; an alias without an anchor; an end where there
should be more; or more text behind the document. -/
inductive Flaw
  | character (offset : Nat)
  | broken (cause : Cause) (mark start : Mark)
  | unknownAnchor (mark : Mark)
  | ended
  | severalDocuments
  deriving DecidableEq, Repr

namespace Flaw

/-- A flaw in words. What was being read has a place of its own only if that is another one. -/
def text : Flaw → String
  | .character 0 => "control characters are not allowed"
  | .character offset => "control characters are not allowed at position " ++ Nat.repr offset
  | .broken cause mark start =>
    cause.problem ++ mark.mention ++ match cause.setting with
      | some setting => ", " ++ setting ++ (if start.isAt mark then "" else start.mention)
      | none => ""
  | .unknownAnchor mark => "unknown anchor" ++ mark.mention
  | .ended => "EOF while parsing a value"
  | .severalDocuments =>
    "deserializing from YAML containing more than one document is not supported"

end Flaw

/-- A value that a text holds, or the flaw that takes its place. -/
abbrev Read (α : Type) := Except Flaw α

namespace Cursor

def flaw (k : Cursor) (cause : Cause) (start : Mark) : Flaw := .broken cause k.mark start

/-- The cursor on the next line, if nothing but white and a comment is left of this one. -/
def nextLine (k : Cursor) (cause : Cause) (start : Mark) : Read Cursor :=
  let k := k.skipRemark
  if k.rest.isEmpty then .ok k
  else match k.newline? with
    | some (_, k) => .ok k
    | none => .error (k.flaw cause start)

end Cursor

end MusicMacro.Yaml
