import MusicMacro.Yaml.Flaw
import MusicMacro.Yaml.Scalar

/-! Tokens of YAML. -/

namespace MusicMacro.Yaml

namespace Token

inductive Kind
  | streamEnd
  | version (major minor : Nat)
  | handle (handle expansion : String)
  | documentStart
  | documentEnd
  | blockSequence
  | blockMapping
  | blockEnd
  | flowSequence
  | flowSequenceEnd
  | flowMapping
  | flowMappingEnd
  | entry
  | comma
  | key
  | value
  | alias (name : String)
  | anchor (name : String)
  | tag (handle suffix : String)
  | scalar (text : String) (style : Style)
  deriving DecidableEq, Repr

end Token

/-- A token with the marks where it begins and ends. -/
structure Token where
  kind : Token.Kind
  start : Mark
  stop : Mark
  deriving DecidableEq, Repr

end MusicMacro.Yaml
