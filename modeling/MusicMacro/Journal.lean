import MusicMacro.Performance
import MusicMacro.Token.Stream

/-! The journal of a performance: records in the order in which things come about. -/

namespace MusicMacro

inductive Level
  | warn | info | debug | trace
  deriving DecidableEq, Repr

inductive Record
  | skipped (skipped : Skipped)
  | octaveSet (number : UInt32)
  | lengthSet (denominator duration : UInt32)
  | paceSet (tempo : UInt32) (scalar : Rat)
  | event (text : String) (event : Event)
  | tone (event : Event)
  deriving DecidableEq, Repr

namespace Record

inductive Value
  | word (n : UInt32)
  | count (n : Nat)
  | double (x : Rat)
  | character (c : Char)
  | text (s : String)
  deriving DecidableEq, Repr

def level : Record → Level
  | .skipped _ => .warn
  | .tone _ => .info
  | .event _ _ => .trace
  | _ => .debug

def message : Record → String
  | .skipped _ => "skipping unrecognized character"
  | .octaveSet _ => "octave set"
  | .lengthSet _ _ => "length set"
  | .paceSet _ _ => "rhythm set"
  | .event _ _ => "event"
  | .tone _ => "tone"

/-- What a record shows, each value under its name. -/
def fields : Record → List (String × Value)
  | .skipped s => [("line", .count s.place.line), ("column", .count s.place.column),
      ("character", .character s.character)]
  | .octaveSet n => [("octave", .word n)]
  | .lengthSet n duration => [("denominator", .word n), ("duration_ms", .word duration)]
  | .paceSet tempo scalar => [("tempo", .word tempo), ("scalar", .double scalar)]
  | .event text e => [("text", .text text), ("frequency", .word e.frequency),
      ("duration", .word e.duration)]
  | .tone e => [("frequency", .word e.frequency), ("duration_ms", .word e.duration)]

end Record

def Effect.records (text : String) : Effect → List Record
  | .silence => []
  | .octaveSet n => [.octaveSet n]
  | .lengthSet n duration => [.lengthSet n duration]
  | .paceSet tempo scalar => [.paceSet tempo scalar]
  | .sounded event => [.event text event]

end MusicMacro
