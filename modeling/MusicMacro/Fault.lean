import MusicMacro.Settings
import MusicMacro.Text.Quoted
import MusicMacro.Token.Stream

/-! The faults that end a performance or keep it from beginning, and their wording. -/

namespace MusicMacro

/-- Why a text cannot be performed. -/
inductive Fault
  | lexical (fault : LexicalFault)
  | refused (refusal : Refusal)
  | settings (fault : Settings.Fault)
  deriving DecidableEq, Repr

def Misreading.message : Misreading → String
  | .missingArgument operator => "'" ++ operator.toString ++ "' requires a numeric argument"
  | .numberTooLarge digits => "Number '" ++ digits ++ "' is too large"

def LexicalFault.message (f : LexicalFault) : String :=
  "Parse error at line " ++ Nat.repr f.place.line ++ ", column " ++ Nat.repr f.place.column ++
    ": " ++ f.cause.message

def Refusal.message : Refusal → String
  | .octave n => "Octave " ++ Nat.repr n.toNat ++ " is outside the supported range 1-10"
  | .length n => "Invalid note length: " ++ Nat.repr n.toNat
  | .tempo n => "Invalid tempo: " ++ Nat.repr n.toNat

namespace Settings

/-- An integer in words, with the width it needs if that is above 64 bits. -/
def integerText (n : Int) : String :=
  let suffix :=
    if 18446744073709551616 ≤ n then " as u128"
    else if n < -9223372036854775808 then " as i128"
    else ""
  "integer `" ++ Int.repr n ++ "`" ++ suffix

def Stray.text : Stray → String
  | .sequence => "sequence"
  | .mapping => "map"
  | .scalar .null => "unit value"
  | .scalar (.boolean b) => "boolean `" ++ (if b then "true" else "false") ++ "`"
  | .scalar (.integer n) => integerText n
  | .scalar (.float x) => "floating point `" ++ x.text ++ "`"
  | .scalar (.text s) => "string " ++ Text.quoted s

def Wanted.text : Wanted → String
  | .settings => "struct PlayerConfig"
  | .field => "field identifier"
  | .word => "u32"
  | .boolean => "a boolean"

def tagText : Yaml.CoreTag → String
  | .null => "null"
  | .boolean => "a boolean"
  | .integer => "an integer"
  | .float => "a float"

def Spot.complain (spot : Spot) (what : String) : String :=
  let key := match spot.key with
    | some key => key ++ ": "
    | none => ""
  key ++ what ++ spot.mark.mention

def Fault.detail : Fault → String
  | .unreadable flaw => flaw.text
  | .stray found wanted spot =>
    spot.complain ("invalid type: " ++ found.text ++ ", expected " ++ wanted.text)
  | .mistagged text tag spot =>
    spot.complain ("invalid value: string " ++ Text.quoted text ++ ", expected " ++ tagText tag)
  | .tooLarge n spot =>
    spot.complain ("invalid value: integer `" ++ Nat.repr n ++ "`, expected u32")
  | .duplicate field spot => spot.complain ("duplicate field `" ++ field.name ++ "`")
  | .octaveOutOfRange n => "initial-octave must be between 1 and 10, got " ++ Nat.repr n.toNat
  | .durationOutOfRange n =>
    "initial-duration-ms must be between 1 and 60000, got " ++ Nat.repr n.toNat

def Fault.message (f : Fault) : String := "Invalid configuration: " ++ f.detail

end Settings

def Fault.message : Fault → String
  | .lexical f => f.message
  | .refused r => r.message
  | .settings f => f.message

end MusicMacro
