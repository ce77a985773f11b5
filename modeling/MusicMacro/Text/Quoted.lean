import MusicMacro.Text.Extending
import MusicMacro.Text.Graphic

/-! Quoted text: between double quotes, with escapes for what would not be seen or would end it. -/

namespace MusicMacro.Text

/-- A character in quoted text. What is not graphic, and what would change the character before it,
is written as its code point in lower-case hexadecimal digits. -/
def escape (c : Char) : List Char :=
  match c with
  | '\x00' => ['\\', '0']
  | '\t' => ['\\', 't']
  | '\n' => ['\\', 'n']
  | '\r' => ['\\', 'r']
  | '\x22' => ['\\', '\x22']
  | '\\' => ['\\', '\\']
  | c =>
    if isGraphic c && !isExtending c then [c]
    else ['\\', 'u', '\x7b'] ++ Nat.toDigits 16 c.toNat ++ ['\x7d']

def quoted (s : String) : String :=
  String.ofList ('\x22' :: (s.toList.flatMap escape ++ ['\x22']))

end MusicMacro.Text
