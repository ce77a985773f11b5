/-! Text set in columns of a fixed width. A text that is too wide is left as it is. -/

namespace MusicMacro.Text

def alignRight (width : Nat) (s : String) : String :=
  String.ofList (List.replicate (width - s.length) ' ') ++ s

end MusicMacro.Text
