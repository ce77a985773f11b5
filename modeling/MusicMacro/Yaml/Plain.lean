import MusicMacro.Yaml.Folding

/-! Plain scalars: text without quotes, which runs until something else must begin. -/

namespace MusicMacro.Yaml

/-- A plain scalar read to its end, and the cursor behind the gap that follows it. -/
structure Plain where
  text : List Char
  stop : Mark
  broken : Bool
  cursor : Cursor
  deriving DecidableEq, Repr

namespace Plain

/-- The characters that structure a flow collection. -/
def isFlowSign (c : Char) : Bool := c == ',' || c == '[' || c == ']' || c == '{' || c == '}'

/-- Whether a scalar ends in front of a character, given the gap before it and the text behind. -/
def ends (flow : Bool) (indent : Int) (gap : Gap) (m : Mark) (c : Char) (cs : List Char) : Bool :=
  (!gap.isNone && ((!flow && (m.column : Int) < indent) || c == '#')) ||
    (m.column == 0 && atMarker (c :: cs)) || (c == ':' && atGap cs) || (flow && isFlowSign c)

/-- Whether a colon stands in a flow collection where it is neither text nor indicator. -/
def isStrayColon (flow : Bool) (c : Char) : List Char → Bool
  | d :: _ => flow && c == ':' && (isFlowSign d || d == '?')
  | [] => false

/-- Reads on, with the text so far in reverse and the gap behind it. -/
def readFrom (flow : Bool) (indent : Int) (start : Mark) (done : List Char) (stop : Mark)
    (gap : Gap) (m : Mark) : List Char → Read Plain
  | '\r' :: '\n' :: cs =>
    readFrom flow indent start done stop (gap.addBreak '\n') (m.newline 2) cs
  | c :: cs =>
    if isBreak c then
      let kept := if c == '\u2028' || c == '\u2029' then c else '\n'
      readFrom flow indent start done stop (gap.addBreak kept) (m.newline c.utf8Size) cs
    else if isWhite c then
      if c == '\t' && gap.isBroken && (m.column : Int) < indent then
        .error (.broken .tabInPlain m start)
      else readFrom flow indent start done stop (gap.addWhite c) (m.after c) cs
    else if ends flow indent gap m c cs then
      .ok ⟨done.reverse, stop, gap.isBroken, ⟨c :: cs, m⟩⟩
    else if isStrayColon flow c cs then .error (.broken .colonInPlain m start)
    else
      let done := c :: (gap.text.reverse ++ done)
      readFrom flow indent start done (m.after c) .none (m.after c) cs
  | [] => .ok ⟨done.reverse, stop, gap.isBroken, ⟨[], m⟩⟩

/-- Reads a plain scalar. In a block its further lines are indented as given at least. -/
def read (flow : Bool) (indent : Int) (k : Cursor) : Read Plain :=
  readFrom flow indent k.mark [] k.mark .none k.mark k.rest

end Plain

end MusicMacro.Yaml
