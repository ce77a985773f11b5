/-! Places in a text: lines and columns counted from one, in characters. -/

namespace MusicMacro

/-- A place in a text. The first character stands at line one, column one. -/
structure Place where
  line : Nat := 1
  column : Nat := 1
  deriving DecidableEq, Repr, Inhabited

namespace Place

/-- The place behind one character: only a line feed opens a new line. -/
def after (p : Place) (c : Char) : Place :=
  if c = '\n' then ⟨p.line + 1, 1⟩ else ⟨p.line, p.column + 1⟩

def past (p : Place) (cs : List Char) : Place := cs.foldl after p

@[simp] theorem past_nil (p : Place) : p.past [] = p := rfl

@[simp] theorem past_cons (p : Place) (c : Char) (cs : List Char) :
    p.past (c :: cs) = (p.after c).past cs := rfl

@[simp] theorem past_append (p : Place) (as bs : List Char) :
    p.past (as ++ bs) = (p.past as).past bs := List.foldl_append

end Place

end MusicMacro
