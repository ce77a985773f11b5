import MusicMacro.Yaml.Flaw
import MusicMacro.Yaml.Scalar

/-!
Literal and folded scalars: the lines below a header, as far as they are indented. A literal one
keeps its breaks, a folded one joins lines that do not begin with white.
-/

namespace MusicMacro.Yaml.Block

/-- What becomes of the breaks at the end. -/
inductive Chomp
  | strip | clip | keep
  deriving DecidableEq, Repr

/-- The header: how to chomp, and the indentation if it is given. -/
structure Header where
  chomp : Chomp := .clip
  increment : Option Nat := none
  deriving DecidableEq, Repr

def chomp? : Char → Option Chomp
  | '-' => some .strip
  | '+' => some .keep
  | _ => none

/-- The increment at the front, if a digit stands there. It may not be zero. -/
def increment (start : Mark) (k : Cursor) : Read (Option Nat × Cursor) :=
  match k.rest.head?.bind (digit? 10) with
  | none => .ok (none, k)
  | some 0 => .error (k.flaw .zeroIncrement start)
  | some n => .ok (some n, k.forward 1)

/-- The header behind the indicator: both parts may be left out, and come in either order. -/
def header (start : Mark) (k : Cursor) : Read (Header × Cursor) :=
  match k.rest.head?.bind chomp? with
  | some chomp => do
    let (increment, k) ← increment start (k.forward 1)
    return ({ chomp, increment }, k)
  | none => do
    let (increment, k) ← increment start k
    return match increment, k.rest.head?.bind chomp? with
      | some n, some chomp => ({ chomp, increment := some n }, k.forward 1)
      | increment, _ => ({ increment }, k)

/-- Empty lines: their breaks, the widest indentation met, and the cursor at the text behind them.
With no indentation given all spaces count as such. A tab may not stand in the indentation. Every
round but the last takes a break, so more fuel than the text is long is enough. -/
def emptyLines (start : Mark) (indent : Option Nat) : Nat → List Char → Nat → Cursor →
    Read (List Char × Nat × Cursor)
  | 0, breaks, widest, k => .ok (breaks, widest, k)
  | fuel + 1, breaks, widest, k =>
    let spaces := (k.rest.takeWhile (· == ' ')).length
    let spaces := match indent with
      | some n => min spaces (n - k.mark.column)
      | none => spaces
    let k := k.forward spaces
    let widest := max widest k.mark.column
    let inside := match indent with
      | some n => decide (k.mark.column < n)
      | none => true
    if inside && k.rest.head? == some '\t' then .error (k.flaw .tabInBlock start)
    else match k.newline? with
    | some (b, k) => emptyLines start indent fuel (breaks ++ [b]) widest k
    | none => .ok (breaks, widest, k)

/-- The lines of text read so far: the text in reverse, the break behind it, the breaks of empty
lines behind that, and whether the last line began with white. -/
structure Lines where
  done : List Char := []
  last : Option Char := none
  empty : List Char
  white : Bool := false
  deriving DecidableEq, Repr

namespace Lines

/-- What joins the text to the next line, given whether that begins with white. -/
def joint (x : Lines) (literal white : Bool) : List Char :=
  if !literal && x.last == some '\n' && !x.white && !white then
    if x.empty.isEmpty then [' '] else x.empty
  else x.last.toList ++ x.empty

/-- The whole text, with what the chomping leaves of its end. -/
def text (x : Lines) (chomp : Chomp) : List Char :=
  x.done.reverse ++ match chomp with
    | .strip => []
    | .clip => x.last.toList
    | .keep => x.last.toList ++ x.empty

/-- Reads on as far as lines are indented. Every round takes a line. -/
def readFrom (literal : Bool) (start : Mark) (indent : Nat) : Nat → Lines → Cursor →
    Read (Lines × Cursor)
  | 0, x, k => .ok (x, k)
  | fuel + 1, x, k =>
    if k.mark.column ≠ indent || k.rest.isEmpty then .ok (x, k)
    else
      let white := (k.rest.head?.map isWhite).getD false
      let (line, k) := k.span fun c => !isBreak c
      let done := line.reverse ++ ((x.joint literal white).reverse ++ x.done)
      let (last, k) := match k.newline? with
        | some (b, k) => (some b, k)
        | none => (none, k)
      match emptyLines start (some indent) (k.rest.length + 1) [] 0 k with
      | .ok (empty, _, k) => readFrom literal start indent fuel { done, last, empty, white } k
      | .error flaw => .error flaw

end Lines

/-- Reads a block scalar from its indicator on, inside a block of the given indentation. -/
def read (literal : Bool) (outer : Int) (k : Cursor) : Read (List Char × Cursor) := do
  let start := k.mark
  let (header, k) ← header start (k.forward 1)
  let k ← k.nextLine .headerTail start
  let given := header.increment.map fun n => (max outer 0).toNat + n
  let (empty, widest, k) ← emptyLines start given (k.rest.length + 1) [] 0 k
  let indent := given.getD (max (max widest (outer + 1).toNat) 1)
  let (lines, k) ← Lines.readFrom literal start indent (k.rest.length + 1) { empty } k
  return (lines.text header.chomp, k)

end MusicMacro.Yaml.Block
