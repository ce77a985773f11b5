import MusicMacro.Yaml.Event
import MusicMacro.Yaml.Token.Reader

/-!
A YAML document as its reader meets it: events in order, each alias replaced by the head of the node
that it stands for.
-/

namespace MusicMacro.Yaml

inductive Item
  | scalar (scalar : Scalar)
  | sequence
  | sequenceEnd
  | mapping
  | mappingEnd
  deriving DecidableEq, Repr

/-- An item, where it is written, and whether an alias led there. -/
structure Head where
  item : Item
  mark : Mark
  aliased : Bool := false
  deriving DecidableEq, Repr

/-- The anchors met so far: names with their numbers, the latest first, and what has each number.
A number is how many names there were before, so a name that comes again can take the number of
another, which then stands for the same node. -/
structure Anchors where
  numbers : List (String × Nat) := []
  targets : List (Nat × Head) := []
  deriving DecidableEq, Repr

namespace Anchors

def define (a : Anchors) (name : Option String) (h : Head) : Anchors :=
  match name with
  | none => a
  | some name =>
    let number := a.numbers.length
    { numbers := (name, number) :: a.numbers.filter (·.1 != name)
      targets := (number, h) :: a.targets }

end Anchors

/-- The heads of a document, as far as it goes, and the flaw that ends it early. -/
structure Document where
  heads : List Head
  flaw : Option Flaw
  deriving DecidableEq, Repr

namespace Document

/-- A head, or the number of an anchor in its stead. -/
inductive Entry
  | head (head : Head)
  | alias (number : Nat)
  deriving DecidableEq, Repr

/-- Gives numbers to anchors and aliases. An alias without an anchor ends the document; else the
flaw given does. -/
def number (flaw : Option Flaw) (a : Anchors) : List Event → List Entry × Anchors × Option Flaw
  | [] => ([], a, flaw)
  | e :: es =>
    let enter := fun item anchor =>
      let h : Head := { item, mark := e.mark }
      let (entries, a, flaw) := number flaw (a.define anchor h) es
      (Entry.head h :: entries, a, flaw)
    match e.kind with
    | .alias name =>
      match a.numbers.lookup name with
      | none => ([], a, some (.unknownAnchor e.mark))
      | some n =>
        let (entries, a, flaw) := number flaw a es
        (.alias n :: entries, a, flaw)
    | .scalar s anchor => enter (.scalar s) anchor
    | .sequence anchor => enter .sequence anchor
    | .mapping anchor => enter .mapping anchor
    | .sequenceEnd => enter .sequenceEnd none
    | .mappingEnd => enter .mappingEnd none

/-- The head of an entry, an alias being followed to the last node of its number. -/
def Entry.resolve? (a : Anchors) : Entry → Option Head
  | .head h => some h
  | .alias n => (a.targets.lookup n).map fun h => { h with aliased := true }

/-- The document that a text holds. -/
def ofText (s : String) : Document :=
  let (tokens, unread) := tokens s
  let (events, flaw) := Event.ofTokens tokens unread
  let (entries, anchors, flaw) := number flaw {} events
  ⟨entries.filterMap (Entry.resolve? anchors), flaw⟩

end Document

end MusicMacro.Yaml
