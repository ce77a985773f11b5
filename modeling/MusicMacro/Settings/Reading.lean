import MusicMacro.Settings
import MusicMacro.Text.Blank
import MusicMacro.Yaml.Document

/-!
Settings read from a YAML document: a map of the known fields, in any order and each at most once.
Fields that are left out keep their defaults, and unknown keys are passed over.
-/

namespace MusicMacro.Settings

open Yaml (Head Item Scalar)

structure Draft where
  initialOctave : Option UInt32 := none
  initialDuration : Option UInt32 := none
  tempoCoupling : Option Bool := none
  deriving DecidableEq, Repr

namespace Draft

def has (d : Draft) : Field → Bool
  | .initialOctave => d.initialOctave.isSome
  | .initialDuration => d.initialDuration.isSome
  | .tempoCoupling => d.tempoCoupling.isSome

/-- The draft with defaults for the fields left out. -/
def settings (d : Draft) : Settings :=
  let given : Settings := {}
  { initialOctave := d.initialOctave.getD given.initialOctave
    initialDuration := d.initialDuration.getD given.initialDuration
    tempoCoupling := d.tempoCoupling.getD given.tempoCoupling }

end Draft

def complaint (item : Item) (wanted : Wanted) (spot : Spot) : Fault :=
  match item with
  | .scalar s => match s.meaning with
    | .ok meaning => .stray (.scalar meaning) wanted spot
    | .error tag => .mistagged s.text tag spot
  | .mapping => .stray .mapping wanted spot
  | .sequence => .stray .sequence wanted spot
  | .sequenceEnd | .mappingEnd => .unreadable .ended

/-- The word that an item writes. An integer of up to 64 bits is out of range, a longer one is
something else altogether. -/
def word (item : Item) (spot : Spot) : Except Fault UInt32 :=
  let number? := match item with
    | .scalar s => if s.speaksFor .integer then Yaml.unsigned? s.text else none
    | _ => none
  match number? with
  | some n =>
    if n < 4294967296 then .ok (UInt32.ofNat n)
    else if n < 18446744073709551616 then .error (.tooLarge n spot)
    else .error (complaint item .word spot)
  | none => .error (complaint item .word spot)

def boolean (item : Item) (spot : Spot) : Except Fault Bool :=
  let value? := match item with
    | .scalar s => if s.speaksFor .boolean then Yaml.boolean? s.text else none
    | _ => none
  match value? with
  | some b => .ok b
  | none => .error (complaint item .boolean spot)

def Draft.fill (d : Draft) (f : Field) (item : Item) (spot : Spot) : Except Fault Draft :=
  match f with
  | .initialOctave => (word item spot).map fun n => { d with initialOctave := some n }
  | .initialDuration => (word item spot).map fun n => { d with initialDuration := some n }
  | .tempoCoupling => (boolean item spot).map fun b => { d with tempoCoupling := some b }

/-- What is to be read next: a key, the value of a field under the key as written, or what is left
of an unknown value inside so many collections. -/
inductive Expecting
  | key
  | value (field : Field) (key : String)
  | unknown (depth : Nat)
  deriving DecidableEq, Repr

/-- Reads the members of the map that starts at the mark, in a document that ends with the flaw. -/
def readFrom (flaw : Yaml.Flaw) (start : Yaml.Mark) :
    Expecting → Draft → List Head → Except Fault Draft
  | _, _, [] => .error (.unreadable flaw)
  | .key, d, h :: hs =>
    match h.item with
    | .mappingEnd => .ok d
    | .scalar s =>
      match Field.ofName? s.text with
      | some f =>
        if d.has f then .error (.duplicate f { mark := start })
        else readFrom flaw start (.value f (if h.aliased then "?" else s.text)) d hs
      | none => readFrom flaw start (.unknown 0) d hs
    | item => .error (complaint item .field { mark := h.mark })
  | .value f key, d, h :: hs =>
    match d.fill f h.item { key := some key, mark := h.mark } with
    | .ok d => readFrom flaw start .key d hs
    | .error fault => .error fault
  | .unknown depth, d, h :: hs =>
    let depth :=
      if h.aliased then depth
      else match h.item with
        | .scalar _ => depth
        | .sequence | .mapping => depth + 1
        | .sequenceEnd | .mappingEnd => depth - 1
    readFrom flaw start (if depth = 0 then .key else .unknown depth) d hs

/-- The draft of a document that ends with the flaw. An empty document leaves all fields out. -/
def draft (flaw : Yaml.Flaw) : List Head → Except Fault Draft
  | [] => .ok {}
  | h :: hs =>
    match h.item with
    | .mapping => readFrom flaw h.mark .key {} hs
    | .scalar s =>
      if s.text.isEmpty && s.style = .plain then .ok {}
      else .error (complaint h.item .settings { mark := h.mark })
    | item => .error (complaint item .settings { mark := h.mark })

/-- Reads a document without checking the ranges. What is wrong with the fields is found before what
is wrong with the text behind them. -/
def ofDocument (doc : Yaml.Document) : Except Fault Settings := do
  let d ← draft (doc.flaw.getD .ended) doc.heads
  match doc.flaw with
  | none => return d.settings
  | some flaw => throw (.unreadable flaw)

/-- Reads and checks settings. A blank text holds the defaults. -/
def ofYaml (text : String) : Except Fault Settings := do
  if text.toList.all isBlank then return {}
  let s ← ofDocument (.ofText text)
  s.check
  return s

end MusicMacro.Settings
