import MusicMacro.Numeric.Double

/-!
Scalars of a YAML document and what they stand for. A plain scalar may be null, a boolean, an
integer or a float by its text alone; a tag of the core schema asks for one of these.
-/

namespace MusicMacro.Yaml

inductive Style
  | plain | singleQuoted | doubleQuoted | literal | folded
  deriving DecidableEq, Repr

structure Scalar where
  text : String
  style : Style := .plain
  tag : Option String := none
  deriving DecidableEq, Repr

inductive Meaning
  | null
  | boolean (value : Bool)
  | integer (value : Int)
  | float (value : Double)
  | text (value : String)
  deriving DecidableEq, Repr

/-- The types that the core schema has tags for. -/
inductive CoreTag
  | null | boolean | integer | float
  deriving DecidableEq, Repr

namespace CoreTag

def all : List CoreTag := [.null, .boolean, .integer, .float]

def uri : CoreTag → String
  | .null => "tag:yaml.org,2002:null"
  | .boolean => "tag:yaml.org,2002:bool"
  | .integer => "tag:yaml.org,2002:int"
  | .float => "tag:yaml.org,2002:float"

def ofUri? (tag : String) : Option CoreTag := all.find? fun t => t.uri == tag

end CoreTag

/-- The value of a digit in bases up to sixteen. -/
def digit? (base : Nat) (c : Char) : Option Nat :=
  let value? :=
    if '0' ≤ c ∧ c ≤ '9' then some (c.toNat - '0'.toNat)
    else if 'a' ≤ c ∧ c ≤ 'f' then some (c.toNat - 'a'.toNat + 10)
    else if 'A' ≤ c ∧ c ≤ 'F' then some (c.toNat - 'A'.toNat + 10)
    else none
  value?.filter (· < base)

/-- The number that a run of digits writes in a base; an empty run writes none. -/
def number? (base : Nat) (cs : List Char) : Option Nat :=
  if cs.isEmpty then none
  else (cs.mapM (digit? base)).map fun ds => ds.foldl (fun n d => base * n + d) 0

/-- Whether a text is a numeral of several digits with a zero in front, which makes it no number. -/
def isZeroPadded (cs : List Char) : Bool :=
  match (Decimal.sign cs).2 with
  | '0' :: d :: ds => (d :: ds).all Char.isDigit
  | _ => false

/-- The base that the front of a numeral names, and its digits. -/
def based : List Char → Option (Nat × List Char)
  | '0' :: 'x' :: ds => some (16, ds)
  | '0' :: 'o' :: ds => some (8, ds)
  | '0' :: 'b' :: ds => some (2, ds)
  | _ => none

def magnitude? (cs : List Char) : Option Nat :=
  match based cs with
  | some (base, ds) => number? base ds
  | none => if isZeroPadded cs then none else number? 10 cs

/-- A numeral with no sign or a plus. -/
def unsigned? (s : String) : Option Nat :=
  match s.toList with
  | '+' :: cs => magnitude? cs
  | cs => magnitude? cs

/-- An integer of at most 128 bits, of which a negative one uses one for the sign. -/
def integer? (s : String) : Option Int :=
  match s.toList with
  | '-' :: cs => do
    let n ← magnitude? cs
    if n ≤ 170141183460469231731687303715884105728 then some (-n) else none
  | _ => do
    let n ← unsigned? s
    if n < 340282366920938463463374607431768211456 then some n else none

def boolean? (s : String) : Option Bool :=
  if ["true", "True", "TRUE"].contains s then some true
  else if ["false", "False", "FALSE"].contains s then some false
  else none

def isNull (s : String) : Bool := ["null", "Null", "NULL", "~"].contains s

def float? (s : String) : Option Double :=
  if [".inf", ".Inf", ".INF", "+.inf", "+.Inf", "+.INF"].contains s then some (.infinite false)
  else if ["-.inf", "-.Inf", "-.INF"].contains s then some (.infinite true)
  else if [".nan", ".NaN", ".NAN"].contains s then some .nan
  else (Decimal.ofText? s.toList).bind Double.ofDecimal?

namespace Meaning

def ofPlain (s : String) : Meaning :=
  if s.isEmpty || isNull s then .null
  else match boolean? s with
    | some b => .boolean b
    | none => match integer? s with
      | some n => .integer n
      | none => match if isZeroPadded s.toList then none else float? s with
        | some x => .float x
        | none => .text s

/-- What a text stands for as a value of a core type. -/
def ofCore? : CoreTag → String → Option Meaning
  | .null, s => if isNull s then some .null else none
  | .boolean, s => (boolean? s).map .boolean
  | .integer, s => (integer? s).map .integer
  | .float, s => (float? s).map .float

end Meaning

namespace Scalar

/-- What a scalar stands for, or the core type that its tag asks for in vain. -/
def meaning (s : Scalar) : Except CoreTag Meaning :=
  match s.tag with
  | none => .ok (if s.style = .plain then .ofPlain s.text else .text s.text)
  | some tag =>
    match CoreTag.ofUri? tag with
    | some core => match Meaning.ofCore? core s.text with
      | some m => .ok m
      | none => .error core
    | none =>
      .ok (if tag.startsWith "!" && s.style = .plain then .ofPlain s.text else .text s.text)

/-- Whether the scalar is read as a value of a core type: it is plain, or a literal block with the
tag of that type. -/
def speaksFor (s : Scalar) (core : CoreTag) : Bool :=
  s.style = .plain || (s.style = .literal && s.tag == some core.uri)

end Scalar

end MusicMacro.Yaml
