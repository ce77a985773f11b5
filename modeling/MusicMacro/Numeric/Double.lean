import MusicMacro.Numeric.Binary64
import MusicMacro.Numeric.Decimal

/-!
Doubles with their infinities, read from decimals and written with the fewest digits that read back.
-/

namespace MusicMacro

inductive Double
  | finite (negative : Bool) (size : Rat)
  | infinite (negative : Bool)
  | nan
  deriving DecidableEq, Repr

def powTen : Int → Rat
  | .ofNat k => (Nat.pow 10 k : Nat)
  | .negSucc k => mkRat 1 (Nat.pow 10 (k + 1))

namespace Double

/-- The number of decimal digits of a number; zero has one. -/
def digitCount (n : Nat) : Nat := (Nat.toDigits 10 n).length

/-- The double nearest to a decimal, unless that lies beyond the greatest one.
Far outside the range of doubles the number of digits alone decides. -/
def ofDecimal? (d : Decimal) : Option Double :=
  if d.digits = 0 then some (.finite d.negative 0)
  else
    let top := digitCount d.digits + d.exponent
    if 310 < top then none
    else if top < -330 then some (.finite d.negative 0)
    else
      let size := Binary64.round (d.digits * powTen d.exponent)
      if powTwo 1024 ≤ size then none else some (.finite d.negative size)

/-- The power of ten just above a positive rational, as an exponent. -/
def decimalTop (x : Rat) : Int :=
  let guess := (digitCount x.num.natAbs : Int) - digitCount x.den
  if x < powTen guess then guess else guess + 1

/-- The multiple of a power of ten that reads back as the double: of two, the nearer. -/
def onGrid? (x : Rat) (exponent : Int) : Option Nat :=
  let unit := powTen exponent
  let low := (x / unit).floor
  let readsBack := fun n : Int => Binary64.round (n * unit) = x
  if readsBack low ∧ (¬ readsBack (low + 1) ∨ x - low * unit < (low + 1) * unit - x) then
    some low.toNat
  else if readsBack (low + 1) then some (low + 1).toNat
  else none

/-- Digits and exponent of the shortest decimal that reads back as a positive double. -/
def shortest (x : Rat) : Nat × Int :=
  let grids := (List.range 18).map fun n : Nat => decimalTop x - n
  (grids.findSome? fun e => (onGrid? x e).map fun n => (n, e)).getD (0, 0)

/-- Digits with a decimal point in their midst, or with zeros up to the point. -/
def positional (digits : Nat) : Int → String
  | .ofNat k => Nat.repr digits ++ String.ofList (List.replicate k '0') ++ ".0"
  | .negSucc k =>
    let cs := Nat.toDigits 10 digits
    let cs := List.replicate (k + 2 - cs.length) '0' ++ cs
    String.ofList (cs.take (cs.length - (k + 1))) ++ "." ++
      String.ofList (cs.drop (cs.length - (k + 1)))

/-- A double in positional notation, with at least one digit behind the point. -/
def text : Double → String
  | .finite negative size =>
    let (digits, exponent) := if size = 0 then (0, 0) else shortest size
    (if negative then "-" else "") ++ positional digits exponent
  | .infinite negative => if negative then "-inf" else "inf"
  | .nan => "NaN"

end Double

end MusicMacro
