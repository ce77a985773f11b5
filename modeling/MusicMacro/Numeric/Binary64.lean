/-!
Binary64 arithmetic over the rationals. A double is the rational it stands for, and an operation is
the exact result rounded to 53 significant bits, a tie going to the even neighbour.
-/

namespace MusicMacro

/-- The nearest integer; a half goes to the even neighbour. -/
def roundEven (x : Rat) : Int :=
  let low := x.floor
  let part := x - low
  if part < 1 / 2 then low
  else if 1 / 2 < part then low + 1
  else if low % 2 = 0 then low
  else low + 1

def powTwo : Int → Rat
  | .ofNat k => (Nat.pow 2 k : Nat)
  | .negSucc k => mkRat 1 (Nat.pow 2 (k + 1))

namespace Binary64

/-- The exponent of the leading binary digit of a rational other than zero. -/
def leading (x : Rat) : Int :=
  let guess := (x.num.natAbs.log2 : Int) - (x.den.log2 : Int)
  if powTwo guess ≤ mkRat x.num.natAbs x.den then guess else guess - 1

/-- The exponent of the last binary digit that a double near the rational can hold. -/
def grain (x : Rat) : Int := max (leading x - 52) (-1074)

/-- The double nearest to a rational, of no greatest exponent. -/
def round (x : Rat) : Rat :=
  if x = 0 then 0 else roundEven (x / powTwo (grain x)) * powTwo (grain x)

def mul (x y : Rat) : Rat := round (x * y)

def div (x y : Rat) : Rat := round (x / y)

/-- The rationals that are finite doubles. -/
def IsFinite (x : Rat) : Prop :=
  ∃ m q : Int, m.natAbs < 9007199254740992 ∧ -1074 ≤ q ∧ q ≤ 971 ∧ x = m * powTwo q

end Binary64

end MusicMacro
