import MusicMacro.Numeric.Decimal
import MusicMacro.Token

/-!
What stands at the front of a text: a token, an operator that cannot be read, or a character that is
no operator. Signs, digits and dots are taken in this order, each run as far as it goes.
-/

namespace MusicMacro

inductive Misreading
  | missingArgument (operator : Char)
  | numberTooLarge (digits : String)
  deriving DecidableEq, Repr

/-- The argument that a run of digits writes: absent if there are none, else a word. -/
def Token.argument (digits : List Char) : Except Misreading (Option UInt32) :=
  if digits.isEmpty then .ok none
  else if Decimal.value digits < 4294967296 then .ok (some (UInt32.ofNat (Decimal.value digits)))
  else .error (.numberTooLarge (String.ofList digits))

/-- What an operator owns of the text behind it, and what is left of that text. -/
structure Operator.Parts where
  signs : List Char
  digits : List Char
  dots : List Char
  rest : List Char
  deriving DecidableEq, Repr

namespace Operator

/-- Divides the text behind an operator. -/
def parts (op : Operator) (cs : List Char) : Parts :=
  let sign := fun c => op.takesSigns && Accidental.isSign c
  let digit := fun c : Char => op.takesDigits && c.isDigit
  let dot := fun c => op.takesDots && c == '.'
  let unsigned := cs.dropWhile sign
  let undotted := unsigned.dropWhile digit
  ⟨cs.takeWhile sign, unsigned.takeWhile digit, undotted.takeWhile dot, undotted.dropWhile dot⟩

theorem parts_append (op : Operator) (cs : List Char) :
    (op.parts cs).signs ++ ((op.parts cs).digits ++ ((op.parts cs).dots ++ (op.parts cs).rest)) =
      cs := by
  simp [parts]

namespace Parts

/-- The accidental of the first sign; the other signs have no meaning. -/
def accidental (p : Parts) : Option Accidental := p.signs.head?.bind Accidental.ofChar?

def dotCount (p : Parts) : UInt32 := UInt32.ofNat p.dots.length

end Parts

end Operator

/-- The front of a text: the characters taken and those left. -/
inductive Reading
  | token (kind : Token.Kind) (taken rest : List Char)
  | failed (cause : Misreading) (taken rest : List Char)
  | unknown
  deriving DecidableEq, Repr

namespace Reading

/-- Reads the first character as an operator. A number sign without digits opens no token. -/
def ofText (c : Char) (cs : List Char) : Reading :=
  match Operator.ofChar? c with
  | none => .unknown
  | some op =>
    let p := op.parts cs
    match Token.argument p.digits with
    | .error cause => .failed cause (c :: (p.signs ++ p.digits)) (p.dots ++ p.rest)
    | .ok n =>
      match op.kind? p.accidental n p.dotCount with
      | some kind => .token kind (c :: (p.signs ++ (p.digits ++ p.dots))) p.rest
      | none =>
        if op = .numbered then .unknown
        else .failed (.missingArgument c) (c :: (p.signs ++ p.digits)) (p.dots ++ p.rest)

theorem eq_append_of_token {c : Char} {cs taken rest : List Char} {kind : Token.Kind}
    (h : ofText c cs = .token kind taken rest) : c :: cs = taken ++ rest ∧ taken ≠ [] := by
  unfold ofText at h
  split at h
  · cases h
  next op _ =>
    dsimp only at h
    split at h
    · cases h
    · split at h
      · cases h
        refine ⟨?_, List.cons_ne_nil _ _⟩
        simp only [List.cons_append, List.append_assoc, op.parts_append]
      · split at h <;> cases h

theorem eq_append_of_failed {c : Char} {cs taken rest : List Char} {cause : Misreading}
    (h : ofText c cs = .failed cause taken rest) : c :: cs = taken ++ rest ∧ taken ≠ [] := by
  unfold ofText at h
  split at h
  · cases h
  next op _ =>
    dsimp only at h
    split at h
    · cases h
      refine ⟨?_, List.cons_ne_nil _ _⟩
      simp only [List.cons_append, List.append_assoc, op.parts_append]
    · split at h
      · cases h
      · split at h
        · cases h
        · cases h
          refine ⟨?_, List.cons_ne_nil _ _⟩
          simp only [List.cons_append, List.append_assoc, op.parts_append]

end Reading

end MusicMacro
