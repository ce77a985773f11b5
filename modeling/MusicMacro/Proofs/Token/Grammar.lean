import Mathlib.Computability.RegularExpressions
import Mathlib.Data.Nat.Digits.Defs
import MusicMacro.Token.Stream

/-!
The grammar of the notation. Eleven rules, each a regular expression, are tried in a fixed order;
the first that matches takes its longest match, and what the token says is read off that match.
-/

namespace MusicMacro.Grammar

open RegularExpression (char star)

inductive Rule
  | numbered | note | shift | rest | tempo | volume | length | sustain | envelope | octave
  | register
  deriving DecidableEq, Repr

/-- One of the characters. -/
def oneOf (cs : List Char) : RegularExpression Char := (cs.map char).sum

def signs : List Char := ['#', '+', 'b', '-']

def digits : List Char := ['0', '1', '2', '3', '4', '5', '6', '7', '8', '9']

def zeroOrMore (cs : List Char) : RegularExpression Char := star (oneOf cs)

def oneOrMore (cs : List Char) : RegularExpression Char := oneOf cs * zeroOrMore cs

namespace Rule

/-- The place of a rule in the order in which they are tried. -/
def priority : Rule → Nat
  | .numbered => 1 | .note => 2 | .shift => 3 | .rest => 4 | .tempo => 5 | .volume => 6
  | .length => 7 | .sustain => 8 | .envelope => 9 | .octave => 10 | .register => 11

def pattern : Rule → RegularExpression Char
  | .numbered => oneOf ['N', 'n'] * (oneOrMore digits * zeroOrMore ['.'])
  | .note => oneOf ['A', 'B', 'C', 'D', 'E', 'F', 'G'] *
      (zeroOrMore signs * (zeroOrMore digits * zeroOrMore ['.']))
  | .shift => oneOf ['<', '>']
  | .rest => oneOf ['R', 'r'] * (zeroOrMore digits * zeroOrMore ['.'])
  | .tempo => oneOf ['T', 't'] * zeroOrMore digits
  | .volume => oneOf ['V', 'v'] * zeroOrMore digits
  | .length => oneOf ['L', 'l'] * zeroOrMore digits
  | .sustain => oneOf ['S', 's'] * zeroOrMore digits
  | .envelope => oneOf ['M', 'm'] * zeroOrMore digits
  | .octave => oneOf ['O', 'o'] * oneOrMore digits
  | .register => oneOf ['Y', 'y'] * oneOrMore digits

/-- The rule matches a text that stands at the front of another. -/
def Matches (r : Rule) (cs taken : List Char) : Prop := taken ∈ r.pattern.matches' ∧ taken <+: cs

end Rule

/-- The rule that a text is read by, with its longest match and the text behind that. No rule before
it matches. -/
structure FirstMatch (r : Rule) (cs taken rest : List Char) : Prop where
  split : cs = taken ++ rest
  isMatch : r.Matches cs taken
  longest : ∀ t, r.Matches cs t → t.length ≤ taken.length
  first : ∀ r' : Rule, r'.priority < r.priority → ∀ t, ¬ r'.Matches cs t

/-- No rule matches at the front of a text. -/
def NoMatch (cs : List Char) : Prop := ∀ (r : Rule) (t : List Char), ¬ r.Matches cs t

def digitsOf (taken : List Char) : List Char := taken.filter (· ∈ digits)

/-- The decimal value of the digits of a match, absent if there are none. -/
def number (taken : List Char) : Option Nat :=
  if digitsOf taken = [] then none
  else some (Nat.ofDigits 10 ((digitsOf taken).reverse.map fun d => digits.idxOf d))

/-- The meaning of the first sign of a match. -/
def accidental (taken : List Char) : Option Accidental :=
  (taken.find? (· ∈ signs)).bind Accidental.ofChar?

/-- The number of dots at the end of a match. -/
def trailingDots (taken : List Char) : Nat := (taken.reverse.takeWhile (· == '.')).length

/-- What a match of a rule says. -/
inductive Says (taken : List Char) : Rule → Token.Kind → Prop
  | numbered {n d : UInt32} : some n.toNat = number taken → d.toNat = trailingDots taken →
      Says taken .numbered (.numbered n d)
  | note {l : Letter} {n : Option UInt32} {d : UInt32} : taken.head? = some l.toChar →
      n.map UInt32.toNat = number taken → d.toNat = trailingDots taken →
      Says taken .note (.note l (accidental taken) n d)
  | up : taken = ['>'] → Says taken .shift (.shift .up)
  | down : taken = ['<'] → Says taken .shift (.shift .down)
  | rest {n : Option UInt32} {d : UInt32} : n.map UInt32.toNat = number taken →
      d.toNat = trailingDots taken → Says taken .rest (.rest n d)
  | tempo {n : Option UInt32} : n.map UInt32.toNat = number taken → Says taken .tempo (.tempo n)
  | volume {n : Option UInt32} : n.map UInt32.toNat = number taken → Says taken .volume (.volume n)
  | length {n : Option UInt32} : n.map UInt32.toNat = number taken → Says taken .length (.length n)
  | sustain {n : Option UInt32} : n.map UInt32.toNat = number taken →
      Says taken .sustain (.sustain n)
  | envelope {n : Option UInt32} : n.map UInt32.toNat = number taken →
      Says taken .envelope (.envelope n)
  | octave {n : UInt32} : some n.toNat = number taken → Says taken .octave (.octave n)
  | register {n : UInt32} : some n.toNat = number taken → Says taken .register (.register n)

/-- What is to be done at a character that is no separator. -/
inductive Verdict
  | token (kind : Token.Kind) (taken rest : List Char)
  | fault (message : String)
  | skipped
  deriving DecidableEq, Repr

/-- The verdict on a text that begins with a character other than a separator. -/
inductive Judges (c : Char) (cs : List Char) : Verdict → Prop
  | token {r : Rule} {taken rest : List Char} {kind : Token.Kind} :
      FirstMatch r (c :: cs) taken rest → Says taken r kind → Judges c cs (.token kind taken rest)
  | tooLarge {r : Rule} {taken rest : List Char} {n : Nat} :
      FirstMatch r (c :: cs) taken rest → number taken = some n → 4294967296 ≤ n →
      Judges c cs (.fault ("Number '" ++ String.ofList (digitsOf taken) ++ "' is too large"))
  | missing : NoMatch (c :: cs) → c ∈ ['O', 'o', 'Y', 'y'] →
      Judges c cs (.fault ("'" ++ c.toString ++ "' requires a numeric argument"))
  | skipped : NoMatch (c :: cs) → c ∉ ['O', 'o', 'Y', 'y'] → Judges c cs .skipped

/-- What a text gives: its tokens, the characters skipped, and the first fault with its place. -/
structure Outcome where
  tokens : List Token := []
  skipped : List Skipped := []
  fault : Option (Place × String) := none
  deriving DecidableEq, Repr

/-- Lexing a text that begins at a place. -/
inductive Lexes : Place → List Char → Outcome → Prop
  | ended {p : Place} : Lexes p [] {}
  | separator {p : Place} {c : Char} {cs : List Char} {o : Outcome} : isSeparator c = true →
      Lexes (p.after c) cs o → Lexes p (c :: cs) o
  | token {p : Place} {c : Char} {cs taken rest : List Char} {kind : Token.Kind} {o : Outcome} :
      isSeparator c = false → Judges c cs (.token kind taken rest) → Lexes (p.past taken) rest o →
      Lexes p (c :: cs) { o with tokens := ⟨kind, c, String.ofList taken, p⟩ :: o.tokens }
  | fault {p : Place} {c : Char} {cs : List Char} {message : String} : isSeparator c = false →
      Judges c cs (.fault message) → Lexes p (c :: cs) { fault := some (p, message) }
  | skipped {p : Place} {c : Char} {cs : List Char} {o : Outcome} : isSeparator c = false →
      Judges c cs .skipped → Lexes (p.after c) cs o →
      Lexes p (c :: cs) { o with skipped := ⟨c, p⟩ :: o.skipped }

/-! The grammar shares its separators and the meaning of its signs with the reader. Both are told here
character by character. -/

/-- The code points of the characters with the property White_Space. -/
def whiteSpace : List Nat :=
  [0x09, 0x0A, 0x0B, 0x0C, 0x0D, 0x20, 0x85, 0xA0, 0x1680, 0x2000, 0x2001, 0x2002, 0x2003, 0x2004,
    0x2005, 0x2006, 0x2007, 0x2008, 0x2009, 0x200A, 0x2028, 0x2029, 0x202F, 0x205F, 0x3000]

theorem isSeparator_iff {c : Char} : isSeparator c = true ↔ c = ';' ∨ c.toNat ∈ whiteSpace := by
  rw [isSeparator, Bool.or_eq_true, beq_iff_eq]
  refine or_congr_right ?_
  simp only [isBlank, blankRanges, whiteSpace, List.any_cons, List.any_nil, Bool.or_false,
    Bool.or_eq_true, Bool.and_eq_true, decide_eq_true_eq, List.mem_cons, List.not_mem_nil, or_false]
  omega

/-- The signs and what each of them means. -/
inductive Sign : Char → Accidental → Prop
  | hash : Sign '#' .sharp
  | plus : Sign '+' .sharp
  | b : Sign 'b' .flat
  | minus : Sign '-' .flat

theorem ofChar?_eq_some_iff {c : Char} {a : Accidental} :
    Accidental.ofChar? c = some a ↔ Sign c a := by
  constructor
  · intro h
    unfold Accidental.ofChar? at h
    split at h <;> cases h <;> constructor
  · intro h
    cases h <;> rfl

theorem mem_signs_iff {c : Char} : c ∈ signs ↔ ∃ a, Sign c a := by
  constructor
  · intro h
    simp only [signs, List.mem_cons, List.not_mem_nil, or_false] at h
    obtain rfl | rfl | rfl | rfl := h
    · exact ⟨_, .hash⟩
    · exact ⟨_, .plus⟩
    · exact ⟨_, .b⟩
    · exact ⟨_, .minus⟩
  · rintro ⟨a, h⟩
    cases h <;> decide

/-- The first sign of a match counts, whatever stands behind it. -/
theorem accidental_eq_some_iff {taken : List Char} {a : Accidental} : accidental taken = some a ↔
    ∃ before c after, taken = before ++ c :: after ∧ (∀ d ∈ before, d ∉ signs) ∧ Sign c a := by
  rw [accidental, Option.bind_eq_some_iff]
  constructor
  · rintro ⟨c, hfind, hc⟩
    obtain ⟨-, before, after, rfl, hbefore⟩ := List.find?_eq_some_iff_append.1 hfind
    exact ⟨before, c, after, rfl, by simpa using hbefore, ofChar?_eq_some_iff.1 hc⟩
  · rintro ⟨before, c, after, rfl, hbefore, hc⟩
    refine ⟨c, ?_, ofChar?_eq_some_iff.2 hc⟩
    refine List.find?_eq_some_iff_append.2 ⟨?_, before, after, rfl, by simpa using hbefore⟩
    exact decide_eq_true (mem_signs_iff.2 ⟨a, hc⟩)

theorem priority_injective : Function.Injective Rule.priority := by
  intro r r' h
  cases r <;> cases r' <;> first | rfl | cases h

theorem FirstMatch.unique {r r' : Rule} {cs taken taken' rest rest' : List Char}
    (h : FirstMatch r cs taken rest) (h' : FirstMatch r' cs taken' rest') :
    r = r' ∧ taken = taken' ∧ rest = rest' := by
  have hr : r = r' := by
    apply priority_injective
    rcases Nat.lt_trichotomy r.priority r'.priority with hlt | heq | hgt
    · exact absurd h.isMatch (h'.first r hlt taken)
    · exact heq
    · exact absurd h'.isMatch (h.first r' hgt taken')
  subst hr
  have hlen : taken.length = taken'.length :=
    Nat.le_antisymm (h'.longest _ h.isMatch) (h.longest _ h'.isMatch)
  exact ⟨rfl, List.append_inj (h.split.symm.trans h'.split) hlen⟩

theorem FirstMatch.not_noMatch {r : Rule} {cs taken rest : List Char}
    (h : FirstMatch r cs taken rest) : ¬ NoMatch cs := fun hn => hn r taken h.isMatch

end MusicMacro.Grammar
