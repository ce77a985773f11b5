import MusicMacro.Proofs.Token.Grammar.Reading
import MusicMacro.Proofs.Token.Order

/-!
Dots are counted in a word. A run of dots that is longer than the words is counted anew from zero,
so that a token says how many dots end its text up to multiples of 2 ^ 32.
-/

namespace MusicMacro

def Token.Kind.dots? : Kind → Option UInt32
  | .numbered _ dots => some dots
  | .note _ _ _ dots => some dots
  | .rest _ dots => some dots
  | _ => none

/-- The number of dots at the end of the text of a token. -/
def Token.writtenDots (t : Token) : ℕ := Grammar.trailingDots t.text.toList

namespace Operator

variable {op : Operator} {accidental : Option Accidental} {argument : Option UInt32}
  {dots d : UInt32} {kind : Token.Kind}

theorem dots_of_kind? (h : op.kind? accidental argument dots = some kind)
    (hd : kind.dots? = some d) : d = dots := by
  cases op with
  | numbered =>
      obtain ⟨n, -, rfl⟩ := Option.map_eq_some_iff.1 h
      exact (Option.some.inj hd).symm
  | note | rest =>
      obtain rfl := Option.some.inj h
      exact (Option.some.inj hd).symm
  | octave | register =>
      obtain ⟨n, -, rfl⟩ := Option.map_eq_some_iff.1 h
      cases hd
  | _ =>
      obtain rfl := Option.some.inj h
      cases hd

end Operator

/-- A token that is read counts the dots at the end of what it takes. -/
theorem Reading.toNat_dots {c : Char} {cs taken rest : List Char} {kind : Token.Kind} {d : UInt32}
    (h : ofText c cs = .token kind taken rest) (hd : kind.dots? = some d) :
    d.toNat = Grammar.trailingDots taken % 4294967296 := by
  unfold ofText at h
  split at h
  · cases h
  next op hop =>
    dsimp only at h
    split at h
    · cases h
    · split at h
      next hkind =>
        cases h
        rw [Operator.dots_of_kind? hkind hd, (Operator.spelled_parts hop cs).trailingDots_eq]
        exact UInt32.toNat_ofNat'
      · split at h <;> cases h

theorem TokenStream.toNat_dots {source : String} {t : Token} {d : UInt32}
    (h : t ∈ (ofText source).transcript.tokens) (hd : t.kind.dots? = some d) :
    d.toNat = t.writtenDots % 4294967296 := by
  obtain ⟨-, rest, taken, behind, hr, htext⟩ :=
    exists_reading_of_mem_pieces (mem_pieces_of_token h)
  rw [Token.writtenDots, htext, String.toList_ofList]
  exact Reading.toNat_dots hr hd

end MusicMacro
