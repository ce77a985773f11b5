import MusicMacro.Numeric.Binary64
import MusicMacro.Numeric.Word
import MusicMacro.NoteName

/-!
The equal-tempered scale. The notes of the lowest octave are given in hundredths of a hertz, each
octave doubles the one below, and an accidental moves a note by one semitone.
-/

namespace MusicMacro

/-- Frequency of the letter in the lowest octave, in hundredths of a hertz. -/
def Letter.lowestHundredths : Letter → Nat
  | .c => 1635 | .d => 1835 | .e => 2060 | .f => 2183 | .g => 2450 | .a => 2750 | .b => 3087

/-- The ratio of two notes one semitone apart. -/
def semitone : Rat := Binary64.round (mkRat 10594631 10000000)

/-- What an accidental multiplies a frequency by. -/
def Accidental.ratio : Accidental → Rat
  | .sharp => semitone
  | .flat => Binary64.div 1 semitone
  | .natural => 1

namespace Tuning

/-- A frequency rounded to two decimal places. -/
def toHundredths (hertz : Rat) : Rat := Binary64.div (roundEven (Binary64.mul hertz 100)) 100

/-- Frequency of the natural note. -/
def natural (o : Octave) (l : Letter) : Rat :=
  let lowest := Binary64.round (mkRat l.lowestHundredths 100)
  toHundredths (Binary64.mul lowest (powTwo (o.number - 1 : Nat)))

/-- Frequency of a note in whole hertz. -/
def frequency (o : Octave) (l : Letter) (a : Accidental) : UInt32 :=
  Word.nearest (roundEven (Binary64.mul (natural o l) a.ratio))

/-- All natural notes with their frequencies, from the lowest up. -/
def table : List (Octave × Letter × Rat) :=
  Octave.all.flatMap fun o => Letter.all.map fun l => (o, l, natural o l)

end Tuning

end MusicMacro
