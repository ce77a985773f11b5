import MusicMacro.Numeric.Binary64
import MusicMacro.Numeric.Word

/-! Durations in milliseconds: from the denominator of a length, the pace, and dots. -/

namespace MusicMacro

/-- How fast a performance is: the scalar that every computed duration is multiplied by. -/
structure Pace where
  scalar : Rat := 1
  deriving DecidableEq, Repr

namespace Pace

/-- Two divided by the tempo. There is no tempo zero. -/
def ofTempo? (tempo : UInt32) : Option Pace :=
  if tempo = 0 then none else some ⟨Binary64.div 2 (tempo.toNat : Rat)⟩

/-- Duration of a note of length one over the denominator; a whole note lasts two seconds. -/
def duration? (p : Pace) (denominator : UInt32) : Option UInt32 :=
  if denominator = 0 then none
  else
    let plain := Binary64.div 2000 (denominator.toNat : Rat)
    some (Word.nearest (roundEven (Binary64.mul p.scalar plain)))

end Pace

/-- A duration with dots: each one adds half of the undotted duration. -/
def withDots (duration dots : UInt32) : UInt32 :=
  let half := Word.nearest (roundEven (Binary64.div (duration.toNat : Rat) 2))
  Word.add duration (Word.mul dots half)

end MusicMacro
