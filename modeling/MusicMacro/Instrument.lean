import MusicMacro.Journal

/-! Instruments: a recorder keeps events, a beeper sounds those that can be heard. -/

namespace MusicMacro

/-- Whether a tone of the frequency can be heard: both limits are out of hearing. -/
def isAudible (frequency : UInt32) : Bool := 37 < frequency && frequency < 32767

/-- What plays events. It may add records of its own to the journal. -/
class Instrument (ε : Type) where
  play : ε → Event → ε × List Record

structure Recorder where
  events : List Event := []
  deriving DecidableEq, Repr

namespace Recorder

instance : Instrument Recorder where
  play r e := (⟨r.events ++ [e]⟩, [])

def audible (r : Recorder) : List Event := r.events.filter fun e => isAudible e.frequency

/-- The milliseconds that the audible events take one after the other. -/
def totalDuration (r : Recorder) : UInt64 :=
  r.audible.foldl (fun sum e => sum + UInt64.ofNat e.duration.toNat) 0

end Recorder

/-- Sounds each audible event for its duration and passes over the others. -/
structure Beeper where
  deriving DecidableEq, Repr

namespace Beeper

def tones (e : Event) : List Record := if isAudible e.frequency then [.tone e] else []

instance : Instrument Beeper where
  play b e := (b, tones e)

end Beeper

end MusicMacro
