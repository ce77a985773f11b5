import MusicMacro.Fault
import MusicMacro.Instrument

/-!
Running a text: tokens are read and performed one by one, each only when the next event is asked
for. The first fault ends a run.
-/

namespace MusicMacro

structure Run where
  stream : TokenStream
  coupled : Bool
  state : State
  finished : Bool := false

inductive Answer
  | event (event : Event)
  | failed (fault : Fault)
  | ended
  deriving DecidableEq, Repr

/-- A request: what was recorded on the way, its answer, and the run behind it. -/
structure Request where
  records : List Record
  answer : Answer
  run : Run

namespace Run

/-- A run that has not begun. -/
def start (source : String) (settings : Settings) : Except Fault Run :=
  match settings.start with
  | .error f => .error (.settings f)
  | .ok state => .ok ⟨.ofText source, settings.tempoCoupling, state, false⟩

/-- Performs tokens until one of them makes an event. -/
def next (r : Run) : Request :=
  if r.finished then ⟨[], .ended, r⟩
  else
    let s := r.stream.search
    let behind := { r with stream := r.stream.behind s }
    let skips := s.skipped.map Record.skipped
    match h : s.find with
    | .ended => ⟨skips, .ended, { behind with finished := true }⟩
    | .failed fault => ⟨skips, .failed (.lexical fault), { behind with finished := true }⟩
    | .token t =>
      match r.state.step r.coupled t.kind with
      | .error refusal => ⟨skips, .failed (.refused refusal), { behind with finished := true }⟩
      | .ok (state, effect) =>
        let performed := { behind with state }
        let records := skips ++ effect.records t.text
        match effect.event? with
        | some event => ⟨records, .event event, performed⟩
        | none =>
          have : s.rest.length < r.stream.rest.length := TokenStream.rest_lt_of_search h
          let later := performed.next
          { later with records := records ++ later.records }
termination_by r.stream.rest.length

theorem rest_lt_of_event {r : Run} {e : Event} (h : r.next.answer = .event e) :
    r.next.run.stream.rest.length < r.stream.rest.length := by
  fun_induction next r with
  | case1 r hf => cases h
  | case2 r hf s behind skips hs => cases h
  | case3 r hf s behind skips fault hs => cases h
  | case4 r hf s behind skips t hs refusal hstep => cases h
  | case5 r hf s behind skips t hs state effect hstep performed records event he =>
    exact TokenStream.rest_lt_of_search hs
  | case6 r hf s behind skips t hs state effect hstep performed records he hlt later ih =>
    exact Nat.lt_trans (ih h) hlt

/-- The events still to come, or the fault that ends the run. -/
def events (r : Run) : Except Fault (List Event) :=
  let q := r.next
  match h : q.answer with
  | .ended => .ok []
  | .failed fault => .error fault
  | .event e =>
    have : q.run.stream.rest.length < r.stream.rest.length := rest_lt_of_event h
    (e :: ·) <$> q.run.events
termination_by r.stream.rest.length

end Run

/-- A run played to its end: the journal, how many events were sent or what went wrong, and the
instrument behind them. -/
structure Played (ε : Type) where
  records : List Record
  result : Except Fault Nat
  instrument : ε

namespace Run

variable {ε : Type} [Instrument ε]

/-- Sends each event to the instrument as soon as it is there. -/
def play (r : Run) (instrument : ε) (sent : Nat) : Played ε :=
  let q := r.next
  match h : q.answer with
  | .ended => ⟨q.records, .ok sent, instrument⟩
  | .failed fault => ⟨q.records, .error fault, instrument⟩
  | .event e =>
    have : q.run.stream.rest.length < r.stream.rest.length := rest_lt_of_event h
    let (instrument, records) := Instrument.play instrument e
    let later := q.run.play instrument (sent + 1)
    { later with records := q.records ++ records ++ later.records }
termination_by r.stream.rest.length

end Run

def eventsOf (source : String) (settings : Settings) : Except Fault (List Event) :=
  (Run.start source settings).bind Run.events

/-- Plays a text into an instrument. -/
def play {ε : Type} [Instrument ε] (source : String) (settings : Settings) (instrument : ε) :
    Played ε :=
  match Run.start source settings with
  | .error fault => ⟨[], .error fault, instrument⟩
  | .ok r => r.play instrument 0

namespace Event

def toYaml (e : Event) : String :=
  "- frequency: " ++ Nat.repr e.frequency.toNat ++ "\n" ++
  "  duration: " ++ Nat.repr e.duration.toNat ++ "\n"

def listToYaml (events : List Event) : String :=
  if events.isEmpty then "[]\n" else String.join (events.map toYaml)

end Event

end MusicMacro
