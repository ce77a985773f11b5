import MusicMacro.CommandLine

/-! The program: reads the file that the arguments name, sounds tones, prints, and exits. -/

open MusicMacro

def faultOfNumber? : Nat → Option FileFault
  | 2 => some .missing
  | 13 => some .denied
  | 20 => some .notDirectory
  | 21 => some .directory
  | 36 => some .nameTooLong
  | _ => none

/-- An error number may come negated. -/
def faultOf (e : IO.Error) : FileFault :=
  let number? : Option UInt32 := match e with
    | .noFileOrDirectory _ n _ | .inappropriateType _ n _ | .invalidArgument _ n _
    | .permissionDenied _ n _ => some n
    | _ => none
  let fault? := number?.bind fun n =>
    (faultOfNumber? n.toNat).or (faultOfNumber? (-n).toNat)
  fault?.getD (.unreadable (toString e))

def readFile (path : String) : IO (Except FileFault ByteArray) := do
  try
    return .ok (← IO.FS.readBinFile path)
  catch e =>
    return .error (faultOf e)

def main (args : List String) : IO UInt32 := do
  let path? := (CommandLine.Command.ofArgs? args).bind CommandLine.Command.path?
  let content ← match path? with
    | some path => readFile path
    | none => pure (.error .missing)
  let outcome := CommandLine.run (fun _ => content) args
  for tone in outcome.tones do
    IO.sleep tone.duration
  (← IO.getStdout).putStr outcome.stdout
  (← IO.getStderr).putStr outcome.stderr
  return outcome.code
