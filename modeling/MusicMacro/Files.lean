/-! Files by their paths, and why a path may give no bytes. -/

namespace MusicMacro

inductive FileFault
  | missing
  | directory
  | notDirectory
  | nameTooLong
  | denied
  | notText
  | unreadable (reason : String)
  deriving DecidableEq, Repr

def FileFault.message : FileFault → String
  | .missing => "No such file or directory (os error 2)"
  | .directory => "Is a directory (os error 21)"
  | .notDirectory => "Not a directory (os error 20)"
  | .nameTooLong => "File name too long (os error 36)"
  | .denied => "Permission denied (os error 13)"
  | .notText => "stream did not contain valid UTF-8"
  | .unreadable reason => reason

/-- Files by their paths. -/
abbrev Files := String → Except FileFault ByteArray

end MusicMacro
