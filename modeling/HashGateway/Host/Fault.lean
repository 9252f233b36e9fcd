/-!
# Faults of the operating system

## Main definitions

* `Host.Fault`, `Host.Fault.message` — why a call of the system fails, and its wording
-/

namespace HashGateway.Host

/-- Why a call of the system fails. -/
inductive Fault
  | notFound
  | denied
  | notDirectory
  | isDirectory
  | nameTooLong
  | inUse
  | addressNotAvailable
  | networkUnreachable
  | connectionRefused
  /-- A name holds a character that ends names. -/
  | nulInName
  /-- The bytes of a file are no text. -/
  | notText
  /-- The folder that should hold a file is none. -/
  | parentNotFolder
  | other (text : String)
  deriving DecidableEq, Repr

/-- The wording of a fault. Those that the system numbers are shown with their number. -/
def Fault.message : Fault → String
  | .notFound => "No such file or directory (os error 2)"
  | .denied => "Permission denied (os error 13)"
  | .notDirectory => "Not a directory (os error 20)"
  | .isDirectory => "Is a directory (os error 21)"
  | .nameTooLong => "File name too long (os error 36)"
  | .inUse => "Address already in use (os error 98)"
  | .addressNotAvailable => "Cannot assign requested address (os error 99)"
  | .networkUnreachable => "Network is unreachable (os error 101)"
  | .connectionRefused => "Connection refused (os error 111)"
  | .nulInName => "file name contained an unexpected NUL byte"
  | .notText => "stream did not contain valid UTF-8"
  | .parentNotFolder => "not a directory"
  | .other text => text

end HashGateway.Host
