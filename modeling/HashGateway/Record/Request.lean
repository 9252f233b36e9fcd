import HashGateway.Error
import HashGateway.Record.Shape
import HashGateway.Text.Blank

/-!
# The records of requests

Each record is read from the body of a request. Names are opaque texts; all that is
asked of them is that they are not empty.

## Main definitions

* `Registration`, `MachineQuery`, `FileRecord`, `FileQuery`, `FilePage`, `TraceRecord`,
  `TracePage` — the records
* `Registration.parse` and its like — the record that a body holds, or why there is none
* `document` — the text of a body without the blanks at its ends
* `traceField` — the field of a trace entry
-/

namespace HashGateway

namespace Record

/-- Refuses an empty text. -/
def nonEmpty (field text : String) : Except Error Unit :=
  if text.isEmpty then .error (.invalidRequest (.empty field)) else .ok ()

/-- The values of a record that a body holds. -/
def row (shape : Shape) (body : Bytes) : Except Error (Row shape.fields) :=
  match shape.parse body with
  | .ok row => .ok row
  | .error fault => .error (.json fault)

/-- The text of a body without the blanks at its ends. -/
def document (body : Bytes) : Except Error String :=
  match Utf8.decode body with
  | .ok cs => .ok (String.ofList (Text.trim cs))
  | .error fault => .error (.invalidRequest (.encoding fault))

/-- The field of a trace entry that is made at a time, counted in microseconds. -/
def traceField (stamp : Int) : String :=
  String.ofList ("trace:".toList ++ Numeral.renderInt stamp)

end Record

open Record

/-- A machine and the user who owns it, and whether an older registration is replaced. -/
structure Registration where
  machine : String
  username : String
  force : Bool
  deriving DecidableEq, Repr

namespace Registration

/-- The fields of a registration. -/
def shape : Shape := ⟨"RawRegistration", [⟨"machine", .text⟩, ⟨"username", .text⟩, ⟨"flag", .byte⟩]⟩

/-- The registration that a body holds. -/
def parse (body : Bytes) : Except Error Registration := do
  let (machine, username, flag, _) ← row shape body
  nonEmpty "machine" machine
  nonEmpty "username" username
  match (flag : Nat) with
  | 0 => return ⟨machine, username, false⟩
  | 1 => return ⟨machine, username, true⟩
  | n => throw (.invalidRequest (.flag n))

end Registration

/-- Asks for the registration of a machine. -/
structure MachineQuery where
  machine : String
  deriving DecidableEq, Repr

namespace MachineQuery

/-- The fields of the query. -/
def shape : Shape := ⟨"UserQuery", [⟨"machine", .text⟩]⟩

/-- The query that a body holds. -/
def parse (body : Bytes) : Except Error MachineQuery := do
  let (machine, _) ← row shape body
  nonEmpty "machine" machine
  return ⟨machine⟩

end MachineQuery

/-- A file of a machine. Its document is the whole body that it came in. -/
structure FileRecord where
  machine : String
  uuid : String
  data : String
  deriving DecidableEq, Repr

namespace FileRecord

/-- The fields of a file; its document may have any others. -/
def shape : Shape := ⟨"FileHeader", [⟨"machine", .text⟩, ⟨"uuid", .text⟩]⟩

/-- The file that a body holds. -/
def parse (body : Bytes) : Except Error FileRecord := do
  let (machine, uuid, _) ← row shape body
  nonEmpty "machine" machine
  nonEmpty "uuid" uuid
  return ⟨machine, uuid, ← document body⟩

end FileRecord

/-- Asks for a file. -/
structure FileQuery where
  uuid : String
  deriving DecidableEq, Repr

namespace FileQuery

/-- The fields of the query. -/
def shape : Shape := ⟨"FileQuery", [⟨"uuid", .text⟩]⟩

/-- The query that a body holds. -/
def parse (body : Bytes) : Except Error FileQuery := do
  let (uuid, _) ← row shape body
  nonEmpty "uuid" uuid
  return ⟨uuid⟩

end FileQuery

/-- Asks for a page of the files of a machine. -/
structure FilePage where
  machine : String
  page : Nat
  deriving DecidableEq, Repr

namespace FilePage

/-- The fields of the query. -/
def shape : Shape := ⟨"FileAllQuery", [⟨"machine", .text⟩, ⟨"page", .natural⟩]⟩

/-- The query that a body holds. -/
def parse (body : Bytes) : Except Error FilePage := do
  let (machine, page, _) ← row shape body
  nonEmpty "machine" machine
  return ⟨machine, page⟩

end FilePage

/-- A trace entry of a file. The time at which it is made names its field. -/
structure TraceRecord where
  uuid : String
  field : String
  data : String
  deriving DecidableEq, Repr

namespace TraceRecord

/-- The fields of an entry; its document may have any others. -/
def shape : Shape := ⟨"TraceHeader", [⟨"uuid", .text⟩]⟩

/-- The entry that a body holds, made at a time. -/
def parse (stamp : Int) (body : Bytes) : Except Error TraceRecord := do
  let (uuid, _) ← row shape body
  nonEmpty "uuid" uuid
  return ⟨uuid, traceField stamp, ← document body⟩

end TraceRecord

/-- Asks for a page of the trace entries of a file. -/
structure TracePage where
  uuid : String
  page : Nat
  deriving DecidableEq, Repr

namespace TracePage

/-- The fields of the query. -/
def shape : Shape := ⟨"TraceQuery", [⟨"uuid", .text⟩, ⟨"page", .natural⟩]⟩

/-- The query that a body holds. -/
def parse (body : Bytes) : Except Error TracePage := do
  let (uuid, page, _) ← row shape body
  nonEmpty "uuid" uuid
  return ⟨uuid, page⟩

end TracePage

end HashGateway
