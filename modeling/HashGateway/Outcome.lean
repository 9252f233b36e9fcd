import HashGateway.Json.Reader
import HashGateway.Reply

/-!
# Outcomes of an operation

What a reply means for the client. A reply of an unexpected shape is a failure; a
look-up that finds nothing is told apart from it.

## Main definitions

* `Outcome` — success with a payload, nothing found, failure
* `Outcome.body` — the text that is sent back
* `Outcome.ofWrite` — the meaning of a reply to a write
* `Outcome.ofRecord` — the meaning of a reply with all fields of a hash
* `Outcome.ofField` — the meaning of a reply with one field
* `Outcome.ofScan` — the meaning of a reply with one page of a hash
-/

namespace HashGateway

/-- What a reply means for the client. -/
inductive Outcome
  | success (payload : String)
  | notFound
  | failure
  deriving DecidableEq, Repr

/-- The answers that carry no data of the store. -/
structure Envelope where
  flag : String
  msg : String

/-- The text of an envelope. -/
def Envelope.text (e : Envelope) : String :=
  (Json.Value.object [("flag", .string e.flag), ("msg", .string e.msg)]).text

namespace Envelope

/-- A write was acknowledged. -/
def ok : Envelope := ⟨"OK", "success"⟩

/-- Something failed. -/
def fail : Envelope := ⟨"FAIL", "failed"⟩

/-- A look-up found nothing. -/
def missing : Envelope := ⟨"NOFOUND", "File not found"⟩

end Envelope

namespace Outcome

/-- The outcome of a write that was acknowledged. -/
def acknowledged : Outcome := .success Envelope.ok.text

/-- The text that is sent back. -/
def body : Outcome → String
  | .success payload => payload
  | .notFound => Envelope.missing.text
  | .failure => Envelope.fail.text

/-- A write succeeds when the reply is one, or OK in either form. -/
def ofWrite : Reply → Outcome
  | .int i => if i = 1 then acknowledged else .failure
  | .okay => acknowledged
  | .simple s => if s = "OK" then acknowledged else .failure
  | _ => .failure

/-- The replies of a list of fields and values, in turn. -/
def flat : List (Reply × Reply) → List Reply
  | [] => []
  | (k, v) :: rest => k :: v :: flat rest

/-- The members that fields and values in turn make; the last of several values of a field
counts. There are none if a field has no value or something is no text. -/
def members? (members : List (String × Json.Value)) :
    List Reply → Option (List (String × Json.Value))
  | [] => some members
  | [_] => none
  | field :: value :: rest =>
    match field.text?, value.text? with
    | some field, some value => members? (Ordered.insert field (.string value) members) rest
    | _, _ => none

/-- The fields and values of a reply that lists a hash. -/
def items? : Reply → Option (List Reply)
  | .array items => some items
  | .map pairs => some (flat pairs)
  | _ => none

/-- A hash without fields does not exist; another one is an object of its fields. -/
def ofRecord (reply : Reply) : Outcome :=
  match items? reply with
  | none => .failure
  | some [] => .notFound
  | some items =>
    match members? [] items with
    | some members => .success (Json.Value.object members).text
    | none => .failure

/-- A field that does not exist is not found; the value of another one is the payload. -/
def ofField : Reply → Outcome
  | .nil => .notFound
  | reply =>
    match reply.text? with
    | some s => .success s
    | none => .failure

/-- The documents among the values of fields and values in turn. Pairs whose field is no string
or whose value is no JSON text are left out, and so is a field without a value. -/
def documents : List Reply → List Json.Value
  | field :: value :: rest =>
    let document? : Option Json.Value :=
      if field.isString then value.text?.bind fun s => (Json.parseText s).toOption else none
    match document? with
    -- What is no document is left out; the page goes on.
    | some v => v :: documents rest
    | none => documents rest
  | _ => []

/-- The payload of a page: its documents under the name `list`, and where to go on. -/
def page (list : String) (cursor : Nat) (items : List Json.Value) : Json.Value :=
  .object (Ordered.insert list (.array items) [("page", .number (.int cursor))])

/-- A page is a list of a cursor and of fields and values in turn. -/
def ofScan (list : String) : Reply → Outcome
  | .array [cursor, .array entries] =>
    match cursor.text?.bind fun s => Numeral.unsigned? Numeral.max64 s.toList with
    | some cursor => .success (page list cursor (documents entries)).text
    | none => .failure
  | _ => .failure

end Outcome

end HashGateway
