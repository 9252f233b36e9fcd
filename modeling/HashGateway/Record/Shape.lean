import HashGateway.Json.Reader

/-!
# Reading records

A record has named fields of given types. Its JSON is an object, whose members stand
in any order and of which those without a field are passed over, or a list with the
fields in their order.

## Main definitions

* `FieldType`, `Field`, `Shape` — what a record holds
* `Row` — the values of all fields
* `Draft` — the values of the fields that have been read
* `Shape.parse` — reads a record from a whole document
-/

namespace HashGateway.Record

open HashGateway.Json

/-- What a field holds. -/
inductive FieldType
  | text
  /-- A number below `2 ^ 8`. -/
  | byte
  /-- A number below `2 ^ 64`. -/
  | natural
  deriving DecidableEq, Repr

namespace FieldType

/-- The values of a type. -/
abbrev Value : FieldType → Type
  | text => String
  | byte => Nat
  | natural => Nat

/-- How a type is called in a message. -/
def wanted : FieldType → String
  | text => "a string"
  | byte => "u8"
  | natural => "u64"

/-- What stands at a place where something else is wanted; the bytes begin with it. -/
def found : Bytes → Except Json.Fault Found
  | [] => .error .endOfValue
  | b :: r => do
    if b = 0x6E then
      let _ ← word nullRest r
      return .null
    else if b = 0x74 then
      let _ ← word trueRest r
      return .bool true
    else if b = 0x66 then
      let _ ← word falseRest r
      return .bool false
    else if b = 0x2D then return .number (← readNumber true r).1
    else if (digit? b).isSome then return .number (← readNumber false (b :: r)).1
    else if b = 0x22 then return .string (← readString r).1
    else if b = 0x5B then return .list
    else if b = 0x7B then return .object
    else throw .expectedValue

/-- Refuses what stands at the start of some bytes. -/
def mismatch {α : Type} (wanted : String) (bs : Bytes) : Except Json.Fault α := do
  throw (.wrongKind (← found bs) wanted)

/-- A number that is wanted up to a bound. -/
def bounded (bound : Nat) (wanted : String) : Number → Except Json.Fault Nat
  | .real x => .error (.wrongKind (.number (.real x)) wanted)
  | .int i => if 0 ≤ i ∧ i ≤ bound then .ok i.toNat else .error (.wrongRange i wanted)

/-- Reads a number up to a bound. -/
def readBounded (bound : Nat) (wanted : String) : Bytes → Except Json.Fault (Nat × Bytes)
  | [] => .error .endOfValue
  | b :: r => do
    let (n, rest) ←
      if b = 0x2D then readNumber true r
      else if (digit? b).isSome then readNumber false (b :: r)
      else mismatch wanted (b :: r)
    return (← bounded bound wanted n, rest)

/-- Reads a value of a type. -/
def read (type : FieldType) (bs : Bytes) : Except Json.Fault (type.Value × Bytes) :=
  match type, skipBlank bs with
  | _, [] => .error .endOfValue
  | text, b :: r => if b = 0x22 then readString r else mismatch text.wanted (b :: r)
  | byte, bs => readBounded 255 byte.wanted bs
  | natural, bs => readBounded Numeral.max64 natural.wanted bs

end FieldType

/-- A field of a record. -/
structure Field where
  name : String
  type : FieldType
  deriving DecidableEq, Repr

/-- What a record holds, under a title that messages use. -/
structure Shape where
  title : String
  fields : List Field

/-- The values of all fields. -/
def Row : List Field → Type
  | [] => Unit
  | field :: fields => field.type.Value × Row fields

/-- The values of the fields that have been read. -/
def Draft : List Field → Type
  | [] => Unit
  | field :: fields => Option field.type.Value × Draft fields

namespace Draft

/-- Nothing has been read. -/
def empty : (fields : List Field) → Draft fields
  | [] => ()
  | _ :: fields => (none, empty fields)

/-- Reads what follows the name of a member. A field is read once; a member without a field is
passed over. -/
def member (name : String) :
    (fields : List Field) → Draft fields → Bytes → Except Json.Fault (Draft fields × Bytes)
  | [], draft, bs => do
    let rest ← colon bs
    return (draft, ← skipValue rest)
  | field :: fields, (value, draft), bs =>
    if name = field.name then
      -- A second value is refused as soon as its name has been read.
      match value with
      | some _ => .error (.duplicate name)
      | none => do
        let rest ← colon bs
        let (value, rest) ← field.type.read rest
        return ((some value, draft), rest)
    else do
      let (draft, rest) ← member name fields draft bs
      return ((value, draft), rest)

/-- The values of all fields, if all have been read. -/
def finish : (fields : List Field) → Draft fields → Except Json.Fault (Row fields)
  | [], _ => .ok ()
  | field :: _, (none, _) => .error (.missing field.name)
  | _ :: fields, (some value, draft) => (finish fields draft).map fun row => (value, row)

end Draft

namespace Shape

/-- Reads the members of an object whose brace has been read. -/
def readObject (shape : Shape) (bs : Bytes) : Except Json.Fault (Row shape.fields × Bytes) := do
  let member (draft : Draft shape.fields) (bs : Bytes) := do
    let (name, rest) ← readString bs
    Draft.member name shape.fields draft rest
  let (draft, rest) ← readMembers .keep member (bs.length + 1) true (Draft.empty shape.fields) bs
  return (← draft.finish, rest)

/-- Reads fields one after the other from a list; `done` of them have been read. -/
def readFields (shape : Shape) :
    (fields : List Field) → (done : Nat) → Bytes → Except Json.Fault (Row fields × Bytes)
  | [], _, bs => .ok ((), bs)
  | field :: fields, done, bs => do
    match ← nextItem .keep (done == 0) bs with
    | (false, _) => throw (.wrongLength done shape.fields.length shape.title)
    | (true, rest) =>
      let (value, rest) ← field.type.read rest
      let (row, rest) ← readFields shape fields (done + 1) rest
      return ((value, row), rest)

/-- Reads the end of a list. -/
def endOfList (bs : Bytes) : Except Json.Fault Bytes :=
  match skipBlank bs with
  | [] => .error .endOfList
  | b :: r =>
    if b = 0x5D then .ok r
    else if b = 0x2C then
      match skipBlank r with
      | [] => .error .trailing
      | c :: _ => .error (if c = 0x5D then .trailingComma else .trailing)
    else .error .trailing

/-- Reads a list whose bracket has been read. -/
def readList (shape : Shape) (bs : Bytes) : Except Json.Fault (Row shape.fields × Bytes) := do
  let (row, rest) ← readFields shape shape.fields 0 bs
  return (row, ← endOfList rest)

/-- Reads a record. -/
def read (shape : Shape) (bs : Bytes) : Except Json.Fault (Row shape.fields × Bytes) :=
  match skipBlank bs with
  | [] => .error .endOfValue
  | b :: r =>
    if b = 0x7B then shape.readObject r
    else if b = 0x5B then shape.readList r
    else FieldType.mismatch s!"struct {shape.title}" (b :: r)

/-- The record that a whole document holds. -/
def parse (shape : Shape) (bs : Bytes) : Except Json.Fault (Row shape.fields) := do
  endOfDocument (← shape.read bs)

end Shape

end HashGateway.Record
