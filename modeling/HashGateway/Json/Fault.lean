import HashGateway.Json.Value
import HashGateway.Text.Printable

/-!
# What can be wrong with a JSON text

A text is refused for its syntax, for a value that is out of range, or because it
is not the kind of value that was asked for.

## Main definitions

* `Json.Found` — what stands where something else was asked for
* `Json.Fault`, `Json.Fault.message` — the causes of a refusal and their wording
-/

namespace HashGateway.Json

/-- What stands where something else was asked for. -/
inductive Found
  | null
  | bool (b : Bool)
  | number (n : Number)
  | string (s : String)
  | list
  | object

/-- How a value is called in a message. -/
def Found.message : Found → String
  | .null => "null"
  | .bool b => s!"boolean `{b}`"
  | .number n =>
    let kind := match n with | .int _ => "integer" | .real _ => "floating point"
    kind ++ " `" ++ String.ofList n.render ++ "`"
  | .string s => "string " ++ Text.Quoted.render s
  | .list => "sequence"
  | .object => "map"

/-- Why a JSON text is refused. -/
inductive Fault
  | endOfList
  | endOfObject
  | endOfString
  | endOfValue
  | expectedColon
  | expectedListEnd
  | expectedObjectEnd
  | expectedWord
  | expectedValue
  | badEscape
  | badNumber
  | numberRange
  | badUnicode
  | controlCharacter
  | keyNotString
  | loneSurrogate
  | endOfEscape
  | trailingComma
  | trailing
  | tooDeep
  /-- A required field does not occur. -/
  | missing (field : String)
  /-- A field occurs a second time. -/
  | duplicate (field : String)
  /-- A value is of another kind than the one that was asked for. -/
  | wrongKind (found : Found) (wanted : String)
  /-- An integer is outside the range that was asked for. -/
  | wrongRange (i : Int) (wanted : String)
  /-- A list that stands for a record ends after `length` of its `fields` fields. -/
  | wrongLength (length fields : Nat) (title : String)

/-- The wording of a refusal. -/
def Fault.message : Fault → String
  | .endOfList => "EOF while parsing a list"
  | .endOfObject => "EOF while parsing an object"
  | .endOfString => "EOF while parsing a string"
  | .endOfValue => "EOF while parsing a value"
  | .expectedColon => "expected `:`"
  | .expectedListEnd => "expected `,` or `]`"
  | .expectedObjectEnd => "expected `,` or `\x7d`"
  | .expectedWord => "expected ident"
  | .expectedValue => "expected value"
  | .badEscape => "invalid escape"
  | .badNumber => "invalid number"
  | .numberRange => "number out of range"
  | .badUnicode => "invalid unicode code point"
  | .controlCharacter => "control character (\\u0000-\\u001F) found while parsing a string"
  | .keyNotString => "key must be a string"
  | .loneSurrogate => "lone leading surrogate in hex escape"
  | .endOfEscape => "unexpected end of hex escape"
  | .trailingComma => "trailing comma"
  | .trailing => "trailing characters"
  | .tooDeep => "recursion limit exceeded"
  | .missing field => s!"missing field `{field}`"
  | .duplicate field => s!"duplicate field `{field}`"
  | .wrongKind found wanted => s!"invalid type: {found.message}, expected {wanted}"
  | .wrongRange i wanted => s!"invalid value: integer `{i}`, expected {wanted}"
  | .wrongLength length fields title =>
    let elements := if fields = 1 then "element" else "elements"
    s!"invalid length {length}, expected struct {title} with {fields} {elements}"

end HashGateway.Json
