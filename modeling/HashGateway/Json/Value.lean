import HashGateway.Decimal.Layout
import HashGateway.Ordered
import HashGateway.Text.Numeral

/-!
# JSON values

## Main definitions

* `Json.Number` — an integer, or a floating point number
* `Json.Value` — the values
* `Json.style`, `Json.Number.render` — how numbers are written
* `Json.escape`, `Json.renderString` — the written form of a character and of a text
* `Json.Value.render` — the compact text of a value
-/

namespace HashGateway.Json

open HashGateway.Decimal

/-- A number: an integer, or a floating point number. -/
inductive Number
  | int (i : Int)
  | real (x : Binary64)
  deriving DecidableEq, Repr

/-- Numbers from `1e-5` up to `1e16` are written positionally, whole ones with `.0`. -/
def style : Style where
  least := -5
  greatest := 15
  wholeEnd := ['.', '0']
  mark := 'e'
  plus := true
  zero := ['0', '.', '0']

/-- The text of a number. -/
def Number.render : Number → List Char
  | .int i => Numeral.renderInt i
  | .real x => x.render style

/-- The written form of a character: only the quote, the backslash and the controls are
escaped. -/
def escape (c : Char) : List Char :=
  if c = '"' then ['\\', '"']
  else if c = '\\' then ['\\', '\\']
  else if c = '\x08' then ['\\', 'b']
  else if c = '\x0c' then ['\\', 'f']
  else if c = '\n' then ['\\', 'n']
  else if c = '\r' then ['\\', 'r']
  else if c = '\t' then ['\\', 't']
  else if c.toNat < 0x20 then
    ['\\', 'u', '0', '0', Nat.digitChar (c.toNat / 16), Nat.digitChar (c.toNat % 16)]
  else [c]

/-- The written form of a text. -/
def renderString (s : String) : List Char := '"' :: (s.toList.flatMap escape ++ ['"'])

/-- A JSON value. The members of an object are in ascending order of their names. -/
inductive Value
  | null
  | bool (b : Bool)
  | number (n : Number)
  | string (s : String)
  | array (items : List Value)
  | object (members : List (String × Value))

/-- Texts with commas between them. -/
def commaSeparated : List (List Char) → List Char
  | [] => []
  | [text] => text
  | text :: rest => text ++ ',' :: commaSeparated rest

mutual

/-- The compact text of a value. -/
def Value.render : Value → List Char
  | .null => ['n', 'u', 'l', 'l']
  | .bool true => ['t', 'r', 'u', 'e']
  | .bool false => ['f', 'a', 'l', 's', 'e']
  | .number n => n.render
  | .string s => renderString s
  | .array items => '[' :: (commaSeparated (renderItems items) ++ [']'])
  | .object members => '\x7b' :: (commaSeparated (renderMembers members) ++ ['\x7d'])

/-- The texts of the items of an array. -/
def renderItems : List Value → List (List Char)
  | [] => []
  | v :: vs => v.render :: renderItems vs

/-- The texts of the members of an object. -/
def renderMembers : List (String × Value) → List (List Char)
  | [] => []
  | (name, v) :: ms => (renderString name ++ ':' :: v.render) :: renderMembers ms

end

/-- The compact text of a value, as a string. -/
def Value.text (v : Value) : String := String.ofList v.render

end HashGateway.Json
