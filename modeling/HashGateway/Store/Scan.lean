import HashGateway.Error
import HashGateway.Store.Basic
import HashGateway.Store.Glob

/-!
# Scans

A scan visits some fields of a hash, beginning where an earlier one stopped, and
answers those that fit a pattern. Because the fields are ordered, the cursor is the
number of fields that have been visited.

## Main definitions

* `Scan` — a request for one page of a hash
* `Scan.ofArguments` — the scan that arguments ask for
* `Scan.page`, `Scan.reply` — the page of a hash, and the reply with it
-/

namespace HashGateway

/-- A request for one page of a hash. -/
structure Scan where
  /-- How many fields have been visited. -/
  cursor : Nat
  /-- The pattern that fields have to fit. -/
  pattern : Option String
  /-- How many fields are visited. -/
  count : Nat
  deriving DecidableEq, Repr

namespace Scan

/-- How many fields are visited unless it is said. -/
def defaultCount : Nat := 10

/-- Reads the options, which stand in any order; the last of a repeated option counts. -/
def options (scan : Scan) : List String → Except Rejection Scan
  | [] => .ok scan
  | [_] => .error .badOption
  | name :: value :: rest =>
    let name := name.map Char.toUpper
    if name = "MATCH" then options { scan with pattern := some value } rest
    else if name = "COUNT" then
      match Numeral.unsigned? Numeral.max64 value.toList with
      | some (count + 1) => options { scan with count := count + 1 } rest
      | _ => .error .badCount
    else .error .badOption

/-- The scan that the arguments after the key ask for. -/
def ofArguments : List String → Except Rejection Scan
  | [] => .error (.arity "hscan")
  | cursor :: rest =>
    match Numeral.unsigned? Numeral.max64 cursor.toList with
    | some cursor => options ⟨cursor, none, defaultCount⟩ rest
    | none => .error .badCursor

/-- Whether a field fits the pattern. -/
def selects (scan : Scan) (field : String) : Bool :=
  match scan.pattern with
  | some pattern => Glob.fits (Utf8.bytes pattern) (Utf8.bytes field)
  | none => true

/-- The visited fields that fit the pattern. -/
def items (scan : Scan) (hash : Hash) : List (String × String) :=
  ((hash.entries.drop scan.cursor).take scan.count).filter fun (field, _) => scan.selects field

/-- The cursor of the next page; it is zero after the last page. -/
def next (scan : Scan) (hash : Hash) : Nat :=
  let stop := min (scan.cursor + scan.count) Numeral.max64
  if hash.size ≤ stop then 0 else stop

/-- The reply with a page. -/
def reply (scan : Scan) (hash : Hash) : Reply :=
  .array [.bulk (String.ofList (Numeral.render (scan.next hash))),
    .array (Hash.listing (scan.items hash))]

end Scan

end HashGateway
