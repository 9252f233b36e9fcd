/-!
# Paths

A path is cut into parts at its slashes. Empty parts and single dots stay where they
are, two dots lead to the folder above, and any other part is the name of an entry.

## Main definitions

* `Path` — where a path begins, and its parts
* `Path.ofText` — the path that a text writes
* `Path.text` — the text of a path
* `Path.names` — its parts apart from empty ones and single dots
* `Path.parent` — the path of the folder that should hold what a path names
-/

namespace HashGateway.Host

/-- A path: whether it begins at the root, and its parts. -/
structure Path where
  absolute : Bool
  parts : List String
  deriving DecidableEq, Repr

namespace Path

/-- The path that a text writes. A slash at its end is an empty last part. -/
def ofText (text : String) : Path :=
  let parts := (text.toList.splitOn '/').map String.ofList
  match parts with
  | "" :: rest => if rest.isEmpty then ⟨false, []⟩ else ⟨true, rest⟩
  | parts => ⟨false, parts⟩

/-- Whether a part leaves a walk where it is. -/
def stays (part : String) : Bool := part == "" || part == "."

/-- The parts that lead somewhere. -/
def names (path : Path) : List String := path.parts.filter fun part => !stays part

/-- The text of a path; the path without parts is written as a dot. -/
def text (path : Path) : String :=
  if path.absolute then "/" ++ "/".intercalate path.parts
  else if path.parts.isEmpty then "."
  else "/".intercalate path.parts

/-- The parts without those at the end that lead nowhere. -/
def trimmed (parts : List String) : List String := (parts.reverse.dropWhile stays).reverse

/-- The path of the folder that should hold what a path names. What stands between its parts
is kept, so it is not shorter than necessary. -/
def parent (path : Path) : Path := ⟨path.absolute, trimmed (trimmed path.parts).dropLast⟩

end Path

end HashGateway.Host
