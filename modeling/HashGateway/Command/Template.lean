import HashGateway.Text.Blank
import HashGateway.Text.Numeral

/-!
# Templates of commands

A template is a text whose words become the parts of a command. Each pair of braces
in it, with nothing between them, is a hole, and the holes are filled from left to
right. A text that fills a hole stays whole: it is not cut at its blanks, and braces
in it are no holes.

## Main definitions

* `Argument` — what a hole is filled with
* `Template.holes` — the number of holes
* `Template.fillWord` — fills the holes of a word
* `Template.format` — the command that a template and its arguments make
-/

namespace HashGateway

/-- A command: its name and its arguments. -/
abbrev Command := List String

/-- What a hole is filled with. -/
inductive Argument
  | text (s : String)
  | number (n : Nat)
  deriving DecidableEq, Repr

/-- The text of an argument. -/
def Argument.render : Argument → List Char
  | .text s => s.toList
  | .number n => Numeral.render n

namespace Template

/-- Why a template and its arguments make no command. -/
inductive Fault
  /-- There are more holes than arguments. -/
  | tooFew (template : String) (given : Nat)
  /-- There are more arguments than holes. -/
  | tooMany (template : String) (given : Nat)
  /-- There is not even a name of a command. -/
  | noCommand
  | other (text : String)

/-- The wording of a fault. -/
def Fault.message : Fault → String
  | .tooFew template given => s!"'{template}' needs more than {given} arguments"
  | .tooMany template given => s!"'{template}' was given {given} arguments, too many"
  | .noCommand => "empty command"
  | .other text => text

/-- The number of holes in a text, from left to right without overlap. -/
def holes : List Char → Nat
  | '\x7b' :: '\x7d' :: rest => holes rest + 1
  | _ :: rest => holes rest
  | [] => 0

/-- Fills the holes of a word from left to right; the texts that are left over come second.
There is no result if the texts do not suffice. -/
def fillWord : List Char → List (List Char) → Option (List Char × List (List Char))
  | '\x7b' :: '\x7d' :: rest, texts =>
    match texts with
    | [] => none
    | text :: texts => (fillWord rest texts).map fun (word, left) => (text ++ word, left)
  | c :: rest, texts => (fillWord rest texts).map fun (word, left) => (c :: word, left)
  | [], texts => some ([], texts)

/-- Fills the holes of several words. -/
def fill : List (List Char) → List (List Char) → Option (List (List Char) × List (List Char))
  | [], texts => some ([], texts)
  | word :: words, texts =>
    match fillWord word texts with
    | none => none
    | some (word, texts) => (fill words texts).map fun (words, left) => (word :: words, left)

/-- The command that a template and its arguments make. -/
def format (template : String) (arguments : List Argument) : Except Fault Command :=
  match fill (Text.words template.toList) (arguments.map Argument.render) with
  | none => .error (.tooFew template arguments.length)
  | some (words, []) => .ok (words.map String.ofList)
  | some (_, _ :: _) => .error (.tooMany template arguments.length)

end Template

end HashGateway
