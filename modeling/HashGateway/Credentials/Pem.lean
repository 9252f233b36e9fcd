import HashGateway.Host.Fault
import HashGateway.Text.Base64
import HashGateway.Text.Blank
import HashGateway.Text.Printable

/-!
# Sections of a text file

Keys and certificates stand in text files as sections: a line that begins a section and
names what it holds, lines of Base64, and a line that ends the section. Other lines are
left out.

## Main definitions

* `Pem.Section` — what a section holds, under its label
* `Pem.Fault`, `Pem.Fault.message` — what is wrong with a file, and its wording
* `Pem.sections` — the sections of a file
-/

namespace HashGateway.Pem

/-- What a section holds, under its label. -/
structure Section where
  label : String
  content : Bytes
  deriving DecidableEq, Repr

/-- What is wrong with a file. -/
inductive Fault
  /-- A line begins a section, but its label does not end. -/
  | badStart (line : String)
  /-- The line that ends a section is missing. -/
  | missingEnd (mark : String)
  /-- What stands in a section is no Base64. -/
  | encoding (fault : Base64.Fault)
  /-- The file is no text. -/
  | notText
  deriving DecidableEq, Repr

/-- The wording of a fault. -/
def Fault.message : Fault → String
  | .badStart line => s!"illegal section start: {Text.Quoted.render line}"
  | .missingEnd mark => s!"section end {Text.Quoted.render mark} missing"
  | .encoding fault => fault.message
  | .notText => Host.Fault.notText.message

/-- The dashes around the words of a line that begins or ends a section. -/
def dashes : List Char := "-----".toList

/-- How a line begins that begins a section. -/
def startMark : List Char := dashes ++ "BEGIN ".toList

/-- How a line begins that ends the section with a label. -/
def endMark (label : List Char) : List Char := dashes ++ "END ".toList ++ label ++ dashes

/-- The lines of a text, each with the line feed that ends it. -/
def lines : List Char → List (List Char)
  | [] => []
  | c :: cs =>
    if c = '\n' then [c] :: lines cs
    else match lines cs with
      | [] => [[c]]
      | line :: rest => (c :: line) :: rest

/-- The label before the next dashes. -/
def label? : List Char → Option (List Char)
  | [] => none
  | c :: cs => if dashes.isPrefixOf (c :: cs) then some [] else (label? cs).map (c :: ·)

/-- Reads lines. `current` is the label of the section that they are in, and `collected` what
has been read of it. A section that begins inside another one takes its place. -/
def readLines (current : Option (List Char)) (collected : List Char) :
    List (List Char) → Except Fault (List Section)
  | [] =>
    match current with
    | some label => .error (.missingEnd (String.ofList (endMark label)))
    | none => .ok []
  | line :: rest =>
    if startMark.isPrefixOf line then
      match label? (line.drop startMark.length) with
      | some label => readLines (some label) collected rest
      | none => .error (.badStart (String.ofList line))
    else
      match current with
      | none => readLines none collected rest
      | some label =>
        if (endMark label).isPrefixOf line then
          match Base64.decode (Utf8.encode collected) with
          | .ok content => (readLines none [] rest).map (⟨String.ofList label, content⟩ :: ·)
          | .error fault => .error (.encoding fault)
        else readLines current (collected ++ Text.trim line) rest

/-- The sections of a file. -/
def sections (file : Bytes) : Except Fault (List Section) :=
  match Utf8.decode file with
  | .ok text => readLines none [] (lines text)
  | .error _ => .error .notText

end HashGateway.Pem
