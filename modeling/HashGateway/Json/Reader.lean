import HashGateway.Json.Figures
import HashGateway.Json.Text

/-!
# Reading JSON

A document is read with one of two degrees of attention. A value that is kept is
checked in full. A value that nobody asks for is passed over: it has to follow the
grammar, but the range of its numbers, its nesting, its surrogates and its UTF-8
are not looked at.

## Main definitions

* `Json.Attention` — whether a value is kept or passed over
* `Json.readItems`, `Json.readMembers` — the loops over a list and over an object
* `Json.readValue` — reads a value, with a limit on its nesting
* `Json.skipValue` — passes over a value
* `Json.parse`, `Json.parseText` — reads a whole document
-/

namespace HashGateway.Json

/-- Whether a value is kept or passed over. -/
inductive Attention
  | keep
  | skip
  deriving DecidableEq, Repr

/-- The blanks between the parts of a document. -/
def isSpace (b : UInt8) : Bool := b = 0x20 || b = 0x0A || b = 0x09 || b = 0x0D

/-- The bytes after the blanks at the start. -/
def skipBlank (bs : Bytes) : Bytes := bs.dropWhile isSpace

/-- Reads the rest of a word whose first letter has been read. -/
def word : (letters : Bytes) → Bytes → Except Fault Bytes
  | [], bs => .ok bs
  | _ :: _, [] => .error .endOfValue
  | a :: letters, b :: bs => if a = b then word letters bs else .error .expectedWord

/-- The letters of `null`, `true` and `false` after the first. -/
def nullRest : Bytes := [0x75, 0x6C, 0x6C]
@[inherit_doc nullRest] def trueRest : Bytes := [0x72, 0x75, 0x65]
@[inherit_doc nullRest] def falseRest : Bytes := [0x61, 0x6C, 0x73, 0x65]

/-- Whether another item of a list follows, and the bytes from there on; after the last item
the bracket has been read. -/
def nextItem (attention : Attention) (first : Bool) (bs : Bytes) : Except Fault (Bool × Bytes) :=
  match skipBlank bs with
  | [] => .error .endOfList
  | b :: r =>
    if b = 0x5D then .ok (false, r)
    else if first then .ok (true, b :: r)
    else if b = 0x2C then
      -- Only a reader that keeps the items looks for a bracket after the comma.
      match attention, skipBlank r with
      | .keep, [] => .error .endOfValue
      | .keep, c :: r => if c = 0x5D then .error .trailingComma else .ok (true, c :: r)
      | .skip, r => .ok (true, r)
    else .error .expectedListEnd

/-- Whether another member of an object follows, and the bytes after the opening quote of its
name; after the last member the brace has been read. -/
def nextMember (attention : Attention) (first : Bool) (bs : Bytes) :
    Except Fault (Bool × Bytes) :=
  match skipBlank bs with
  | [] => .error .endOfObject
  | b :: r =>
    if b = 0x7D then .ok (false, r)
    else if first then if b = 0x22 then .ok (true, r) else .error .keyNotString
    else if b = 0x2C then
      match skipBlank r with
      | [] => .error (match attention with | .keep => .endOfValue | .skip => .endOfObject)
      | c :: r =>
        if c = 0x22 then .ok (true, r)
        else if c = 0x7D && attention = .keep then .error .trailingComma
        else .error .keyNotString
    else .error .expectedObjectEnd

/-- Reads the colon after a name. -/
def colon (bs : Bytes) : Except Fault Bytes :=
  match skipBlank bs with
  | [] => .error .endOfObject
  | b :: r => if b = 0x3A then .ok r else .error .expectedColon

/-- Reads the items of a list whose bracket has been read; `fuel` is more than their number. -/
def readItems {α : Type} (attention : Attention) (item : Bytes → Except Fault (α × Bytes)) :
    (fuel : Nat) → (first : Bool) → Bytes → Except Fault (List α × Bytes)
  | 0, _, _ => .error .endOfList
  | fuel + 1, first, bs => do
    match ← nextItem attention first bs with
    | (false, rest) => return ([], rest)
    | (true, rest) =>
      let (a, rest) ← item rest
      let (as, rest) ← readItems attention item fuel false rest
      return (a :: as, rest)

/-- Reads the members of an object whose brace has been read, each in the light of those before
it; `member` starts after the opening quote of a name, and `fuel` is more than their number. -/
def readMembers {σ : Type} (attention : Attention)
    (member : σ → Bytes → Except Fault (σ × Bytes)) :
    (fuel : Nat) → (first : Bool) → σ → Bytes → Except Fault (σ × Bytes)
  | 0, _, _, _ => .error .endOfObject
  | fuel + 1, first, s, bs => do
    match ← nextMember attention first bs with
    | (false, rest) => return (s, rest)
    | (true, rest) =>
      let (s, rest) ← member s rest
      readMembers attention member fuel false s rest

/-- Passes over a value with at most `depth` lists and objects inside each other. -/
def skipNested : (depth : Nat) → Bytes → Except Fault (Unit × Bytes)
  | depth, bs =>
    match skipBlank bs with
    | [] => .error .endOfValue
    | b :: r =>
      let done (rest : Except Fault Bytes) : Except Fault (Unit × Bytes) :=
        rest.map fun rest => ((), rest)
      if b = 0x6E then done (word nullRest r)
      else if b = 0x74 then done (word trueRest r)
      else if b = 0x66 then done (word falseRest r)
      else if b = 0x2D then done (skipNumber r)
      else if (digit? b).isSome then done (skipNumber (b :: r))
      else if b = 0x22 then done (skipString r)
      else if b = 0x5B then
        match depth with
        | 0 => .error .tooDeep
        | depth + 1 =>
          (readItems .skip (skipNested depth) (r.length + 1) true r).map fun (_, rest) => ((), rest)
      else if b = 0x7B then
        match depth with
        | 0 => .error .tooDeep
        | depth + 1 =>
          let member (_ : Unit) (bs : Bytes) : Except Fault (Unit × Bytes) := do
            let rest ← skipString bs
            let rest ← colon rest
            skipNested depth rest
          readMembers .skip member (r.length + 1) true () r
      else .error .expectedValue

/-- Passes over a value. Its nesting is bounded by its own length only. -/
def skipValue (bs : Bytes) : Except Fault Bytes :=
  (skipNested bs.length bs).map Prod.snd

/-- The largest number of lists and objects inside each other in a value that is kept. -/
def maxDepth : Nat := 127

/-- Reads a value with at most `depth` lists and objects inside each other. The last of several
members with the same name counts. -/
def readValue : (depth : Nat) → Bytes → Except Fault (Value × Bytes)
  | depth, bs =>
    match skipBlank bs with
    | [] => .error .endOfValue
    | b :: r =>
      if b = 0x6E then (word nullRest r).map fun rest => (.null, rest)
      else if b = 0x74 then (word trueRest r).map fun rest => (.bool true, rest)
      else if b = 0x66 then (word falseRest r).map fun rest => (.bool false, rest)
      else if b = 0x2D then (readNumber true r).map fun (n, rest) => (.number n, rest)
      else if (digit? b).isSome then
        (readNumber false (b :: r)).map fun (n, rest) => (.number n, rest)
      else if b = 0x22 then (readString r).map fun (s, rest) => (.string s, rest)
      else if b = 0x5B then
        match depth with
        | 0 => .error .tooDeep
        | depth + 1 =>
          (readItems .keep (readValue depth) (r.length + 1) true r).map
            fun (items, rest) => (.array items, rest)
      else if b = 0x7B then
        match depth with
        | 0 => .error .tooDeep
        | depth + 1 =>
          let member (members : List (String × Value)) (bs : Bytes) :
              Except Fault (List (String × Value) × Bytes) := do
            let (name, rest) ← readString bs
            let rest ← colon rest
            let (v, rest) ← readValue depth rest
            return (Ordered.insert name v members, rest)
          (readMembers .keep member (r.length + 1) true [] r).map
            fun (members, rest) => (.object members, rest)
      else .error .expectedValue

/-- A document holds nothing but blanks after its value. -/
def endOfDocument {α : Type} : α × Bytes → Except Fault α
  | (a, rest) => if (skipBlank rest).isEmpty then .ok a else .error .trailing

/-- The value of a document. -/
def parse (bs : Bytes) : Except Fault Value := do
  endOfDocument (← readValue maxDepth bs)

/-- The value of a document that is a text. -/
def parseText (s : String) : Except Fault Value := parse (Utf8.bytes s)

end HashGateway.Json
