import HashGateway.Command.Template
import HashGateway.Reply
import HashGateway.Text.Blank
import HashGateway.Wire.Failure

/-!
# The protocol of the store

How commands and replies are written as bytes. A line ends with a carriage return and
a line feed. Texts of any bytes stand after their length, and lists after the number
of their items; everything else is one line.

## Main definitions

* `Wire.encodeCommand`, `Wire.command?` — a command as bytes, and back
* `Wire.encodeReply`, `Wire.encodeFailure` — a reply and a failed command as bytes
* `Wire.readReply` — reads one reply
* `Wire.decode` — the meaning of what a server sends before it closes the connection
-/

namespace HashGateway.Wire

/-- The end of a line. -/
def crlf : Bytes := [0x0D, 0x0A]

/-- A line that begins with a given mark. -/
def line (mark : Char) (text : Bytes) : Bytes := Utf8.encodeChar mark ++ text ++ crlf

/-- A line with a number. -/
def numberLine (mark : Char) (n : Nat) : Bytes := line mark (Utf8.encode (Numeral.render n))

/-- A text of any bytes after its length. -/
def sized (mark : Char) (b : Bytes) : Bytes := numberLine mark b.length ++ b ++ crlf

/-- A command as bytes: the list of its parts. -/
def encodeCommand (command : Command) : Bytes :=
  numberLine '*' command.length ++ command.flatMap fun part => sized '$' (Utf8.bytes part)

/-- The digits of an integer with its sign. -/
def integer (i : Int) : Bytes := Utf8.encode (Numeral.renderInt i)

/-- A failed command as bytes. -/
def encodeFailure (text : String) : Bytes := line '-' (Utf8.bytes text)

mutual

/-- A reply as bytes. -/
def encodeReply : Reply → Bytes
  | .nil => line '$' (Utf8.bytes "-1")
  | .okay => line '+' (Utf8.bytes "OK")
  | .int i => line ':' (integer i)
  | .bytes b => sized '$' b
  | .simple s => line '+' (Utf8.bytes s)
  | .array items => numberLine '*' items.length ++ encodeReplies items
  | .set items => numberLine '~' items.length ++ encodeReplies items
  | .map pairs => numberLine '%' pairs.length ++ encodePairs pairs
  | .attribute data pairs => numberLine '|' pairs.length ++ encodePairs pairs ++ encodeReply data
  | .double x => line ',' (Utf8.bytes x.text)
  | .bool b => line '#' (Utf8.bytes (if b then "t" else "f"))
  | .bigNumber i => line '(' (integer i)
  | .verbatim format text => sized '=' (Utf8.bytes (format ++ ":" ++ text))
  | .push kind items =>
    numberLine '>' (items.length + 1) ++ line '+' (Utf8.bytes kind) ++ encodeReplies items
  | .serverError code none => encodeFailure code
  | .serverError code (some detail) => encodeFailure (code ++ " " ++ detail)

/-- Replies one after the other. -/
def encodeReplies : List Reply → Bytes
  | [] => []
  | r :: rs => encodeReply r ++ encodeReplies rs

/-- Pairs of replies one after the other. -/
def encodePairs : List (Reply × Reply) → Bytes
  | [] => []
  | (k, v) :: ps => encodeReply k ++ encodeReply v ++ encodePairs ps

end

/-- The connection ended before the reply did. -/
def closed : Failure := .connection "unexpected end of file"

/-- A reply that is not written as the protocol says. -/
def malformed (detail : String) : Failure := .known .parse "parse error" (some detail)

/-- The kinds of failures that have a code of their own. -/
def codeKind? (code : String) : Option Kind :=
  match code with
  | "ERR" => some .response
  | "EXECABORT" => some .abort
  | "LOADING" => some .loading
  | "NOSCRIPT" => some .noScript
  | "MOVED" => some .moved
  | "ASK" => some .ask
  | "TRYAGAIN" => some .tryAgain
  | "CLUSTERDOWN" => some .clusterDown
  | "CROSSSLOT" => some .crossSlot
  | "MASTERDOWN" => some .masterDown
  | "READONLY" => some .readOnly
  | "NOTBUSY" => some .notBusy
  | _ => none

/-- The failure that a server words: a code, and after a space the detail. -/
def worded (text : List Char) : Failure :=
  let code := String.ofList (text.takeWhile (· != ' '))
  let detail :=
    match text.dropWhile (· != ' ') with
    | [] => none
    | _ :: detail => some (String.ofList detail)
  match codeKind? code with
  | some kind => .known kind "An error was signalled by the server" detail
  | none => .extended code detail

/-- The bytes of a line, and what follows it. -/
def readLine : Bytes → Option (Bytes × Bytes)
  | [] => none
  | a :: r =>
    match r with
    | b :: rest =>
      if a = 0x0D && b = 0x0A then some ([], rest)
      else (readLine r).map fun (text, rest) => (a :: text, rest)
    | [] => none

/-- The text of a line, and what follows it. -/
def readText (bs : Bytes) : Except Failure (List Char × Bytes) :=
  match readLine bs with
  | none => .error closed
  | some (text, rest) =>
    match Utf8.decode text with
    | .ok cs => .ok (cs, rest)
    | .error fault => .error (malformed fault.message)

/-- The integer of 64 bits that a text writes. -/
def integer? (cs : List Char) : Option Int :=
  match Numeral.integer? cs with
  | some i => if -Numeral.half64 ≤ i && i < Numeral.half64 then some i else none
  | none => none

/-- Reads a line with an integer. -/
def readInteger (bs : Bytes) : Except Failure (Int × Bytes) := do
  let (cs, rest) ← readText bs
  match integer? (Text.trim cs) with
  | some i => return (i, rest)
  | none => throw (malformed "Expected integer, got garbage")

/-- Reads some bytes and the end of a line after them. -/
def readSized (size : Nat) (bs : Bytes) : Except Failure (Bytes × Bytes) :=
  if bs.length < size then .error closed
  else
    match bs.drop size with
    | [] => .error closed
    | a :: r =>
      if a ≠ 0x0D then .error (malformed "expected crlf newline")
      else
        match r with
        | [] => .error closed
        | b :: rest =>
          if b = 0x0A then .ok (bs.take size, rest)
          else .error (malformed "expected crlf newline")

/-- Reads a text after its size. Bytes that are no text are replaced. There are never enough bytes
for a size below zero. -/
def readBlob (bs : Bytes) : Except Failure (List Char × Bytes) := do
  let (n, rest) ← readInteger bs
  if n < 0 then throw closed
  else
    let (b, rest) ← readSized n.toNat rest
    return (Utf8.decodeLossy b, rest)

/-- What a complete reply means: a value, or the failure that it holds. -/
abbrev Meaning := Except Failure Reply

/-- Reads a number of replies. -/
def readMany (item : Bytes → Except Failure (Meaning × Bytes)) :
    (count : Nat) → Bytes → Except Failure (List Meaning × Bytes)
  | 0, bs => .ok ([], bs)
  | count + 1, bs => do
    let (m, rest) ← item bs
    let (ms, rest) ← readMany item count rest
    return (m :: ms, rest)

/-- The values of replies, or the first failure among them. -/
def values : List Meaning → Except Failure (List Reply)
  | [] => .ok []
  | m :: ms => do
    let r ← m
    let rs ← values ms
    return r :: rs

/-- Replies in pairs. -/
def paired : List Reply → List (Reply × Reply)
  | k :: v :: rest => (k, v) :: paired rest
  | _ => []

/-- The message whose kind is the first of some replies, which has to be a text. -/
def messageOf : List Meaning → Except Failure Meaning
  | .ok (.bytes b) :: ms =>
    match Utf8.decode b with
    | .ok kind => .ok ((values ms).map (.push (String.ofList kind)))
    | .error fault => .error (malformed fault.message)
  | .ok (.simple kind) :: ms => .ok ((values ms).map (.push kind))
  | _ => .error (malformed "parse error when decoding push")

/-- The last of some replies with the others as its attributes. A failure of the reply comes
before those of its attributes. -/
def attributed (ms : List Meaning) (data : Meaning) : Meaning := do
  let data ← data
  return .attribute data (paired (← values ms))

/-- The text after its format and a colon. -/
def verbatimOf (cs : List Char) : Except Failure Reply :=
  match cs.dropWhile (· != ':') with
  | _ :: text => .ok (.verbatim (String.ofList (cs.takeWhile (· != ':'))) (String.ofList text))
  | [] => .error (malformed "parse error when decoding verbatim string")

/-- The replies that a list may stand inside. -/
def maxDepth : Nat := 100

/-- Reads one reply that stands inside `level` others. Each begins with a mark, so as many steps
as there are bytes suffice. -/
def readReply : (steps level : Nat) → Bytes → Except Failure (Meaning × Bytes)
  | 0, _, _ => .error closed
  | _ + 1, _, [] => .error closed
  | steps + 1, level, mark :: bs => do
    let plain (reply : Reply) (rest : Bytes) : Except Failure (Meaning × Bytes) :=
      .ok (.ok reply, rest)
    let many := readMany (readReply steps (level + 1))
    /- A list of items; below zero it stands for no value. -/
    let list (make : List Reply → Reply) : Except Failure (Meaning × Bytes) := do
      let (n, rest) ← readInteger bs
      if n < 0 then plain .nil rest
      else
        let (ms, rest) ← many n.toNat rest
        return ((values ms).map make, rest)
    /- A number of pairs, which is not below zero. -/
    let pairs (bs : Bytes) : Except Failure (List Meaning × Bytes) := do
      let (n, rest) ← readInteger bs
      if n < 0 then throw (malformed "key-value length is too large")
      else many (2 * n.toNat) rest
    -- The marks + - : $ * that all versions have.
    if mark = 0x2B then
      let (cs, rest) ← readText bs
      plain (if cs = ['O', 'K'] then .okay else .simple (String.ofList cs)) rest
    else if mark = 0x2D then
      let (cs, rest) ← readText bs
      return (.error (worded cs), rest)
    else if mark = 0x3A then
      let (i, rest) ← readInteger bs
      plain (.int i) rest
    else if mark = 0x24 then
      let (n, rest) ← readInteger bs
      -- A size below zero stands for no value.
      if n < 0 then plain .nil rest
      else
        let (b, rest) ← readSized n.toNat rest
        plain (.bytes b) rest
    else if mark = 0x2A then
      if maxDepth ≤ level then throw (malformed "Maximum recursion depth exceeded")
      else list .array
    -- The marks ~ % | > of sets, maps, attributes and messages.
    else if mark = 0x7E then list .set
    else if mark = 0x25 then
      let (ms, rest) ← pairs bs
      return ((values ms).map fun rs => .map (paired rs), rest)
    else if mark = 0x7C then
      let (ms, rest) ← pairs bs
      let (data, rest) ← readReply steps (level + 1) rest
      return (attributed ms data, rest)
    else if mark = 0x3E then
      let (n, rest) ← readInteger bs
      -- A message without items has no kind.
      if n ≤ 0 then plain (.push "" []) rest
      else
        let (ms, rest) ← many n.toNat rest
        return (← messageOf ms, rest)
    -- The marks _ , # ( = ! of the other single values.
    else if mark = 0x5F then
      let (_, rest) ← readText bs
      plain .nil rest
    else if mark = 0x2C then
      let (cs, rest) ← readText bs
      match Decimal.Extended.ofText? (Text.trim cs) with
      | some x => plain (.double x) rest
      | none => throw (malformed "invalid float literal")
    else if mark = 0x23 then
      let (cs, rest) ← readText bs
      match cs with
      | ['t'] => plain (.bool true) rest
      | ['f'] => plain (.bool false) rest
      | _ => throw (malformed "Expected boolean, got garbage")
    else if mark = 0x28 then
      let (cs, rest) ← readText bs
      match Numeral.grouped? cs with
      | some i => plain (.bigNumber i) rest
      | none => throw (malformed "Expected bigint, got garbage")
    else if mark = 0x3D then
      let (cs, rest) ← readBlob bs
      plain (← verbatimOf cs) rest
    else if mark = 0x21 then
      let (cs, rest) ← readBlob bs
      return (.error (worded cs), rest)
    else throw (malformed "unexpected byte")

/-- Reads the reply to a command. Messages, whose mark is `>`, may come before it and are passed
over. -/
def readAnswer : (steps : Nat) → Bytes → Meaning
  | 0, _ => .error closed
  | steps + 1, bs => do
    let (meaning, rest) ← readReply bs.length 0 bs
    if bs.head? = some 0x3E then readAnswer steps rest else meaning

/-- The meaning of what a server sends before it closes the connection. Every message has a byte,
so there is one step more than there can be messages. -/
def decode (bs : Bytes) : Meaning := readAnswer (bs.length + 1) bs

/-- The command that bytes write, which is a list of texts. -/
def command? (bs : Bytes) : Option Command :=
  match decode bs with
  | .ok (.array parts) => parts.mapM Reply.text?
  | _ => none

end HashGateway.Wire
