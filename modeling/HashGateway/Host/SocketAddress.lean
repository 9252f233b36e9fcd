import HashGateway.Text.Numeral

/-!
# Socket addresses

An address of one of the two versions of the internet protocol with a port, as a text
and back. Reading is strict: it takes numbers only, no names.

## Main definitions

* `SocketAddress` — an address and a port
* `SocketAddress.parse?` — the address that a text writes
* `SocketAddress.render` — the text of an address
-/

namespace HashGateway.Host

/-- An address and a port. -/
inductive SocketAddress
  /-- Four bytes. -/
  | v4 (octets : List Nat) (port : Nat)
  /-- Eight numbers of 16 bits, and the zone that the address belongs to. -/
  | v6 (groups : List Nat) (zone port : Nat)
  deriving DecidableEq, Repr

namespace SocketAddress

/-- What is read from the start of a text, and the rest of it. -/
abbrev Reader (α : Type) := List Char → Option (α × List Char)

/-- Reads one character. -/
def char (c : Char) : Reader Unit
  | d :: rest => if d = c then some ((), rest) else none
  | [] => none

/-- The value of a hexadecimal digit of either case. -/
def hexDigit? (c : Char) : Option Nat :=
  if '0' ≤ c && c ≤ '9' then some (c.toNat - '0'.toNat)
  else if 'a' ≤ c && c ≤ 'f' then some (c.toNat - 'a'.toNat + 10)
  else if 'A' ≤ c && c ≤ 'F' then some (c.toNat - 'A'.toNat + 10)
  else none

/-- The digits at the start of a text, and the rest of it. -/
def digits (digit? : Char → Option Nat) : List Char → List Nat × List Char
  | [] => ([], [])
  | c :: cs =>
    match digit? c with
    | some d => let (ds, rest) := digits digit? cs; (d :: ds, rest)
    | none => ([], c :: cs)

/-- Reads a decimal number up to a bound. -/
def decimal (bound : Nat) : Reader Nat := fun cs =>
  match digits Numeral.digit? cs with
  | ([], _) => none
  | (ds, rest) => if Numeral.ofDigits ds ≤ bound then some (Numeral.ofDigits ds, rest) else none

/-- Reads a byte of at most three digits without a leading zero. -/
def octet : Reader Nat := fun cs =>
  match digits Numeral.digit? cs with
  | ([], _) => none
  | (0 :: _ :: _, _) => none
  | (ds, rest) =>
    if ds.length ≤ 3 && Numeral.ofDigits ds ≤ 255 then some (Numeral.ofDigits ds, rest) else none

/-- Reads four bytes with dots between them. -/
def octets : Reader (List Nat) := fun cs => do
  let (a, cs) ← octet cs
  let (_, cs) ← char '.' cs
  let (b, cs) ← octet cs
  let (_, cs) ← char '.' cs
  let (c, cs) ← octet cs
  let (_, cs) ← char '.' cs
  let (d, cs) ← octet cs
  return ([a, b, c, d], cs)

/-- Reads a group of one to four hexadecimal digits. -/
def group : Reader Nat := fun cs =>
  match digits hexDigit? cs with
  | ([], _) => none
  | (ds, rest) => if ds.length ≤ 4 then some (ds.foldl (fun n d => 16 * n + d) 0, rest) else none

/-- Reads what follows a colon, or at the start. -/
def separated {α : Type} (first : Bool) (item : Reader α) : Reader α := fun cs =>
  if first then item cs
  else do
    let (_, cs) ← char ':' cs
    item cs

/-- Reads up to `room` groups with colons between them; four bytes may stand for the last two.
The first result says whether they do. -/
def groups : (room : Nat) → (first : Bool) → List Char → Bool × List Nat × List Char
  | 0, _, cs => (false, [], cs)
  | room + 1, first, cs =>
    match (if 0 < room then separated first octets cs else none) with
    | some ([a, b, c, d], rest) => (true, [a * 256 + b, c * 256 + d], rest)
    | _ =>
      match separated first group cs with
      | some (g, rest) =>
        let (dotted, gs, rest) := groups room false rest
        (dotted, g :: gs, rest)
      | none => (false, [], cs)

/-- Reads eight groups, a run of zeros among which may be written as two colons. -/
def address6 : Reader (List Nat) := fun cs =>
  match groups 8 true cs with
  | (dotted, head, rest) =>
    if head.length = 8 then some (head, rest)
    -- Four bytes end an address, so no colons may follow them.
    else if dotted then none
    else do
      let (_, rest) ← char ':' rest
      let (_, rest) ← char ':' rest
      let (_, tail, rest) := groups (7 - head.length) true rest
      return (head ++ List.replicate (8 - head.length - tail.length) 0 ++ tail, rest)

/-- Reads a zone, if there is one. -/
def zone (cs : List Char) : Nat × List Char :=
  -- What is no zone stays to be read, and no address goes on with it.
  match (do let (_, cs) ← char '%' cs; decimal Numeral.max32 cs : Option (Nat × List Char)) with
  | some result => result
  | none => (0, cs)

/-- Reads a port. -/
def port : Reader Nat := fun cs => do
  let (_, cs) ← char ':' cs
  decimal Numeral.maxPort cs

/-- Reads an address of version four. -/
def read4 : Reader SocketAddress := fun cs => do
  let (os, cs) ← octets cs
  let (p, cs) ← port cs
  return (v4 os p, cs)

/-- Reads an address of version six. -/
def read6 : Reader SocketAddress := fun cs => do
  let (_, cs) ← char '[' cs
  let (gs, cs) ← address6 cs
  let (z, cs) := zone cs
  let (_, cs) ← char ']' cs
  let (p, cs) ← port cs
  return (v6 gs z p, cs)

/-- The address that a text writes. -/
def parse? (text : String) : Option SocketAddress :=
  match (read4 text.toList).or (read6 text.toList) with
  | some (address, []) => some address
  | _ => none

/-- Texts with something between them. -/
def joined (separator : Char) : List (List Char) → List Char
  | [] => []
  | [text] => text
  | text :: rest => text ++ separator :: joined separator rest

/-- The length of the run of zeros at the start. -/
def zeros (gs : List Nat) : Nat := (gs.takeWhile (· == 0)).length

/-- The first longest run of zeros: where it begins, and its length. -/
def longestRun : (index : Nat) → List Nat → Nat × Nat
  | _, [] => (0, 0)
  | index, g :: gs =>
    let later := longestRun (index + 1) gs
    let here := zeros (g :: gs)
    -- The run at this place is not shorter than one inside it, so of equal runs the first wins.
    if later.2 ≤ here && 0 < here then (index, here) else later

/-- The text of four bytes. -/
def render4 (os : List Nat) : List Char := joined '.' (os.map Numeral.render)

/-- The text of eight groups. The first longest run of at least two zeros is written as two
colons, and an address that stands for four bytes shows these. -/
def render6 (gs : List Nat) : List Char :=
  match gs with
  | [0, 0, 0, 0, 0, 0xFFFF, a, b] =>
    "::ffff:".toList ++ render4 [a / 256, a % 256, b / 256, b % 256]
  | gs =>
    let hex (gs : List Nat) := joined ':' (gs.map (Nat.toDigits 16))
    let (start, length) := longestRun 0 gs
    if 1 < length then hex (gs.take start) ++ ':' :: ':' :: hex (gs.drop (start + length))
    else hex gs

/-- The text of an address. -/
def render : SocketAddress → String
  | v4 os p => String.ofList (render4 os ++ ':' :: Numeral.render p)
  | v6 gs z p =>
    let zoneText := if z = 0 then [] else '%' :: Numeral.render z
    String.ofList ('[' :: render6 gs ++ zoneText ++ ']' :: ':' :: Numeral.render p)

/-- The same address with another port. -/
def withPort (p : Nat) : SocketAddress → SocketAddress
  | v4 os _ => v4 os p
  | v6 gs z _ => v6 gs z p

end SocketAddress

end HashGateway.Host
