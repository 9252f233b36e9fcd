import HashGateway.Host.SocketAddress
import HashGateway.Text.Utf8
import HashGateway.Wire.Failure

/-!
# Addresses of a store

The host and the port of a store are put into an address of the form
`redis://host:port/`, and that address is read as any other. So a host may bring a
user, a path or a query of its own, and is refused where these make no sense.

## Main definitions

* `Wire.Address` — the parts of an address
* `Wire.Address.parse?` — the parts of a text
* `Wire.Address.check` — whether a host and a port make an address of a store
-/

namespace HashGateway.Wire

/-- The parts of an address after its scheme. -/
structure Address where
  user : List Char
  password : Option (List Char)
  host : List Char
  path : List (List Char)
  query : List Char
  deriving DecidableEq, Repr

namespace Address

/-- Characters that end the part with user, host and port. -/
def isEnd (c : Char) : Bool := c == '/' || c == '?' || c == '#'

/-- Characters that are taken out of an address. -/
def isIgnored (c : Char) : Bool := c == '\t' || c == '\n' || c == '\r'

/-- Characters that no host has. -/
def isForbidden (c : Char) : Bool := "\x00\t\n\r #/:<>?@[\\]^|".toList.contains c

/-- What stands before the last sign of a kind, if there is one, and what stands after it. -/
def cutAtLast (sign : Char) (cs : List Char) : Option (List Char × List Char) :=
  if cs.contains sign then
    let after := (cs.reverse.takeWhile (· != sign)).reverse
    some (cs.take (cs.length - after.length - 1), after)
  else none

/-- The user and the password before the host. An empty password is none. -/
def userInfo (cs : List Char) : List Char × Option (List Char) :=
  match cs.dropWhile (· != ':') with
  | [] => (cs, none)
  | _ :: password => (cs.takeWhile (· != ':'), if password.isEmpty then none else some password)

/-- The host at the start of a text: it ends at a colon outside brackets. -/
def hostPart (inside : Bool) : List Char → List Char × List Char
  | [] => ([], [])
  | c :: cs =>
    if isEnd c || (c == ':' && !inside) then ([], c :: cs)
    else
      let inside := if c == '[' then true else if c == ']' then false else inside
      let (host, rest) := hostPart inside cs
      (c :: host, rest)

/-- Whether a text can be a host. What begins with a bracket is an address of version six. -/
def isHost : List Char → Bool
  | '[' :: rest =>
    rest.getLast? == some ']' &&
      (match Host.SocketAddress.address6 rest.dropLast with
        | some (_, []) => true
        | _ => false)
  | cs => !cs.any isForbidden

/-- What follows a port. -/
def afterPort (cs : List Char) : Option (List Char) :=
  let (ds, rest) := Host.SocketAddress.digits Numeral.digit? cs
  if Numeral.maxPort < Numeral.ofDigits ds then none
  else
    match rest with
    | [] => some []
    | c :: _ => if isEnd c || c == '\\' then some rest else none

/-- What follows a port, if there is one. -/
def afterHost : List Char → Option (List Char)
  | ':' :: rest => afterPort rest
  | rest => some rest

/-- Whether a segment of a path is one dot. -/
def isDot (segment : List Char) : Bool :=
  [".", "%2e"].contains ((String.ofList segment).map Char.toLower)

/-- Whether a segment of a path is two dots. -/
def isDots (segment : List Char) : Bool :=
  ["..", ".%2e", "%2e.", "%2e%2e"].contains ((String.ofList segment).map Char.toLower)

/-- Whether a segment of a path names a drive: a letter, and a colon or a bar. -/
def isDrive : List Char → Bool
  | [letter, mark] => letter.isAlpha && (mark == ':' || mark == '|')
  | _ => false

/-- A path after its dots have been followed. They do not lead out of a drive. -/
def follow (segments : List (List Char)) : List (List Char) :=
  segments.foldl
    (fun path segment =>
      if isDots segment then if path.getLast?.any isDrive then path else path.dropLast
      else if isDot segment then path
      else path ++ [segment])
    []

/-- The parts of a text after the scheme and two slashes. -/
def parse? (text : List Char) : Option Address :=
  let text := text.filter fun c => !isIgnored c
  let authority := text.takeWhile fun c => !isEnd c
  let tail := text.dropWhile fun c => !isEnd c
  let cut := cutAtLast '@' authority
  let info := (cut.map Prod.fst).getD []
  let rest := (cut.map Prod.snd).getD authority ++ tail
  -- The last at sign ends the user, so those before it belong to the user.
  let (user, password) := userInfo info
  let (host, afterwards) := hostPart false rest
  -- A host may be missing, but then there is neither a port nor a user; a colon is no user.
  let bare := host.isEmpty && (afterwards.head? == some ':' || (cut.isSome && info != [':']))
  if bare || !isHost host then none
  else
    match afterHost afterwards with
    | none => none
    | some rest =>
      let path := rest.takeWhile fun c => !(c == '?' || c == '#')
      let query := (rest.dropWhile (fun c => !(c == '?' || c == '#'))).takeWhile (· != '#')
      some ⟨user, password, host, follow (path.splitOn '/'), query.drop 1⟩

/-- A failure that says what is wrong with an address. -/
def failure (description : String) : Failure := .known .address description none

/-- The value of a hexadecimal digit. -/
def hexByte? (a b : UInt8) : Option UInt8 := do
  let x ← Host.SocketAddress.hexDigit? (Char.ofNat a.toNat)
  let y ← Host.SocketAddress.hexDigit? (Char.ofNat b.toNat)
  return UInt8.ofNat (16 * x + y)

/-- The bytes that percent signs with two digits stand for. -/
def percentDecode : Bytes → Bytes
  | [] => []
  | [a] => [a]
  | [a, b] => [a, b]
  | a :: b :: c :: rest =>
    if a = 0x25 then
      match hexByte? b c with
      | some byte => byte :: percentDecode rest
      | none => a :: percentDecode (b :: c :: rest)
    else a :: percentDecode (b :: c :: rest)
  termination_by bs => bs.length

/-- Whether a text is UTF-8 after its percent signs have been replaced. -/
def isText (cs : List Char) : Bool := (Utf8.decode? (percentDecode (Utf8.encode cs))).isSome

/-- The number of a database, which is the path without the slashes at its ends. -/
def isDatabase (path : List (List Char)) : Bool :=
  let trimmed := (path.dropWhile List.isEmpty).reverse.dropWhile List.isEmpty
  match trimmed with
  | [] => true
  | ['-' :: ds] => (Numeral.digits? ds).any fun n => n ≤ Numeral.half64
  | [number] => (Numeral.unsigned? (Numeral.half64 - 1) number).isSome
  | _ => false

/-- The text of a part of a query; bytes that are no text are replaced. -/
def queryText (cs : List Char) : String :=
  let spaced := cs.map fun c => if c = '+' then ' ' else c
  String.ofList (Utf8.decodeLossy (percentDecode (Utf8.encode spaced)))

/-- The last value that a query gives to a name. -/
def queryValue? (name : String) (query : List Char) : Option String :=
  let pairs := (query.splitOn '&').map fun piece =>
    (queryText (piece.takeWhile (· != '=')), queryText ((piece.dropWhile (· != '=')).drop 1))
  (pairs.reverse.find? fun pair => pair.1 = name).map Prod.snd

/-- The versions of the protocol that can be asked for. -/
def versions : List String := ["2", "resp2", "3", "resp3"]

/-- Whether a host and a port make an address of a store. -/
def check (host : String) (port : Nat) : Except Failure Unit :=
  match parse? (host.toList ++ ':' :: Numeral.render port ++ ['/']) with
  | none => .error (failure "Redis URL did not parse")
  | some address =>
    if address.host.isEmpty then .error (failure "Missing hostname")
    else if !isDatabase address.path then .error (failure "Invalid database number")
    else if !isText address.user then .error (failure "Username is not valid UTF-8 string")
    else if !isText (address.password.getD []) then
      .error (failure "Password is not valid UTF-8 string")
    else
      match queryValue? "protocol" address.query with
      | none => .ok ()
      | some version =>
        if version ∈ versions then .ok ()
        else .error (.known .address "Invalid protocol version" (some version))

end Address

end HashGateway.Wire
