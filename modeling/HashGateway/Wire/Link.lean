import HashGateway.Exchange
import HashGateway.Wire.Resp

/-!
# Links to a server

For every command a connection is made, the command is sent, one reply is read, and
the connection is closed again. A link says what comes of this on the other side.

## Main definitions

* `Wire.Link` — what a server sends back, or why it cannot be reached
* `Wire.engine` — the engine behind a link
* `Wire.Link.serving` — a server that executes commands with an engine of its own
* `Wire.Link.replying`, `Wire.Link.unreachable` — a server with given replies, and none
-/

namespace HashGateway.Wire

/-- What a server sends back to the bytes of a command before it closes the connection, or why
it cannot be reached. -/
abbrev Link (σ : Type) := σ → Bytes → Except Host.Fault Bytes × σ

/-- What an answer of a server means. -/
def answer : Except Host.Fault Bytes → Answer
  | .error fault => .error (.unavailable fault.message)
  | .ok sent =>
    match decode sent with
    | .ok reply => .ok reply
    | .error failure => .error (.ofFailure failure)

/-- The engine behind a link. -/
def engine {σ : Type} (link : Link σ) : Engine σ := fun s command =>
  if command.isEmpty then (.error (.format .noCommand), s)
  else
    let (sent, s) := link s (encodeCommand command)
    (answer sent, s)

namespace Link

variable {σ : Type}

/-- No server can be reached. -/
def unreachable (fault : Host.Fault) : Link σ := fun s _ => (.error fault, s)

/-- A server with given replies, one for each connection; then none is accepted any more. -/
def replying : Link (List Bytes)
  | [], _ => (.error .connectionRefused, [])
  | reply :: rest, _ => (.ok reply, rest)

/-- The words of an error that a server sends. -/
def words : Error → String
  | .command rejection => rejection.message
  | e => "ERR " ++ e.message

/-- A server that executes commands with an engine of its own. -/
def serving (engine : Engine σ) : Link σ := fun s bytes =>
  match command? bytes with
  | none => (.ok (encodeFailure "ERR Protocol error"), s)
  | some command =>
    match engine s command with
    | (.ok reply, s) => (.ok (encodeReply reply), s)
    | (.error e, s) => (.ok (encodeFailure (words e)), s)

/-- A link whose bytes are written down, the last first, when a server is reached. -/
def logged (link : Link σ) : Link (σ × List Bytes) := fun (s, log) bytes =>
  match link s bytes with
  | (.ok sent, s) => (.ok sent, s, bytes :: log)
  | (.error fault, s) => (.error fault, s, log)

end Link

end HashGateway.Wire
