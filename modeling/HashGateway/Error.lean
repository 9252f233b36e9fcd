import HashGateway.Command.Template
import HashGateway.Json.Fault
import HashGateway.Settings.Fault
import HashGateway.Text.Utf8
import HashGateway.Wire.Failure

/-!
# Errors

Everything that can go wrong, by its cause. The wording of a cause stands beside the
cause; here it gets the words that say where it belongs.

## Main definitions

* `Refusal` — why a record is refused although its JSON is well formed
* `Rejection` — why a store refuses a command
* `StartFault` — why a value of the command line or of the settings cannot be used
* `Error`, `Error.message` — the errors and their wording
-/

namespace HashGateway

/-- Why a record is refused although its JSON is well formed. -/
inductive Refusal
  /-- A text field is empty. -/
  | empty (field : String)
  /-- The flag is neither of its two values. -/
  | flag (n : Nat)
  /-- The bytes of the whole record are no text. -/
  | encoding (fault : Utf8.Fault)
  | other (text : String)

/-- The wording of a refusal. -/
def Refusal.message : Refusal → String
  | .empty field => s!"'{field}' must not be empty"
  | .flag n => s!"'flag' must be 0 or 1, got {n}"
  | .encoding fault => fault.message
  | .other text => text

/-- Why a store refuses a command. -/
inductive Rejection
  /-- The number of arguments does not fit the command. -/
  | arity (command : String)
  | unknownCommand (command : String)
  | badCursor
  | badCount
  | badOption
  /-- The words of another store. -/
  | other (text : String)
  deriving DecidableEq, Repr

/-- The wording of a rejection. -/
def Rejection.message : Rejection → String
  | .arity command => s!"ERR wrong number of arguments for '{command}' command"
  | .unknownCommand command => s!"ERR unknown command '{command}'"
  | .badCursor => "ERR invalid cursor"
  | .badCount => "ERR value is not an integer or out of range"
  | .badOption => "ERR syntax error"
  | .other text => text

/-- Why a value of the command line or of the settings cannot be used. -/
inductive StartFault
  | address (value : String)
  | number (value : String)
  | noThreads
  | store (host : String) (port : Nat) (failure : Wire.Failure)
  | other (text : String)

/-- The wording of such a fault. -/
def StartFault.message : StartFault → String
  | .address value => s!"could not parse {value} into an IP address and port"
  | .number value => s!"error: Invalid value: The argument '{value}' isn't a valid value"
  | .noThreads => "--threads must be at least 1"
  | .store host port failure => s!"invalid redis address {host}:{port}: {failure.message}"
  | .other text => text

/-- Everything that can go wrong. -/
inductive Error
  /-- A call of the system fails. -/
  | io (fault : Host.Fault)
  /-- A text is not the JSON that is asked for. -/
  | json (fault : Json.Fault)
  /-- A record is refused. -/
  | invalidRequest (refusal : Refusal)
  /-- A command cannot be built. -/
  | format (fault : Template.Fault)
  /-- A store cannot be reached, or stops answering. -/
  | unavailable (detail : String)
  /-- A store refuses a command. -/
  | command (rejection : Rejection)
  /-- A line of the settings is refused. -/
  | config (line : Nat) (text : String) (fault : Settings.Fault)
  /-- A value of the command line or of the settings cannot be used. -/
  | start (fault : StartFault)
  | other (text : String)

/-- The wording of an error. -/
def Error.message : Error → String
  | .io fault => fault.message
  | .json fault => fault.message
  | .invalidRequest refusal => s!"invalid request: {refusal.message}"
  | .format fault => s!"could not format command: {fault.message}"
  | .unavailable detail => s!"store unavailable: {detail}"
  | .command rejection => s!"store command failed: {rejection.message}"
  | .config line text fault => s!"line {line}: '{text}': {fault.message}"
  | .start fault => fault.message
  | .other text => text

/-- The error that a failure of an exchange is: without an answer the store is unavailable, any
other failure is a rejection. -/
def Error.ofFailure (failure : Wire.Failure) : Error :=
  if failure.isConnection then .unavailable failure.message
  else .command (.other failure.message)

end HashGateway
