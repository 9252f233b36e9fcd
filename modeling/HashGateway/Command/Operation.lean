import HashGateway.Command.Template
import HashGateway.Outcome

/-!
# The operations on the store

Each operation has one template for its command and one meaning for the reply.

## Main definitions

* `Operation` — the operations
* `Operation.template`, `Operation.decode` — the entry of an operation
* `Operation.arity` — how many arguments an operation takes
-/

namespace HashGateway

/-- What is asked of the store. -/
inductive Operation
  /-- Writes the registration of a machine. -/
  | registerUser
  /-- Reads the registration of a machine. -/
  | getUser
  /-- Writes a file under its own key. -/
  | setFile
  /-- Writes a file into the index of its machine. -/
  | indexFile
  /-- Reads a file. -/
  | getFile
  /-- Reads a page of the index of a machine. -/
  | listFiles
  /-- Writes a trace entry of a file. -/
  | addTrace
  /-- Reads a page of the trace entries of a file. -/
  | listTraces
  deriving DecidableEq, Repr

namespace Operation

/-- All operations, in the order of the table. -/
def all : List Operation :=
  [.registerUser, .getUser, .setFile, .indexFile, .getFile, .listFiles, .addTrace, .listTraces]

/-- The name of an operation. -/
def name : Operation → String
  | .registerUser => "UserRegister"
  | .getUser => "UserGet"
  | .setFile => "SetFile"
  | .indexFile => "SetMachineFile"
  | .getFile => "GetFile"
  | .listFiles => "GetAllFiles"
  | .addTrace => "SetTrace"
  | .listTraces => "GetTraces"

/-- The template of the command. -/
def template : Operation → String
  | .registerUser => "HMSET userkey:\x7b\x7d machine \x7b\x7d username \x7b\x7d"
  | .getUser => "HGETALL userkey:\x7b\x7d"
  | .setFile => "HMSET filekey:\x7b\x7d \x7b\x7d \x7b\x7d"
  | .indexFile => "HMSET machine:\x7b\x7d \x7b\x7d \x7b\x7d"
  | .getFile => "HGET filekey:\x7b\x7d \x7b\x7d"
  | .listFiles => "HSCAN machine:\x7b\x7d \x7b\x7d COUNT \x7b\x7d"
  | .addTrace => "HSET filekey:\x7b\x7d \x7b\x7d \x7b\x7d"
  | .listTraces => "HSCAN filekey:\x7b\x7d \x7b\x7d MATCH trace:* COUNT \x7b\x7d"

/-- The meaning of the reply. -/
def decode : Operation → Reply → Outcome
  | .registerUser => Outcome.ofWrite
  | .getUser => Outcome.ofRecord
  | .setFile => Outcome.ofWrite
  | .indexFile => Outcome.ofWrite
  | .getFile => Outcome.ofField
  | .listFiles => Outcome.ofScan "files"
  | .addTrace => Outcome.ofWrite
  | .listTraces => Outcome.ofScan "traces"

/-- How many arguments an operation takes. -/
def arity (operation : Operation) : Nat := Template.holes operation.template.toList

/-- The operation with a name. -/
def named? (s : String) : Option Operation := all.find? fun operation => operation.name = s

theorem mem_all (operation : Operation) : operation ∈ all := by
  cases operation <;> simp [all]

end Operation

end HashGateway
