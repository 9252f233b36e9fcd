import HashGateway.Exchange
import HashGateway.Record.Request

/-!
# Endpoints

What each path of the gateway does: it reads the record of a request from its body
and makes one or two operations of it.

## Main definitions

* `Endpoint`, `Endpoint.route` — the endpoints and where they are
* `Registration.exchange`, `FileRecord.exchange` — the requests that may take two operations
* `Endpoint.handle` — what a request to an endpoint does
-/

namespace HashGateway

/-- What the gateway serves. -/
inductive Endpoint
  | registerUser
  | getUser
  | setFile
  | getFile
  | listFiles
  | addTrace
  | listTraces
  deriving DecidableEq, Repr

namespace Endpoint

/-- All endpoints. -/
def all : List Endpoint :=
  [.registerUser, .getUser, .setFile, .getFile, .listFiles, .addTrace, .listTraces]

/-- The path of an endpoint. -/
def path : Endpoint → String
  | .registerUser => "/userregister"
  | .getUser => "/userget"
  | .setFile => "/fileset"
  | .getFile => "/fileget"
  | .listFiles => "/filegetall"
  | .addTrace => "/filesettrace"
  | .listTraces => "/filegettrace"

/-- The name of an endpoint. -/
def name : Endpoint → String
  | .registerUser => "UserRegister"
  | .getUser => "UserGet"
  | .setFile => "FileSet"
  | .getFile => "FileGet"
  | .listFiles => "FileGetAll"
  | .addTrace => "FileSetTrace"
  | .listTraces => "FileGetTrace"

/-- The endpoint with a name. -/
def named? (s : String) : Option Endpoint := all.find? fun endpoint => endpoint.name = s

/-- The endpoint that a method and a path lead to. The method is written in any case. -/
def route (method path : String) : Option Endpoint :=
  if method.map Char.toUpper = "POST" then all.find? fun endpoint => endpoint.path = path
  else none

end Endpoint

/-- The text of a registration that is sent back: the machine before the name. -/
def Registration.echo (r : Registration) : String :=
  (Json.Value.object [("machine", .string r.machine), ("username", .string r.username)]).text

/-- Writes a registration and sends it back. -/
def Registration.write (r : Registration) : Exchange (Except Error Outcome) :=
  (Exchange.perform .registerUser [.text r.machine, .text r.machine, .text r.username]).andThen
    fun
      | .success _ => .done (.ok (.success r.echo))
      | outcome => .done (.ok outcome)

/-- Writes a registration; unless it is forced, an older one of the machine is sent back
instead. -/
def Registration.exchange (r : Registration) : Exchange (Except Error Outcome) :=
  if r.force then r.write
  else
    (Exchange.perform .getUser [.text r.machine]).andThen fun
      | .notFound => r.write
      | outcome => .done (.ok outcome)

/-- Writes a file under its own key, and when that is acknowledged into the index of its
machine. -/
def FileRecord.exchange (f : FileRecord) : Exchange (Except Error Outcome) :=
  (Exchange.perform .setFile [.text f.uuid, .text f.uuid, .text f.data]).andThen fun outcome =>
    if outcome = .acknowledged then
      Exchange.perform .indexFile [.text f.machine, .text f.uuid, .text f.data]
    else .done (.ok outcome)

namespace Endpoint

/-- Goes on with the record of a request, if there is one. -/
def withRecord {ρ : Type} (record : Except Error ρ) (f : ρ → Exchange (Except Error Outcome)) :
    Exchange (Except Error Outcome) :=
  match record with
  | .ok r => f r
  | .error e => .fail e

/-- What a request with a body does that comes at a time. Scans are asked for `pageSize` fields
a page. -/
def handle (endpoint : Endpoint) (pageSize : Nat) (stamp : Int) (body : Bytes) :
    Exchange (Except Error Outcome) :=
  match endpoint with
  | .registerUser => withRecord (Registration.parse body) Registration.exchange
  | .getUser => withRecord (MachineQuery.parse body) fun q =>
    .perform .getUser [.text q.machine]
  | .setFile => withRecord (FileRecord.parse body) FileRecord.exchange
  | .getFile => withRecord (FileQuery.parse body) fun q =>
    .perform .getFile [.text q.uuid, .text q.uuid]
  | .listFiles => withRecord (FilePage.parse body) fun q =>
    .perform .listFiles [.text q.machine, .number q.page, .number pageSize]
  | .addTrace => withRecord (TraceRecord.parse stamp body) fun t =>
    .perform .addTrace [.text t.uuid, .text t.field, .text t.data]
  | .listTraces => withRecord (TracePage.parse body) fun q =>
    .perform .listTraces [.text q.uuid, .number q.page, .number pageSize]

end Endpoint

end HashGateway
