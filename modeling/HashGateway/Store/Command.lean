import HashGateway.Store.Scan

/-!
# Commands of a store

What a command means does not depend on the store: it is read first, and a command
that is no command of hashes is refused there. A command that has been read never
fails, and only writes change the store.

## Main definitions

* `HashCommand` — the commands
* `HashCommand.parse` — the command that a name and its arguments stand for
* `Store.apply` — what a command answers and does
* `Store.execute` — both together
-/

namespace HashGateway

/-- A command on a hash. -/
inductive HashCommand
  /-- Writes fields; `counted` asks how many of them are new. -/
  | set (key : String) (pairs : List (String × String)) (counted : Bool)
  /-- Reads a field. -/
  | get (key field : String)
  /-- Reads all fields. -/
  | getAll (key : String)
  /-- Reads a page of the fields. -/
  | scan (key : String) (scan : Scan)
  deriving DecidableEq, Repr

namespace HashCommand

/-- The fields and values that arguments name in turn. -/
def pairs? : List String → Option (List (String × String))
  | [] => some []
  | [_] => none
  | field :: value :: rest => (pairs? rest).map fun pairs => (field, value) :: pairs

/-- A write of at least one field. -/
def setOf (key : String) (arguments : List String) (counted : Bool) :
    Except Rejection HashCommand :=
  match pairs? arguments with
  | some (pair :: pairs) => .ok (.set key (pair :: pairs) counted)
  | _ => .error (.arity "hset")

/-- The command of a name in upper case. -/
def ofName (name : String) (arguments : List String) : Except Rejection HashCommand :=
  match name, arguments with
  | "HSET", key :: pairs => setOf key pairs true
  | "HMSET", key :: pairs => setOf key pairs false
  | "HGET", [key, field] => .ok (.get key field)
  | "HGETALL", [key] => .ok (.getAll key)
  | "HSCAN", key :: arguments => (Scan.ofArguments arguments).map (.scan key)
  | "HSET", _ | "HMSET", _ | "HGET", _ | "HGETALL", _ | "HSCAN", _ =>
    .error (.arity (name.map Char.toLower))
  | name, _ => .error (.unknownCommand name)

/-- The command that a name in any case of letters and its arguments stand for. -/
def parse : Command → Except Error HashCommand
  | [] => .error (.format .noCommand)
  | name :: arguments =>
    match ofName (name.map Char.toUpper) arguments with
    | .ok command => .ok command
    | .error rejection => .error (.command rejection)

end HashCommand

namespace Store

/-- What a command answers and does. -/
def apply (store : Store) : HashCommand → Reply × Store
  | .set key pairs counted =>
    let hash := store.hash key
    (if counted then .int (hash.added pairs) else .okay, store.insert key (hash.write pairs))
  | .get key field =>
    (match store.field? key field with | some value => .bulk value | none => .nil, store)
  | .getAll key => (.array (Hash.listing (store.hash key).entries), store)
  | .scan key scan => (scan.reply (store.hash key), store)

/-- What a command answers and does, if it is one; otherwise it does nothing. -/
def execute (store : Store) (command : Command) : Except Error Reply × Store :=
  match HashCommand.parse command with
  | .ok command => ((.ok (store.apply command).1), (store.apply command).2)
  | .error e => (.error e, store)

end Store

end HashGateway
