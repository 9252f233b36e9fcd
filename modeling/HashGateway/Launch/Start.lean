import HashGateway.Credentials
import HashGateway.Launch.Arguments
import HashGateway.Settings.Parse
import HashGateway.Wire.Address

/-!
# Starting the server

What happens before the first request: the arguments are read, the settings are loaded
and changed by the arguments, the log and the process id get their files, and the
address of the store and the credentials are checked. Nothing is written before the
settings are known to be good.

## Main definitions

* `Launch.Surroundings` — what a start depends on beside the files and the arguments
* `Launch.configure` — the settings that a command line asks for
* `Launch.prepare` — makes the files of a start
* `Launch.Ending`, `Launch.run` — how a command line ends: stopped, or serving
-/

namespace HashGateway.Launch

open HashGateway.Host

/-- What a start depends on beside the files and the arguments. -/
structure Surroundings where
  processId : Nat
  /-- Which private keys the cryptography at hand can use. -/
  acceptsKey : Bytes → Bool

/-- What the program is called, with its version. -/
def title : String := "kserver 0.1.0"

/-- The text about the options. -/
def helpText : String :=
  title ++ "\n" ++
  "strohs <strohs1@gmail.com>\n" ++
  "a JSON over HTTP gateway onto a redis hash store\n" ++
  "\n" ++
  "USAGE:\n" ++
  "    kserver [OPTIONS]\n" ++
  "\n" ++
  "FLAGS:\n" ++
  "    -h, --help       Prints help information\n" ++
  "    -V, --version    Prints version information\n" ++
  "\n" ++
  "OPTIONS:\n" ++
  "        --addr <IP_ADDR:PORT>     sets the IP_ADDR:PORT that the server listens on\n" ++
  "    -c, --config <FILE>           reads settings from a configuration file\n" ++
  "        --engine <ENGINE_NAME>    sets the store engine to use, either 'redis' or 'memory' " ++
  "[possible values: redis,\n" ++
  "                                  memory]\n" ++
  "        --pool <POOL>             sets the worker pool requests are served on " ++
  "[possible values: naive, shared, rayon]\n" ++
  "        --threads <N>             sets the number of worker threads\n"

/-- The wording of a refused command line. -/
def Stop.message : Stop → String
  | .help => helpText
  | .version => title ++ "\n"
  | .unknown argument =>
    s!"error: Found argument '{argument}' which wasn't expected, or isn't valid in this context"
  | .noValue name =>
    s!"error: The argument '{name.display}' requires a value but none was supplied"
  | .badValue name value => s!"error: '{value}' isn't a valid value for '{name.display}'"
  | .repeated name =>
    s!"error: The argument '{name.display}' was provided more than once, " ++
      "but cannot be used multiple times"

/-- Changes settings by an option, if it is given. -/
def override (given : Arguments) (name : OptionName)
    (change : Settings → String → Except Error Settings) (s : Settings) : Except Error Settings :=
  match given.value? name with
  | some value => change s value
  | none => .ok s

/-- The address to listen on. -/
def setAddress (s : Settings) (value : String) : Except Error Settings :=
  match SocketAddress.parse? value with
  | some address => .ok { s with address := address }
  | none => .error (.start (.address value))

/-- The kind of store. -/
def setEngine (s : Settings) (value : String) : Except Error Settings :=
  match EngineKind.parse value with
  | .ok kind => .ok { s with engine := kind }
  | .error fault => .error (.start (.other fault.message))

/-- The kind of worker pool. -/
def setPool (s : Settings) (value : String) : Except Error Settings :=
  match PoolKind.parse value with
  | .ok kind => .ok { s with pool := kind }
  | .error fault => .error (.start (.other fault.message))

/-- The number of threads, at least one. -/
def setThreads (s : Settings) (value : String) : Except Error Settings :=
  match Numeral.unsigned? Numeral.max32 value.toList with
  | some 0 => .error (.start .noThreads)
  | some n => .ok { s with threads := n }
  | none => .error (.start (.number value))

/-- The settings that a command line asks for: those of the file, changed by the options. -/
def configure (tree : FileTree) (given : Arguments) : Except Error Settings := do
  let s ←
    match given.value? .config with
    | some file => Settings.load tree file
    | none => .ok Settings.default
  let s ← override given .address setAddress s
  let s ← override given .engine setEngine s
  let s ← override given .pool setPool s
  override given .threads setThreads s

/-- The tree after the log file has been made, if there is one. -/
def openLog (tree : FileTree) (s : Settings) : Except Fault FileTree :=
  match s.logFile with
  | none => .ok tree
  | some file => (tree.openForWriting file).map tree.touch

/-- The tree after the process id has been written, if that is asked for. -/
def writeProcessId (tree : FileTree) (s : Settings) (processId : Nat) : Except Fault FileTree :=
  match s.pidFile with
  | none => .ok tree
  | some file =>
    (tree.openForWriting file).map fun place =>
      tree.overwrite place (Utf8.encode (Numeral.render processId ++ ['\n']))

/-- Refuses a store whose address cannot be used. -/
def checkStore (s : Settings) : Except Error Unit :=
  match s.engine with
  | .memory => .ok ()
  | .redis =>
    match Wire.Address.check s.storeHost s.storePort with
    | .ok () => .ok ()
    | .error failure => .error (.start (.store s.storeHost s.storePort failure))

/-- Refuses files that cannot be read, or that hold no certificate with its private key. -/
def checkEncryption (surroundings : Surroundings) (tree : FileTree) (s : Settings) :
    Except Error Unit :=
  match s.encryption.certificate with
  | none => .ok ()
  | some file =>
    -- Both files are read before either is looked into.
    match tree.read file, tree.read (s.encryption.privateKey.getD file) with
    | .error fault, _ => .error (.io fault)
    | .ok _, .error fault => .error (.io fault)
    | .ok certificate, .ok key =>
      match Credentials.check surroundings.acceptsKey certificate key with
      | .ok () => .ok ()
      | .error fault =>
        .error (.other s!"could not listen on {s.address.render}: {fault.message}")

/-- How a command line ends. -/
inductive Ending
  /-- The program stops with a status, and with what it prints. -/
  | stopped (status : Nat) (output : String) (errors : List String)
  /-- The server listens. -/
  | serving (s : Settings)

/-- The lines about a command line that fails. A refused line of the settings is shown. -/
def errorLines : Error → List String
  | .config line text fault =>
    ["", "*** FATAL CONFIG FILE ERROR ***",
      s!"Reading the configuration file, at line {line}", s!">>> '{text}'", fault.message]
  | e => [e.message]

/-- A command line that fails. -/
def Ending.failed (lines : List String) : Ending := .stopped 1 "" lines

/-- Starts with settings: makes the files, and checks the store and the certificate. -/
def prepare (surroundings : Surroundings) (tree : FileTree) (s : Settings) : Ending × FileTree :=
  match openLog tree s with
  | .error fault => (.failed [s!"could not set up logging: {fault.message}"], tree)
  | .ok tree =>
    match writeProcessId tree s surroundings.processId with
    | .error fault => (.failed [fault.message], tree)
    | .ok tree =>
      match checkStore s, checkEncryption surroundings tree s with
      | .error e, _ => (.failed (errorLines e), tree)
      | .ok (), .error e => (.failed (errorLines e), tree)
      | .ok (), .ok () => (.serving s, tree)

/-- How a command line ends, and the files after it. -/
def run (surroundings : Surroundings) (tree : FileTree) (arguments : List String) :
    Ending × FileTree :=
  match Arguments.parse arguments with
  | .error .help => (.stopped 0 Stop.help.message [], tree)
  | .error .version => (.stopped 0 Stop.version.message [], tree)
  | .error stop => (.failed [stop.message], tree)
  | .ok given =>
    match configure tree given with
    | .error e => (.failed (errorLines e), tree)
    | .ok s => prepare surroundings tree s

end HashGateway.Launch
