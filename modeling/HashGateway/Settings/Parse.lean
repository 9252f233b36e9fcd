import HashGateway.Error
import HashGateway.Host.FileTree
import HashGateway.Settings.Basic
import HashGateway.Text.Blank

/-!
# Reading settings

Settings are read from a text line by line. Blank lines and lines that begin with a
number sign are left out; another one is cut into a name and a value at the blanks
outside double quotes. The quotes themselves are left out, so what stands in them may
be empty or hold blanks. What a line means does not depend on the other lines.

## Main definitions

* `Directive.parse` — the change that a name and a value ask for
* `Settings.arguments?` — the arguments of a line, unless a quote is left open
* `Settings.readLine` — the change that a line asks for, if any
* `Settings.parse` — the settings that a text describes
* `Settings.load` — the settings that a file describes
-/

namespace HashGateway

namespace Directive

open HashGateway.Settings (Fault)

/-- A text that is not empty. -/
def given (value : String) : Option String := if value.isEmpty then none else some value

/-- A number up to a bound. -/
def number (bound : Nat) (value : String) : Except Fault Nat :=
  match Numeral.unsigned? bound value.toList with
  | some n => .ok n
  | none => .error (.number value)

/-- A port. -/
def portOf (value : String) : Except Fault Nat :=
  match Numeral.unsigned? Numeral.maxPort value.toList with
  | some n => .ok n
  | none => .error .port

/-- A number of fields, at least one. -/
def pageSizeOf (value : String) : Except Fault Nat :=
  match Numeral.unsigned? Numeral.max64 value.toList with
  | some (n + 1) => .ok (n + 1)
  | _ => .error .pageSize

/-- A number of threads, at least one. -/
def threadsOf (value : String) : Except Fault Nat := do
  match ← number Numeral.max32 value with
  | 0 => throw .noThreads
  | n => return n

/-- Yes or no, in any case of letters. -/
def yesNo (value : String) : Except Fault Bool :=
  let lower := value.map Char.toLower
  if lower = "yes" then .ok true
  else if lower = "no" then .ok false
  else .error .yesNo

/-- A log file, which has to be one that could be opened. -/
def logFileOf (tree : Host.FileTree) (value : String) : Except Fault (Option String) :=
  match given value with
  | none => .ok none
  | some file =>
    match tree.checkAppend file with
    | .ok () => .ok (some file)
    | .error fault => .error (.logFile fault)

/-- The change that a name in lower case and a value ask for. -/
def parse (tree : Host.FileTree) (name value : String) : Except Fault Directive :=
  match name with
  | "redis-ip" => .ok (.storeHost value)
  | "redis-port" => (portOf value).map .storePort
  | "redis-page" => (pageSizeOf value).map .pageSize
  | "port" => (portOf value).map .port
  | "request_timeout_ms" => (number Numeral.max64 value).map .timeout
  | "daemonize" => (yesNo value).map .daemonize
  | "pidfile" => .ok (.pidFile (given value))
  | "logfile" => (logFileOf tree value).map .logFile
  | "auth_domain" => .ok (.domain (given value))
  | "auth_domain_check" => .ok (.domainCheck (given value))
  | "ssl_certificate" => .ok (.certificate (given value))
  | "ssl_private_key" => .ok (.privateKey (given value))
  | "ssl_ca_file" => .ok (.authorities (given value))
  | "ssl_protocol_version" => .ok (.protocolVersion (given value))
  | "ssl_cipher_list" => .ok (.ciphers (given value))
  | "num_threads" => (threadsOf value).map .threads
  | "prespawn_threads" => (number Numeral.max32 value).map .startedThreads
  | "listen_backlog" => (number Numeral.max32 value).map .backlog
  | "connection_queue" => (number Numeral.max32 value).map .queue
  | "worker-pool" => (PoolKind.parse value).map .pool
  | "engine" => (EngineKind.parse value).map .engine
  | _ => .error .badDirective

end Directive

namespace Settings

open HashGateway.Text (isBlank)

/-- The arguments from here to the end of a line. `quoted` says whether this is inside quotes,
and `current` is what has been read of an argument. -/
def argumentsFrom (quoted : Bool) (current : Option (List Char)) :
    List Char → Option (List (List Char))
  | [] => if quoted then none else some current.toList
  | c :: cs =>
    if c = '"' then argumentsFrom (!quoted) (some (current.getD [])) cs
    else if isBlank c && !quoted then
      match current with
      | some argument => (argumentsFrom false none cs).map (argument :: ·)
      | none => argumentsFrom false none cs
    else argumentsFrom quoted (some (current.getD [] ++ [c])) cs

/-- The arguments of a line, unless a quote is left open. -/
def arguments? (line : List Char) : Option (List (List Char)) := argumentsFrom false none line

/-- The change that a line without blanks at its ends asks for. -/
def readLine (tree : Host.FileTree) (line : List Char) : Except Fault (Option Directive) :=
  if line.isEmpty || line.head? = some '#' then .ok none
  else
    match arguments? line with
    | none => .error .openQuote
    | some [] => .ok none
    | some [name, value] =>
      (Directive.parse tree ((String.ofList name).map Char.toLower) (String.ofList value)).map some
    | some _ => .error .badDirective

/-- The lines of a text, without the blanks at their ends. -/
def lines (text : List Char) : List (List Char) := (text.splitOn '\n').map Text.trim

/-- Changes settings line by line; `number` is the number of the first line. -/
def apply (tree : Host.FileTree) :
    (number : Nat) → Settings → List (List Char) → Except Error Settings
  | _, s, [] => .ok s
  | number, s, line :: rest =>
    match readLine tree line with
    | .ok none => apply tree (number + 1) s rest
    | .ok (some directive) => apply tree (number + 1) (s.set directive) rest
    | .error fault => .error (.config number (String.ofList line) fault)

/-- The settings that a text describes. -/
def parse (tree : Host.FileTree) (text : List Char) : Except Error Settings :=
  apply tree 1 default (lines text)

/-- The settings that a file describes. -/
def load (tree : Host.FileTree) (file : String) : Except Error Settings :=
  match tree.readText file with
  | .ok text => parse tree text
  | .error fault => .error (.io fault)

end Settings

end HashGateway
