import HashGateway.Host.SocketAddress
import HashGateway.Settings.Kind

/-!
# Settings of the server

## Main definitions

* `Settings`, `Settings.default` — the settings, and what they are unless a line changes them
* `Directive` — a change of one setting
* `Settings.set` — the settings after a change
-/

namespace HashGateway

/-- What is needed to serve over encrypted connections. -/
structure Encryption where
  /-- The file of the certificate; without one connections are not encrypted. -/
  certificate : Option String
  /-- The file of the key; without one the key stands in the file of the certificate. -/
  privateKey : Option String
  authorities : Option String
  protocolVersion : Option String
  ciphers : Option String
  deriving DecidableEq, Repr

/-- Everything that the server needs to start. -/
structure Settings where
  storeHost : String
  storePort : Nat
  /-- How many fields a scan visits for a page. -/
  pageSize : Nat
  /-- Where the server listens. -/
  address : Host.SocketAddress
  /-- How long a request may take, in milliseconds. -/
  timeout : Nat
  daemonize : Bool
  pidFile : Option String
  logFile : Option String
  encryption : Encryption
  domain : Option String
  domainCheck : Option String
  threads : Nat
  startedThreads : Option Nat
  backlog : Option Nat
  queue : Option Nat
  pool : PoolKind
  engine : EngineKind
  deriving DecidableEq, Repr

/-- A change of one setting. -/
inductive Directive
  | storeHost (s : String)
  | storePort (n : Nat)
  | pageSize (n : Nat)
  | port (n : Nat)
  | timeout (n : Nat)
  | daemonize (b : Bool)
  | pidFile (s : Option String)
  | logFile (s : Option String)
  | certificate (s : Option String)
  | privateKey (s : Option String)
  | authorities (s : Option String)
  | protocolVersion (s : Option String)
  | ciphers (s : Option String)
  | domain (s : Option String)
  | domainCheck (s : Option String)
  | threads (n : Nat)
  | startedThreads (n : Nat)
  | backlog (n : Nat)
  | queue (n : Nat)
  | pool (kind : PoolKind)
  | engine (kind : EngineKind)
  deriving DecidableEq, Repr

namespace Settings

/-- The settings unless a line changes them. -/
def default : Settings where
  storeHost := "127.0.0.1"
  storePort := 6379
  pageSize := 20
  address := .v4 [0, 0, 0, 0] 8099
  timeout := 10000
  daemonize := false
  pidFile := none
  logFile := none
  encryption := ⟨none, none, none, none, none⟩
  domain := none
  domainCheck := none
  threads := 50
  startedThreads := none
  backlog := none
  queue := none
  pool := .shared
  engine := .redis

/-- The settings after a change. -/
def set (s : Settings) : Directive → Settings
  | .storeHost host => { s with storeHost := host }
  | .storePort port => { s with storePort := port }
  | .pageSize n => { s with pageSize := n }
  | .port port => { s with address := s.address.withPort port }
  | .timeout n => { s with timeout := n }
  | .daemonize b => { s with daemonize := b }
  | .pidFile file => { s with pidFile := file }
  | .logFile file => { s with logFile := file }
  | .certificate file => { s with encryption := { s.encryption with certificate := file } }
  | .privateKey file => { s with encryption := { s.encryption with privateKey := file } }
  | .authorities file => { s with encryption := { s.encryption with authorities := file } }
  | .protocolVersion v => { s with encryption := { s.encryption with protocolVersion := v } }
  | .ciphers list => { s with encryption := { s.encryption with ciphers := list } }
  | .domain domain => { s with domain := domain }
  | .domainCheck domain => { s with domainCheck := domain }
  | .threads n => { s with threads := n }
  | .startedThreads n => { s with startedThreads := some n }
  | .backlog n => { s with backlog := some n }
  | .queue n => { s with queue := some n }
  | .pool kind => { s with pool := kind }
  | .engine kind => { s with engine := kind }

end Settings

end HashGateway
