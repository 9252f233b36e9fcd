import HashGateway.Settings.Fault

/-!
# Kinds of stores and of worker pools

## Main definitions

* `EngineKind`, `PoolKind` — the kinds
* `EngineKind.parse`, `PoolKind.parse` — the kind with a name, in any case of letters
-/

namespace HashGateway

/-- The store that commands are sent to. -/
inductive EngineKind
  /-- A server that is reached over the network. -/
  | redis
  /-- A store in memory, which is lost at the end. -/
  | memory
  deriving DecidableEq, Repr

/-- The workers that requests are handed to. -/
inductive PoolKind
  /-- A new thread for every request. -/
  | naive
  /-- Threads that take requests from one queue. -/
  | shared
  /-- Threads that take requests from each other. -/
  | stealing
  deriving DecidableEq, Repr

namespace EngineKind

/-- The name of a kind. -/
def name : EngineKind → String
  | .redis => "redis"
  | .memory => "memory"

/-- All kinds. -/
def all : List EngineKind := [.redis, .memory]

/-- The kind with a name, in any case of letters. -/
def parse (text : String) : Except Settings.Fault EngineKind :=
  let lower := text.map Char.toLower
  match all.find? fun kind => kind.name = lower with
  | some kind => .ok kind
  | none => .error (.engine lower)

end EngineKind

namespace PoolKind

/-- The name of a kind. -/
def name : PoolKind → String
  | .naive => "naive"
  | .shared => "shared"
  | .stealing => "rayon"

/-- All kinds. -/
def all : List PoolKind := [.naive, .shared, .stealing]

/-- The kind with a name, in any case of letters. -/
def parse (text : String) : Except Settings.Fault PoolKind :=
  let lower := text.map Char.toLower
  match all.find? fun kind => kind.name = lower with
  | some kind => .ok kind
  | none => .error (.pool lower)

end PoolKind

end HashGateway
