import HashGateway.Exchange
import HashGateway.Store.Command

/-!
# Engines

## Main definitions

* `Engine.memory` — a store of hashes that is kept in memory
* `Engine.scripted` — answers that are given in advance
* `Engine.faulty` — an engine some of whose commands fail before they reach it
* `Engine.logged` — an engine whose commands are written down
-/

namespace HashGateway

namespace Engine

variable {σ : Type}

/-- A store of hashes that is kept in memory. -/
def memory : Engine Store := Store.execute

/-- Answers that are given in advance, one for each command. -/
def scripted : Engine (List Answer)
  | [], _ => (.error (.unavailable "script exhausted"), [])
  | answer :: rest, _ => (answer, rest)

end Engine

/-- Which commands fail, and how: those with a given name whose key starts in a given way. -/
structure Breakage where
  command : String
  keyStart : String
  error : Error

/-- Whether a command fails. -/
def Breakage.hits (breakage : Breakage) : Command → Bool
  | name :: key :: _ => name == breakage.command && breakage.keyStart.toList.isPrefixOf key.toList
  | _ => false

namespace Engine

variable {σ : Type}

/-- An engine some of whose commands fail before they reach it, the first breakage that hits
deciding how. -/
def faulty (breakages : List Breakage) (engine : Engine σ) : Engine σ := fun s command =>
  match breakages.find? fun breakage => breakage.hits command with
  | some breakage => (.error breakage.error, s)
  | none => engine s command

/-- An engine whose commands are written down, the last first. -/
def logged (engine : Engine σ) : Engine (σ × List Command) := fun (s, log) command =>
  let (answer, s) := engine s command
  (answer, s, command :: log)

end Engine

end HashGateway
