import HashGateway.Host.Fault

/-!
# What can be wrong with a directive

## Main definitions

* `Settings.Fault`, `Settings.Fault.message` — why a directive is refused, and its wording
-/

namespace HashGateway.Settings

/-- Why a directive is refused. -/
inductive Fault
  /-- A double quote is left open. -/
  | openQuote
  /-- The name is unknown, or there is not exactly one value. -/
  | badDirective
  | port
  | pageSize
  | number (value : String)
  | yesNo
  | noThreads
  | logFile (fault : Host.Fault)
  | engine (name : String)
  | pool (name : String)
  | other (text : String)
  deriving DecidableEq, Repr

/-- The wording of a refusal. -/
def Fault.message : Fault → String
  | .openQuote => "Unbalanced quotes in configuration line"
  | .badDirective => "Bad directive or wrong number of arguments"
  | .port => "Invalid port"
  | .pageSize => "page size must be a positive integer"
  | .number value => s!"'{value}' is not a valid number"
  | .yesNo => "argument must be 'yes' or 'no'"
  | .noThreads => "num_threads must be at least 1"
  | .logFile fault => s!"Can't open the log file: {fault.message}"
  | .engine name => s!"unknown engine '{name}', expected 'redis' or 'memory'"
  | .pool name => s!"unknown worker pool '{name}', expected 'naive', 'shared' or 'rayon'"
  | .other text => text

end HashGateway.Settings
