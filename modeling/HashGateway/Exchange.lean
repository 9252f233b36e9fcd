import HashGateway.Command.Operation
import HashGateway.Error

/-!
# Exchanges with a store

What a request does is a sequence of commands, each chosen in the light of the replies
before it. Such an exchange can be run against any store, alone or one command at a
time among the commands of others.

## Main definitions

* `Exchange` — commands and what is done with their replies
* `Engine` — anything that answers commands and may change by it
* `Exchange.run` — an exchange with an engine
* `Exchange.perform` — the exchange of one operation
-/

namespace HashGateway

/-- What an engine answers to a command. -/
abbrev Answer := Except Error Reply

/-- Commands, each sent in the light of the answers before it, and a result. -/
inductive Exchange (α : Type)
  | done (result : α)
  | send (command : Command) (next : Answer → Exchange α)

/-- Anything that answers commands and may change by it. -/
abbrev Engine (σ : Type) := σ → Command → Answer × σ

namespace Exchange

/-- Runs an exchange with an engine. -/
def run {σ α : Type} (engine : Engine σ) : Exchange α → σ → α × σ
  | done a, s => (a, s)
  | send command next, s =>
    let (answer, s) := engine s command
    run engine (next answer) s

/-- One exchange after another. -/
def bind {α β : Type} : Exchange α → (α → Exchange β) → Exchange β
  | done a, f => f a
  | send command next, f => send command fun answer => bind (next answer) f

/-- An error without any command. -/
def fail {α : Type} (e : Error) : Exchange (Except Error α) := done (.error e)

/-- One exchange after another, unless the first ends with an error. -/
def andThen {α β : Type} (x : Exchange (Except Error α)) (f : α → Exchange (Except Error β)) :
    Exchange (Except Error β) :=
  x.bind fun
    | .ok a => f a
    | .error e => fail e

/-- The meaning of an answer: a rejection is a failure, any other error stays one. -/
def meaning (operation : Operation) : Answer → Except Error Outcome
  | .ok reply => .ok (operation.decode reply)
  | .error (.command _) => .ok .failure
  | .error e => .error e

/-- The exchange of one operation. Arguments that do not fit its template send nothing. -/
def perform (operation : Operation) (arguments : List Argument) :
    Exchange (Except Error Outcome) :=
  match Template.format operation.template arguments with
  | .ok command => send command fun answer => done (meaning operation answer)
  | .error fault => fail (.format fault)

@[simp] theorem run_done {σ α : Type} (engine : Engine σ) (a : α) (s : σ) :
    (done a).run engine s = (a, s) := rfl

theorem run_bind {σ α β : Type} (engine : Engine σ) (x : Exchange α) (f : α → Exchange β)
    (s : σ) : (x.bind f).run engine s = (f (x.run engine s).1).run engine (x.run engine s).2 := by
  induction x generalizing s with
  | done a => rfl
  | send command next ih => exact ih _ _

end Exchange

end HashGateway
