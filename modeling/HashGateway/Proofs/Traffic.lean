import HashGateway.Engine
import HashGateway.Gateway

/-!
# Requests at the same time

Any number of requests are on their way, each with what is left of its exchange with one store
in memory. The store serves one command at a time, of any of them, so between two commands of a
request there may be commands of others. A command may also fail before it reaches the store;
then its request goes on with the error.

## Main definitions

* `Traffic` — a store and the requests on their way
* `Traffic.Event`, `Traffic.step`, `Traffic.after` — what can happen next, and a run of events
* `Traffic.command?`, `Traffic.response?` — what a request waits for, and how it was answered

## Main results

* `Traffic.exists_serve_eq_run` — a request that is served without others in between
-/

namespace HashGateway

namespace Exchange

variable {σ α : Type}

/-- The next command of an exchange is answered by an engine: what is left of the exchange, and the
engine. -/
def advance (engine : Engine σ) : Exchange α → σ → Exchange α × σ
  | done a, s => (done a, s)
  | send command next, s => (next (engine s command).1, (engine s command).2)

@[simp] theorem advance_done (engine : Engine σ) (a : α) (s : σ) :
    (done a).advance engine s = (done a, s) := rfl

@[simp] theorem advance_send (engine : Engine σ) (command : Command) (next : Answer → Exchange α)
    (s : σ) : (send command next).advance engine s =
      (next (engine s command).1, (engine s command).2) := rfl

/-- The next command of an exchange, unless it has ended. -/
def command? : Exchange α → Option Command
  | done _ => none
  | send command _ => some command

/-- The result of an exchange that has ended. -/
def result? : Exchange α → Option α
  | done a => some a
  | send _ _ => none

@[simp] theorem command?_done (a : α) : (done a).command? = none := rfl

@[simp] theorem command?_send (command : Command) (next : Answer → Exchange α) :
    (send command next).command? = some command := rfl

@[simp] theorem result?_done (a : α) : (done a).result? = some a := rfl

@[simp] theorem result?_send (command : Command) (next : Answer → Exchange α) :
    (send command next).result? = none := rfl

theorem result?_eq_some_iff {x : Exchange α} {a : α} : x.result? = some a ↔ x = done a := by
  cases x <;> simp

end Exchange

/-- A request on its way: what is left of its exchange with the store. -/
structure Task where
  request : Request
  exchange : Exchange Response

/-- A store and the requests on their way, those that have been answered among them. -/
structure Traffic where
  store : Store
  tasks : List Task

namespace Traffic

/-- Why a command fails before it reaches the store. -/
inductive Fault
  | refused (rejection : Rejection)
  | unavailable (detail : String)

/-- The error of a fault. -/
def Fault.error : Fault → Error
  | refused rejection => .command rejection
  | unavailable detail => .unavailable detail

/-- What can happen next. Requests are known by the order in which they came. -/
inductive Event
  /-- A request comes. -/
  | arrive (request : Request)
  /-- The next command of a request is served. -/
  | serve (task : Nat)
  /-- The next command of a request fails. -/
  | fail (task : Nat) (fault : Fault)

/-- Nothing has been stored, and no request has come. -/
def start : Traffic := ⟨OrderedMap.empty, []⟩

/-- The next command of a request is answered by an engine. A request without commands waits for
nothing. -/
def answer (traffic : Traffic) (task : Nat) (engine : Engine Store) : Traffic :=
  match traffic.tasks[task]? with
  | some ⟨request, .send command next⟩ =>
    let (answer, store) := engine traffic.store command
    ⟨store, traffic.tasks.set task ⟨request, next answer⟩⟩
  | _ => traffic

/-- What an event does. -/
def step (pageSize : Nat) (traffic : Traffic) : Event → Traffic
  | .arrive request =>
    { traffic with tasks := traffic.tasks ++ [⟨request, Gateway.dispatch pageSize request⟩] }
  | .serve task => traffic.answer task Engine.memory
  | .fail task fault => traffic.answer task fun store _ => (.error fault.error, store)

/-- The traffic after a run of events. -/
def after (pageSize : Nat) (events : List Event) : Traffic := events.foldl (step pageSize) start

@[simp] theorem after_nil (pageSize : Nat) : after pageSize [] = start := rfl

theorem after_append (pageSize : Nat) (events later : List Event) :
    after pageSize (events ++ later) = later.foldl (step pageSize) (after pageSize events) :=
  List.foldl_append

/-! ### What requests wait for -/

/-- A request on its way, by the order in which it came. -/
def request? (traffic : Traffic) (task : Nat) : Option Request :=
  traffic.tasks[task]?.map Task.request

/-- The next command of a request, unless it has been answered. -/
def command? (traffic : Traffic) (task : Nat) : Option Command :=
  traffic.tasks[task]?.bind fun t => t.exchange.command?

/-- How a request has been answered. -/
def response? (traffic : Traffic) (task : Nat) : Option Response :=
  traffic.tasks[task]?.bind fun t => t.exchange.result?

section Views

variable {traffic : Traffic} {task : Nat} {request : Request}

theorem exists_of_request? (h : traffic.request? task = some request) :
    ∃ x, traffic.tasks[task]? = some ⟨request, x⟩ := by
  obtain ⟨⟨_, x⟩, found, rfl⟩ := Option.map_eq_some_iff.mp h
  exact ⟨x, found⟩

theorem command?_of_getElem? {x : Exchange Response}
    (found : traffic.tasks[task]? = some ⟨request, x⟩) : traffic.command? task = x.command? := by
  rw [command?, found, Option.bind_some]

theorem response?_of_getElem? {x : Exchange Response}
    (found : traffic.tasks[task]? = some ⟨request, x⟩) : traffic.response? task = x.result? := by
  rw [response?, found, Option.bind_some]

theorem getElem?_of_response? {response : Response} (h : traffic.request? task = some request)
    (answered : traffic.response? task = some response) :
    traffic.tasks[task]? = some ⟨request, .done response⟩ := by
  obtain ⟨x, found⟩ := exists_of_request? h
  rw [response?_of_getElem? found, Exchange.result?_eq_some_iff] at answered
  rw [found, answered]

/-! ### Single events -/

/-- The engine of a fault, at which every command fails. -/
def Fault.engine (fault : Fault) : Engine Store := fun store _ => (.error fault.error, store)

theorem step_serve (pageSize : Nat) (traffic : Traffic) (task : Nat) :
    traffic.step pageSize (.serve task) = traffic.answer task Engine.memory := rfl

theorem answer_of_getElem? {x : Exchange Response}
    (found : traffic.tasks[task]? = some ⟨request, x⟩) (engine : Engine Store) :
    traffic.answer task engine = ⟨(x.advance engine traffic.store).2,
      traffic.tasks.set task ⟨request, (x.advance engine traffic.store).1⟩⟩ := by
  cases x with
  | send command next => simp only [answer, found, Exchange.advance_send]
  | done response =>
    -- Nothing changes, the task is put where it was.
    obtain ⟨inside, found_eq⟩ := List.getElem?_eq_some_iff.mp found
    have kept : traffic.tasks.set task ⟨request, .done response⟩ = traffic.tasks := by
      rw [← found_eq, List.set_getElem_self]
    simp only [answer, found, Exchange.advance_done, kept]

theorem answer_of_getElem?_eq_none (absent : traffic.tasks[task]? = none)
    (engine : Engine Store) : traffic.answer task engine = traffic := by
  simp only [answer, absent]

theorem getElem?_answer_self {x : Exchange Response}
    (found : traffic.tasks[task]? = some ⟨request, x⟩) (engine : Engine Store) :
    (traffic.answer task engine).tasks[task]? =
      some ⟨request, (x.advance engine traffic.store).1⟩ := by
  rw [answer_of_getElem? found]
  exact List.getElem?_set_self (List.getElem?_eq_some_iff.mp found).1

end Views

/-- Served without others in between, a request runs to its end as it does alone. -/
theorem exists_serve_eq_run (pageSize : Nat) (traffic : Traffic) {task : Nat} {request : Request}
    {x : Exchange Response} (found : traffic.tasks[task]? = some ⟨request, x⟩) :
    ∃ n, (List.replicate n (Event.serve task)).foldl (step pageSize) traffic =
      ⟨(x.run Engine.memory traffic.store).2,
        traffic.tasks.set task ⟨request, .done (x.run Engine.memory traffic.store).1⟩⟩ := by
  -- One event for each command, and one more that finds the request answered.
  induction x generalizing traffic with
  | done response =>
    have ended := answer_of_getElem? found Engine.memory
    rw [Exchange.advance_done] at ended
    refine ⟨1, ?_⟩
    rw [List.replicate_one, List.foldl_cons, List.foldl_nil, step_serve, ended, Exchange.run_done]
  | send command next ih =>
    have served : traffic.step pageSize (.serve task) =
        ⟨(traffic.store.execute command).2,
          traffic.tasks.set task ⟨request, next (traffic.store.execute command).1⟩⟩ :=
      answer_of_getElem? found Engine.memory
    obtain ⟨n, rest⟩ := ih (traffic.store.execute command).1
      (traffic.step pageSize (.serve task)) (getElem?_answer_self found Engine.memory)
    refine ⟨n + 1, ?_⟩
    rw [List.replicate_succ, List.foldl_cons, rest, served, List.set_set]
    rfl

end Traffic

end HashGateway
