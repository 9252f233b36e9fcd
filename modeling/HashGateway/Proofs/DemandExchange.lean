import HashGateway.Proofs.Demand

/-!
# The exchanges of demands

What an accepted request exchanges with a store is decided by its demand alone, and the response
is made of the result. Over a store in memory it is the outcome of the demand, and the store has
its effect. Whatever store it is, the exchange begins with a command and goes on only as long as
commands are answered with replies: the first command that is refused makes the outcome a
failure, and the first one that does not reach its store ends the exchange with that error.

## Main definitions

* `FileRecord.storeCommand` and its like — the commands that demands send
* `Demand.exchange` — what a demand exchanges with a store
* `Exchange.respond` — an exchange and the response that its result makes
* `Exchange.Orderly` — an exchange that ends with the first command without a reply

## Main results

* `Gateway.dispatch_of_demand?` — an accepted request exchanges what its demand does
* `Gateway.run_dispatch` — over a store in memory the response to a request and its effect are
  those of its demand
* `Demand.orderly_exchange` — the exchange of every demand is orderly
-/

namespace HashGateway

namespace Exchange

/-- An exchange and the response that its result makes. -/
def respond (x : Exchange (Except Error Outcome)) : Exchange Response :=
  x.bind fun result => .done (.ofResult result)

@[simp] theorem respond_done (result : Except Error Outcome) :
    (done result).respond = done (.ofResult result) := rfl

@[simp] theorem respond_send (command : Command)
    (next : Answer → Exchange (Except Error Outcome)) :
    (send command next).respond = send command fun answer => (next answer).respond := rfl

@[simp] theorem andThen_ok {α β : Type} (a : α) (f : α → Exchange (Except Error β)) :
    (done (.ok a)).andThen f = f a := rfl

@[simp] theorem andThen_error {α β : Type} (e : Error) (f : α → Exchange (Except Error β)) :
    (done (.error e)).andThen f = done (.error e) := rfl

@[simp] theorem andThen_send {α β : Type} (command : Command)
    (next : Answer → Exchange (Except Error α)) (f : α → Exchange (Except Error β)) :
    (send command next).andThen f = send command fun answer => (next answer).andThen f := rfl

@[simp] theorem run_respond {σ : Type} (engine : Engine σ)
    (x : Exchange (Except Error Outcome)) (s : σ) :
    x.respond.run engine s = (.ofResult (x.run engine s).1, (x.run engine s).2) := by
  rw [respond, run_bind, run_done]

/-- The exchange of an operation whose arguments fit its template. -/
theorem perform_of_format {operation : Operation} {arguments : List Argument} {command : Command}
    (formatted : Template.format operation.template arguments = .ok command) :
    perform operation arguments = send command fun answer => done (meaning operation answer) := by
  simp only [perform, formatted]

end Exchange

/-! ## Commands

The commands of the demands that write. Those that ask for a registration or write it are the
same for every registration of a machine and a user, forced or not. -/

section Commands

open Exchange

/-- Writes a file under its own key. -/
def FileRecord.storeCommand (f : FileRecord) : Command :=
  ["HMSET", "filekey:" ++ f.uuid, f.uuid, f.data]

/-- Writes a file into the index of its machine. -/
def FileRecord.indexCommand (f : FileRecord) : Command :=
  ["HMSET", "machine:" ++ f.machine, f.uuid, f.data]

/-- Asks for the registration of a machine. -/
def lookUpCommand (machine : String) : Command := ["HGETALL", "userkey:" ++ machine]

/-- Writes a registration. -/
def Registration.writeCommand (r : Registration) : Command :=
  ["HMSET", "userkey:" ++ r.machine, "machine", r.machine, "username", r.username]

/-- Writes a trace entry. -/
def TraceRecord.addCommand (t : TraceRecord) : Command :=
  ["HSET", "filekey:" ++ t.uuid, t.field, t.data]

theorem perform_getUser (machine : String) : perform .getUser [.text machine] =
    send (lookUpCommand machine) fun answer => done (meaning .getUser answer) :=
  perform_of_format (Operation.format_getUser machine)

theorem perform_addTrace (t : TraceRecord) :
    perform .addTrace [.text t.uuid, .text t.field, .text t.data] =
      send t.addCommand fun answer => done (meaning .addTrace answer) :=
  perform_of_format (Operation.format_addTrace t.uuid t.field t.data)

theorem FileRecord.perform_indexFile (f : FileRecord) :
    perform .indexFile [.text f.machine, .text f.uuid, .text f.data] =
      send f.indexCommand fun answer => done (meaning .indexFile answer) :=
  perform_of_format (Operation.format_indexFile f.machine f.uuid f.data)

/-- A file is indexed if the write under its own key is acknowledged. -/
theorem FileRecord.exchange_eq (f : FileRecord) : f.exchange =
    send f.storeCommand fun stored => (done (meaning .setFile stored)).andThen fun outcome =>
      if outcome = .acknowledged then
        send f.indexCommand fun indexed => done (meaning .indexFile indexed)
      else done (.ok outcome) := by
  rw [exchange, perform_indexFile, perform_of_format (Operation.format_setFile _ _ _)]
  rfl

theorem Registration.write_eq (r : Registration) : r.write =
    send r.writeCommand fun written => (done (meaning .registerUser written)).andThen fun
      | .success _ => done (.ok (.success r.echo))
      | outcome => done (.ok outcome) := by
  rw [write, perform_of_format (Operation.format_registerUser _ _ _)]
  rfl

theorem Registration.exchange_of_force {r : Registration} (forced : r.force = true) :
    r.exchange = r.write := by
  rw [exchange, if_pos forced]

/-- A registration that is not forced is written if there is none. -/
theorem Registration.exchange_of_not_force {r : Registration} (unforced : r.force = false) :
    r.exchange = send (lookUpCommand r.machine) fun found =>
      (done (meaning .getUser found)).andThen fun
        | .notFound => r.write
        | outcome => done (.ok outcome) := by
  rw [exchange, if_neg (by simp [unforced]), perform_getUser]
  rfl

end Commands

/-! ## Demands -/

namespace Demand

/-- What a demand exchanges with a store. Pages are asked for `pageSize` fields each. -/
def exchange (pageSize : Nat) : Demand → Exchange (Except Error Outcome)
  | register r => r.exchange
  | lookUp machine => .perform .getUser [.text machine]
  | storeFile f => f.exchange
  | fetchFile uuid => .perform .getFile [.text uuid, .text uuid]
  | addTrace t => .perform .addTrace [.text t.uuid, .text t.field, .text t.data]
  | page (.files machine) cursor =>
    .perform .listFiles [.text machine, .number cursor, .number pageSize]
  | page (.traces uuid) cursor =>
    .perform .listTraces [.text uuid, .number cursor, .number pageSize]

end Demand

/-- An endpoint exchanges what the demand of a body does, if the body holds one. -/
theorem Endpoint.handle_eq (endpoint : Endpoint) (pageSize : Nat) (stamp : Int) (body : Bytes) :
    endpoint.handle pageSize stamp body =
      match endpoint.demand stamp body with
      | .ok demand => demand.exchange pageSize
      | .error e => .fail e := by
  cases endpoint with
  | registerUser =>
    simp only [handle, demand]
    cases Registration.parse body <;> rfl
  | getUser =>
    simp only [handle, demand]
    cases MachineQuery.parse body <;> rfl
  | setFile =>
    simp only [handle, demand]
    cases FileRecord.parse body <;> rfl
  | getFile =>
    simp only [handle, demand]
    cases FileQuery.parse body <;> rfl
  | listFiles =>
    simp only [handle, demand]
    cases FilePage.parse body <;> rfl
  | addTrace =>
    simp only [handle, demand]
    cases TraceRecord.parse stamp body <;> rfl
  | listTraces =>
    simp only [handle, demand]
    cases TracePage.parse body <;> rfl

namespace Gateway

variable {request : Request}

/-- A request that leads to an endpoint does what the endpoint does. -/
theorem dispatch_of_endpoint? {endpoint : Endpoint} (leads : request.endpoint? = some endpoint)
    (pageSize : Nat) : dispatch pageSize request =
      (endpoint.handle pageSize request.stamp request.body).respond := by
  unfold Request.endpoint? at leads
  split at leads
  · simp at leads
  · next fits =>
    have small : (decide (maxPath < (Utf8.bytes request.path).length) ||
        decide (maxBody < request.body.length)) = false := by simpa using fits
    rw [dispatch, small, if_neg Bool.false_ne_true, leads]
    rfl

theorem dispatch_of_endpoint?_eq_none (h : request.endpoint? = none) (pageSize : Nat) :
    dispatch pageSize request = .done (.fail 404) := by
  unfold Request.endpoint? at h
  unfold dispatch
  split at h
  · next large => rw [if_pos (by simpa using large)]
  · next fits => rw [if_neg (by simpa using fits), h]

/-- An accepted request exchanges what its demand does. -/
theorem dispatch_of_demand? {demand : Demand} (accepted : request.demand? = some demand)
    (pageSize : Nat) : dispatch pageSize request = (demand.exchange pageSize).respond := by
  obtain ⟨endpoint, leads, held⟩ := Option.bind_eq_some_iff.mp accepted
  rw [dispatch_of_endpoint? leads, Endpoint.handle_eq, Except.toOption_eq_some.mp held]

/-- A request that is not accepted sends nothing. -/
theorem dispatch_of_demand?_eq_none (refused : request.demand? = none) (pageSize : Nat) :
    dispatch pageSize request = .done (.fail 404) := by
  cases leads : request.endpoint? with
  | none => exact dispatch_of_endpoint?_eq_none leads pageSize
  | some endpoint =>
    rw [dispatch_of_endpoint? leads, Endpoint.handle_eq]
    cases held : endpoint.demand request.stamp request.body with
    | ok demand => simp [Request.demand?, leads, held, Except.toOption] at refused
    | error e =>
      have rejected := Rejects.demand endpoint request.stamp request.body e held
      exact congrArg Exchange.done (Response.ofResult_of_isRejection rejected)

end Gateway

/-! ## Over a store in memory

Here a demand is answered and carried out in one step, unless commands of others come in between. -/

section Memory

variable (store : Store)

private theorem run_write (r : Registration) :
    r.write.run Engine.memory store = (.ok (.success r.echo),
      store.write (.user r.machine) [("machine", r.machine), ("username", r.username)]) := by
  rw [Registration.write,
    Exchange.run_andThen (Exchange.run_perform (Operation.means_registerUser _ _ _) store)]
  rfl

private theorem run_getUser (machine : String) :
    (Exchange.perform .getUser [.text machine]).run Engine.memory store =
      (.ok (store.hashOf (.user machine)).record, store) := by
  rw [Exchange.run_perform (Operation.means_getUser machine)]
  exact Prod.ext (congrArg Except.ok (Hash.ofRecord_listing _)) rfl

/-- An unforced registration is written exactly when the look-up before it finds nothing. -/
theorem Registration.run_exchange (pageSize : Nat) (r : Registration) :
    r.exchange.run Engine.memory store =
      (.ok ((Demand.register r).outcome pageSize store), (Demand.register r).effect store) := by
  by_cases force : r.force = true
  · simp only [exchange, force, if_true, run_write, Demand.outcome, Demand.effect, true_or]
  · rw [exchange, if_neg force, Exchange.run_andThen (run_getUser store r.machine)]
    by_cases empty : (store.hashOf (.user r.machine)).entries = []
    · simp only [Hash.record, empty, if_true, run_write, Demand.outcome, Demand.effect, or_true]
    · simp only [Hash.record, empty, if_false, Demand.outcome, Demand.effect, force, or_self,
        Bool.false_eq_true, Exchange.run_done]

theorem FileRecord.run_exchange (pageSize : Nat) (f : FileRecord) :
    f.exchange.run Engine.memory store =
      (.ok ((Demand.storeFile f).outcome pageSize store), (Demand.storeFile f).effect store) := by
  rw [exchange, Exchange.run_andThen (Exchange.run_perform (Operation.means_setFile _ _ _) store)]
  have acknowledged : Operation.setFile.decode
      (store.apply (.set (HashKey.file f.uuid).text [(f.uuid, f.data)] false)).1 =
        Outcome.acknowledged := rfl
  rw [if_pos acknowledged, Exchange.run_perform (Operation.means_indexFile _ _ _)]
  rfl

theorem TraceRecord.run_addTrace (pageSize : Nat) (t : TraceRecord) :
    (Exchange.perform .addTrace [.text t.uuid, .text t.field, .text t.data]).run
        Engine.memory store =
      (.ok ((Demand.addTrace t).outcome pageSize store), (Demand.addTrace t).effect store) := by
  rw [Exchange.run_perform (Operation.means_addTrace _ _ _), Store.apply_set]
  refine Prod.ext (congrArg Except.ok ?_) rfl
  simp only [Demand.outcome, Operation.decode, if_true, Hash.added, Nat.add_zero]
  split <;> rfl

theorem run_fetchFile (pageSize : Nat) (uuid : String) :
    (Exchange.perform .getFile [.text uuid, .text uuid]).run Engine.memory store =
      (.ok ((Demand.fetchFile uuid).outcome pageSize store), store) := by
  rw [Exchange.run_perform (Operation.means_getFile _ _)]
  refine Prod.ext (congrArg Except.ok ?_) rfl
  simp only [Demand.outcome, Operation.decode, Store.apply, Store.field?, Store.hashOf]
  cases OrderedMap.find? (store.hash (HashKey.file uuid).text) uuid with
  | none => rfl
  | some data =>
    have text := Reply.text?_bulk data
    rw [Reply.bulk] at text
    simp only [Reply.bulk, Outcome.ofField, text]

private theorem run_listFiles (pageSize : Nat) (machine : String) (cursor : Nat) :
    (Exchange.perform .listFiles [.text machine, .number cursor, .number pageSize]).run
        Engine.memory store =
      (.ok ((Demand.page (.files machine) cursor).outcome pageSize store), store) := by
  by_cases askable : Operation.Askable cursor pageSize
  · rw [Exchange.run_perform (Operation.means_listFiles machine askable), Demand.outcome,
      if_pos askable]
    exact Prod.ext (congrArg Except.ok (Scan.ofScan_reply _ _ _)) rfl
  · rw [Exchange.run_perform_of_isRefused (Operation.isRefused_listFiles machine askable),
      Demand.outcome, if_neg askable]

private theorem run_listTraces (pageSize : Nat) (uuid : String) (cursor : Nat) :
    (Exchange.perform .listTraces [.text uuid, .number cursor, .number pageSize]).run
        Engine.memory store =
      (.ok ((Demand.page (.traces uuid) cursor).outcome pageSize store), store) := by
  by_cases askable : Operation.Askable cursor pageSize
  · rw [Exchange.run_perform (Operation.means_listTraces uuid askable), Demand.outcome,
      if_pos askable]
    exact Prod.ext (congrArg Except.ok (Scan.ofScan_reply _ _ _)) rfl
  · rw [Exchange.run_perform_of_isRefused (Operation.isRefused_listTraces uuid askable),
      Demand.outcome, if_neg askable]

/-- A demand has its outcome and its effect. -/
theorem Demand.run_exchange (pageSize : Nat) (demand : Demand) :
    (demand.exchange pageSize).run Engine.memory store =
      (.ok (demand.outcome pageSize store), demand.effect store) := by
  cases demand with
  | register r => exact r.run_exchange store pageSize
  | lookUp machine => exact run_getUser store machine
  | storeFile f => exact f.run_exchange store pageSize
  | fetchFile uuid => exact run_fetchFile store pageSize uuid
  | addTrace t => exact t.run_addTrace store pageSize
  | page listing cursor =>
    cases listing with
    | files machine => exact run_listFiles store pageSize machine cursor
    | traces uuid => exact run_listTraces store pageSize uuid cursor

/-- An endpoint answers and carries out the demand of a body, if the body holds one. -/
theorem Endpoint.run_handle (endpoint : Endpoint) (pageSize : Nat) (stamp : Int) (body : Bytes) :
    (endpoint.handle pageSize stamp body).run Engine.memory store =
      match endpoint.demand stamp body with
      | .ok demand => (.ok (demand.outcome pageSize store), demand.effect store)
      | .error e => (.error e, store) := by
  rw [handle_eq]
  cases endpoint.demand stamp body with
  | ok demand => exact demand.run_exchange store pageSize
  | error e => rfl

end Memory

/-- A request that is accepted is answered with status 200 and the body of its demand's outcome,
and has the demand's effect; any other request is answered with status 404 and does nothing. -/
theorem Gateway.run_dispatch (pageSize : Nat) (request : Request) (store : Store) :
    (dispatch pageSize request).run Engine.memory store =
      (request.response pageSize store, request.effect store) := by
  cases accepted : request.demand? with
  | none =>
    rw [dispatch_of_demand?_eq_none accepted, Request.effect_of_demand?_eq_none accepted,
      Request.response, accepted]
    rfl
  | some demand =>
    rw [dispatch_of_demand? accepted, Exchange.run_respond, demand.run_exchange,
      Request.response_of_demand? accepted, Request.effect_of_demand? accepted]
    rfl

/-! ## Commands without a reply -/

/-- How an exchange ends with an error of its engine: a refused command is a failure, any other
error stays one. -/
def Error.ending : Error → Except Error Outcome
  | .command _ => .ok .failure
  | e => .error e

theorem Exchange.meaning_error (operation : Operation) (e : Error) :
    meaning operation (.error e) = e.ending := by
  cases e <;> rfl

namespace Exchange

/-- An exchange that ends with an outcome, or with the first command without a reply. -/
inductive Orderly : Exchange (Except Error Outcome) → Prop
  | done (outcome : Outcome) : Orderly (done (.ok outcome))
  | send {command : Command} {next : Answer → Exchange (Except Error Outcome)}
      (failed : ∀ e, next (.error e) = .done e.ending)
      (replied : ∀ reply, Orderly (next (.ok reply))) : Orderly (send command next)

namespace Orderly

/-- An operation whose arguments fit its template is orderly. -/
theorem perform {operation : Operation} {arguments : List Argument} {command : Command}
    (formatted : Template.format operation.template arguments = .ok command) :
    Orderly (.perform operation arguments) := by
  rw [perform_of_format formatted]
  exact .send (fun e => by rw [meaning_error]) fun reply => .done _

/-- One orderly exchange after another, if the second passes on a failure of the first. -/
theorem andThen {x : Exchange (Except Error Outcome)}
    {f : Outcome → Exchange (Except Error Outcome)} (h : Orderly x)
    (passed : f .failure = .done (.ok .failure)) (h' : ∀ outcome, Orderly (f outcome)) :
    Orderly (x.andThen f) := by
  induction h with
  | done outcome => exact h' outcome
  | send failed replied ih =>
    rw [andThen_send]
    refine .send (fun e => ?_) ih
    rw [failed]
    cases e with
    | command rejection => exact passed
    | _ => rfl

end Orderly

end Exchange

open Exchange

theorem Registration.orderly_write (r : Registration) : r.write.Orderly := by
  refine (Orderly.perform (Operation.format_registerUser _ _ _)).andThen rfl fun outcome => ?_
  cases outcome <;> exact .done _

theorem Registration.orderly_exchange (r : Registration) : r.exchange.Orderly := by
  unfold exchange
  split
  · exact r.orderly_write
  · refine (Orderly.perform (Operation.format_getUser _)).andThen rfl fun outcome => ?_
    cases outcome with
    | notFound => exact r.orderly_write
    | _ => exact .done _

theorem FileRecord.orderly_exchange (f : FileRecord) : f.exchange.Orderly := by
  have failed : Outcome.failure ≠ .acknowledged := by simp [Outcome.acknowledged]
  refine (Orderly.perform (Operation.format_setFile _ _ _)).andThen (if_neg failed)
    fun outcome => ?_
  split
  · exact .perform (Operation.format_indexFile _ _ _)
  · exact .done _

namespace Demand

/-- The exchange of every demand is orderly; the arguments of its operations fit their
templates. -/
theorem orderly_exchange (pageSize : Nat) (demand : Demand) :
    (demand.exchange pageSize).Orderly := by
  cases demand with
  | register r => exact r.orderly_exchange
  | lookUp machine => exact .perform (Operation.format_getUser machine)
  | storeFile f => exact f.orderly_exchange
  | fetchFile uuid => exact .perform (Operation.format_getFile uuid uuid)
  | addTrace t => exact .perform (Operation.format_addTrace t.uuid t.field t.data)
  | page listing cursor =>
    cases listing with
    | files machine => exact .perform (Operation.format_listFiles machine)
    | traces uuid => exact .perform (Operation.format_listTraces uuid)

/-- Every demand sends a command. -/
theorem exists_exchange_eq_send (pageSize : Nat) (demand : Demand) :
    ∃ command next, demand.exchange pageSize = .send command next := by
  cases demand with
  | register r =>
    cases force : r.force with
    | true => exact ⟨_, _, (Registration.exchange_of_force force).trans r.write_eq⟩
    | false => exact ⟨_, _, Registration.exchange_of_not_force force⟩
  | lookUp machine => exact ⟨_, _, perform_getUser machine⟩
  | storeFile f => exact ⟨_, _, f.exchange_eq⟩
  | fetchFile uuid => exact ⟨_, _, perform_of_format (Operation.format_getFile uuid uuid)⟩
  | addTrace t => exact ⟨_, _, perform_addTrace t⟩
  | page listing cursor =>
    cases listing with
    | files machine => exact ⟨_, _, perform_of_format (Operation.format_listFiles machine)⟩
    | traces uuid => exact ⟨_, _, perform_of_format (Operation.format_listTraces uuid)⟩

end Demand

end HashGateway
