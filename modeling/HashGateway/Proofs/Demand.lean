import HashGateway.Gateway
import HashGateway.Proofs.Operation
import HashGateway.Proofs.Results
import HashGateway.Proofs.Store.Replies

/-!
# What requests ask for

A request is accepted when its size is within the limits, its method and its path lead
to an endpoint, and its body holds the record of that endpoint. What an accepted
request asks for is a demand, and over a store in memory a demand is answered and
carried out in one step. All that is proved of requests over a store in memory is
proved of demands.

## Main definitions

* `Demand`, `Request.demand?` — what an accepted request asks for
* `Listing` — what is listed page by page
* `Store.hashOf`, `Store.write` — the hashes of a store, and a store with some fields written
* `Demand.outcome`, `Demand.effect` — how a demand is answered and what it does

## Main results

* `Request.demand?_eq_some_iff` — when a request is accepted
* `Request.isReadFrom_of_demand?` — what an accepted request writes is the record of its body
* `Rejects.demand` — a body that is refused is refused with an error of the client
-/

namespace HashGateway

/-- What is listed page by page. -/
inductive Listing
  /-- The files of a machine. -/
  | files (machine : String)
  /-- The trace entries of a file. -/
  | traces (uuid : String)
  deriving DecidableEq, Repr

namespace Listing

/-- The hash that is listed. -/
def key : Listing → HashKey
  | files machine => .files machine
  | traces uuid => .file uuid

@[simp] theorem key_files (machine : String) : (files machine).key = .files machine := rfl

@[simp] theorem key_traces (uuid : String) : (traces uuid).key = .file uuid := rfl

/-- The pattern of the fields that are listed. -/
def pattern : Listing → Option String
  | files _ => none
  | traces _ => some "trace:*"

/-- The name that the documents of a page go by. -/
def name : Listing → String
  | files _ => "files"
  | traces _ => "traces"

/-- The documents of a page do not go by the name of its cursor. -/
theorem name_ne (listing : Listing) : listing.name ≠ "page" := by
  cases listing <;> simp [name]

/-- The scan that shows a page. -/
def scan (listing : Listing) (cursor count : Nat) : Scan := ⟨cursor, listing.pattern, count⟩

end Listing

/-- What an accepted request asks for. -/
inductive Demand
  | register (r : Registration)
  | lookUp (machine : String)
  | storeFile (f : FileRecord)
  | fetchFile (uuid : String)
  | addTrace (t : TraceRecord)
  | page (listing : Listing) (cursor : Nat)
  deriving DecidableEq, Repr

/-- What a body asks for at an endpoint, if it holds the record of this endpoint. -/
def Endpoint.demand (endpoint : Endpoint) (stamp : Int) (body : Bytes) : Except Error Demand :=
  match endpoint with
  | .registerUser => (Registration.parse body).map .register
  | .getUser => (MachineQuery.parse body).map fun q => .lookUp q.machine
  | .setFile => (FileRecord.parse body).map .storeFile
  | .getFile => (FileQuery.parse body).map fun q => .fetchFile q.uuid
  | .listFiles => (FilePage.parse body).map fun q => .page (.files q.machine) q.page
  | .addTrace => (TraceRecord.parse stamp body).map .addTrace
  | .listTraces => (TracePage.parse body).map fun q => .page (.traces q.uuid) q.page

namespace Request

/-- The endpoint that a request leads to, unless it is too large. -/
def endpoint? (request : Request) : Option Endpoint :=
  if Gateway.maxPath < (Utf8.bytes request.path).length ∨
      Gateway.maxBody < request.body.length then none
  else Endpoint.route request.method request.path

/-- What a request asks for, if it is accepted. -/
def demand? (request : Request) : Option Demand :=
  request.endpoint?.bind fun endpoint => (endpoint.demand request.stamp request.body).toOption

end Request

/-- A posted request to the path of an endpoint leads there, and no other request does. -/
theorem Endpoint.route_eq_some_iff {method path : String} {endpoint : Endpoint} :
    route method path = some endpoint ↔
      method.map Char.toUpper = "POST" ∧ endpoint.path = path := by
  unfold route
  split
  · next posted =>
    constructor
    · intro found
      exact ⟨posted, by simpa using List.find?_some found⟩
    · rintro ⟨-, rfl⟩
      cases endpoint <;> decide
  · next other => simp [other]

/-- A request is accepted exactly when it is within the limits, is posted to the path of an
endpoint, and its body holds the record of this endpoint. -/
theorem Request.demand?_eq_some_iff {request : Request} {demand : Demand} :
    request.demand? = some demand ↔
      (Utf8.bytes request.path).length ≤ Gateway.maxPath ∧
      request.body.length ≤ Gateway.maxBody ∧ request.method.map Char.toUpper = "POST" ∧
      ∃ endpoint : Endpoint, endpoint.path = request.path ∧
        (endpoint.demand request.stamp request.body).toOption = some demand := by
  simp only [demand?, endpoint?, Option.bind_eq_some_iff]
  constructor
  · rintro ⟨endpoint, routed, held⟩
    split at routed
    · simp at routed
    · next fits =>
      rw [not_or, Nat.not_lt, Nat.not_lt] at fits
      obtain ⟨posted, path⟩ := Endpoint.route_eq_some_iff.mp routed
      exact ⟨fits.1, fits.2, posted, endpoint, path, held⟩
  · rintro ⟨path_fits, body_fits, posted, endpoint, path, held⟩
    refine ⟨endpoint, ?_, held⟩
    rw [if_neg (by omega)]
    exact Endpoint.route_eq_some_iff.mpr ⟨posted, path⟩

/-- A request that is posted to an endpoint asks for what its body asks for. -/
theorem Request.demand?_posted (endpoint : Endpoint) (stamp : Int) {body : Bytes}
    {demand : Demand} (fits : body.length ≤ Gateway.maxBody)
    (held : (endpoint.demand stamp body).toOption = some demand) :
    demand? ⟨"POST", endpoint.path, body, stamp⟩ = some demand := by
  have path (endpoint : Endpoint) : endpoint.path = String.ofList
      (endpoint.path.toList.takeWhile (· != '?')) := by cases endpoint <;> decide
  have posted : "POST".map Char.toUpper = "POST" := map_toUpper_eq (by decide)
  refine demand?_eq_some_iff.mpr ⟨?_, fits, posted, endpoint, path endpoint, held⟩
  rw [Request.path, ← path]
  cases endpoint <;> decide

/-- What a demand writes is the record of a body that comes at a time. -/
def Demand.IsReadFrom (stamp : Int) (body : Bytes) : Demand → Prop
  | register r => Registration.parse body = .ok r
  | storeFile f => FileRecord.parse body = .ok f
  | addTrace t => TraceRecord.parse stamp body = .ok t
  | lookUp _ => True
  | fetchFile _ => True
  | page _ _ => True

/-- What an accepted request asks to write is the record of its body. -/
theorem Request.isReadFrom_of_demand? {request : Request} {demand : Demand}
    (h : request.demand? = some demand) : demand.IsReadFrom request.stamp request.body := by
  obtain ⟨-, -, -, endpoint, -, held⟩ := demand?_eq_some_iff.mp h
  have parsed := Except.toOption_eq_some.mp held
  cases endpoint with
  | registerUser | setFile | addTrace =>
    obtain ⟨record, read, rfl⟩ := Except.map_eq_ok.mp parsed
    exact read
  | getUser | getFile | listFiles | listTraces =>
    obtain ⟨query, -, rfl⟩ := Except.map_eq_ok.mp parsed
    exact True.intro

/-- The record that an accepted request asks to store is that of its body. -/
theorem Request.parse_of_storeFile {request : Request} {f : FileRecord}
    (h : request.demand? = some (.storeFile f)) : FileRecord.parse request.body = .ok f :=
  isReadFrom_of_demand? h

/-- The entry that an accepted request asks to add is that of its body, made at its time. -/
theorem Request.parse_of_addTrace {request : Request} {t : TraceRecord}
    (h : request.demand? = some (.addTrace t)) :
    TraceRecord.parse request.stamp request.body = .ok t :=
  isReadFrom_of_demand? h

/-! ## Refused bodies -/

/-- An error of the client. -/
def Error.IsRejection (e : Error) : Prop :=
  (∃ fault, e = .json fault) ∨ ∃ refusal, e = .invalidRequest refusal

/-- All errors of a result are errors of the client. -/
def Rejects {α : Type} (x : Except Error α) : Prop := ∀ e, x = .error e → e.IsRejection

namespace Rejects

variable {α β : Type}

theorem ok (a : α) : Rejects (.ok a) := fun _ h => nomatch h

theorem bind {x : Except Error α} {f : α → Except Error β} (hx : Rejects x)
    (hf : ∀ a, Rejects (f a)) : Rejects (x >>= f) := by
  intro e h
  rcases Except.bind_eq_error.mp h with h | ⟨a, _, h⟩
  · exact hx e h
  · exact hf a e h

theorem map {x : Except Error α} {f : α → β} (hx : Rejects x) : Rejects (x.map f) := by
  cases x with
  | ok a => exact ok (f a)
  | error e => exact fun e' h => hx e' (by simpa using h)

theorem row (shape : Record.Shape) (body : Bytes) : Rejects (Record.row shape body) := by
  intro e h
  unfold Record.row at h
  split at h
  · simp at h
  · exact .inl ⟨_, (Except.error.inj h).symm⟩

theorem nonEmpty (field text : String) : Rejects (Record.nonEmpty field text) := by
  intro e h
  unfold Record.nonEmpty at h
  split at h
  · exact .inr ⟨_, (Except.error.inj h).symm⟩
  · simp at h

theorem document (body : Bytes) : Rejects (Record.document body) := by
  intro e h
  unfold Record.document at h
  split at h
  · simp at h
  · exact .inr ⟨_, (Except.error.inj h).symm⟩

theorem registration (body : Bytes) : Rejects (Registration.parse body) := by
  refine bind (row _ _) fun ⟨machine, username, flag, _⟩ => ?_
  refine bind (nonEmpty _ _) fun _ => bind (nonEmpty _ _) fun _ => ?_
  intro e h
  split at h
  · simp [pure, Except.pure] at h
  · simp [pure, Except.pure] at h
  · exact .inr ⟨_, (Except.error.inj h).symm⟩

/-- Every endpoint refuses a body with an error of the client. -/
theorem demand (endpoint : Endpoint) (stamp : Int) (body : Bytes) :
    Rejects (endpoint.demand stamp body) := by
  cases endpoint with
  | registerUser => exact map (registration body)
  | getUser => exact map (bind (row _ _) fun _ => bind (nonEmpty _ _) fun _ => ok _)
  | setFile =>
    exact map (bind (row _ _) fun _ => bind (nonEmpty _ _) fun _ => bind (nonEmpty _ _) fun _ =>
      bind (document _) fun _ => ok _)
  | getFile => exact map (bind (row _ _) fun _ => bind (nonEmpty _ _) fun _ => ok _)
  | listFiles => exact map (bind (row _ _) fun _ => bind (nonEmpty _ _) fun _ => ok _)
  | addTrace =>
    exact map (bind (row _ _) fun _ => bind (nonEmpty _ _) fun _ => bind (document _) fun _ =>
      ok _)
  | listTraces => exact map (bind (row _ _) fun _ => bind (nonEmpty _ _) fun _ => ok _)

end Rejects

/-! ## Demands on a store in memory -/

namespace Store

/-- A hash of the gateway. -/
def hashOf (store : Store) (key : HashKey) : Hash := store.hash key.text

/-- The store with some fields of a hash written. -/
def write (store : Store) (key : HashKey) (pairs : List (String × String)) : Store :=
  OrderedMap.insert store key.text ((store.hashOf key).write pairs)

theorem hashOf_write (store : Store) (key key' : HashKey) (pairs : List (String × String)) :
    (store.write key pairs).hashOf key' =
      if key' = key then (store.hashOf key).write pairs else store.hashOf key' := by
  simp only [hashOf, write, hash_insert, HashKey.text_inj]

@[simp] theorem hashOf_write_self (store : Store) (key : HashKey)
    (pairs : List (String × String)) :
    (store.write key pairs).hashOf key = (store.hashOf key).write pairs := by
  rw [hashOf_write, if_pos rfl]

theorem hashOf_write_of_ne {key key' : HashKey} (h : key' ≠ key) (store : Store)
    (pairs : List (String × String)) : (store.write key pairs).hashOf key' = store.hashOf key' := by
  rw [hashOf_write, if_neg h]

@[simp] theorem hashOf_empty (key : HashKey) :
    hashOf OrderedMap.empty key = OrderedMap.empty := rfl

/-- The page of a listing that begins at a cursor. -/
def page (store : Store) (listing : Listing) (cursor count : Nat) : Page :=
  (listing.scan cursor count).view (store.hashOf listing.key)

theorem apply_set (store : Store) (key : HashKey) (pairs : List (String × String))
    (counted : Bool) : store.apply (.set key.text pairs counted) =
      (if counted then .int ((store.hashOf key).added pairs) else .okay, store.write key pairs) :=
  rfl

end Store

namespace Demand

/-- What a demand does to a store. A machine that has a registration keeps it unless the new one
is forced. -/
def effect : Demand → Store → Store
  | register r, store =>
    if r.force ∨ (store.hashOf (.user r.machine)).entries = [] then
      store.write (.user r.machine) [("machine", r.machine), ("username", r.username)]
    else store
  | storeFile f, store =>
    (store.write (.file f.uuid) [(f.uuid, f.data)]).write (.files f.machine) [(f.uuid, f.data)]
  | addTrace t, store => store.write (.file t.uuid) [(t.field, t.data)]
  | lookUp _, store => store
  | fetchFile _, store => store
  | page _ _, store => store

/-- How a demand is answered. -/
def outcome (pageSize : Nat) : Demand → Store → Outcome
  | register r, store =>
    if r.force ∨ (store.hashOf (.user r.machine)).entries = [] then .success r.echo
    else (store.hashOf (.user r.machine)).record
  | lookUp machine, store => (store.hashOf (.user machine)).record
  | storeFile _, _ => .acknowledged
  | fetchFile uuid, store =>
    match (store.hashOf (.file uuid)).find? uuid with
    | some data => .success data
    | none => .notFound
  | addTrace t, store =>
    if (store.hashOf (.file t.uuid)).contains t.field then .failure else .acknowledged
  | page listing cursor, store =>
    if Operation.Askable cursor pageSize then
      .success ((store.page listing cursor pageSize).text listing.name)
    else .failure

end Demand

/-! ### Requests -/

namespace Request

/-- The response to a request over a store in memory. -/
def response (request : Request) (pageSize : Nat) (store : Store) : Response :=
  match request.demand? with
  | some demand => ⟨200, (demand.outcome pageSize store).body⟩
  | none => .fail 404

/-- What a request does to a store in memory. -/
def effect (request : Request) (store : Store) : Store :=
  match request.demand? with
  | some demand => demand.effect store
  | none => store

theorem response_of_demand? {request : Request} {demand : Demand}
    (h : request.demand? = some demand) (pageSize : Nat) (store : Store) :
    request.response pageSize store = ⟨200, (demand.outcome pageSize store).body⟩ := by
  simp only [response, h]

theorem effect_of_demand? {request : Request} {demand : Demand}
    (h : request.demand? = some demand) (store : Store) :
    request.effect store = demand.effect store := by
  simp only [effect, h]

theorem effect_of_demand?_eq_none {request : Request} (h : request.demand? = none)
    (store : Store) : request.effect store = store := by
  simp only [effect, h]

end Request

theorem Response.ofResult_of_isRejection {e : Error} (h : e.IsRejection) :
    Response.ofResult (.error e) = .fail 404 := by
  rcases h with ⟨fault, rfl⟩ | ⟨refusal, rfl⟩ <;> rfl

end HashGateway
