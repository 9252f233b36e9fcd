import HashGateway.Proofs.DemandExchange
import Mathlib.Data.List.Induction

/-!
# Sessions

A session is a run of requests that are served one after the other. Over a store in
memory the store after a run is a fold of the effects of its requests, and each
response is the one that its request has from the store that it meets.

## Main definitions

* `Gateway.serveAll` — serves a run of requests with any engine
* `Store.after` — the store after a run
* `Store.Along` — something holds of each request of a run and the store that it meets
* `Request.written?` — the entry that a request writes into the hash of a listing

## Main results

* `Gateway.serveAll_memory` — a run over a store in memory
* `Gateway.response_serveAll` — a request somewhere in a run
* `Store.hashOf_after` — a run writes its entries in turn
* `Store.forall_find?_after_take_iff` — when a value stays through a run
-/

namespace HashGateway

/-- Serves requests one after the other: their responses, and the store after them. -/
def Gateway.serveAll {σ : Type} (engine : Engine σ) (pageSize : Nat) :
    List Request → σ → List Response × σ
  | [], s => ([], s)
  | request :: requests, s =>
    let (response, s) := (dispatch pageSize request).run engine s
    let (responses, s) := serveAll engine pageSize requests s
    (response :: responses, s)

namespace Store

/-- The store after a run of requests. -/
def after (store : Store) (requests : List Request) : Store :=
  requests.foldl (fun store request => request.effect store) store

@[simp] theorem after_nil (store : Store) : store.after [] = store := rfl

@[simp] theorem after_cons (store : Store) (request : Request) (requests : List Request) :
    store.after (request :: requests) = (request.effect store).after requests := by
  simp only [after, List.foldl_cons]

@[simp] theorem after_append (store : Store) (requests requests' : List Request) :
    store.after (requests ++ requests') = (store.after requests).after requests' :=
  List.foldl_append

/-- Something holds of each request of a run and the store that it meets. -/
def Along (p : Store → Request → Prop) : Store → List Request → Prop
  | _, [] => True
  | store, request :: requests => p store request ∧ Along p (request.effect store) requests

@[simp] theorem along_nil (p : Store → Request → Prop) (store : Store) : store.Along p [] :=
  trivial

@[simp] theorem along_cons (p : Store → Request → Prop) (store : Store) (request : Request)
    (requests : List Request) : store.Along p (request :: requests) ↔
      p store request ∧ (request.effect store).Along p requests := Iff.rfl

theorem Along.exists_of_mem {p : Store → Request → Prop} {store : Store} {request : Request}
    {requests : List Request} (h : store.Along p requests) (mem : request ∈ requests) :
    ∃ met, p met request := by
  induction requests generalizing store with
  | nil => simp at mem
  | cons first requests ih =>
    rcases List.mem_cons.mp mem with rfl | mem
    · exact ⟨store, h.1⟩
    · exact ih h.2 mem

end Store

namespace Gateway

@[simp] theorem serveAll_nil {σ : Type} (engine : Engine σ) (pageSize : Nat) (s : σ) :
    serveAll engine pageSize [] s = ([], s) := rfl

theorem serveAll_memory (pageSize : Nat) (request : Request) (requests : List Request)
    (store : Store) : serveAll Engine.memory pageSize (request :: requests) store =
      (request.response pageSize store ::
        (serveAll Engine.memory pageSize requests (request.effect store)).1,
        (serveAll Engine.memory pageSize requests (request.effect store)).2) := by
  rw [serveAll, run_dispatch]

theorem store_serveAll (pageSize : Nat) (requests : List Request) (store : Store) :
    (serveAll Engine.memory pageSize requests store).2 = store.after requests := by
  induction requests generalizing store with
  | nil => rfl
  | cons request requests ih => rw [serveAll_memory, ih, Store.after_cons]

/-- A request somewhere in a run has its response from the store after those before it. -/
theorem response_serveAll (pageSize : Nat) (earlier later : List Request) (request : Request)
    (store : Store) :
    (serveAll Engine.memory pageSize (earlier ++ request :: later) store).1[earlier.length]? =
      some (request.response pageSize (store.after earlier)) := by
  induction earlier generalizing store with
  | nil => rw [List.nil_append, serveAll_memory]; rfl
  | cons first earlier ih =>
    rw [List.cons_append, serveAll_memory, List.length_cons, List.getElem?_cons_succ, ih,
      Store.after_cons]

end Gateway

/-! ## What a run writes -/

/-- The entry that a demand writes into the hash of a listing. -/
def Demand.written? : Listing → Demand → Option (String × String)
  | .files machine, storeFile f => if f.machine = machine then some (f.uuid, f.data) else none
  | .traces uuid, storeFile f => if f.uuid = uuid then some (f.uuid, f.data) else none
  | .traces uuid, addTrace t => if t.uuid = uuid then some (t.field, t.data) else none
  | _, _ => none

/-- The entry that a request writes into the hash of a listing, if it is accepted. -/
def Request.written? (listing : Listing) (request : Request) : Option (String × String) :=
  request.demand?.bind (Demand.written? listing)

theorem Hash.write_append (hash : Hash) (pairs pairs' : List (String × String)) :
    hash.write (pairs ++ pairs') = (hash.write pairs).write pairs' := by
  induction pairs generalizing hash with
  | nil => rfl
  | cons pair pairs ih => rw [List.cons_append, write_cons, write_cons, ih]

/-- The hash of a listing changes by the entry of a demand only. -/
theorem Demand.hashOf_effect (listing : Listing) (demand : Demand) (store : Store) :
    (demand.effect store).hashOf listing.key =
      (store.hashOf listing.key).write (demand.written? listing).toList := by
  -- Files and traces write into hashes that are listed, each into the one of its own owner only.
  cases demand with
  | register r =>
    have apart : listing.key ≠ .user r.machine := by cases listing <;> simp [Listing.key]
    simp only [effect]
    split
    · rw [Store.hashOf_write_of_ne apart]
      cases listing <;> rfl
    · cases listing <;> rfl
  | storeFile f =>
    rw [effect]
    cases listing with
    | files machine =>
      rw [Listing.key, Store.hashOf_write, Store.hashOf_write_of_ne (by simp),
        Store.hashOf_write_of_ne (by simp)]
      by_cases own : f.machine = machine
      · subst own
        simp [written?]
      · simp [written?, own, Ne.symm own]
    | traces uuid =>
      rw [Listing.key, Store.hashOf_write_of_ne (by simp), Store.hashOf_write]
      by_cases own : f.uuid = uuid
      · subst own
        simp [written?]
      · simp [written?, own, Ne.symm own]
  | addTrace t =>
    rw [effect]
    cases listing with
    | files machine => rw [Listing.key, Store.hashOf_write_of_ne (by simp)]; rfl
    | traces uuid =>
      rw [Listing.key, Store.hashOf_write]
      by_cases own : t.uuid = uuid
      · subst own
        simp [written?]
      · simp [written?, own, Ne.symm own]
  | lookUp _ => cases listing <;> rfl
  | fetchFile _ => cases listing <;> rfl
  | page _ _ => cases listing <;> rfl

theorem Request.hashOf_effect (listing : Listing) (request : Request) (store : Store) :
    (request.effect store).hashOf listing.key =
      (store.hashOf listing.key).write (request.written? listing).toList := by
  cases demand : request.demand? with
  | none => rw [effect_of_demand?_eq_none demand, written?, demand]; rfl
  | some d => rw [effect_of_demand? demand, written?, demand, Demand.hashOf_effect]; rfl

/-- A run writes its entries into the hash of a listing, one after the other. -/
theorem Store.hashOf_after (listing : Listing) (store : Store) (requests : List Request) :
    (store.after requests).hashOf listing.key =
      (store.hashOf listing.key).write (requests.filterMap (Request.written? listing)) := by
  induction requests generalizing store with
  | nil => rfl
  | cons request requests ih =>
    rw [after_cons, ih, Request.hashOf_effect, ← Hash.write_append]
    cases entry : request.written? listing <;> simp [entry]

/-! ### What stays -/

/-- To write what is there changes nothing. -/
theorem OrderedMap.insert_of_find? {α : Type} {m : OrderedMap α} {key : String} {a : α}
    (h : m.find? key = some a) : m.insert key a = m := by
  refine ext_find? fun other => ?_
  rw [find?_insert]
  split
  · next own => rw [own, h]
  · rfl

/-- A value stays through a request exactly if no other value is written for its field. -/
theorem Request.find?_hashOf_effect_iff {listing : Listing} {store : Store} {field value : String}
    (held : (store.hashOf listing.key).find? field = some value) (request : Request) :
    ((request.effect store).hashOf listing.key).find? field = some value ↔
      ∀ data, request.written? listing = some (field, data) → data = value := by
  rw [hashOf_effect]
  cases request.written? listing with
  | none => simpa using held
  | some pair =>
    obtain ⟨key, written⟩ := pair
    rw [Option.toList_some, Hash.write_cons, Hash.write_nil, OrderedMap.find?_insert]
    by_cases own : field = key
    · simp [own]
    · simp [own, Ne.symm own, held]

/-- A value stays through a run exactly if no request of the run writes another value for its
field. -/
theorem Store.forall_find?_after_take_iff {listing : Listing} {store : Store}
    {field value : String} (held : (store.hashOf listing.key).find? field = some value)
    (requests : List Request) :
    (∀ n, ((store.after (requests.take n)).hashOf listing.key).find? field = some value) ↔
      ∀ r ∈ requests, ∀ data, r.written? listing = some (field, data) → data = value := by
  induction requests generalizing store with
  | nil => simp [held]
  | cons request requests ih =>
    -- A value that was replaced may come back, so the statement is about all prefixes of the run.
    have step := Request.find?_hashOf_effect_iff held request
    constructor
    · intro stays
      have first : ((request.effect store).hashOf listing.key).find? field = some value := by
        simpa using stays 1
      have rest := (ih first).mp fun n => by simpa using stays (n + 1)
      intro r mem
      rcases List.mem_cons.mp mem with rfl | mem
      · exact step.mp first
      · exact rest r mem
    · intro kept n
      cases n with
      | zero => exact held
      | succ n =>
        have first := step.mpr (kept request (by simp))
        rw [List.take_succ_cons, after_cons]
        exact (ih first).mpr (fun r mem => kept r (by simp [mem])) n

end HashGateway
