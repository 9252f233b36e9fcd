import HashGateway.Proofs.DemandExchange
import HashGateway.Proofs.Traffic
import Mathlib.Data.List.Induction

/-!
# Requests among others

Between two commands of a request the store may serve commands of others. What a request can rely
on is that no command removes a field of a hash, and an invariant of the store that all commands
keep. With these two the exchange of a request is reasoned about alone: something holds throughout
it if it holds whatever such store every one of its commands meets. What holds throughout every
single exchange then holds of all requests in every traffic.

## Main definitions

* `Store.Grows` — a store has all fields of another one
* `Exchange.Sends`, `Command.Keeps` — a property of all commands that an exchange can send, and
  commands that keep a property of stores
* `Demand.writes` — what a demand may write
* `Exchange.Throughout` — a property of what is left of an exchange, at any time and among others
* `Traffic.Upheld` — an invariant of the store, and a property throughout all exchanges

## Main results

* `Store.grows_execute` — no command removes a field
* `Demand.sends_keeps` — what the writes of a demand keep, its commands keep
* `Traffic.Upheld.run` — what holds throughout the exchange of every request that comes holds
  after every run of events
* `Traffic.store_after` — what all commands of all requests keep holds of every store that
  traffic can come to
-/

namespace HashGateway

/-! ## Growing stores -/

namespace Store

/-- Every field of a hash is still there in another store. -/
def Grows (store store' : Store) : Prop :=
  ∀ key field, (store.hash key).contains field = true → (store'.hash key).contains field = true

namespace Grows

variable {store store' store'' : Store}

theorem refl (store : Store) : store.Grows store := fun _ _ there => there

theorem trans (h : store.Grows store') (h' : store'.Grows store'') : store.Grows store'' :=
  fun key field there => h' key field (h key field there)

theorem contains_hashOf (h : store.Grows store') {key : HashKey} {field : String}
    (there : (store.hashOf key).contains field = true) :
    (store'.hashOf key).contains field = true :=
  h key.text field there

end Grows

theorem grows_apply (store : Store) (command : HashCommand) :
    store.Grows (store.apply command).2 := by
  cases command with
  | set key pairs counted =>
    intro key' field there
    simp only [apply, hash_insert]
    split
    · next own => exact Hash.contains_write_iff.mpr (.inr (own ▸ there))
    · exact there
  | get key field => exact .refl store
  | getAll key => exact .refl store
  | scan key scan => exact .refl store

/-- No command removes a field. -/
theorem grows_execute (store : Store) (command : Command) :
    store.Grows (store.execute command).2 := by
  unfold execute
  split
  · exact store.grows_apply _
  -- What is no command of hashes does nothing.
  · exact .refl store

/-- A command that writes fields of a hash. -/
theorem execute_of_parse_set {command : Command} {key : HashKey} {pairs : List (String × String)}
    (parsed : HashCommand.parse command = .ok (.set key.text pairs false)) (store : Store) :
    store.execute command = (.ok .okay, store.write key pairs) := by
  simp only [execute, parsed, apply_set]
  rfl

theorem grows_write (store : Store) (key : HashKey) (pairs : List (String × String)) :
    store.Grows (store.write key pairs) :=
  store.grows_apply (.set key.text pairs false)

end Store

/-! ## Commands of an exchange -/

namespace Exchange

/-- All commands that an exchange can send have a property, whatever is answered to them. -/
inductive Sends {α : Type} (p : Command → Prop) : Exchange α → Prop
  | done (a : α) : Sends p (done a)
  | send {command : Command} {next : Answer → Exchange α} (first : p command)
      (rest : ∀ answer, Sends p (next answer)) : Sends p (send command next)

namespace Sends

variable {α β : Type} {p : Command → Prop}

theorem bind {x : Exchange α} {f : α → Exchange β} (h : Sends p x) (h' : ∀ a, Sends p (f a)) :
    Sends p (x.bind f) := by
  induction h with
  | done a => exact h' a
  | send first rest ih => exact .send first ih

theorem andThen {x : Exchange (Except Error α)} {f : α → Exchange (Except Error β)}
    (h : Sends p x) (h' : ∀ a, Sends p (f a)) : Sends p (x.andThen f) := by
  refine h.bind fun result => ?_
  cases result with
  | ok a => exact h' a
  | error e => exact .done _

/-- An operation sends the command that its template makes of its arguments. -/
theorem perform {operation : Operation} {arguments : List Argument}
    (h : ∀ command, Template.format operation.template arguments = .ok command → p command) :
    Sends p (.perform operation arguments) := by
  unfold Exchange.perform
  split
  · next command formatted => exact .send (h command formatted) fun answer => .done _
  · exact .done _

theorem respond {x : Exchange (Except Error Outcome)} (h : Sends p x) : Sends p x.respond :=
  h.bind fun _ => .done _

/-- An accepted request sends what its demand does, and any other request sends nothing. -/
theorem dispatch {pageSize : Nat} {request : Request}
    (h : ∀ demand, request.demand? = some demand → Sends p (demand.exchange pageSize)) :
    Sends p (Gateway.dispatch pageSize request) := by
  cases accepted : request.demand? with
  | none =>
    rw [Gateway.dispatch_of_demand?_eq_none accepted]
    exact .done _
  | some demand =>
    rw [Gateway.dispatch_of_demand? accepted]
    exact (h demand accepted).respond

end Sends

end Exchange

/-- A command keeps a property of stores. -/
def Command.Keeps (inv : Store → Prop) (command : Command) : Prop :=
  ∀ store, inv store → inv (store.execute command).2

namespace Command.Keeps

variable {inv : Store → Prop} {operation : Operation} {arguments : List Argument}

/-- The command of an operation keeps a property if the command that it means does. -/
theorem of_means {meant : HashCommand} (means : operation.Means arguments meant)
    (h : ∀ store, inv store → inv (store.apply meant).2) (command : Command)
    (formatted : Template.format operation.template arguments = .ok command) :
    Keeps inv command := by
  intro store before
  obtain ⟨words, formatted', parsed⟩ := means
  obtain rfl := Except.ok.inj (formatted.symm.trans formatted')
  simpa only [Store.execute, parsed] using h store before

/-- A command that is refused keeps everything. -/
theorem of_isRefused (refused : operation.IsRefused arguments) (command : Command)
    (formatted : Template.format operation.template arguments = .ok command) :
    Keeps inv command := by
  intro store before
  obtain ⟨words, rejection, formatted', parsed⟩ := refused
  obtain rfl := Except.ok.inj (formatted.symm.trans formatted')
  simpa only [Store.execute, parsed] using before

end Command.Keeps

/-! ### What demands write -/

/-- The fields that a demand may write, each hash in turn. -/
def Demand.writes : Demand → List (HashKey × List (String × String))
  | register r => [(.user r.machine, [("machine", r.machine), ("username", r.username)])]
  | storeFile f => [(.file f.uuid, [(f.uuid, f.data)]), (.files f.machine, [(f.uuid, f.data)])]
  | addTrace t => [(.file t.uuid, [(t.field, t.data)])]
  | lookUp _ => []
  | fetchFile _ => []
  | page _ _ => []

section SendsKeeps

variable {inv : Store → Prop}

open Exchange Command.Keeps

/-- Pages are only read, whether or not the store takes their cursor. -/
theorem Operation.sends_page {operation : Operation} {arguments : List Argument}
    {key : String} {scan : Scan} {p : Prop}
    (means : p → operation.Means arguments (.scan key scan))
    (refused : ¬ p → operation.IsRefused arguments) :
    (perform operation arguments).Sends (Command.Keeps inv) := by
  by_cases taken : p
  · exact .perform (of_means (means taken) fun store held => held)
  · exact .perform (of_isRefused (refused taken))

/-- What the writes of a demand keep, its commands keep. -/
theorem Demand.sends_keeps (pageSize : Nat) (demand : Demand)
    (h : ∀ entry ∈ demand.writes, ∀ store, inv store → inv (store.write entry.1 entry.2)) :
    (demand.exchange pageSize).Sends (Command.Keeps inv) := by
  cases demand with
  | register r =>
    have write : r.write.Sends (Command.Keeps inv) := by
      refine Sends.andThen (.perform (of_means (Operation.means_registerUser _ _ _)
        (h _ List.mem_cons_self))) fun outcome => ?_
      cases outcome <;> exact .done _
    -- The write is sent at once, or after a look-up that finds nothing.
    change r.exchange.Sends _
    unfold Registration.exchange
    split
    · exact write
    · refine Sends.andThen (.perform (of_means (Operation.means_getUser _) fun _ held => held))
        fun outcome => ?_
      cases outcome with
      | notFound => exact write
      | _ => exact .done _
  | lookUp machine => exact .perform (of_means (Operation.means_getUser _) fun _ held => held)
  | storeFile f =>
    -- Here it does not matter that the second write waits for the first.
    refine Sends.andThen (.perform (of_means (Operation.means_setFile _ _ _)
      (h _ List.mem_cons_self))) fun outcome => ?_
    split
    · exact .perform (of_means (Operation.means_indexFile _ _ _)
        (h _ (List.mem_cons_of_mem _ List.mem_cons_self)))
    · exact .done _
  | fetchFile uuid => exact .perform (of_means (Operation.means_getFile _ _) fun _ held => held)
  | addTrace t =>
    exact .perform (of_means (Operation.means_addTrace _ _ _) (h _ List.mem_cons_self))
  | page listing cursor =>
    cases listing with
    | files machine =>
      exact Operation.sends_page (Operation.means_listFiles machine)
        (Operation.isRefused_listFiles machine)
    | traces uuid =>
      exact Operation.sends_page (Operation.means_listTraces uuid)
        (Operation.isRefused_listTraces uuid)

/-- So does the demand as a whole. -/
theorem Demand.effect_keeps {demand : Demand} {store : Store}
    (h : ∀ entry ∈ demand.writes, ∀ store, inv store → inv (store.write entry.1 entry.2))
    (held : inv store) : inv (demand.effect store) := by
  cases demand with
  | register r =>
    rw [effect]
    split
    · exact h _ List.mem_cons_self store held
    · exact held
  | storeFile f =>
    exact h _ (List.mem_cons_of_mem _ List.mem_cons_self) _ (h _ List.mem_cons_self store held)
  | addTrace t => exact h _ List.mem_cons_self store held
  | lookUp machine => exact held
  | fetchFile uuid => exact held
  | page listing cursor => exact held

end SendsKeeps

/-! ## One exchange among others -/

namespace Exchange

open Traffic

variable {inv : Store → Prop} {faults : Fault → Prop} {p p' : Exchange Response → Store → Prop}
  {x : Exchange Response} {store store' : Store}

/-- A property holds, at any time and for the store at this time, of what is left of an exchange,
and the commands of the exchange keep an invariant. In between the store may change, but it grows
and keeps the invariant; commands may fail as it is given. -/
inductive Throughout (inv : Store → Prop) (faults : Fault → Prop)
    (p : Exchange Response → Store → Prop) : Exchange Response → Store → Prop
  | done {response : Response} {store : Store}
      (holds : ∀ store', store.Grows store' → inv store' → p (done response) store') :
      Throughout inv faults p (done response) store
  | send {command : Command} {next : Answer → Exchange Response} {store : Store}
      (holds : ∀ store', store.Grows store' → inv store' → p (send command next) store')
      (keeps : ∀ store', store.Grows store' → inv store' → inv (store'.execute command).2)
      (served : ∀ store', store.Grows store' → inv store' →
        Throughout inv faults p (next (store'.execute command).1) (store'.execute command).2)
      (failed : ∀ store', store.Grows store' → inv store' → ∀ fault, faults fault →
        Throughout inv faults p (next (.error fault.error)) store') :
      Throughout inv faults p (send command next) store

namespace Throughout

/-- What holds throughout holds from any later store on. -/
theorem grow (h : x.Throughout inv faults p store) (grows : store.Grows store') :
    x.Throughout inv faults p store' := by
  cases h with
  | done holds => exact .done fun later grows' => holds later (grows.trans grows')
  | send holds keeps served failed =>
    exact .send (fun later grows' => holds later (grows.trans grows'))
      (fun later grows' => keeps later (grows.trans grows'))
      (fun later grows' => served later (grows.trans grows'))
      fun later grows' => failed later (grows.trans grows')

theorem holds (h : x.Throughout inv faults p store) (held : inv store) : p x store := by
  cases h with
  | done holds => exact holds store (.refl store) held
  | send holds keeps served failed => exact holds store (.refl store) held

/-- The next command is served. -/
theorem serve (h : x.Throughout inv faults p store) (held : inv store) :
    inv (x.advance Engine.memory store).2 ∧
      (x.advance Engine.memory store).1.Throughout inv faults p
        (x.advance Engine.memory store).2 := by
  cases h with
  | done holds => exact ⟨held, .done holds⟩
  | send holds keeps served failed =>
    exact ⟨keeps store (.refl store) held, served store (.refl store) held⟩

/-- The next command fails. -/
theorem fail (h : x.Throughout inv faults p store) (held : inv store) {fault : Fault}
    (given : faults fault) :
    inv (x.advance fault.engine store).2 ∧
      (x.advance fault.engine store).1.Throughout inv faults p
        (x.advance fault.engine store).2 := by
  cases h with
  | done holds => exact ⟨held, .done holds⟩
  | send holds keeps served failed => exact ⟨held, failed store (.refl store) held fault given⟩

theorem mono (h : x.Throughout inv faults p store)
    (weaker : ∀ x store, inv store → p x store → p' x store) :
    x.Throughout inv faults p' store := by
  induction h with
  | done holds => exact .done fun later grows held => weaker _ _ held (holds later grows held)
  | send holds keeps served failed served_ih failed_ih =>
    exact .send (fun later grows held => weaker _ _ held (holds later grows held)) keeps
      served_ih failed_ih

end Throughout

theorem grows_advance {engine : Engine Store}
    (grows : ∀ command, store.Grows (engine store command).2) (x : Exchange Response) :
    store.Grows (x.advance engine store).2 := by
  cases x with
  | done response => exact .refl store
  | send command next => exact grows command

/-- An exchange all of whose commands keep an invariant can be left alone. -/
theorem Sends.throughout (h : x.Sends (Command.Keeps inv)) (store : Store) :
    x.Throughout inv faults (fun _ _ => True) store := by
  induction h generalizing store with
  | done response => exact .done fun _ _ _ => trivial
  | send first rest ih =>
    exact .send (fun _ _ _ => trivial) (fun later _ held => first later held)
      (fun _ _ _ => ih _ _) fun _ _ _ _ _ => ih _ _

end Exchange

/-! ## All exchanges -/

namespace Traffic

variable {inv : Store → Prop} {occurs : Event → Prop}
  {p p' : Nat → Request → Exchange Response → Store → Prop} {traffic : Traffic} {pageSize : Nat}

/-- The store has an invariant, and something holds throughout the exchange of every request, as
long as nothing happens but the given events. -/
structure Upheld (inv : Store → Prop) (occurs : Event → Prop)
    (p : Nat → Request → Exchange Response → Store → Prop) (traffic : Traffic) : Prop where
  store : inv traffic.store
  tasks : ∀ (task : Nat) (request : Request) (x : Exchange Response),
    traffic.tasks[task]? = some ⟨request, x⟩ →
      x.Throughout inv (fun fault => occurs (.fail task fault)) (p task request) traffic.store

theorem upheld_start (initial : inv OrderedMap.empty) : Upheld inv occurs p start :=
  ⟨initial, fun task request x found => by simp [start] at found⟩

theorem grows_answer (traffic : Traffic) (task : Nat) {engine : Engine Store}
    (grows : ∀ command, traffic.store.Grows (engine traffic.store command).2) :
    traffic.store.Grows (traffic.answer task engine).store ∧
      traffic.tasks.length ≤ (traffic.answer task engine).tasks.length := by
  cases found : traffic.tasks[task]? with
  | none =>
    rw [answer_of_getElem?_eq_none found]
    exact ⟨.refl _, le_refl _⟩
  | some waiting =>
    rw [answer_of_getElem? found, List.length_set]
    exact ⟨Exchange.grows_advance grows _, le_refl _⟩

/-- Nothing that happens removes a field of the store, or a request. -/
theorem grows_foldl (pageSize : Nat) (traffic : Traffic) (events : List Event) :
    traffic.store.Grows (events.foldl (step pageSize) traffic).store ∧
      traffic.tasks.length ≤ (events.foldl (step pageSize) traffic).tasks.length := by
  induction events generalizing traffic with
  | nil => exact ⟨.refl _, le_refl _⟩
  | cons event events ih =>
    have first : traffic.store.Grows (traffic.step pageSize event).store ∧
        traffic.tasks.length ≤ (traffic.step pageSize event).tasks.length := by
      cases event with
      | arrive request => exact ⟨.refl _, by simp [step]⟩
      | serve task => exact traffic.grows_answer task (traffic.store.grows_execute ·)
      | fail task fault => exact traffic.grows_answer task fun _ => .refl _
    obtain ⟨grows, longer⟩ := ih (traffic.step pageSize event)
    exact ⟨first.1.trans grows, first.2.trans longer⟩

namespace Upheld

theorem holds (upheld : Upheld inv occurs p traffic) {task : Nat} {request : Request}
    {x : Exchange Response} (found : traffic.tasks[task]? = some ⟨request, x⟩) :
    p task request x traffic.store :=
  (upheld.tasks task request x found).holds upheld.store

theorem mono (upheld : Upheld inv occurs p traffic)
    (weaker : ∀ task request x store, task < traffic.tasks.length → inv store →
      p task request x store → p' task request x store) : Upheld inv occurs p' traffic where
  store := upheld.store
  tasks task request x found := (upheld.tasks task request x found).mono fun y store =>
    weaker task request y store (List.getElem?_eq_some_iff.mp found).1

/-- The next command of one request is answered. For the others the store has grown. -/
theorem answer (upheld : Upheld inv occurs p traffic) (task : Nat) {engine : Engine Store}
    (grows : ∀ command, traffic.store.Grows (engine traffic.store command).2)
    (own : ∀ request x, traffic.tasks[task]? = some ⟨request, x⟩ →
      inv (x.advance engine traffic.store).2 ∧
        (x.advance engine traffic.store).1.Throughout inv (fun fault => occurs (.fail task fault))
          (p task request) (x.advance engine traffic.store).2) :
    Upheld inv occurs p (traffic.answer task engine) := by
  cases found : traffic.tasks[task]? with
  | none => rwa [answer_of_getElem?_eq_none found]
  | some waiting =>
    obtain ⟨request, x⟩ := waiting
    obtain ⟨kept, rest⟩ := own request x found
    rw [answer_of_getElem? found]
    refine ⟨kept, fun task' request' x' found' => ?_⟩
    rw [List.getElem?_set] at found'
    split at found'
    -- The request itself goes on; any other one meets a store that has grown.
    · next task_eq =>
      subst task_eq
      split at found'
      · obtain ⟨rfl, rfl⟩ := Task.mk.inj (Option.some.inj found')
        exact rest
      · simp at found'
    · exact (upheld.tasks task' request' x' found').grow (Exchange.grows_advance grows x)

/-- One event that is given. -/
theorem step (upheld : Upheld inv occurs p traffic) {event : Event} (given : occurs event)
    (arrives : ∀ request, event = .arrive request →
      (Gateway.dispatch pageSize request).Throughout inv
        (fun fault => occurs (.fail traffic.tasks.length fault)) (p traffic.tasks.length request)
        traffic.store) :
    Upheld inv occurs p (traffic.step pageSize event) := by
  cases event with
  | arrive request =>
    -- The requests before keep their places, and the new one is the last.
    refine ⟨upheld.store, fun task request' x found => ?_⟩
    change (traffic.tasks ++ [_])[task]? = _ at found
    rcases Nat.lt_or_ge task traffic.tasks.length with old | new
    · rw [List.getElem?_append_left old] at found
      exact upheld.tasks task request' x found
    · rw [List.getElem?_append_right new] at found
      obtain ⟨last, is_last⟩ := List.getElem?_eq_some_iff.mp found
      obtain rfl : task = traffic.tasks.length := by
        rw [List.length_singleton] at last
        omega
      simp only [Nat.sub_self, List.getElem_cons_zero] at is_last
      obtain ⟨rfl, rfl⟩ := Task.mk.inj is_last
      exact arrives request rfl
  | serve task =>
    exact upheld.answer task (traffic.store.grows_execute ·) fun request x found =>
      (upheld.tasks task request x found).serve upheld.store
  | fail task fault =>
    exact upheld.answer task (fun _ => .refl _) fun request x found =>
      (upheld.tasks task request x found).fail upheld.store given

/-- What holds throughout the exchange of every request that comes, from the store that it meets,
holds after every run of the given events. -/
theorem run (upheld : Upheld inv occurs p traffic)
    (arrives : ∀ task request store, occurs (.arrive request) → traffic.tasks.length ≤ task →
      traffic.store.Grows store → inv store → (Gateway.dispatch pageSize request).Throughout inv
        (fun fault => occurs (.fail task fault)) (p task request) store)
    {events : List Event} (given : ∀ event ∈ events, occurs event) :
    Upheld inv occurs p (events.foldl (Traffic.step pageSize) traffic) := by
  -- Induction from the end: the last event meets traffic in which all is upheld.
  induction events using List.reverseRecOn with
  | nil => exact upheld
  | append_singleton events event ih =>
    have before := ih fun event mem => given event (List.mem_append_left _ mem)
    have last : occurs event := given event (by simp)
    obtain ⟨grows, longer⟩ := traffic.grows_foldl pageSize events
    rw [List.foldl_append, List.foldl_cons, List.foldl_nil]
    refine before.step last fun request arrived => ?_
    subst arrived
    exact arrives _ request _ last longer grows before.store

end Upheld

/-- What holds of the empty store and is kept by all commands of all requests holds of every store
that traffic can come to. -/
theorem store_after (initial : inv OrderedMap.empty)
    (sends : ∀ request, (Gateway.dispatch pageSize request).Sends (Command.Keeps inv))
    (events : List Event) : inv (after pageSize events).store := by
  have upheld : Upheld inv (fun _ => True) (fun _ _ _ _ => True) start := upheld_start initial
  refine Upheld.store (upheld.run (fun task request store _ _ _ _ => ?_) fun _ _ => trivial)
  exact (sends request).throughout store

end Traffic

end HashGateway
