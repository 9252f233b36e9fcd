import HashGateway.Proofs.Interference
import HashGateway.Proofs.Registration

/-!
# Registrations at the same time

Whether a machine has a registration is asked by one command, and a registration is written by
another, so two first registrations of a machine may both find nothing and both be written. Still
a registration is written as a whole, under its own machine, and never removed. So every record
that is sent back is that of a registration that came before; and once a registration has been
answered, every later request finds one.

## Main definitions

* `Traffic.Registers` — a registration of a machine for a user has come
* `Response.Tells` — what a request about a machine may be answered
* `Store.OwnedFrom` — the registrations of a store are among some that are given
* `Exchange.lookUpOr` — looks for the registration of a machine before anything else

## Main results

* `Gateway.throughout_about` — every answer tells what came, whatever other requests do
* `Gateway.registrations_under_races` — answers about a machine, and later requests about it
-/

namespace HashGateway

open Exchange Traffic

/-! ## Answers about a machine -/

/-- A request looks up the registration of a machine, or registers it. -/
def Request.IsAbout (machine : String) (request : Request) : Prop :=
  request.demand? = some (.lookUp machine) ∨
    ∃ r, request.demand? = some (.register r) ∧ r.machine = machine

/-- A request looks up the registration of a machine, or registers it only if there is none. -/
def Request.LooksUp (machine : String) (request : Request) : Prop :=
  request.demand? = some (.lookUp machine) ∨
    ∃ r, request.demand? = some (.register r) ∧ r.machine = machine ∧ r.force = false

/-- An accepted registration of a machine for a user is among the requests that come. -/
def Traffic.Registers (occurs : Event → Prop) (machine user : String) : Prop :=
  ∃ request r, occurs (.arrive request) ∧ request.demand? = some (.register r) ∧
    r.machine = machine ∧ r.username = user

/-- The response to a request whose command failed. -/
def Traffic.Fault.response : Fault → Response
  | refused _ => .fail 200
  | unavailable _ => .fail 503

/-- What a request about a machine may be answered. -/
inductive Response.Tells (occurs : Event → Prop) (task : Nat) (request : Request)
    (machine : String) : Response → Prop
  /-- The record of the machine and of a user for whom it was to be registered. -/
  | record (user : String) (registers : Registers occurs machine user) :
    Tells occurs task request machine ⟨200, registrationText machine user⟩
  /-- There is no registration to look up. -/
  | missing (asks : request.demand? = some (.lookUp machine)) :
    Tells occurs task request machine ⟨200, Envelope.missing.text⟩
  /-- A command of the request failed. -/
  | failed (fault : Fault) (fails : occurs (.fail task fault)) :
    Tells occurs task request machine fault.response

/-! ## Owners -/

namespace Store

/-- Every machine of a store has the hash of one of the given registrations of it, or of none. -/
def OwnedFrom (given : String → String → Prop) (store : Store) : Prop :=
  ∀ machine, ∃ owner, store.hashOf (.user machine) = registrationHash machine owner ∧
    ∀ user, owner = some user → given machine user

namespace OwnedFrom

variable {given : String → String → Prop} {store : Store}

theorem empty : OwnedFrom given OrderedMap.empty := fun _ => ⟨none, rfl, by simp⟩

theorem write_other (owned : store.OwnedFrom given) {key : HashKey}
    (other : ∀ machine, key ≠ .user machine) (pairs : List (String × String)) :
    (store.write key pairs).OwnedFrom given := by
  intro machine
  rw [hashOf_write_of_ne (other machine).symm]
  exact owned machine

/-- A registration is written as a whole, so nothing of another one is left. -/
theorem write_registration (owned : store.OwnedFrom given) {machine user : String}
    (new : given machine user) :
    (store.write (.user machine) [("machine", machine), ("username", user)]).OwnedFrom given := by
  intro machine'
  rw [hashOf_write]
  split
  · next keys_eq =>
    obtain rfl := HashKey.user.inj keys_eq
    obtain ⟨owner, held, -⟩ := owned machine'
    exact ⟨some user, by rw [held, write_registrationHash], fun _ h => Option.some.inj h ▸ new⟩
  · exact owned machine'

end OwnedFrom

/-- A machine of a store is registered. -/
def HasOwner (machine : String) (store : Store) : Prop :=
  (store.hashOf (.user machine)).contains "username" = true

end Store

theorem contains_registrationHash {machine : String} {owner : Option String} :
    (registrationHash machine owner).contains "username" = true ↔ owner.isSome := by
  cases owner with
  | none => simp [registrationHash, OrderedMap.contains]
  | some user => simp [registrationHash, Hash.contains_write_iff, -Hash.write_cons]

theorem Store.OwnedFrom.exists_owner {given : String → String → Prop} {store : Store}
    {machine : String} (owned : store.OwnedFrom given) (has : store.HasOwner machine) :
    ∃ user, store.hashOf (.user machine) = registrationHash machine (some user) ∧
      given machine user := by
  obtain ⟨owner, held, came⟩ := owned machine
  rw [HasOwner, held, contains_registrationHash] at has
  obtain ⟨user, rfl⟩ := Option.isSome_iff_exists.mp has
  exact ⟨user, held, came user rfl⟩

/-! ## Looking up first -/

/-- Looks for the registration of a machine and sends it back; if there is none, goes on. -/
def Exchange.lookUpOr (machine : String) (other : Exchange (Except Error Outcome)) :
    Exchange (Except Error Outcome) :=
  send (lookUpCommand machine) fun found => (done (meaning .getUser found)).andThen fun
    | .notFound => other
    | outcome => done (.ok outcome)

theorem Exchange.perform_getUser_eq_lookUpOr (machine : String) :
    perform .getUser [.text machine] = lookUpOr machine (done (.ok .notFound)) := by
  rw [perform_getUser, lookUpOr]
  congr 1
  funext found
  cases meaning .getUser found with
  | error e => rfl
  | ok outcome => cases outcome <;> rfl

/-- A request that does not replace a registration looks for it first. -/
theorem Gateway.dispatch_of_looksUp {machine : String} {request : Request}
    (looks : request.LooksUp machine) (pageSize : Nat) :
    ∃ other, dispatch pageSize request = (lookUpOr machine other).respond := by
  rcases looks with demand | ⟨r, demand, rfl, unforced⟩
  · exact ⟨_, by rw [dispatch_of_demand? demand, Demand.exchange, perform_getUser_eq_lookUpOr]⟩
  · refine ⟨r.write, ?_⟩
    rw [dispatch_of_demand? demand, Demand.exchange, Registration.exchange_of_not_force unforced]
    rfl

section LookUpOr

variable {machine : String} {store : Store}

theorem Store.execute_lookUpCommand (store : Store) (machine : String) :
    store.execute (lookUpCommand machine) =
      (.ok (.array (Hash.listing (store.hashOf (.user machine)).entries)), store) := by
  have parsed : HashCommand.parse (lookUpCommand machine) =
      .ok (.getAll (HashKey.user machine).text) := HashCommand.parse_upper _ (by decide)
  simp only [execute, parsed]
  rfl

/-- A registration that is found is sent back as it is. -/
theorem Exchange.advance_lookUpOr_of_owner {user : String}
    (held : store.hashOf (.user machine) = registrationHash machine (some user))
    (other : Exchange (Except Error Outcome)) :
    (lookUpOr machine other).respond.advance Engine.memory store =
      (done ⟨200, registrationText machine user⟩, store) := by
  have found : meaning .getUser (store.execute (lookUpCommand machine)).1 =
      .ok (.success (registrationText machine user)) := by
    rw [store.execute_lookUpCommand, held, ← record_registrationHash, ← Hash.ofRecord_listing]
    rfl
  rw [lookUpOr, respond_send, advance_send, Engine.memory, found, store.execute_lookUpCommand]
  rfl

theorem Exchange.advance_lookUpOr_of_no_owner
    (held : store.hashOf (.user machine) = registrationHash machine none)
    (other : Exchange (Except Error Outcome)) :
    (lookUpOr machine other).respond.advance Engine.memory store = (other.respond, store) := by
  have found : meaning .getUser (store.execute (lookUpCommand machine)).1 = .ok .notFound := by
    rw [store.execute_lookUpCommand, held]
    rfl
  rw [lookUpOr, respond_send, advance_send, Engine.memory, found, store.execute_lookUpCommand]
  rfl

/-- What holds throughout an exchange that looks for a registration first. -/
theorem Exchange.Throughout.lookUpOr {given : String → String → Prop} {faults : Fault → Prop}
    {p : Exchange Response → Store → Prop} {other : Exchange (Except Error Outcome)}
    (waits : ∀ later, p (Exchange.lookUpOr machine other).respond later)
    (found : ∀ user later, given machine user → later.HasOwner machine →
      p (.done ⟨200, registrationText machine user⟩) later)
    (missing : ∀ later, store.Grows later → ¬ later.HasOwner machine →
      other.respond.Throughout (Store.OwnedFrom given) faults p later)
    (failed : ∀ fault later, faults fault → p (.done fault.response) later) :
    (Exchange.lookUpOr machine other).respond.Throughout (Store.OwnedFrom given) faults p
      store := by
  refine .send (fun later _ _ => waits later) (fun later _ owned => ?_)
    (fun later grows owned => ?_) fun later _ _ fault occurs => ?_
  · rwa [later.execute_lookUpCommand]
  · change Throughout _ _ _
      ((Exchange.lookUpOr machine other).respond.advance Engine.memory later).1
      ((Exchange.lookUpOr machine other).respond.advance Engine.memory later).2
    by_cases has : later.HasOwner machine
    -- The record is that of the look-up; that there is an owner stays true.
    · obtain ⟨user, held, came⟩ := owned.exists_owner has
      rw [advance_lookUpOr_of_owner held]
      exact .done fun last grows' _ => found user last came (grows'.contains_hashOf has)
    · obtain ⟨owner, held, -⟩ := owned machine
      obtain rfl : owner = none := by
        rw [Store.HasOwner, held, contains_registrationHash] at has
        simpa using has
      rw [advance_lookUpOr_of_no_owner held]
      exact missing later grows has
  · cases fault with
    | refused rejection => exact .done fun last _ _ => failed (.refused rejection) last occurs
    | unavailable detail => exact .done fun last _ _ => failed (.unavailable detail) last occurs

end LookUpOr

/-! ## Writing -/

theorem Store.execute_writeCommand (store : Store) (r : Registration) :
    store.execute r.writeCommand = (.ok .okay, store.write (.user r.machine)
      [("machine", r.machine), ("username", r.username)]) :=
  execute_of_parse_set (HashCommand.parse_upper _ (by decide)) store

/-- What holds throughout the write of a registration. -/
theorem Registration.throughout_write {given : String → String → Prop} {faults : Fault → Prop}
    {p : Exchange Response → Store → Prop} {store : Store} (r : Registration)
    (came : given r.machine r.username)
    (waits : ∀ later, p r.write.respond later)
    (written : ∀ later, later.HasOwner r.machine →
      p (.done ⟨200, registrationText r.machine r.username⟩) later)
    (failed : ∀ fault later, faults fault → p (.done fault.response) later) :
    r.write.respond.Throughout (Store.OwnedFrom given) faults p store := by
  have echo : r.echo = registrationText r.machine r.username :=
    text_object_registration r.machine r.username
  rw [write_eq] at waits ⊢
  refine .send (fun later _ _ => waits later) (fun later _ owned => ?_)
    (fun later grows owned => ?_) fun later _ _ fault occurs => ?_
  · rw [later.execute_writeCommand]
    exact owned.write_registration came
  -- Whatever was registered meanwhile, now it is this one.
  · rw [later.execute_writeCommand]
    have has : (later.write (.user r.machine)
        [("machine", r.machine), ("username", r.username)]).HasOwner r.machine := by
      rw [Store.HasOwner, Store.hashOf_write_self]
      exact Hash.contains_write_iff.mpr (.inl (by simp))
    refine .done fun last grows' _ => ?_
    change p (.done ⟨200, r.echo⟩) last
    rw [echo]
    exact written last (grows'.contains_hashOf has)
  · cases fault with
    | refused rejection => exact .done fun last _ _ => failed (.refused rejection) last occurs
    | unavailable detail => exact .done fun last _ _ => failed (.unavailable detail) last occurs

/-! ## Requests about a machine -/

section Told

variable {occurs : Event → Prop} {task : Nat} {request : Request} {store : Store}

/-- The answer to a request about a machine tells what came, and it tells of a registration only
if there is one. -/
def Request.Told (occurs : Event → Prop) (task : Nat) (request : Request)
    (x : Exchange Response) (store : Store) : Prop :=
  ∀ response, x = done response → ∀ machine, request.IsAbout machine →
    response.Tells occurs task request machine ∧
      ∀ user, response = ⟨200, registrationText machine user⟩ → store.HasOwner machine

namespace Request

theorem told_of_not_isAbout (h : ∀ machine, ¬ request.IsAbout machine) (x : Exchange Response) :
    request.Told occurs task x store :=
  fun _ _ machine about => absurd about (h machine)

theorem told_send (command : Command) (next : Answer → Exchange Response) :
    request.Told occurs task (send command next) store := nofun

theorem told_failed {fault : Fault} (fails : occurs (.fail task fault)) :
    request.Told occurs task (done fault.response) store := by
  rintro response ⟨⟩ machine -
  refine ⟨.failed fault fails, fun user record => ?_⟩
  cases fault with
  | refused rejection =>
    exact absurd (Response.mk.inj record).2.symm (isPayload_registrationText machine user _)
  | unavailable detail => exact absurd (Response.mk.inj record).1 (by decide)

theorem isAbout_lookUp {machine machine' : String}
    (demand : request.demand? = some (.lookUp machine)) (about : request.IsAbout machine') :
    machine' = machine := by
  simpa [IsAbout, demand, eq_comm] using about

theorem isAbout_register {machine : String} {r : Registration}
    (demand : request.demand? = some (.register r)) (about : request.IsAbout machine) :
    machine = r.machine := by
  simpa [IsAbout, demand, eq_comm] using about

end Request

namespace Gateway

variable {pageSize : Nat}

theorem throughout_lookUp {machine : String} (accepted : request.demand? = some (.lookUp machine))
    (store : Store) :
    (dispatch pageSize request).Throughout (Store.OwnedFrom (Registers occurs))
      (fun fault => occurs (.fail task fault)) (request.Told occurs task) store := by
  rw [dispatch_of_demand? accepted, Demand.exchange, perform_getUser_eq_lookUpOr]
  refine .lookUpOr (fun later => Request.told_send _ _) (fun user later registers has => ?_)
    (fun later _ _ => .done fun last _ _ => ?_) fun fault later fails => Request.told_failed fails
  · rintro response ⟨⟩ machine' about
    obtain rfl := Request.isAbout_lookUp accepted about
    exact ⟨.record user registers, fun _ _ => has⟩
  · rintro response ⟨⟩ machine' about
    obtain rfl := Request.isAbout_lookUp accepted about
    refine ⟨.missing accepted, fun user record => ?_⟩
    exact absurd (Response.mk.inj record).2.symm (isPayload_registrationText machine' user _)

theorem throughout_register {r : Registration} (came : occurs (.arrive request))
    (accepted : request.demand? = some (.register r)) (store : Store) :
    (dispatch pageSize request).Throughout (Store.OwnedFrom (Registers occurs))
      (fun fault => occurs (.fail task fault)) (request.Told occurs task) store := by
  have told (user : String) (later : Store) (registers : Registers occurs r.machine user)
      (has : later.HasOwner r.machine) :
      request.Told occurs task (done ⟨200, registrationText r.machine user⟩) later := by
    rintro response ⟨⟩ machine about
    obtain rfl := Request.isAbout_register accepted about
    exact ⟨.record user registers, fun _ _ => has⟩
  have write (store : Store) : r.write.respond.Throughout (Store.OwnedFrom (Registers occurs))
      (fun fault => occurs (.fail task fault)) (request.Told occurs task) store := by
    have registers : Registers occurs r.machine r.username :=
      ⟨request, r, came, accepted, rfl, rfl⟩
    refine r.throughout_write registers (fun later => ?_)
      (fun later has => told _ later registers has) fun fault later fails =>
        Request.told_failed fails
    rw [Registration.write_eq]
    exact Request.told_send _ _
  rw [dispatch_of_demand? accepted, Demand.exchange]
  cases force : r.force with
  | true =>
    rw [Registration.exchange_of_force force]
    exact write store
  | false =>
    -- What the write meets may be owned by now; it is written over all the same.
    rw [Registration.exchange_of_not_force force]
    exact .lookUpOr (fun later => Request.told_send _ _) told (fun later _ _ => write later)
      fun fault later fails => Request.told_failed fails

/-- Whatever other requests do, a request about a machine is told what came. -/
theorem throughout_about (task : Nat) (came : occurs (.arrive request)) (store : Store) :
    (dispatch pageSize request).Throughout (Store.OwnedFrom (Registers occurs))
      (fun fault => occurs (.fail task fault)) (request.Told occurs task) store := by
  -- A request that is not about a machine writes no registration.
  have other (demand : Demand)
      (elsewhere : ∀ entry ∈ demand.writes, ∀ machine, entry.1 ≠ .user machine)
      (apart : ∀ machine, ¬ request.IsAbout machine) :
      (demand.exchange pageSize).respond.Throughout (Store.OwnedFrom (Registers occurs))
        (fun fault => occurs (.fail task fault)) (request.Told occurs task) store := by
    have sends : (demand.exchange pageSize).Sends
        (Command.Keeps (Store.OwnedFrom (Registers occurs))) :=
      demand.sends_keeps pageSize fun entry mem store owned =>
        owned.write_other (elsewhere entry mem) entry.2
    exact (sends.respond.throughout store).mono fun x _ _ _ => Request.told_of_not_isAbout apart x
  cases accepted : request.demand? with
  | none =>
    rw [dispatch_of_demand?_eq_none accepted]
    exact .done fun _ _ _ => Request.told_of_not_isAbout (by simp [Request.IsAbout, accepted]) _
  | some demand =>
    cases demand with
    | lookUp machine => exact throughout_lookUp accepted store
    | register r => exact throughout_register came accepted store
    | _ =>
      rw [dispatch_of_demand? accepted]
      exact other _ (by simp [Demand.writes]) (by simp [Request.IsAbout, accepted])

end Gateway

end Told

/-! ## Traffic -/

/-- What becomes of a request that finds a registration. -/
structure Traffic.FindsOwner (pageSize : Nat) (traffic : Traffic) (task : Nat)
    (machine : String) : Prop where
  /-- It is never told that there is none. -/
  found : traffic.response? task ≠ some ⟨200, Envelope.missing.text⟩
  /-- It sends nothing but its look-up. -/
  waits : ∀ command, traffic.command? task = some command → command = lookUpCommand machine
  /-- Its look-up leaves the store alone and is answered with the record that is there. -/
  served : traffic.command? task = some (lookUpCommand machine) →
    ∃ user, traffic.store.hashOf (.user machine) = registrationHash machine (some user) ∧
      (traffic.step pageSize (.serve task)).store = traffic.store ∧
      (traffic.step pageSize (.serve task)).response? task =
        some ⟨200, registrationText machine user⟩

namespace Gateway

variable {pageSize : Nat} {machine : String}

theorem upheld_about (pageSize : Nat) {occurs : Event → Prop} (events : List Event)
    (given : ∀ event ∈ events, occurs event) :
    Upheld (Store.OwnedFrom (Registers occurs)) occurs
      (fun task request => request.Told occurs task) (after pageSize events) :=
  (upheld_start Store.OwnedFrom.empty).run
    (fun task _ store came _ _ _ => throughout_about task came store) given

/-- A request that does not replace a registration waits for its look-up or has been answered, and
not that there is none, if there is one from the beginning. -/
theorem throughout_looksUp {request : Request} {given : String → String → Prop}
    (looks : request.LooksUp machine) (faults : Fault → Prop) {store : Store}
    (has : store.HasOwner machine) :
    (dispatch pageSize request).Throughout (Store.OwnedFrom given) faults
      (fun x _ => x = dispatch pageSize request ∨
        ∃ response, x = .done response ∧ response ≠ ⟨200, Envelope.missing.text⟩) store := by
  obtain ⟨other, resumes⟩ := dispatch_of_looksUp looks pageSize
  rw [resumes]
  refine .lookUpOr (fun later => .inl rfl) (fun user later _ _ => .inr ⟨_, rfl, fun missing => ?_⟩)
    (fun later grows lacks => absurd (grows.contains_hashOf has) lacks)
    fun fault later _ => .inr ⟨_, rfl, ?_⟩
  · exact isPayload_registrationText machine user _ (Response.mk.inj missing).2
  · cases fault with
    | refused rejection =>
      exact fun missing => absurd (Response.mk.inj missing).2 (by decide)
    | unavailable detail =>
      exact fun missing => absurd (Response.mk.inj missing).1 (by decide)

/-- A request that waits for its look-up, or has been answered, finds the owner that there is. -/
theorem findsOwner_of_looksUp {traffic : Traffic} {task : Nat} {request : Request}
    {x : Exchange Response} {user : String} (there : traffic.tasks[task]? = some ⟨request, x⟩)
    (looks : request.LooksUp machine)
    (held : traffic.store.hashOf (.user machine) = registrationHash machine (some user))
    (waits : x = dispatch pageSize request ∨
      ∃ response, x = .done response ∧ response ≠ ⟨200, Envelope.missing.text⟩) :
    traffic.FindsOwner pageSize task machine := by
  have command := command?_of_getElem? there
  have response := response?_of_getElem? there
  rcases waits with rfl | ⟨told, rfl, other⟩
  -- It waits for its first command.
  · obtain ⟨other, resumes⟩ := dispatch_of_looksUp looks pageSize
    rw [resumes] at there command response
    refine ⟨?_, fun waits sends => ?_, fun _ => ⟨user, held, ?_, ?_⟩⟩
    · rw [response]
      exact nofun
    · rw [command] at sends
      exact (Option.some.inj sends).symm
    · rw [step_serve, answer_of_getElem? there, advance_lookUpOr_of_owner held]
    · rw [step_serve, response?_of_getElem? (getElem?_answer_self there _),
        advance_lookUpOr_of_owner held, result?_done]
  -- It has been answered and waits for nothing.
  · rw [command?_done] at command
    refine ⟨?_, fun waits sends => ?_, fun sends => ?_⟩
    · rw [response, result?_done]
      exact fun missing => other (Option.some.inj missing)
    · simp [command] at sends
    · simp [command] at sends

/-- Once a machine has an owner, all requests that come later and do not replace it find one. -/
theorem findsOwner_after {traffic : Traffic}
    (upheld : Upheld (Store.OwnedFrom (Registers fun _ => True)) (fun _ => True)
      (fun _ _ _ _ => True) traffic)
    (has : traffic.store.HasOwner machine) (later : List Event) {task : Nat} {request : Request}
    (late : traffic.tasks.length ≤ task)
    (asks : (later.foldl (step pageSize) traffic).request? task = some request)
    (looks : request.LooksUp machine) :
    (later.foldl (step pageSize) traffic).FindsOwner pageSize task machine := by
  have upheld' : Upheld (Store.OwnedFrom (Registers fun _ => True)) (fun _ => True)
      (fun task request x _ => traffic.tasks.length ≤ task → request.LooksUp machine →
        x = dispatch pageSize request ∨
          ∃ response, x = .done response ∧ response ≠ ⟨200, Envelope.missing.text⟩)
      (later.foldl (step pageSize) traffic) := by
    -- Of the requests that are there already nothing is asked.
    refine (upheld.mono fun task request x store early _ _ late => ?_).run
      (fun task request store came _ grows _ => ?_) fun _ _ => trivial
    · omega
    · by_cases looks : request.LooksUp machine
      · exact (throughout_looksUp looks _ (grows.contains_hashOf has)).mono
          fun _ _ _ waits _ _ => waits
      · exact (throughout_about task came store).mono
          fun _ _ _ _ _ looks' => absurd looks' looks
  obtain ⟨user, held, -⟩ :=
    upheld'.store.exists_owner ((grows_foldl pageSize traffic later).1.contains_hashOf has)
  obtain ⟨x, there⟩ := exists_of_request? asks
  exact findsOwner_of_looksUp there looks held (upheld'.holds there late looks)

/-- However many requests are on their way at the same time, in whatever order their commands are
served and whichever of them fail:

* A request about a machine is answered with the record of the machine and a user for whom an
  accepted registration of this machine has come, or, if it only looks the machine up, that there
  is none. It fails only with a command of its own. This holds after every run, the one that ends
  with the answer among them, so the registration came before the answer.
* Once a registration of a machine has been answered with a record, every request that comes later
  and does not replace a registration finds one. -/
theorem registrations_under_races (pageSize : Nat) (events : List Event) (machine : String) :
    (∀ task request response, (after pageSize events).request? task = some request →
      request.IsAbout machine → (after pageSize events).response? task = some response →
        response.Tells (· ∈ events) task request machine) ∧
    ((∃ task request r user, (after pageSize events).request? task = some request ∧
        request.demand? = some (.register r) ∧ r.machine = machine ∧
        (after pageSize events).response? task = some ⟨200, registrationText machine user⟩) →
      ∀ later task request, (after pageSize events).tasks.length ≤ task →
        (after pageSize (events ++ later)).request? task = some request →
          request.LooksUp machine →
            (after pageSize (events ++ later)).FindsOwner pageSize task machine) := by
  refine ⟨fun task request response asks about answered => ?_, ?_⟩
  · have upheld := upheld_about pageSize events fun _ mem => mem
    exact (upheld.holds (getElem?_of_response? asks answered) response rfl machine about).1
  -- Who was answered with a record has left an owner behind.
  rintro ⟨task, request, r, user, asks, demand, machine_eq, answered⟩
    later task' request' late asks' looks
  have upheld : Upheld _ (fun _ => True) _ _ := upheld_about pageSize events fun _ _ => trivial
  have has := (upheld.holds (getElem?_of_response? asks answered) _ rfl machine
    (.inr ⟨r, demand, machine_eq⟩)).2 user rfl
  rw [after_append] at asks' ⊢
  exact findsOwner_after (upheld.mono fun _ _ _ _ _ _ _ => trivial) has later late asks' looks

/-- Two first registrations of a machine that both find nothing and both are written, and a third
one that comes after the first of them was answered. -/
theorem registrations_under_races_twice :
    let register (user : String) : Request := ⟨"POST", "/userregister",
      Utf8.bytes ("[\"m\",\"" ++ user ++ "\",0]"), 0⟩
    let events : List Event := [.arrive (register "alice"), .arrive (register "bob"), .serve 0,
      .serve 1, .serve 0]
    let traffic := after 20 (events ++ [.arrive (register "carol"), .serve 1])
    (after 20 events).response? 0 = some ⟨200, registrationText "m" "alice"⟩ ∧
      Response.Tells (· ∈ events) 0 (register "alice") "m"
        ⟨200, registrationText "m" "alice"⟩ ∧
      (traffic.step 20 (.serve 2)).response? 2 = some ⟨200, registrationText "m" "bob"⟩ := by
  intro register events traffic
  have alice : (register "alice").demand? = some (.register ⟨"m", "alice", false⟩) :=
    Request.demand?_posted .registerUser 0 (by decide +kernel) (by decide +kernel)
  have carol : (register "carol").demand? = some (.register ⟨"m", "carol", false⟩) :=
    Request.demand?_posted .registerUser 0 (by decide +kernel) (by decide +kernel)
  have asks : (after 20 events).request? 0 = some (register "alice") := by decide +kernel
  have answered : (after 20 events).response? 0 = some ⟨200, registrationText "m" "alice"⟩ := by
    decide +kernel
  obtain ⟨told, finds⟩ := registrations_under_races 20 events "m"
  have later := finds ⟨0, _, _, "alice", asks, alice, rfl, answered⟩
    [.arrive (register "carol"), .serve 1] 2 (register "carol") (by decide +kernel)
    (by decide +kernel) (.inr ⟨_, carol, rfl, rfl⟩)
  obtain ⟨user, held, -, response⟩ := later.served (by decide +kernel)
  have owner : (traffic.store.hashOf (.user "m")).find? "username" = some "bob" := by
    decide +kernel
  have is_bob : user = "bob" := by
    rw [held] at owner
    simpa [registrationHash, OrderedMap.find?_insert] using owner
  exact ⟨answered, told 0 _ _ asks (.inr ⟨_, alice, rfl⟩) answered, is_bob ▸ response⟩

end Gateway

end HashGateway
