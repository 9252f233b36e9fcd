import HashGateway.Proofs.Record.Texts
import HashGateway.Proofs.Session

/-!
# Registrations

Who is registered for a machine is a fold over the registrations of this machine that
were accepted: a forced one replaces the user, any other one sets the user only if
there is none. Every answer about a machine shows the user of this fold.

## Main definitions

* `Registration.replace` — the user of a machine after one more registration
* `registeredUser` — the user of a machine after a run of requests
* `registrationText` — the compact JSON text of a machine and its user

## Main results

* `hashOf_user_after` — the hash of a machine holds the registered user and nothing else
* `Gateway.answers_with_registered_user` — every answer about a machine shows this user
-/

namespace HashGateway

/-- The user of a machine after one more registration. -/
def Registration.replace (user : Option String) (r : Registration) : Option String :=
  if r.force then some r.username else user.or (some r.username)

/-- The registration of a machine that a request asks for, if it is accepted. -/
def Request.registration? (machine : String) (request : Request) : Option Registration :=
  match request.demand? with
  | some (.register r) => if r.machine = machine then some r else none
  | _ => none

/-- The user of a machine after a run of requests: its accepted registrations in turn. -/
def registeredUser (machine : String) (requests : List Request) : Option String :=
  (requests.filterMap (Request.registration? machine)).foldl Registration.replace none

/-- The compact JSON text of a machine and its user. -/
def registrationText (machine user : String) : String :=
  "\x7b\"machine\":" ++ String.ofList (Json.renderString machine) ++ ",\"username\":" ++
    String.ofList (Json.renderString user) ++ "\x7d"

/-- The hash of a machine with this user. -/
def registrationHash (machine : String) : Option String → Hash
  | none => OrderedMap.empty
  | some user => Hash.write OrderedMap.empty [("machine", machine), ("username", user)]

section RegistrationHash

variable (machine user user' : String)

theorem entries_registrationHash :
    (registrationHash machine (some user)).entries =
      [("machine", machine), ("username", user)] := by
  have before : "machine" < "username" := by decide
  have not_before : ¬ "username" < "machine" := by decide
  simp [registrationHash, OrderedMap.insert, Ordered.insert, not_before]

/-- A registration takes the place of an older one. -/
theorem write_registrationHash (owner : Option String) :
    (registrationHash machine owner).write [("machine", machine), ("username", user)] =
      registrationHash machine (some user) := by
  -- Both fields are written, so nothing of the older registration is left.
  refine OrderedMap.ext_find? fun field => ?_
  cases owner with
  | none => rfl
  | some user' =>
    simp only [registrationHash, Hash.write_cons, Hash.write_nil, OrderedMap.find?_insert]
    split_ifs <;> rfl

theorem text_object_registration :
    (Json.Value.object [("machine", .string machine), ("username", .string user)]).text =
      registrationText machine user := by
  have machine_name : Json.renderString "machine" = "\"machine\"".toList := by decide
  have username_name : Json.renderString "username" = "\"username\"".toList := by decide
  simp [Json.Value.text, Json.Value.render, Json.renderMembers, Json.commaSeparated,
    registrationText, machine_name, username_name, ← String.toList_inj]

/-- The text of a registration is no envelope: a machine is read from it. -/
theorem isPayload_registrationText : IsPayload (registrationText machine user) := by
  obtain ⟨m, first, machine_text⟩ := Record.exists_member "machine" machine
  obtain ⟨m', second, -⟩ := Record.exists_member "username" user
  have queries : MachineQuery.shape.IsApart := by decide
  have read : MachineQuery.shape.parse (Utf8.bytes (registrationText machine user)) =
      .ok (machine, ()) := by
    rw [← text_object_registration]
    exact Record.Shape.parse_text (.cons first (.cons second .nil))
      (Record.Draft.ofMembers_cons first
        (Record.Draft.ofMember_own "machine" machine_text _)
        (Record.Draft.ofMembers_cons second
          (Record.Draft.ofMember_other (by decide : "username" ≠ "machine") rfl _) rfl)) rfl
  exact isPayload_of_parse queries read

theorem record_registrationHash :
    (registrationHash machine (some user)).record = .success (registrationText machine user) := by
  rw [Hash.record, entries_registrationHash, if_neg (List.cons_ne_nil _ _)]
  exact congrArg Outcome.success (text_object_registration machine user)

end RegistrationHash

/-! ## Runs -/

theorem registeredUser_append (machine : String) (requests : List Request) (request : Request) :
    registeredUser machine (requests ++ [request]) =
      match request.registration? machine with
      | some r => r.replace (registeredUser machine requests)
      | none => registeredUser machine requests := by
  rw [registeredUser, List.filterMap_append, List.foldl_append]
  cases h : request.registration? machine <;> simp [h, registeredUser]

/-- Only a registration of a machine changes the hash of this machine. -/
theorem Request.hashOf_user_effect {machine : String} {request : Request} (store : Store)
    (h : request.registration? machine = none) :
    (request.effect store).hashOf (.user machine) = store.hashOf (.user machine) := by
  unfold Request.registration? at h
  cases demand : request.demand? with
  | none => rw [Request.effect_of_demand?_eq_none demand]
  | some d =>
    rw [Request.effect_of_demand? demand]
    rw [demand] at h
    cases d with
    | register r =>
      -- A registration that does not count for this machine is one of another machine.
      have other : r.machine ≠ machine := fun e => by simp [e] at h
      simp only [Demand.effect]
      split
      · exact Store.hashOf_write_of_ne (by simpa using other.symm) _ _
      · rfl
    | storeFile f =>
      rw [Demand.effect, Store.hashOf_write_of_ne (by simp), Store.hashOf_write_of_ne (by simp)]
    | addTrace t => rw [Demand.effect, Store.hashOf_write_of_ne (by simp)]
    | lookUp _ => rfl
    | fetchFile _ => rfl
    | page _ _ => rfl

theorem Request.demand?_of_registration? {machine : String} {request : Request} {r : Registration}
    (h : request.registration? machine = some r) :
    request.demand? = some (.register r) ∧ r.machine = machine := by
  unfold Request.registration? at h
  split at h
  · next r' demand =>
    split at h
    · next own =>
      obtain rfl := Option.some.inj h
      exact ⟨demand, own⟩
    · simp at h
  · simp at h

/-- What a registration does to the hash of its machine, and how it is answered. -/
theorem Registration.serve {store : Store} {machine : String} {owner : Option String}
    (held : store.hashOf (.user machine) = registrationHash machine owner) (r : Registration)
    (own : r.machine = machine) : ∃ user, r.replace owner = some user ∧
      ((Demand.register r).effect store).hashOf (.user machine) =
        registrationHash machine (some user) ∧
      ∀ pageSize, (Demand.register r).outcome pageSize store =
        .success (registrationText machine user) := by
  subst own
  have echo : r.echo = registrationText r.machine r.username :=
    text_object_registration r.machine r.username
  -- A forced registration is written, and so is any other one if nobody is registered; else the
  -- answer is read from the hash.
  by_cases force : r.force = true
  · refine ⟨r.username, by simp [replace, force], ?_, fun _ => ?_⟩
    · rw [Demand.effect, if_pos (.inl force), Store.hashOf_write_self, held,
        write_registrationHash]
    · rw [Demand.outcome, if_pos (.inl force), echo]
  cases owner with
  | none =>
    have empty : (store.hashOf (.user r.machine)).entries = [] := by rw [held]; rfl
    refine ⟨r.username, by simp [replace], ?_, fun _ => ?_⟩
    · rw [Demand.effect, if_pos (.inr empty), Store.hashOf_write_self, held,
        write_registrationHash]
    · rw [Demand.outcome, if_pos (.inr empty), echo]
  | some user =>
    have kept : ¬ (r.force = true ∨ (store.hashOf (.user r.machine)).entries = []) := by
      rw [held, entries_registrationHash]
      simp [force]
    refine ⟨user, by simp [replace, force], ?_, fun _ => ?_⟩
    · rw [Demand.effect, if_neg kept, held]
    · rw [Demand.outcome, if_neg kept, held, record_registrationHash]

/-- The hash of a machine holds its registered user and nothing else. -/
theorem hashOf_user_after (machine : String) (requests : List Request) :
    (Store.after OrderedMap.empty requests).hashOf (.user machine) =
      registrationHash machine (registeredUser machine requests) := by
  -- Induction from the end: the last request meets the store after all others.
  induction requests using List.reverseRecOn with
  | nil => rfl
  | append_singleton requests request ih =>
    rw [Store.after_append, Store.after_cons, Store.after_nil, registeredUser_append]
    cases h : request.registration? machine with
    | none => rw [Request.hashOf_user_effect _ h, ih]
    | some r =>
      obtain ⟨demand, own⟩ := Request.demand?_of_registration? h
      obtain ⟨user, replaced, held, -⟩ := Registration.serve ih r own
      simp only [Request.effect_of_demand? demand, held, replaced]

/-- Every answer about a machine shows its registered user. Wherever in a run an accepted look-up
of the machine stands, it is answered with the user of the requests before it, or with nothing
found if there is none; an accepted registration of the machine is answered with the same text,
for the user after it, whether it was written or read. -/
theorem Gateway.answers_with_registered_user (pageSize : Nat) (earlier later : List Request)
    (request : Request) (machine : String) :
    let responses := (serveAll Engine.memory pageSize (earlier ++ request :: later)
      OrderedMap.empty).1
    (request.demand? = some (.lookUp machine) → responses[earlier.length]? = some ⟨200,
      match registeredUser machine earlier with
      | some user => registrationText machine user
      | none => Envelope.missing.text⟩) ∧
    (∀ r, request.demand? = some (.register r) → r.machine = machine →
      ∃ user, registeredUser machine (earlier ++ [request]) = some user ∧
        responses[earlier.length]? = some ⟨200, registrationText machine user⟩) := by
  intro responses
  -- What the requests before have left of the machine is the hash of its registered user.
  have held := hashOf_user_after machine earlier
  have answered : responses[earlier.length]? =
      some (request.response pageSize (Store.after OrderedMap.empty earlier)) :=
    response_serveAll pageSize earlier later request OrderedMap.empty
  refine ⟨fun demand => ?_, fun r demand own => ?_⟩
  · rw [answered, Request.response_of_demand? demand, Demand.outcome, held]
    cases registeredUser machine earlier with
    | none => rfl
    | some user => rw [record_registrationHash]; rfl
  · obtain ⟨user, replaced, -, outcome⟩ := Registration.serve held r own
    refine ⟨user, ?_, ?_⟩
    · have registration : request.registration? machine = some r := by
        simp [Request.registration?, demand, own]
      rw [registeredUser_append, registration, ← replaced]
    · rw [answered, Request.response_of_demand? demand, outcome]
      rfl

/-- Two registrations of one machine, the second unforced, and then a look-up. -/
theorem Gateway.answers_with_registered_user_alice :
    let alice : Request := ⟨"POST", "/userregister",
      Utf8.bytes "\x7b\"machine\":\"m\",\"username\":\"alice\",\"flag\":1\x7d", 0⟩
    let bob : Request := ⟨"post", "/userregister?x",
      Utf8.bytes "[\"m\", \"bob\", 0]", 1⟩
    let lookUp : Request := ⟨"POST", "/userget", Utf8.bytes "\x7b\"machine\":\"m\"\x7d", 2⟩
    let responses := (serveAll Engine.memory 20 [alice, bob, lookUp] OrderedMap.empty).1
    bob.demand? = some (.register ⟨"m", "bob", false⟩) ∧
      responses[1]? = some ⟨200, registrationText "m" "alice"⟩ ∧
      lookUp.demand? = some (.lookUp "m") ∧
      responses[2]? = some ⟨200, registrationText "m" "alice"⟩ := by
  intro alice bob lookUp responses
  have alice_demand : alice.demand? = some (.register ⟨"m", "alice", true⟩) :=
    Request.demand?_eq_some_iff.mpr ⟨by decide +kernel, by decide +kernel,
      map_toUpper_eq (by decide), .registerUser, by decide +kernel, by decide +kernel⟩
  have bob_demand : bob.demand? = some (.register ⟨"m", "bob", false⟩) :=
    Request.demand?_eq_some_iff.mpr ⟨by decide +kernel, by decide +kernel,
      map_toUpper_eq (by decide), .registerUser, by decide +kernel, by decide +kernel⟩
  have lookUp_demand : lookUp.demand? = some (.lookUp "m") :=
    Request.demand?_eq_some_iff.mpr ⟨by decide +kernel, by decide +kernel,
      map_toUpper_eq (by decide), .getUser, by decide +kernel, by decide +kernel⟩
  have after_bob : registeredUser "m" [alice, bob] = some "alice" := by
    simp [registeredUser, Request.registration?, alice_demand, bob_demand, Registration.replace]
  obtain ⟨user, registered, answered⟩ :=
    (answers_with_registered_user 20 [alice] [lookUp] bob "m").2 _ bob_demand rfl
  obtain rfl : "alice" = user := Option.some.inj (after_bob.symm.trans registered)
  have looked_up := (answers_with_registered_user 20 [alice, bob] [] lookUp "m").1 lookUp_demand
  rw [after_bob] at looked_up
  exact ⟨bob_demand, answered, lookUp_demand, looked_up⟩

end HashGateway
