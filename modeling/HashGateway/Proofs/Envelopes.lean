import HashGateway.Proofs.FileListing
import HashGateway.Proofs.WellFormed

/-!
# Envelopes

An answer with status 200 is a payload or an envelope, and nothing but its body tells which. A
document is sent back as it was stored, so whether a client can tell depends on what is stored. But
every payload holds a record of some kind: a registration, a file, a trace entry or a page. An
envelope has none of the fields of these records, so no payload is an envelope.

## Main definitions

* `Demand.FindsNothing` — what is looked up is not in a store
* `Demand.Answered` — the outcomes that a demand may have
* `Endpoint.IsClear` — a client can tell from a body how its request went

## Main results

* `Page.isPayload_text` — a page is no envelope, whatever its documents are
* `Demand.answered` — every outcome is what it says, and its payload is no envelope
* `Gateway.envelopes_are_clear` — wherever in a run a request stands, its answer is clear
-/

namespace HashGateway

/-- A page is no envelope: where the next one begins is read from it. -/
theorem Page.isPayload_text {list : String} (other : list ≠ "page") {page : Page}
    (fits : page.next ≤ Numeral.max64) : IsPayload (page.text list) := by
  have cursor : Record.Shape.IsApart ⟨"Page", [⟨"page", .natural⟩]⟩ := by decide
  have read := Page.nextPage?_text other page fits
  rw [nextPage?] at read
  obtain ⟨row, read, -⟩ := Option.map_eq_some_iff.mp read
  exact isPayload_of_parse cursor (Except.toOption_eq_some.mp read)

theorem Store.isPayload_page (store : Store) (listing : Listing) (cursor count : Nat) :
    IsPayload ((store.page listing cursor count).text listing.name) :=
  Page.isPayload_text listing.name_ne (Scan.next_le _ _)

/-! ## Outcomes -/

namespace Demand

/-- What is looked up is not in a store. -/
def FindsNothing : Demand → Store → Prop
  | lookUp machine, store => (store.hashOf (.user machine)).entries = []
  | fetchFile uuid, store => (store.hashOf (.file uuid)).find? uuid = none
  | _, _ => False

/-- A write is acknowledged, and nothing else is sent back. -/
def IsAcknowledged : Demand → Prop
  | storeFile _ => True
  | addTrace _ => True
  | _ => False

/-- The outcomes that a demand may have at a store. -/
inductive Answered (demand : Demand) (store : Store) : Outcome → Prop
  | missing (nothing : demand.FindsNothing store) : Answered demand store .notFound
  | failed (something : ¬ demand.FindsNothing store) : Answered demand store .failure
  | acknowledged (writes : demand.IsAcknowledged) (something : ¬ demand.FindsNothing store) :
    Answered demand store .acknowledged
  | payload {text : String} (reads : ¬ demand.IsAcknowledged)
    (something : ¬ demand.FindsNothing store) (apart : IsPayload text) :
    Answered demand store (.success text)

/-- The outcome of a demand at a well-formed store is one of these. -/
theorem answered {store : Store} (wellFormed : store.WellFormed) (demand : Demand)
    (pageSize : Nat) : demand.Answered store (demand.outcome pageSize store) := by
  cases demand with
  | register r =>
    -- Written now or earlier, what is sent back is the text of a registration.
    rw [outcome]
    split
    · rw [show r.echo = registrationText r.machine r.username from text_object_registration _ _]
      exact .payload id id (isPayload_registrationText _ _)
    · next kept =>
      obtain ⟨owner, held⟩ := wellFormed.exists_owner r.machine
      cases owner with
      | none => exact absurd (by rw [held]; rfl) (not_or.mp kept).2
      | some user =>
        rw [held, record_registrationHash]
        exact .payload id id (isPayload_registrationText _ _)
  | lookUp machine =>
    obtain ⟨owner, held⟩ := wellFormed.exists_owner machine
    rw [outcome, held]
    cases owner with
    | none => exact .missing (by rw [FindsNothing, held]; rfl)
    | some user =>
      have something : ¬ (lookUp machine).FindsNothing store := by
        simp [FindsNothing, held, entries_registrationHash]
      rw [record_registrationHash]
      exact .payload id something (isPayload_registrationText _ _)
  | storeFile f => exact .acknowledged trivial id
  | fetchFile uuid =>
    rw [outcome]
    cases found : (store.hashOf (.file uuid)).find? uuid with
    | none => exact .missing found
    | some data =>
      -- The text of a client is sent back as it is; that it holds a record was seen to before.
      exact .payload id (by simp [FindsNothing, found]) (wellFormed.isPayload found)
  | addTrace t =>
    rw [outcome]
    split
    · exact .failed id
    · exact .acknowledged trivial id
  | page listing cursor =>
    rw [outcome]
    split
    · exact .payload id id (store.isPayload_page listing cursor pageSize)
    · exact .failed id

end Demand

/-! ## Answers -/

/-- A client can tell from a body how its request went at an endpoint: it is one of the three
envelopes exactly when the outcome is the one that this envelope stands for, nothing is found
exactly if what is looked up is not in the store, only writes are acknowledged, and a payload of
any other endpoint is no envelope at all. -/
structure Endpoint.IsClear (endpoint : Endpoint) (demand : Demand) (store : Store)
    (outcome : Outcome) (body : String) : Prop where
  missing : body = Envelope.missing.text ↔ outcome = .notFound
  nothing : outcome = .notFound ↔ demand.FindsNothing store
  failed : body = Envelope.fail.text ↔ outcome = .failure
  acknowledged : body = Envelope.ok.text ↔ outcome = .acknowledged
  writes : outcome = .acknowledged → endpoint = .setFile ∨ endpoint = .addTrace
  payload : ∀ text, outcome = .success text → endpoint ≠ .setFile → endpoint ≠ .addTrace →
    IsPayload text

/-- Acknowledged is what is posted to two endpoints. -/
theorem Endpoint.isAcknowledged_iff {endpoint : Endpoint} {stamp : Int} {body : Bytes}
    {demand : Demand} (held : endpoint.demand stamp body = .ok demand) :
    demand.IsAcknowledged ↔ endpoint = .setFile ∨ endpoint = .addTrace := by
  cases endpoint with
  | registerUser | getUser | setFile | getFile | listFiles | addTrace | listTraces =>
    obtain ⟨record, -, rfl⟩ := Except.map_eq_ok.mp held
    simp [Demand.IsAcknowledged]

/-- The texts of the three envelopes differ. -/
theorem Envelope.texts_differ : ok.text ≠ fail.text ∧ ok.text ≠ missing.text ∧
    fail.text ≠ missing.text := by
  refine ⟨fun texts => ?_, fun texts => ?_, fun texts => ?_⟩
  all_goals simpa [ok, fail, missing] using congrArg flag (text_injective texts)

/-- What a demand is answered is clear at the endpoint that it comes from. -/
theorem Demand.Answered.isClear {endpoint : Endpoint} {stamp : Int} {body : Bytes}
    {demand : Demand} {store : Store} {outcome : Outcome}
    (held : endpoint.demand stamp body = .ok demand) (answered : demand.Answered store outcome) :
    endpoint.IsClear demand store outcome outcome.body := by
  obtain ⟨ok_fail, ok_missing, fail_missing⟩ := Envelope.texts_differ
  have writes := Endpoint.isAcknowledged_iff held
  -- Each way to be answered has a text of its own, so it decides all parts.
  cases answered with
  | missing nothing =>
    exact {
      missing := iff_of_true rfl rfl
      nothing := iff_of_true rfl nothing
      failed := iff_of_false fail_missing.symm (by simp)
      acknowledged := iff_of_false ok_missing.symm (by simp [Outcome.acknowledged])
      writes := by simp [Outcome.acknowledged]
      payload := by simp }
  | failed something =>
    exact {
      missing := iff_of_false fail_missing (by simp)
      nothing := iff_of_false (by simp) something
      failed := iff_of_true rfl rfl
      acknowledged := iff_of_false ok_fail.symm (by simp [Outcome.acknowledged])
      writes := by simp [Outcome.acknowledged]
      payload := by simp }
  | acknowledged acknowledges something =>
    exact {
      missing := iff_of_false ok_missing (by simp [Outcome.acknowledged])
      nothing := iff_of_false (by simp [Outcome.acknowledged]) something
      failed := iff_of_false ok_fail (by simp [Outcome.acknowledged])
      acknowledged := iff_of_true rfl rfl
      writes := fun _ => writes.mp acknowledges
      payload := fun _ _ other other' => absurd (writes.mp acknowledges) (by simp [other, other']) }
  | @payload text reads something apart =>
    have other : Outcome.success text ≠ .acknowledged := fun texts =>
      apart .ok (Outcome.success.inj texts)
    exact {
      missing := iff_of_false (apart .missing) (by simp)
      nothing := iff_of_false (by simp) something
      failed := iff_of_false (apart .fail) (by simp)
      acknowledged := iff_of_false (apart .ok) other
      writes := fun equal => absurd equal other
      payload := fun text' equal _ _ => Outcome.success.inj equal ▸ apart }

/-- Wherever in a run over a store in memory a request stands, its answer is clear: if the status
is 200, the request holds a record of an endpoint and has the outcome that is told by the body of
the answer. In particular no document that was stored imitates an envelope. -/
theorem Gateway.envelopes_are_clear (pageSize : Nat) (earlier later : List Request)
    (request : Request) :
    let responses := (serveAll Engine.memory pageSize (earlier ++ request :: later)
      OrderedMap.empty).1
    let store := (serveAll Engine.memory pageSize earlier OrderedMap.empty).2
    ∃ response, responses[earlier.length]? = some response ∧ (response.status = 200 →
      ∃ (endpoint : Endpoint) (demand : Demand) (outcome : Outcome),
        endpoint.path = request.path ∧
        endpoint.demand request.stamp request.body = .ok demand ∧
        ((endpoint.handle pageSize request.stamp request.body).run Engine.memory store).1 =
          .ok outcome ∧
        endpoint.IsClear demand store outcome response.body) := by
  intro responses store
  have before : store = Store.after OrderedMap.empty earlier :=
    store_serveAll pageSize earlier OrderedMap.empty
  -- Whatever came before, every document of the store holds a record.
  have wellFormed : store.WellFormed := before ▸ Store.wellFormed_empty.after earlier
  refine ⟨request.response pageSize store, ?_, fun fine => ?_⟩
  · rw [before]
    exact response_serveAll pageSize earlier later request OrderedMap.empty
  cases accepted : request.demand? with
  | none =>
    simp [Request.response, accepted, Response.fail] at fine
  | some demand =>
    obtain ⟨-, -, -, endpoint, path, held⟩ := Request.demand?_eq_some_iff.mp accepted
    have held := Except.toOption_eq_some.mp held
    refine ⟨endpoint, demand, demand.outcome pageSize store, path, held, ?_, ?_⟩
    · rw [Endpoint.run_handle, held]
    · rw [Request.response_of_demand? accepted]
      exact (demand.answered wellFormed pageSize).isClear held

end HashGateway
