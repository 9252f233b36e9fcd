import HashGateway.Proofs.Registration
import HashGateway.Proofs.Transcript

/-!
# Acknowledgement

What requests that write send to any store whatsoever, and what they are answered. A write is
acknowledged by the integer one, and by OK in either form; by no other answer. Nothing is reported
as done that was not acknowledged, no write is sent twice, and no write follows one that was
not acknowledged.

## Main definitions

* `Answer.IsAcknowledged` — the answer to a write acknowledges it
* `Response.Reports` — a response says what became of the last write
* `FileRecord.StoredBy`, `Registration.RegisteredBy`, `TraceRecord.AddedBy` — what is sent for a
  file, a registration and a trace entry, and what the response says

## Main results

* `Response.reports_meaning` — the response to a write says what became of it
* `Gateway.writes_reported` — every accepted request that writes sends and answers this
-/

namespace HashGateway

/-! ## Answers to a write -/

/-- The answer to a write acknowledges it. -/
def Answer.IsAcknowledged (answer : Answer) : Prop :=
  answer = .ok (.int 1) ∨ answer = .ok .okay ∨ answer = .ok (.simple "OK")

/-- A hash without fields is listed as an array or as a map without items. -/
def Answer.IsEmptyListing (answer : Answer) : Prop :=
  answer = .ok (.array []) ∨ answer = .ok (.map [])

open Answer

theorem Outcome.ofWrite_of_isAcknowledged {reply : Reply}
    (h : IsAcknowledged (.ok reply)) : ofWrite reply = .acknowledged := by
  rcases h with h | h | h
  all_goals
    obtain rfl := Except.ok.inj h
    rfl

theorem Outcome.ofWrite_of_not_isAcknowledged {reply : Reply}
    (h : ¬ IsAcknowledged (.ok reply)) : ofWrite reply = .failure := by
  cases reply with
  | int i =>
    have other : i ≠ 1 := by rintro rfl; exact h (.inl rfl)
    rw [ofWrite, if_neg other]
  | okay => exact absurd (.inr (.inl rfl)) h
  | simple s =>
    have other : s ≠ "OK" := by rintro rfl; exact h (.inr (.inr rfl))
    rw [ofWrite, if_neg other]
  | _ => rfl

/-- Of the replies that list a hash only those without items mean that nothing is found. -/
theorem Outcome.ofRecord_eq_notFound_iff {reply : Reply} :
    ofRecord reply = .notFound ↔ IsEmptyListing (.ok reply) := by
  -- Only an empty list of items is not found, and two kinds of replies have one.
  have items : ofRecord reply = .notFound ↔ items? reply = some [] := by
    unfold ofRecord
    cases items? reply with
    | none => simp
    | some items =>
      cases items with
      | nil => simp
      | cons item items =>
        simp only [Option.some.injEq, List.cons_ne_nil, iff_false]
        split <;> simp
  rw [items]
  cases reply with
  | array listed => simp [items?, IsEmptyListing]
  | map pairs =>
    cases pairs with
    | nil => simp [items?, flat, IsEmptyListing]
    | cons pair pairs => simp [items?, flat, IsEmptyListing]
  | _ => simp [items?, IsEmptyListing]

section Meaning

variable {answer : Answer}

open Exchange

theorem Answer.not_isUnavailable_of_isAcknowledged (h : IsAcknowledged answer) :
    ¬ IsUnavailable answer := by
  rcases h with rfl | rfl | rfl <;> exact not_isUnavailable_ok _

/-- The answer to a write means that it is acknowledged, that the store was out of reach, or that
the write failed. -/
theorem Exchange.meaning_of_isAcknowledged (operation : Operation)
    (write : operation.decode = Outcome.ofWrite)
    (h : IsAcknowledged answer) : meaning operation answer = .ok .acknowledged := by
  have reply : ∃ reply, answer = .ok reply := by rcases h with h | h | h <;> exact ⟨_, h⟩
  obtain ⟨reply, rfl⟩ := reply
  rw [meaning, write, Outcome.ofWrite_of_isAcknowledged h]

theorem Exchange.exists_meaning_of_isUnavailable (operation : Operation)
    (h : IsUnavailable answer) :
    ∃ detail, meaning operation answer = .error (.unavailable detail) := by
  obtain ⟨detail, rfl⟩ := h
  exact ⟨detail, rfl⟩

theorem Exchange.meaning_of_isPlain (operation : Operation)
    (write : operation.decode = Outcome.ofWrite)
    (plain : IsPlain answer) (unacknowledged : ¬ IsAcknowledged answer)
    (reached : ¬ IsUnavailable answer) : meaning operation answer = .ok .failure := by
  cases plain with
  | replied reply => rw [meaning, write, Outcome.ofWrite_of_not_isAcknowledged unacknowledged]
  | refused rejection => rfl
  | unavailable detail => exact absurd (isUnavailable_unavailable detail) reached

end Meaning

/-! ## What responses say -/

/-- A response says what became of the last write. -/
structure Response.Reports (response : Response) (payload : String) (written : Answer) : Prop where
  acknowledged : IsAcknowledged written → response = ⟨200, payload⟩
  unavailable : IsUnavailable written → response = .fail 503
  failed : ¬ IsAcknowledged written → ¬ IsUnavailable written → response = .fail 200

namespace Response.Reports

variable {response : Response} {payload : String} {written : Answer}

theorem eq_payload_iff (h : response.Reports payload written)
    (other : payload ≠ Envelope.fail.text) :
    response = ⟨200, payload⟩ ↔ IsAcknowledged written := by
  refine ⟨fun acknowledged => ?_, h.acknowledged⟩
  by_contra unacknowledged
  by_cases unreached : IsUnavailable written
  · simp [h.unavailable unreached, Response.fail] at acknowledged
  · simp [h.failed unacknowledged unreached, Response.fail, other.symm] at acknowledged

theorem eq_unavailable_iff (h : response.Reports payload written) :
    response = .fail 503 ↔ IsUnavailable written := by
  refine ⟨fun unavailable => ?_, h.unavailable⟩
  by_contra reached
  by_cases acknowledged : IsAcknowledged written
  · simp [h.acknowledged acknowledged, Response.fail] at unavailable
  · simp [h.failed acknowledged reached, Response.fail] at unavailable

theorem eq_failure (h : response.Reports payload written)
    (unacknowledged : response ≠ ⟨200, payload⟩) (reached : response ≠ .fail 503) :
    response = .fail 200 :=
  h.failed (fun acknowledged => unacknowledged (h.acknowledged acknowledged))
    fun unreached => reached (h.unavailable unreached)

end Response.Reports

/-- What is sent for a file, and what the response says. -/
structure FileRecord.StoredBy (f : FileRecord) (transcript : List (Command × Answer))
    (response : Response) : Prop where
  /-- The file is written under its own key, and exactly if this is acknowledged into the index of
  its machine. Nothing else is sent. -/
  sent : ∃ stored,
    (IsAcknowledged stored ∧ ∃ indexed,
      transcript = [(f.storeCommand, stored), (f.indexCommand, indexed)]) ∨
    (¬ IsAcknowledged stored ∧ transcript = [(f.storeCommand, stored)])
  /-- It is reported as stored exactly if both writes are acknowledged. -/
  stored : response = ⟨200, Envelope.ok.text⟩ ↔ ∃ stored indexed, IsAcknowledged stored ∧
    IsAcknowledged indexed ∧
    transcript = [(f.storeCommand, stored), (f.indexCommand, indexed)]
  /-- The store is reported as out of reach exactly if it was for a command that was sent. -/
  unavailable : response = .fail 503 ↔ ∃ entry ∈ transcript, IsUnavailable entry.2
  /-- Everything else is reported as a failure. -/
  failed : response ≠ ⟨200, Envelope.ok.text⟩ → response ≠ .fail 503 → response = .fail 200

/-- What is sent for a registration, and what the response says. -/
structure Registration.RegisteredBy (r : Registration) (transcript : List (Command × Answer))
    (response : Response) : Prop where
  /-- A forced registration is written at once. -/
  forced : r.force = true → ∃ written, transcript = [(r.writeCommand, written)] ∧
    response.Reports (registrationText r.machine r.username) written
  /-- Any other one is written exactly if there is none; else the one that is there is sent back,
  if the reply has one. -/
  unforced : r.force = false → ∃ found,
    (IsEmptyListing found ∧ ∃ written,
      transcript = [(lookUpCommand r.machine, found), (r.writeCommand, written)] ∧
      response.Reports (registrationText r.machine r.username) written) ∨
    (¬ IsEmptyListing found ∧ transcript = [(lookUpCommand r.machine, found)] ∧
      (∀ reply record, found = .ok reply → Outcome.ofRecord reply = .success record →
        response = ⟨200, record⟩) ∧
      (IsUnavailable found → response = .fail 503) ∧
      ((∀ reply record, found = .ok reply → Outcome.ofRecord reply ≠ .success record) →
        ¬ IsUnavailable found → response = .fail 200))

/-- What is sent for a trace entry, and what the response says. -/
structure TraceRecord.AddedBy (t : TraceRecord) (transcript : List (Command × Answer))
    (response : Response) : Prop where
  /-- One write is sent, and the response says what became of it. -/
  sent : ∃ written, transcript = [(t.addCommand, written)] ∧
    (response = ⟨200, Envelope.ok.text⟩ ↔ IsAcknowledged written) ∧
    response.Reports Envelope.ok.text written

/-! ## Requests that write -/

theorem Envelope.text_ok_ne_text_fail : Envelope.ok.text ≠ Envelope.fail.text := by decide

open Exchange

/-- The response to a write says what became of it. -/
theorem Response.reports_meaning (operation : Operation)
    (write : operation.decode = Outcome.ofWrite) {written : Answer} (plain : IsPlain written) :
    (ofResult (meaning operation written)).Reports Envelope.ok.text written where
  acknowledged h := by rw [meaning_of_isAcknowledged operation write h]; rfl
  unavailable h := by
    obtain ⟨detail, meant⟩ := exists_meaning_of_isUnavailable operation h
    rw [meant]
    rfl
  failed h h' := by rw [meaning_of_isPlain operation write plain h h']; rfl

section

variable {σ : Type} {engine : Engine σ}

theorem FileRecord.storedBy (f : FileRecord) (plain : engine.IsPlain) (s : σ) :
    f.StoredBy (f.exchange.transcript engine s) (.ofResult (f.exchange.run engine s).1) := by
  have failure : Outcome.failure ≠ .acknowledged := by simp [Outcome.acknowledged]
  have plain_stored := plain s f.storeCommand
  have plain_indexed := plain (engine s f.storeCommand).2 f.indexCommand
  simp only [exchange_eq, transcript_send, run_send]
  generalize (engine s f.storeCommand).2 = s' at plain_indexed
  generalize (engine s f.storeCommand).1 = stored at plain_stored
  by_cases acknowledged : IsAcknowledged stored
  · -- Only here the index is written, and the answer to this decides.
    have reached := not_isUnavailable_of_isAcknowledged acknowledged
    simp only [meaning_of_isAcknowledged .setFile rfl acknowledged, andThen_ok,
      if_true, transcript_send, transcript_done, run_send, run_done]
    generalize (engine s' f.indexCommand).1 = indexed at plain_indexed
    have reports := Response.reports_meaning .indexFile rfl plain_indexed
    refine ⟨⟨stored, .inl ⟨acknowledged, indexed, rfl⟩⟩, ?_, ?_, reports.eq_failure⟩
    · rw [reports.eq_payload_iff Envelope.text_ok_ne_text_fail]
      simp [acknowledged]
    · rw [reports.eq_unavailable_iff]
      simp [reached]
  · -- Without the index the response is that of the first write.
    have reports := Response.reports_meaning .setFile rfl plain_stored
    have ends : (done (meaning .setFile stored)).andThen (fun outcome =>
        if outcome = .acknowledged then
          send f.indexCommand fun indexed => done (meaning .indexFile indexed)
        else done (.ok outcome)) = done (meaning .setFile stored) := by
      by_cases unreached : IsUnavailable stored
      · obtain ⟨detail, meant⟩ := exists_meaning_of_isUnavailable .setFile unreached
        rw [meant, andThen_error]
      · rw [meaning_of_isPlain .setFile rfl plain_stored acknowledged unreached,
          andThen_ok, if_neg failure]
    simp only [ends, transcript_done, run_done]
    refine ⟨⟨stored, .inr ⟨acknowledged, rfl⟩⟩, ?_, ?_, reports.eq_failure⟩
    · rw [reports.eq_payload_iff Envelope.text_ok_ne_text_fail]
      simp [acknowledged]
    · rw [reports.eq_unavailable_iff]
      simp

theorem TraceRecord.addedBy (t : TraceRecord) (plain : engine.IsPlain) (s : σ) :
    let x := Exchange.perform .addTrace [.text t.uuid, .text t.field, .text t.data]
    t.AddedBy (x.transcript engine s) (.ofResult (x.run engine s).1) := by
  intro x
  have reports := Response.reports_meaning .addTrace rfl (plain s t.addCommand)
  simp only [x, perform_addTrace, transcript_send, transcript_done, run_send, run_done]
  exact ⟨_, rfl, reports.eq_payload_iff Envelope.text_ok_ne_text_fail, reports⟩

/-- A registration is written by one command, and its text is sent back. -/
theorem Registration.reports_write (r : Registration) (plain : engine.IsPlain) (s : σ) :
    ∃ written, r.write.transcript engine s = [(r.writeCommand, written)] ∧
      (Response.ofResult (r.write.run engine s).1).Reports
        (registrationText r.machine r.username) written := by
  have echo : r.echo = registrationText r.machine r.username :=
    text_object_registration r.machine r.username
  have plain_written := plain s r.writeCommand
  rw [write_eq, transcript_send, run_send]
  generalize (engine s r.writeCommand).2 = s'
  generalize (engine s r.writeCommand).1 = written at plain_written
  refine ⟨written, ?_, fun h => ?_, fun h => ?_, fun h h' => ?_⟩
  · -- Nothing is sent after the write, whatever it means.
    cases meaning .registerUser written with
    | error e => rfl
    | ok outcome => cases outcome <;> rfl
  · rw [meaning_of_isAcknowledged .registerUser rfl h, ← echo]
    rfl
  · obtain ⟨detail, meant⟩ := exists_meaning_of_isUnavailable .registerUser h
    rw [meant]
    rfl
  · rw [meaning_of_isPlain .registerUser rfl plain_written h h']
    rfl

theorem Registration.registeredBy (r : Registration) (plain : engine.IsPlain) (s : σ) :
    r.RegisteredBy (r.exchange.transcript engine s) (.ofResult (r.exchange.run engine s).1) where
  forced force := by
    rw [exchange_of_force force]
    exact r.reports_write plain s
  unforced force := by
    have plain_found := plain s (lookUpCommand r.machine)
    rw [exchange_of_not_force force, transcript_send, run_send]
    generalize (engine s (lookUpCommand r.machine)).2 = s'
    generalize (engine s (lookUpCommand r.machine)).1 = found at plain_found
    refine ⟨found, ?_⟩
    by_cases empty : IsEmptyListing found
    · have meant : meaning .getUser found = .ok .notFound := by
        rcases empty with rfl | rfl <;> rfl
      obtain ⟨written, sent, reports⟩ := r.reports_write plain s'
      rw [meant, andThen_ok]
      exact .inl ⟨empty, written, by rw [sent], reports⟩
    · -- What is found is sent back, whether it is a registration or not.
      refine .inr ⟨empty, ?_⟩
      cases plain_found with
      | replied reply =>
        have other : Outcome.ofRecord reply ≠ .notFound :=
          fun missing => empty (Outcome.ofRecord_eq_notFound_iff.mp missing)
        have meant : meaning .getUser (.ok reply) = .ok (Outcome.ofRecord reply) := rfl
        rw [meant, andThen_ok]
        cases outcome : Outcome.ofRecord reply with
        | success record =>
          refine ⟨rfl, fun reply' record' answered decoded => ?_, fun h => ?_, fun neither => ?_⟩
          · obtain rfl := Except.ok.inj answered
            obtain rfl := Outcome.success.inj (outcome.symm.trans decoded)
            rfl
          · exact absurd h (not_isUnavailable_ok reply)
          · exact absurd outcome (neither reply record rfl)
        | notFound => exact absurd outcome other
        | failure =>
          refine ⟨rfl, fun reply' record' answered decoded => ?_, fun h => ?_, fun _ _ => rfl⟩
          · obtain rfl := Except.ok.inj answered
            exact absurd (outcome.symm.trans decoded) (by simp)
          · exact absurd h (not_isUnavailable_ok reply)
      | refused rejection =>
        refine ⟨rfl, fun reply record replied => by simp at replied, fun h => ?_, fun _ _ => rfl⟩
        exact absurd h (not_isUnavailable_command rejection)
      | unavailable detail =>
        refine ⟨rfl, fun reply record replied => by simp at replied, fun _ => rfl, fun _ h => ?_⟩
        exact absurd (isUnavailable_unavailable detail) h

/-- Whatever replies a store gives, and whichever commands it refuses or does not get: an accepted
request that writes sends the commands of its file, registration or trace entry, in their order
and each only if it is its turn, and its response says what became of them. -/
theorem Gateway.writes_reported (plain : engine.IsPlain) (pageSize : Nat) (request : Request)
    (s : σ) :
    let transcript := (dispatch pageSize request).transcript engine s
    let response := ((dispatch pageSize request).run engine s).1
    (∀ f, request.demand? = some (.storeFile f) → f.StoredBy transcript response) ∧
    (∀ r, request.demand? = some (.register r) → r.RegisteredBy transcript response) ∧
    (∀ t, request.demand? = some (.addTrace t) → t.AddedBy transcript response) := by
  refine ⟨fun f demand => ?_, fun r demand => ?_, fun t demand => ?_⟩
  all_goals rw [dispatch_of_demand? demand, transcript_respond, run_respond]
  · exact f.storedBy plain s
  · exact r.registeredBy plain s
  · exact t.addedBy plain s

end

/-- A store that takes the first write of a file and is out of reach for the second. -/
theorem Gateway.writes_reported_interrupted :
    let engine : Engine Nat := fun n _ =>
      (if n = 0 then .ok .okay else .error (.unavailable "connection refused"), n + 1)
    let request : Request :=
      ⟨"post", "/fileset?x", Utf8.bytes "\x7b\"machine\":\"m\",\"uuid\":\"u\"\x7d", 0⟩
    let f : FileRecord := ⟨"m", "u", "\x7b\"machine\":\"m\",\"uuid\":\"u\"\x7d"⟩
    engine.IsPlain ∧ request.demand? = some (.storeFile f) ∧
      (dispatch 20 request).transcript engine 0 = [(f.storeCommand, .ok .okay),
        (f.indexCommand, .error (.unavailable "connection refused"))] ∧
      ((dispatch 20 request).run engine 0).1 = .fail 503 := by
  intro engine request f
  have plain : engine.IsPlain := by
    intro n command
    by_cases first : n = 0
    · simpa [engine, first] using IsPlain.replied .okay
    · simpa [engine, first] using IsPlain.unavailable "connection refused"
  have demand : request.demand? = some (.storeFile f) :=
    Request.demand?_eq_some_iff.mpr ⟨by decide +kernel, by decide +kernel,
      map_toUpper_eq (by decide), .setFile, by decide +kernel, by decide +kernel⟩
  have sent : (dispatch 20 request).transcript engine 0 = [(f.storeCommand, .ok .okay),
      (f.indexCommand, .error (.unavailable "connection refused"))] := by
    rw [dispatch_of_demand? demand, transcript_respond, Demand.exchange, FileRecord.exchange_eq]
    rfl
  have stored := (writes_reported plain 20 request 0).1 f demand
  refine ⟨plain, demand, sent, stored.unavailable.mpr ?_⟩
  rw [sent]
  exact ⟨_, List.mem_cons_of_mem _ List.mem_cons_self, isUnavailable_unavailable _⟩

end HashGateway
