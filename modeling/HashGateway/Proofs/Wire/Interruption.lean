import HashGateway.Proofs.Transcript
import HashGateway.Proofs.Wire.Messages
import HashGateway.Wire.Link

/-!
# Stores that stop answering

A server stops answering if it cannot be reached, or if it closes the connection before a message
has ended, wherever in the message that is. This is never taken for an answer: the command finds
the store unavailable, and the request in which it happens is answered with status 503. An error
of the server is an answer, and makes a failure of the command and of the request; and a message
without errors is exactly the reply that it writes.

## Main definitions

* `Wire.IsInterruption`, `Wire.IsRefusal` — the server stops answering, and answers with an error
* `Wire.Conveys` — what a command has to find in what the server sends
* `Wire.Link.recorded` — a link that writes down what comes back

## Main results

* `Wire.conveys_answer` — a command finds what it has to
* `Exchange.Orderly.run_recorded` — an exchange ends with the first answer that is no reply
* `Wire.Link.toldApart` — the three kinds of answers are told apart, whatever the server does
-/

namespace HashGateway

namespace Wire

variable {σ : Type}

/-- A server stops answering: it cannot be reached, or it closes the connection before a message
has ended. -/
def IsInterruption (sent : Except Host.Fault Bytes) : Prop :=
  (∃ fault, sent = .error fault) ∨
    ∃ depth m bs p, depth < maxDepth ∧ Written depth m bs ∧ IsCut p bs ∧ sent = .ok p

/-- A server says that a command has failed. -/
def IsRefusal (sent : Except Host.Fault Bytes) : Prop := ∃ text, sent = .ok (encodeFailure text)

/-- What a command has to find in what the server sends. -/
structure Conveys (sent : Except Host.Fault Bytes) (answer : Answer) : Prop where
  /-- A server that stops answering is unavailable. -/
  interrupted : IsInterruption sent → answer.IsUnavailable
  /-- An error of the server is a failure of the command. -/
  refused : IsRefusal sent → ∃ rejection, answer = .error (.command rejection)
  /-- A message without errors is its value. -/
  replied : ∀ depth m bs reply, depth < maxDepth → Written depth m bs →
    m.value? = some reply → sent = .ok bs → answer = .ok reply

theorem answer_of_decode_eq_error {bs : Bytes} {failure : Failure}
    (h : decode bs = .error failure) : answer (.ok bs) = .error (.ofFailure failure) := by
  simp only [answer, h]

theorem conveys_answer (sent : Except Host.Fault Bytes) : Conveys sent (answer sent) where
  interrupted := by
    rintro (⟨fault, rfl⟩ | ⟨depth, m, bs, p, shallow, written, cut, rfl⟩)
    · exact ⟨fault.message, rfl⟩
    · rw [answer_of_decode_eq_error (decode_of_isCut written shallow cut)]
      exact ⟨_, rfl⟩
  refused := by
    rintro ⟨text, rfl⟩
    obtain ⟨failure, failed, answered⟩ := decode_encodeFailure text
    refine ⟨.other failure.message, ?_⟩
    rw [answer_of_decode_eq_error failed, Error.ofFailure, answered, if_neg Bool.false_ne_true]
  replied := by
    rintro depth m bs reply shallow written value rfl
    simp only [answer, decode_of_value? written shallow value]

theorem engine_of_ne_nil {command : Command} (h : command ≠ []) (link : Link σ) (s : σ) :
    engine link s command =
      (answer (link s (encodeCommand command)).1, (link s (encodeCommand command)).2) := by
  rw [engine, if_neg (by simpa using h)]

theorem engine_nil (link : Link σ) (s : σ) :
    engine link s [] = (.error (.format .noCommand), s) := rfl

/-- A link that writes down what comes back over it, the last first. -/
def Link.recorded (link : Link σ) : Link (σ × List (Except Host.Fault Bytes)) :=
  fun (s, received) bytes => ((link s bytes).1, (link s bytes).2, (link s bytes).1 :: received)

theorem Link.recorded_apply (link : Link σ) (s : σ) (received : List (Except Host.Fault Bytes))
    (bytes : Bytes) : link.recorded (s, received) bytes =
      ((link s bytes).1, (link s bytes).2, (link s bytes).1 :: received) := rfl

end Wire

namespace Exchange

open Wire

variable {σ : Type} {link : Link σ}

/-- To write down what comes back changes nothing. -/
theorem run_recorded {α : Type} (x : Exchange α) (s : σ)
    (received : List (Except Host.Fault Bytes)) :
    (x.run (engine link.recorded) (s, received)).1 = (x.run (engine link) s).1 := by
  induction x generalizing s received with
  | done a => rfl
  | send command next ih =>
    rw [run_send, run_send]
    by_cases empty : command = []
    · subst empty
      exact ih _ s received
    · rw [engine_of_ne_nil empty, engine_of_ne_nil empty]
      exact ih _ _ _

/-- An orderly exchange ends with the first answer of the server that is no reply. -/
theorem Orderly.run_recorded {x : Exchange (Except Error Outcome)} (orderly : x.Orderly) (s : σ)
    (before : List (Except Host.Fault Bytes)) :
    ∃ received, (x.run (engine link.recorded) (s, before)).2.2 = received ++ before ∧
      ∀ sent ∈ received,
        (IsInterruption sent →
          ∃ detail, (x.run (engine link) s).1 = .error (.unavailable detail)) ∧
        (IsRefusal sent → (x.run (engine link) s).1 = .ok .failure) := by
  induction orderly generalizing s before with
  | done outcome => exact ⟨[], rfl, by simp⟩
  | @send command next failed replied ih =>
    rw [run_send, run_send]
    by_cases empty : command = []
    · subst empty
      rw [engine_nil, engine_nil, failed]
      exact ⟨[], rfl, by simp⟩
    · rw [engine_of_ne_nil empty, engine_of_ne_nil empty, Link.recorded_apply]
      have conveyed := conveys_answer (link s (encodeCommand command)).1
      generalize link s (encodeCommand command) = result at conveyed ⊢
      obtain ⟨sent, s⟩ := result
      cases answered : answer sent with
      | error e =>
        -- This is the last command, and its error decides how the exchange ends.
        rw [failed]
        refine ⟨[sent], rfl,
          List.forall_mem_singleton.mpr ⟨fun interrupted => ?_, fun refused => ?_⟩⟩
        · obtain ⟨detail, result⟩ := conveyed.interrupted interrupted
          obtain rfl := Except.error.inj (answered.symm.trans result)
          exact ⟨detail, rfl⟩
        · obtain ⟨rejection, result⟩ := conveyed.refused refused
          obtain rfl := Except.error.inj (answered.symm.trans result)
          rfl
      | ok reply =>
        obtain ⟨received, wrote, told⟩ := ih reply s (sent :: before)
        refine ⟨received ++ [sent], by rw [wrote, List.append_assoc]; rfl, ?_⟩
        refine List.forall_mem_append.mpr ⟨told, List.forall_mem_singleton.mpr ⟨?_, ?_⟩⟩
        · intro interrupted
          obtain ⟨detail, result⟩ := conveyed.interrupted interrupted
          exact nomatch answered.symm.trans result
        · intro refused
          obtain ⟨rejection, result⟩ := conveyed.refused refused
          exact nomatch answered.symm.trans result

end Exchange

/-! ## Operations and requests -/

namespace Template

theorem fill_ne_nil {word : List Char} {words texts filled left : List (List Char)}
    (h : fill (word :: words) texts = some (filled, left)) : filled ≠ [] := by
  simp only [fill] at h
  split at h
  · simp at h
  · obtain ⟨⟨others, left'⟩, -, result⟩ := Option.map_eq_some_iff.mp h
    rw [← (Prod.mk.inj result).1]
    exact List.cons_ne_nil _ _

end Template

/-- The command of an operation has a name at least. -/
theorem Operation.ne_nil_of_format {operation : Operation} {arguments : List Argument}
    {command : Command} (h : Template.format operation.template arguments = .ok command) :
    command ≠ [] := by
  have words : Text.words operation.template.toList ≠ [] := by cases operation <;> decide
  obtain ⟨word, words, split⟩ := List.exists_cons_of_ne_nil words
  unfold Template.format at h
  rw [split] at h
  split at h
  · simp at h
  · next filled =>
    rw [← Except.ok.inj h]
    simpa using Template.fill_ne_nil filled
  · simp at h

namespace Wire

variable {σ : Type}

/-- A server that stops answering, one that answers with an error and one that answers with a value
are told apart by every command, every operation and every request. -/
structure Link.ToldApart (link : Link σ) (s : σ) : Prop where
  command : ∀ command ≠ [], Conveys (link s (encodeCommand command)).1 (engine link s command).1
  operation : ∀ operation arguments command,
    Template.format operation.template arguments = .ok command →
    IsRefusal (link s (encodeCommand command)).1 →
    ((Exchange.perform operation arguments).run (engine link) s).1 = .ok .failure
  /-- Whichever command of a request it is that the server does not answer, or answers with an
  error. -/
  request : ∀ pageSize request,
    let response := ((Gateway.dispatch pageSize request).run (engine link) s).1
    let received := ((Gateway.dispatch pageSize request).run (engine link.recorded) (s, [])).2.2
    ((Gateway.dispatch pageSize request).run (engine link.recorded) (s, [])).1 = response ∧
    (∀ sent ∈ received, IsInterruption sent → response = .fail 503) ∧
    (∀ sent ∈ received, IsRefusal sent → response = ⟨200, Envelope.fail.text⟩)

theorem Link.toldApart (link : Link σ) (s : σ) : link.ToldApart s where
  -- A reply that came as a whole is what the server meant; nothing else is taken for one.
  command command nonempty := by
    rw [engine_of_ne_nil nonempty]
    exact conveys_answer _
  operation operation arguments command formatted refused := by
    obtain ⟨rejection, answered⟩ := (conveys_answer _).refused refused
    rw [Exchange.perform_of_format formatted, Exchange.run_send,
      engine_of_ne_nil (Operation.ne_nil_of_format formatted), answered]
    rfl
  request pageSize request := by
    refine ⟨Exchange.run_recorded _ _ _, ?_⟩
    cases accepted : request.demand? with
    | none =>
      rw [Gateway.dispatch_of_demand?_eq_none accepted]
      simp
    | some demand =>
      obtain ⟨received, wrote, told⟩ := (demand.orderly_exchange pageSize).run_recorded s []
      rw [List.append_nil] at wrote
      rw [Gateway.dispatch_of_demand? accepted, Exchange.run_respond, Exchange.run_respond, wrote]
      refine ⟨fun sent mem interrupted => ?_, fun sent mem refused => ?_⟩
      · obtain ⟨detail, ended⟩ := (told sent mem).1 interrupted
        rw [ended]
        rfl
      · rw [(told sent mem).2 refused]
        rfl

end Wire

end HashGateway
