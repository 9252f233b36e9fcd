import HashGateway.Engine
import HashGateway.Proofs.DemandExchange

/-!
# Transcripts

The transcript of an exchange with an engine is the list of the commands that it sends, each with
its answer. Of an engine nothing is assumed but that its only errors are a refused command and a
store out of reach; its replies are arbitrary, and so is the order in which they come.

## Main definitions

* `Exchange.transcript` — the commands of an exchange with their answers
* `Engine.IsPlain` — an engine without other errors
* `Answer.IsUnavailable` — the store was out of reach

## Main results

* `Exchange.run_logged` — the commands of a transcript are those that reach the engine
* `Exchange.Orderly.run_plain` — an orderly exchange ends with an outcome, unless its last command
  found the store out of reach
-/

namespace HashGateway

/-- An answer whose only errors are a refused command and a store out of reach. -/
inductive Answer.IsPlain : Answer → Prop
  | replied (reply : Reply) : IsPlain (.ok reply)
  | refused (rejection : Rejection) : IsPlain (.error (.command rejection))
  | unavailable (detail : String) : IsPlain (.error (.unavailable detail))

/-- The store was out of reach. -/
def Answer.IsUnavailable (answer : Answer) : Prop := ∃ detail, answer = .error (.unavailable detail)

@[simp] theorem Answer.isUnavailable_unavailable (detail : String) :
    IsUnavailable (.error (.unavailable detail)) := ⟨detail, rfl⟩

@[simp] theorem Answer.not_isUnavailable_ok (reply : Reply) : ¬ IsUnavailable (.ok reply) := by
  rintro ⟨detail, h⟩
  simp at h

@[simp] theorem Answer.not_isUnavailable_command (rejection : Rejection) :
    ¬ IsUnavailable (.error (.command rejection)) := by
  rintro ⟨detail, h⟩
  simp at h

variable {σ α β : Type} {engine : Engine σ}

/-- An engine that answers with any replies, but whose only errors are that it refuses a command
and that it is out of reach. -/
def Engine.IsPlain (engine : Engine σ) : Prop :=
  ∀ s command, Answer.IsPlain (engine s command).1

namespace Exchange

/-- The commands that an exchange sends to an engine, each with its answer. -/
def transcript (engine : Engine σ) : Exchange α → σ → List (Command × Answer)
  | done _, _ => []
  | send command next, s =>
    (command, (engine s command).1) ::
      (next (engine s command).1).transcript engine (engine s command).2

@[simp] theorem transcript_done (engine : Engine σ) (a : α) (s : σ) :
    (done a).transcript engine s = [] := rfl

@[simp] theorem transcript_send (engine : Engine σ) (command : Command)
    (next : Answer → Exchange α) (s : σ) :
    (send command next).transcript engine s = (command, (engine s command).1) ::
      (next (engine s command).1).transcript engine (engine s command).2 := rfl

@[simp] theorem run_send (engine : Engine σ) (command : Command) (next : Answer → Exchange α)
    (s : σ) : (send command next).run engine s =
      (next (engine s command).1).run engine (engine s command).2 := rfl

/-- The commands of a transcript are those that reach the engine, in their order. -/
theorem run_logged (engine : Engine σ) (x : Exchange α) (s : σ) (log : List Command) :
    x.run engine.logged (s, log) = ((x.run engine s).1, (x.run engine s).2,
      ((x.transcript engine s).map Prod.fst).reverse ++ log) := by
  induction x generalizing s log with
  | done a => rfl
  | send command next ih =>
    have first : engine.logged (s, log) command =
        ((engine s command).1, (engine s command).2, command :: log) := rfl
    rw [run_send, run_send, first, ih]
    simp

theorem transcript_bind (engine : Engine σ) (x : Exchange α) (f : α → Exchange β) (s : σ) :
    (x.bind f).transcript engine s =
      x.transcript engine s ++ (f (x.run engine s).1).transcript engine (x.run engine s).2 := by
  induction x generalizing s with
  | done a => rfl
  | send command next ih => exact congrArg (_ :: ·) (ih _ _)

@[simp] theorem transcript_respond (engine : Engine σ)
    (x : Exchange (Except Error Outcome)) (s : σ) :
    x.respond.transcript engine s = x.transcript engine s := by
  rw [respond, transcript_bind, transcript_done, List.append_nil]

/-- An orderly exchange ends with an outcome, unless its last command found the store out of
reach; then it ends with this error. -/
theorem Orderly.run_plain {x : Exchange (Except Error Outcome)} (orderly : x.Orderly)
    (plain : engine.IsPlain) (s : σ) :
    ((∃ outcome, (x.run engine s).1 = .ok outcome) ∧
      ∀ entry ∈ (x.transcript engine s).getLast?, ¬ Answer.IsUnavailable entry.2) ∨
    ∃ detail, (x.run engine s).1 = .error (.unavailable detail) ∧
      ∃ entry ∈ (x.transcript engine s).getLast?, Answer.IsUnavailable entry.2 := by
  induction orderly generalizing s with
  | done outcome => exact .inl ⟨⟨outcome, rfl⟩, by simp⟩
  | @send command next failed replied ih =>
    rw [run_send, transcript_send]
    have first := plain s command
    generalize (engine s command).1 = answer at first
    cases first with
    | replied reply =>
      -- A reply is not the end: the last command is that of the rest, if there is a rest.
      specialize ih reply (engine s command).2
      cases rest : (next (.ok reply)).transcript engine (engine s command).2 with
      | nil => simpa [rest] using ih
      | cons entry entries => simpa [rest] using ih
    | refused rejection => exact .inl ⟨⟨.failure, by rw [failed]; rfl⟩, by simp [failed]⟩
    | unavailable detail =>
      exact .inr ⟨detail, by rw [failed]; rfl, by simp [failed]⟩

end Exchange

end HashGateway
