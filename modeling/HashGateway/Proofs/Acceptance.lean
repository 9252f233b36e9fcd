import HashGateway.Proofs.Transcript

/-!
# Acceptance

A request is refused when it is too long, when it is not posted to an endpoint, and when its body
does not hold the record of the endpoint. A refused request is not found, and nothing reaches the
store. Any other request sends a command; it is answered with the body of its outcome unless the
last of its commands found the store out of reach. None of this depends on the store, and
none on how much of a body that is too long is read.

## Main definitions

* `Request.IsRefused` — why a request is not found

## Main results

* `Request.demand?_eq_none_iff` — the requests that are not refused are those with a demand
* `Gateway.serve_eq_dispatch` — a body that is cut off is as good as a whole one
* `Gateway.answers_exactly` — when requests are refused, and what the others are answered
-/

namespace HashGateway

/-- A request is refused if its path is longer than a hundred bytes, if its body is longer than
1024 bytes, if it is not posted, if its path is that of no endpoint, or if the record of the
endpoint cannot be read from its body. -/
def Request.IsRefused (request : Request) : Prop :=
  100 < (Utf8.bytes request.path).length ∨ 1024 < request.body.length ∨
  request.method.map Char.toUpper ≠ "POST" ∨
  (∀ endpoint : Endpoint, endpoint.path ≠ request.path) ∨
  ∃ endpoint : Endpoint, endpoint.path = request.path ∧
    ∃ e, endpoint.demand request.stamp request.body = .error e

theorem Endpoint.path_injective {endpoint endpoint' : Endpoint}
    (paths : endpoint.path = endpoint'.path) : endpoint = endpoint' := by
  cases endpoint <;> cases endpoint' <;> first | rfl | exact absurd paths (by decide)

/-- The requests that are not refused are those that ask for something. -/
theorem Request.demand?_eq_none_iff {request : Request} :
    request.demand? = none ↔ request.IsRefused := by
  constructor
  · intro undemanded
    by_contra fine
    simp only [IsRefused, not_or, not_lt, not_not, not_forall] at fine
    obtain ⟨path_fits, body_fits, posted, ⟨endpoint, path⟩, record⟩ := fine
    cases held : endpoint.demand request.stamp request.body with
    | error e => exact record ⟨endpoint, path, e, held⟩
    | ok demand =>
      have accepted : request.demand? = some demand := demand?_eq_some_iff.mpr
        ⟨path_fits, body_fits, posted, endpoint, path, by rw [held]; rfl⟩
      simp [accepted] at undemanded
  · intro refused
    by_contra accepted
    obtain ⟨demand, accepted⟩ := Option.ne_none_iff_exists'.mp accepted
    obtain ⟨path_fits, body_fits, posted, endpoint, path, held⟩ :=
      demand?_eq_some_iff.mp accepted
    rcases refused with long | long | other | nowhere | ⟨endpoint', path', e, unread⟩
    · exact absurd path_fits (Nat.not_le.mpr long)
    · exact absurd body_fits (Nat.not_le.mpr long)
    · exact other posted
    · exact nowhere endpoint path
    · obtain rfl := Endpoint.path_injective (path.trans path'.symm)
      simp [unread, Except.toOption] at held

namespace Gateway

/-- A body that is read no further than needed is as good as the whole: either nothing is cut off,
or what is left is still too long. -/
theorem serve_eq_dispatch (pageSize : Nat) (request : Request) :
    serve pageSize request = dispatch pageSize request := by
  by_cases fits : request.body.length ≤ maxBody + 1
  · rw [serve, List.take_of_length_le fits]
  · have cut : maxBody < (request.body.take (maxBody + 1)).length := by
      rw [List.length_take]
      omega
    have whole : maxBody < request.body.length := by omega
    simp only [serve, dispatch, cut, whole, decide_true, Bool.or_true, if_true]

variable {σ : Type} {engine : Engine σ}

/-- A refused request is not found, and nothing is sent. -/
theorem run_of_isRefused (engine : Engine σ) (pageSize : Nat) {request : Request}
    (refused : request.IsRefused) (s : σ) :
    ((dispatch pageSize request).run engine s).1 = .fail 404 ∧
      (dispatch pageSize request).transcript engine s = [] := by
  rw [dispatch_of_demand?_eq_none (Request.demand?_eq_none_iff.mpr refused)]
  exact ⟨rfl, rfl⟩

/-- An accepted request sends a command, and the last of its commands decides: the response is
that of the outcome at its endpoint, unless the store was out of reach. -/
theorem run_of_demand? (plain : engine.IsPlain) (pageSize : Nat) {request : Request}
    {demand : Demand} (accepted : request.demand? = some demand) (s : σ) :
    let response := ((dispatch pageSize request).run engine s).1
    ∃ last ∈ ((dispatch pageSize request).transcript engine s).getLast?,
      (Answer.IsUnavailable last.2 ∧ response = .fail 503) ∨
      (¬ Answer.IsUnavailable last.2 ∧ ∃ endpoint : Endpoint, endpoint.path = request.path ∧
        ∃ outcome, ((endpoint.handle pageSize request.stamp request.body).run engine s).1 =
          .ok outcome ∧ response = ⟨200, outcome.body⟩) := by
  intro response
  obtain ⟨-, -, -, endpoint, path, held⟩ := Request.demand?_eq_some_iff.mp accepted
  have handled : endpoint.handle pageSize request.stamp request.body =
      demand.exchange pageSize := by
    rw [Endpoint.handle_eq, Except.toOption_eq_some.mp held]
  have answered : response = .ofResult ((demand.exchange pageSize).run engine s).1 := by
    simp only [response, dispatch_of_demand? accepted, Exchange.run_respond]
  have some_last : ∃ last,
      last ∈ ((demand.exchange pageSize).transcript engine s).getLast? := by
    obtain ⟨command, next, sends⟩ := demand.exists_exchange_eq_send pageSize
    rw [sends, Exchange.transcript_send, List.getLast?_cons]
    exact ⟨_, rfl⟩
  rw [dispatch_of_demand? accepted, Exchange.transcript_respond]
  -- The exchange ends with an outcome, or with the first command that does not reach the store.
  rcases (demand.orderly_exchange pageSize).run_plain plain s with
    ⟨⟨outcome, ended⟩, reached⟩ | ⟨detail, ended, last, mem, unreached⟩
  · obtain ⟨last, mem⟩ := some_last
    refine ⟨last, mem, .inr ⟨reached last mem, endpoint, path, outcome, ?_, ?_⟩⟩
    · rw [handled, ended]
    · rw [answered, ended]
      rfl
  · refine ⟨last, mem, .inl ⟨unreached, ?_⟩⟩
    rw [answered, ended]
    rfl

/-- For any store whose only errors are refused commands and being out of reach: a request is not
found exactly if it is refused, and then nothing is sent. Any other request sends a command; it is
answered as unavailable exactly if the last of its commands found the store out of reach, and with
the body of its outcome otherwise. No request ends with an internal error, and a request whose
body is read from a connection sends and answers the same. -/
theorem answers_exactly (plain : engine.IsPlain) (pageSize : Nat) (request : Request) (s : σ) :
    let transcript := (dispatch pageSize request).transcript engine s
    let response := ((dispatch pageSize request).run engine s).1
    (response = .fail 404 ↔ request.IsRefused) ∧
    (request.IsRefused → transcript = []) ∧
    (¬ request.IsRefused → ∃ last ∈ transcript.getLast?,
      (response = .fail 503 ↔ Answer.IsUnavailable last.2) ∧
      (¬ Answer.IsUnavailable last.2 → ∃ endpoint : Endpoint, endpoint.path = request.path ∧
        ∃ outcome, ((endpoint.handle pageSize request.stamp request.body).run engine s).1 =
          .ok outcome ∧ response = ⟨200, outcome.body⟩)) ∧
    response.status ≠ 500 ∧
    serve pageSize request = dispatch pageSize request := by
  intro transcript response
  cases accepted : request.demand? with
  | none =>
    have refused := Request.demand?_eq_none_iff.mp accepted
    obtain ⟨answered, nothing⟩ := run_of_isRefused engine pageSize refused s
    refine ⟨iff_of_true answered refused, fun _ => nothing, fun fine => absurd refused fine, ?_,
      serve_eq_dispatch pageSize request⟩
    rw [show response = _ from answered]
    simp [Response.fail]
  | some demand =>
    have fine : ¬ request.IsRefused := by
      rw [← Request.demand?_eq_none_iff, accepted]
      exact Option.some_ne_none demand
    obtain ⟨last, mem, decides⟩ := run_of_demand? plain pageSize accepted s
    rcases decides with ⟨unreached, answered⟩ | ⟨reached, endpoint, path, outcome, ended, answered⟩
    -- What does not depend on the last command is settled for both of its ends at once.
    all_goals
      have answered : response = _ := answered
      refine ⟨iff_of_false ?_ fine, fun refused => absurd refused fine,
        fun _ => ⟨last, mem, ?_, ?_⟩, ?_, serve_eq_dispatch pageSize request⟩
    · simp [answered, Response.fail]
    · exact iff_of_true answered unreached
    · exact fun reached => absurd unreached reached
    · simp [answered, Response.fail]
    · simp [answered, Response.fail]
    · exact iff_of_false (by simp [answered, Response.fail]) reached
    · exact fun _ => ⟨endpoint, path, outcome, ended, answered⟩
    · simp [answered]

/-- A registration of the largest size, at a store that knows of none and is then out of reach. -/
theorem answers_exactly_interrupted :
    let engine : Engine Nat := fun n _ =>
      (if n = 0 then .ok (.map []) else .error (.unavailable "timed out"), n + 1)
    let request : Request :=
      ⟨"Post", "/userregister?a?b", Utf8.bytes "[\"m\",\"u\",0]" ++ List.replicate 1013 32, 0⟩
    engine.IsPlain ∧ request.body.length = 1024 ∧ ¬ request.IsRefused ∧
      ((dispatch 20 request).run engine 0).1 = .fail 503 := by
  intro engine request
  have plain : engine.IsPlain := by
    intro n command
    by_cases first : n = 0
    · simpa [engine, first] using Answer.IsPlain.replied (.map [])
    · simpa [engine, first] using Answer.IsPlain.unavailable "timed out"
  have demand : request.demand? = some (.register ⟨"m", "u", false⟩) :=
    Request.demand?_eq_some_iff.mpr ⟨by decide +kernel, by decide +kernel,
      map_toUpper_eq (by decide), .registerUser, by decide +kernel, by decide +kernel⟩
  have fine : ¬ request.IsRefused := by
    rw [← Request.demand?_eq_none_iff, demand]
    simp
  have sent : (dispatch 20 request).transcript engine 0 =
      [(lookUpCommand "m", .ok (.map [])),
        (Registration.writeCommand ⟨"m", "u", false⟩, .error (.unavailable "timed out"))] := by
    rw [dispatch_of_demand? demand, Exchange.transcript_respond, Demand.exchange,
      Registration.exchange_of_not_force rfl, Registration.write_eq]
    rfl
  obtain ⟨last, mem, unavailable, -⟩ := (answers_exactly plain 20 request 0).2.2.1 fine
  rw [sent] at mem
  obtain rfl := Option.some.inj mem
  exact ⟨plain, by decide +kernel, fine,
    unavailable.mpr (Answer.isUnavailable_unavailable "timed out")⟩

end Gateway

end HashGateway
