import HashGateway.Proofs.Session

/-!
# How long a trace entry stays

A trace entry goes into the hash of its file under the time at which it was made. Two
entries of one file that are made at the same microsecond have one field, so the later
one is answered as a failure and takes the place of the earlier one all the same.

## Main definitions

* `Request.Overwrites` — a request writes over the entry of a file that was made at a time

## Main results

* `Request.overwrites_iff` — the requests that write over an entry
* `Gateway.trace_stays_iff_not_overwritten` — an acknowledged entry keeps its document exactly
  as long as nothing else is written over it, and a failing request changes the store unless it
  brings the document that is there
-/

namespace HashGateway

namespace Record

/-- Entries that are made at different times have different fields. -/
theorem traceField_injective {m n : Int} (h : traceField m = traceField n) : m = n := by
  have chars : "trace:".toList ++ Numeral.renderInt m = "trace:".toList ++ Numeral.renderInt n :=
    String.ofList_injective h
  rw [List.append_right_inj] at chars
  exact Numeral.renderInt_injective chars

end Record

/-- An entry is put at the time at which it is made. -/
theorem TraceRecord.field_of_parse {stamp : Int} {body : Bytes} {t : TraceRecord}
    (h : parse stamp body = .ok t) : t.field = Record.traceField stamp := by
  obtain ⟨row, -, h⟩ := Except.bind_eq_ok.mp h
  obtain ⟨-, -, h⟩ := Except.bind_eq_ok.mp h
  obtain ⟨data, -, h⟩ := Except.bind_eq_ok.mp h
  rw [← Except.ok.inj h]

theorem Request.field_of_addTrace {request : Request} {t : TraceRecord}
    (h : request.demand? = some (.addTrace t)) : t.field = Record.traceField request.stamp :=
  TraceRecord.field_of_parse (parse_of_addTrace h)

/-- A request writes a document over the entry of a file that was made at a time: it adds an entry
to the file at this very time, or it stores the file, whose name is the field of the entry. -/
def Request.Overwrites (uuid : String) (stamp : Int) (data : String) (request : Request) : Prop :=
  (∃ t, request.demand? = some (.addTrace t) ∧ t.uuid = uuid ∧ request.stamp = stamp ∧
    t.data = data) ∨
  ∃ f, request.demand? = some (.storeFile f) ∧ f.uuid = uuid ∧ uuid = Record.traceField stamp ∧
    f.data = data

theorem Request.overwrites_iff {uuid data : String} {stamp : Int} {request : Request} :
    request.Overwrites uuid stamp data ↔
      request.written? (.traces uuid) = some (Record.traceField stamp, data) := by
  unfold Overwrites written?
  cases demand : request.demand? with
  | none => simp
  | some d =>
    -- A trace has the field of its own time, and the file the field of its name.
    cases d with
    | addTrace t =>
      have field : t.field = Record.traceField stamp ↔ request.stamp = stamp := by
        rw [field_of_addTrace demand]
        exact ⟨Record.traceField_injective, congrArg _⟩
      simp [Demand.written?, field]
    | storeFile f =>
      simp only [Option.some.injEq, Option.bind_some, Demand.written?, reduceCtorEq, false_and,
        exists_false, false_or, Demand.storeFile.injEq, exists_eq_left']
      constructor
      · rintro ⟨rfl, named, rfl⟩
        rw [if_pos rfl, named]
      · intro entry
        split at entry
        · next uuids =>
          obtain ⟨named, data⟩ := Prod.mk.inj (Option.some.inj entry)
          exact ⟨uuids, uuids ▸ named, data⟩
        · simp at entry
    | _ => simp [Demand.written?]

namespace Gateway

/-- An entry is acknowledged exactly if its field is new. From then on it keeps its document
through a run exactly if no request of the run writes another document over it. If the field is
not new, the answer is a failure, the document that was there is replaced, and the hashes are
what they were exactly if the two documents are the same. -/
theorem trace_stays_iff_not_overwritten (pageSize : Nat) (store : Store)
    (earlier later : List Request) (request : Request) (t : TraceRecord)
    (demand : request.demand? = some (.addTrace t)) :
    let answer := (serveAll Engine.memory pageSize (earlier ++ request :: later) store).1[
      earlier.length]?
    let before := (serveAll Engine.memory pageSize earlier store).2
    let after (n : Nat) :=
      (serveAll Engine.memory pageSize (earlier ++ request :: later.take n) store).2
    (answer = some ⟨200, Envelope.ok.text⟩ ∧
      (before.hashOf (.file t.uuid)).find? t.field = none ∧
      ((∀ n, ((after n).hashOf (.file t.uuid)).find? t.field = some t.data) ↔
        ∀ r ∈ later, ∀ data, r.Overwrites t.uuid request.stamp data → data = t.data)) ∨
    (answer = some ⟨200, Envelope.fail.text⟩ ∧
      ∃ old, (before.hashOf (.file t.uuid)).find? t.field = some old ∧
        ((after 0).hashOf (.file t.uuid)).find? t.field = some t.data ∧
        ((∀ key, (after 0).hashOf key = before.hashOf key) ↔ old = t.data)) := by
  intro answer before after
  have answered : answer = some ⟨200, ((Demand.addTrace t).outcome pageSize before).body⟩ := by
    rw [← Request.response_of_demand? demand]
    exact (response_serveAll pageSize earlier later request store).trans
      (by rw [show before = store.after earlier from store_serveAll pageSize earlier store])
  have effect : request.effect before = before.write (.file t.uuid) [(t.field, t.data)] :=
    Request.effect_of_demand? demand before
  have served (n : Nat) : after n = (request.effect before).after (later.take n) := by
    simp only [after, before, store_serveAll, Store.after_append, Store.after_cons]
  have held : ((request.effect before).hashOf (.file t.uuid)).find? t.field = some t.data := by
    rw [effect, Store.hashOf_write_self]
    simp
  -- The answer counts new fields, so it tells whether the field had a document.
  cases new : (before.hashOf (.file t.uuid)).find? t.field with
  | none =>
    refine .inl ⟨?_, rfl, ?_⟩
    · rw [answered, Demand.outcome, OrderedMap.contains, new]
      rfl
    · rw [← Listing.key_traces] at held
      have stays := Store.forall_find?_after_take_iff held later
      rw [Listing.key_traces] at stays
      simp only [served, Request.overwrites_iff, ← Request.field_of_addTrace demand, stays]
  | some old =>
    refine .inr ⟨?_, old, rfl, ?_, ?_⟩
    · rw [answered, Demand.outcome, OrderedMap.contains, new]
      rfl
    · rw [served, List.take_zero, Store.after_nil]
      exact held
    · rw [served, List.take_zero, Store.after_nil]
      constructor
      · intro kept
        rw [kept, new] at held
        exact Option.some.inj held
      · rintro rfl key
        rw [effect, Store.hashOf_write]
        split
        · next own =>
          rw [own, Hash.write_cons, Hash.write_nil, OrderedMap.insert_of_find? new]
        · rfl

/-- An entry that another one of the same microsecond takes the place of. -/
theorem trace_stays_iff_not_overwritten_same_stamp :
    let add (body : String) : Request := ⟨"POST", "/filesettrace", Utf8.bytes body, 5⟩
    let first := "\x7b\"uuid\":\"u\",\"n\":1\x7d"
    let second := "\x7b\"uuid\":\"u\",\"n\":2\x7d"
    (add first).demand? = some (.addTrace ⟨"u", "trace:5", first⟩) ∧
      ¬ ∀ n, (((serveAll Engine.memory 20 (add first :: [add second].take n)
        OrderedMap.empty).2).hashOf (.file "u")).find? "trace:5" = some first := by
  intro add first second
  have demand : (add first).demand? = some (.addTrace ⟨"u", "trace:5", first⟩) :=
    Request.demand?_posted .addTrace 5 (by decide +kernel) (by decide +kernel)
  have demand' : (add second).demand? = some (.addTrace ⟨"u", "trace:5", second⟩) :=
    Request.demand?_posted .addTrace 5 (by decide +kernel) (by decide +kernel)
  refine ⟨demand, fun stays => ?_⟩
  rcases trace_stays_iff_not_overwritten 20 OrderedMap.empty [] [add second] (add first) _ demand
    with ⟨-, -, kept⟩ | ⟨-, old, held, -⟩
  · have equal := kept.mp stays (add second) (by simp) _ (.inl ⟨_, demand', rfl, rfl, rfl⟩)
    exact absurd equal (by decide)
  · exact absurd held (by simp [serveAll])

/-- Two entries of one microsecond: the first is acknowledged and the second is not, but only the
second is left. -/
theorem trace_lost_in_one_microsecond :
    let add (body : String) : Request := ⟨"POST", "/filesettrace", Utf8.bytes body, 5⟩
    let first := "\x7b\"uuid\":\"u\",\"n\":1\x7d"
    let second := "\x7b\"uuid\":\"u\",\"n\":2\x7d"
    let served := serveAll Engine.memory 20 [add first, add second] OrderedMap.empty
    (add first).stamp ≤ (add second).stamp ∧
      served.1 = [⟨200, Envelope.ok.text⟩, ⟨200, Envelope.fail.text⟩] ∧
      (((serveAll Engine.memory 20 [add first] OrderedMap.empty).2).hashOf (.file "u")).entries =
        [("trace:5", first)] ∧
      (served.2.hashOf (.file "u")).entries = [("trace:5", second)] := by
  intro add first second served
  have demand : (add first).demand? = some (.addTrace ⟨"u", "trace:5", first⟩) :=
    Request.demand?_posted .addTrace 5 (by decide +kernel) (by decide +kernel)
  have demand' : (add second).demand? = some (.addTrace ⟨"u", "trace:5", second⟩) :=
    Request.demand?_posted .addTrace 5 (by decide +kernel) (by decide +kernel)
  have effect := Request.effect_of_demand? demand
  have effect' := Request.effect_of_demand? demand'
  have responses : served.1 = [(add first).response 20 OrderedMap.empty,
      (add second).response 20 ((add first).effect OrderedMap.empty)] := by
    simp only [served, serveAll_memory, serveAll_nil]
  have store : served.2 = (add second).effect ((add first).effect OrderedMap.empty) := by
    simp only [served, store_serveAll, Store.after_cons, Store.after_nil]
  refine ⟨Int.le_refl _, ?_, ?_, ?_⟩
  · rw [responses, effect, Request.response_of_demand? demand,
      Request.response_of_demand? demand']
    decide +kernel
  · rw [store_serveAll, Store.after_cons, Store.after_nil, effect]
    decide +kernel
  · rw [store, effect, effect']
    decide +kernel

end Gateway

end HashGateway
