import HashGateway.Proofs.WellFormed

/-!
# The index of files

A file is written under its own key, and into the index of its machine only after this was
acknowledged. No other request writes into an index, and none removes a field. So however requests
meet each other, and whichever of their commands fail, every file of an index is stored; once
a file is in an index, it can be fetched.

## Main definitions

* `Store.IndexIsSound` — every file of an index is stored under its own key

## Main results

* `FileRecord.throughout_exchange` — to store a file keeps the index sound among other requests
* `Gateway.indexed_files_fetched` — a file of an index is there for every request that fetches it
-/

namespace HashGateway

open Exchange Traffic

namespace Store

/-- Every file of an index is stored under its own key. -/
def IndexIsSound (store : Store) : Prop :=
  ∀ machine uuid, (store.hashOf (.files machine)).contains uuid = true →
    (store.hashOf (.file uuid)).contains uuid = true

/-- To write keeps the index sound, unless it is written itself for files that are not stored. -/
theorem IndexIsSound.write {store : Store} (sound : store.IndexIsSound) {key : HashKey}
    {pairs : List (String × String)}
    (stored : ∀ machine, key = .files machine →
      ∀ uuid ∈ pairs.map Prod.fst, (store.hashOf (.file uuid)).contains uuid = true) :
    (store.write key pairs).IndexIsSound := by
  intro machine uuid indexed
  refine (store.grows_write key pairs).contains_hashOf ?_
  rw [hashOf_write] at indexed
  split at indexed
  -- Only in the hash that is written there may be a new field.
  · next own =>
    rcases Hash.contains_write_iff.mp indexed with new | old
    · exact stored machine own.symm uuid new
    · exact sound machine uuid (own ▸ old)
  · exact sound machine uuid indexed

theorem execute_storeCommand (store : Store) (f : FileRecord) : store.execute f.storeCommand =
    (.ok .okay, store.write (.file f.uuid) [(f.uuid, f.data)]) :=
  execute_of_parse_set (HashCommand.parse_upper _ (by decide)) store

theorem execute_indexCommand (store : Store) (f : FileRecord) : store.execute f.indexCommand =
    (.ok .okay, store.write (.files f.machine) [(f.uuid, f.data)]) :=
  execute_of_parse_set (HashCommand.parse_upper _ (by decide)) store

end Store

/-- Among other requests, too, the index is written after the file, and the file is still there. -/
theorem FileRecord.throughout_exchange (f : FileRecord) (faults : Fault → Prop) (store : Store) :
    f.exchange.respond.Throughout Store.IndexIsSound faults (fun _ _ => True) store := by
  rw [exchange_eq, respond_send]
  refine .send (fun _ _ _ => trivial) (fun before _ sound => ?_) (fun before _ _ => ?_)
    fun before _ _ fault _ => ?_
  · rw [before.execute_storeCommand]
    exact sound.write (by simp)
  · rw [before.execute_storeCommand]
    -- The write was acknowledged, so that of the index is next.
    change Throughout _ _ _ (send f.indexCommand _) _
    refine .send (fun _ _ _ => trivial) (fun later grows sound => ?_)
      (fun _ _ _ => .done fun _ _ _ => trivial) fun _ _ _ _ _ => .done fun _ _ _ => trivial
    rw [later.execute_indexCommand]
    refine sound.write fun machine _ uuid written => ?_
    obtain rfl : uuid = f.uuid := by simpa using written
    -- Since the file was written the store has only grown.
    refine grows.contains_hashOf ?_
    rw [Store.hashOf_write_self]
    exact Hash.contains_write_iff.mpr (.inl written)
  -- After a failed write nothing is sent.
  · cases fault <;> exact .done fun _ _ _ => trivial

/-- A document is not taken for the envelope of a file that is missing. -/
theorem Store.WellFormed.ne_missing {store : Store} (wellFormed : store.WellFormed)
    {uuid field data : String} (found : (store.hashOf (.file uuid)).find? field = some data) :
    data ≠ Envelope.missing.text :=
  wellFormed.isPayload found .missing

/-! ## All requests -/

namespace Gateway

variable {pageSize : Nat}

/-- A request to fetch a file waits for its only command, or has been answered. -/
theorem throughout_fetchFile {inv : Store → Prop} {request : Request} {uuid : String}
    (demand : request.demand? = some (.fetchFile uuid)) (faults : Fault → Prop) (store : Store) :
    (dispatch pageSize request).Throughout inv faults
      (fun x _ => x = dispatch pageSize request ∨ ∃ response, x = .done response) store := by
  rw [dispatch_of_demand? demand, Demand.exchange,
    perform_of_format (Operation.format_getFile uuid uuid), respond_send]
  refine .send (fun _ _ _ => .inl rfl) (fun later _ held => ?_)
    (fun _ _ _ => .done fun _ _ _ => .inr ⟨_, rfl⟩)
    fun _ _ _ _ _ => .done fun _ _ _ => .inr ⟨_, rfl⟩
  exact Command.Keeps.of_means (Operation.means_getFile uuid uuid) (fun _ held => held) _
    (Operation.format_getFile uuid uuid) later held

/-- Every request keeps the index sound. -/
theorem throughout_indexIsSound (request : Request) (faults : Fault → Prop) (store : Store) :
    (dispatch pageSize request).Throughout Store.IndexIsSound faults (fun _ _ => True) store := by
  -- Only a file is written into an index. Of all other requests every command by itself keeps it.
  have other (demand : Demand)
      (elsewhere : ∀ entry ∈ demand.writes, ∀ machine, entry.1 ≠ .files machine) :
      (demand.exchange pageSize).respond.Throughout Store.IndexIsSound faults
        (fun _ _ => True) store := by
    refine Sends.throughout (Sends.respond (demand.sends_keeps pageSize ?_)) store
    exact fun entry mem store sound =>
      sound.write fun machine own => absurd own (elsewhere entry mem machine)
  cases accepted : request.demand? with
  | none =>
    rw [dispatch_of_demand?_eq_none accepted]
    exact .done fun _ _ _ => trivial
  | some demand =>
    rw [dispatch_of_demand? accepted]
    cases demand with
    | storeFile f => exact f.throughout_exchange faults store
    | register r => exact other _ (by simp [Demand.writes])
    | addTrace t => exact other _ (by simp [Demand.writes])
    | lookUp machine => exact other _ (by simp [Demand.writes])
    | fetchFile uuid => exact other _ (by simp [Demand.writes])
    | page listing cursor => exact other _ (by simp [Demand.writes])

/-- In all traffic the index is sound, and a request that fetches a file waits or is answered. -/
theorem upheld_indexIsSound (pageSize : Nat) (uuid : String) (events : List Event) :
    Upheld Store.IndexIsSound (fun _ => True)
      (fun _ request x _ => request.demand? = some (.fetchFile uuid) →
        x = dispatch pageSize request ∨ ∃ response, x = .done response)
      (after pageSize events) := by
  have initial : Store.IndexIsSound OrderedMap.empty := fun machine uuid indexed => by
    simp [OrderedMap.contains] at indexed
  refine (upheld_start initial).run (fun task request store _ _ _ _ => ?_) fun _ _ => trivial
  by_cases demand : request.demand? = some (.fetchFile uuid)
  · exact (throughout_fetchFile demand _ store).mono fun _ _ _ waits _ => waits
  · exact (throughout_indexIsSound request _ store).mono fun _ _ _ _ fetches =>
      absurd fetches demand

/-- However many requests are on their way at the same time, in whatever order their commands are
served and whichever of them fail: once a file is in the index of a machine, there is a document
under its own key at any later time, and a request that fetches it is answered with the document
when its command is served. -/
theorem indexed_files_fetched (pageSize : Nat) (events later : List Event)
    {machine uuid : String}
    (indexed : ((after pageSize events).store.hashOf (.files machine)).contains uuid = true) :
    let traffic := after pageSize (events ++ later)
    ∃ data, (traffic.store.hashOf (.file uuid)).find? uuid = some data ∧
      data ≠ Envelope.missing.text ∧
      ∀ task request, traffic.request? task = some request →
        request.demand? = some (.fetchFile uuid) → traffic.response? task = none →
          (traffic.step pageSize (.serve task)).response? task = some ⟨200, data⟩ := by
  intro traffic
  have upheld := upheld_indexIsSound pageSize uuid (events ++ later)
  have grown : (after pageSize events).store.Grows traffic.store := by
    rw [show traffic = _ from after_append pageSize events later]
    exact (grows_foldl pageSize _ later).1
  have stored := upheld.store machine uuid (grown.contains_hashOf indexed)
  obtain ⟨data, found⟩ := Option.isSome_iff_exists.mp stored
  have wellFormed : traffic.store.WellFormed :=
    store_after Store.wellFormed_empty sends_keeps_wellFormed (events ++ later)
  refine ⟨data, found, wellFormed.ne_missing found,
    fun task request asks demand waiting => ?_⟩
  obtain ⟨x, there⟩ := exists_of_request? asks
  obtain rfl | ⟨response, rfl⟩ := upheld.holds there demand
  -- One command is all that the request sends, so it is answered as if it were alone.
  · have served : (dispatch pageSize request).advance Engine.memory traffic.store =
        (.done ((dispatch pageSize request).run Engine.memory traffic.store).1,
          ((dispatch pageSize request).run Engine.memory traffic.store).2) := by
      rw [dispatch_of_demand? demand, Demand.exchange,
        perform_of_format (Operation.format_getFile uuid uuid)]
      rfl
    rw [step_serve, response?_of_getElem? (getElem?_answer_self there _), served, run_dispatch,
      result?_done, Request.response_of_demand? demand, Demand.outcome, found]
    rfl
  · rw [response?_of_getElem? there] at waiting
    simp at waiting

/-- A file is stored and indexed while a request that fetches it waits. -/
theorem indexed_files_fetched_between :
    let data := "\x7b\"machine\":\"m\",\"uuid\":\"u\"\x7d"
    let store : Request := ⟨"POST", "/fileset", Utf8.bytes data, 0⟩
    let fetch : Request := ⟨"POST", "/fileget", Utf8.bytes "\x7b\"uuid\":\"u\"\x7d", 1⟩
    let events : List Event := [.arrive fetch, .arrive store, .serve 1, .serve 1]
    let traffic := after 20 (events ++ [.arrive store, .fail 2 (.unavailable "timed out")])
    ((after 20 events).store.hashOf (.files "m")).contains "u" = true ∧
      fetch.demand? = some (.fetchFile "u") ∧ traffic.response? 0 = none ∧
      (traffic.step 20 (.serve 0)).response? 0 = some ⟨200, data⟩ := by
  intro data store fetch events traffic
  have indexed : ((after 20 events).store.hashOf (.files "m")).contains "u" = true := by
    decide +kernel
  have demand : fetch.demand? = some (.fetchFile "u") :=
    Request.demand?_posted .getFile 1 (by decide +kernel) (by decide +kernel)
  have asks : traffic.request? 0 = some fetch := by decide +kernel
  have waiting : traffic.response? 0 = none := by decide +kernel
  have stored : (traffic.store.hashOf (.file "u")).find? "u" = some data := by decide +kernel
  obtain ⟨data', found, -, fetched⟩ := indexed_files_fetched 20 events
    [.arrive store, .fail 2 (.unavailable "timed out")] indexed
  obtain rfl := Option.some.inj (stored.symm.trans found)
  exact ⟨indexed, demand, waiting, fetched 0 fetch asks demand waiting⟩

end Gateway

end HashGateway
