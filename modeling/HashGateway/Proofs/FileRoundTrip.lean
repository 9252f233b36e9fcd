import HashGateway.Proofs.Record.Rows
import HashGateway.Proofs.Session

/-!
# Uploading and downloading files

What a file is after a run is a question of the last accepted upload of it. A field to which
nothing but files are written has the document of the last one, and this document is the body
of its upload without the blanks at its ends. The document can be uploaded in its turn: it is
read as the same file, so nothing changes.

## Main definitions

* `Request.file?` — the file that a request stores
* `Request.lastStored?` — the last request of a run that stores a file with some property

## Main results

* `Store.find?_hashOf_after` — a field to which only files are written holds the last of them
* `Store.write_of_find?` — to write what is there changes nothing
* `Gateway.file_returned_and_stored_again` — a file is fetched as it was uploaded, and uploading
  what was fetched leaves the store as it is
-/

namespace HashGateway

namespace Request

/-- The file that a request stores, if it is accepted. -/
def file? (request : Request) : Option FileRecord :=
  match request.demand? with
  | some (.storeFile f) => some f
  | _ => none

theorem file?_eq_some_iff {request : Request} {f : FileRecord} :
    request.file? = some f ↔ request.demand? = some (.storeFile f) := by
  unfold file?
  split
  · next f' demand => simp [demand]
  · next other =>
    constructor
    · simp
    · intro demand
      exact absurd demand (other f)

/-- The last request of a run that stores a file with some property. -/
def lastStored? (p : FileRecord → Bool) (requests : List Request) : Option Request :=
  requests.reverse.find? fun request => request.file?.any p

section LastStored

variable {p q : FileRecord → Bool} {requests : List Request} {request : Request}

theorem lastStored?_append_singleton (p : FileRecord → Bool) (requests : List Request)
    (request : Request) : lastStored? p (requests ++ [request]) =
      if request.file?.any p then some request else lastStored? p requests := by
  rw [lastStored?, List.reverse_append, List.reverse_singleton, List.singleton_append,
    List.find?_cons]
  cases request.file?.any p <;> rfl

theorem lastStored?_singleton {f : FileRecord} (file : request.file? = some f) (h : p f = true) :
    lastStored? p [request] = some request := by
  have stores : request.file?.any p = true := (Option.any_eq_true _ _).mpr ⟨f, file, h⟩
  rw [← List.nil_append [request], lastStored?_append_singleton, if_pos stores]

theorem exists_file_of_lastStored? (h : lastStored? p requests = some request) :
    request ∈ requests ∧ ∃ f, request.file? = some f ∧ p f = true := by
  rw [lastStored?] at h
  have stores := List.find?_some h
  exact ⟨List.mem_reverse.mp (List.mem_of_find?_eq_some h), (Option.any_eq_true _ _).mp stores⟩

/-- The last request of all is the last of those with a stronger property, if it has it. -/
theorem lastStored?_of_imp (h : lastStored? p requests = some request)
    (imp : ∀ f, q f = true → p f = true) (own : request.file?.any q = true) :
    lastStored? q requests = some request := by
  induction requests using List.reverseRecOn with
  | nil => simp [lastStored?] at h
  | append_singleton requests last ih =>
    rw [lastStored?_append_singleton] at h ⊢
    split at h
    · obtain rfl := Option.some.inj h
      rw [if_pos own]
    · next other =>
      have other' : ¬ last.file?.any q = true := by
        intro stored
        obtain ⟨f, file, holds⟩ := (Option.any_eq_true _ _).mp stored
        exact other ((Option.any_eq_true _ _).mpr ⟨f, file, imp f holds⟩)
      rw [if_neg other']
      exact ih h

end LastStored

end Request

/-! ## What a run leaves behind -/

namespace Store

/-- A field to which nothing but files with some property are written holds the document of the
last of them. -/
theorem find?_hashOf_after {listing : Listing} {field : String} {p : FileRecord → Bool}
    {requests : List Request}
    (writes : ∀ r ∈ requests, ∀ data, r.written? listing = some (field, data) ↔
      ∃ f, r.file? = some f ∧ p f = true ∧ f.data = data) :
    ((Store.after OrderedMap.empty requests).hashOf listing.key).find? field =
      (Request.lastStored? p requests).bind fun r => r.file?.map FileRecord.data := by
  induction requests using List.reverseRecOn with
  | nil => rfl
  | append_singleton requests last ih =>
    have before := ih fun r mem => writes r (List.mem_append_left _ mem)
    have now := writes last (by simp)
    rw [after_append, after_cons, after_nil, Request.hashOf_effect,
      Request.lastStored?_append_singleton]
    by_cases stores : last.file?.any p = true
    · obtain ⟨f, file, holds⟩ := (Option.any_eq_true _ _).mp stores
      rw [if_pos stores, (now f.data).mpr ⟨f, file, holds, rfl⟩]
      simp [file]
    · rw [if_neg stores, ← before]
      -- What else is written goes to another field.
      cases entry : last.written? listing with
      | none => rfl
      | some pair =>
        obtain ⟨key, data⟩ := pair
        have other : field ≠ key := by
          rintro rfl
          obtain ⟨f, file, holds, -⟩ := (now data).mp entry
          exact stores ((Option.any_eq_true _ _).mpr ⟨f, file, holds⟩)
        rw [Option.toList_some, Hash.write_cons, Hash.write_nil, OrderedMap.find?_insert,
          if_neg other]

theorem insert_hashOf {store : Store} {key : HashKey} {field data : String}
    (h : (store.hashOf key).find? field = some data) :
    OrderedMap.insert store key.text (store.hashOf key) = store := by
  refine OrderedMap.insert_of_find? ?_
  -- A hash with a field is one of the store.
  cases there : store.find? key.text with
  | none => simp [hashOf, hash, there] at h
  | some hash => simp [hashOf, Store.hash, there]

/-- To write what is there changes nothing. -/
theorem write_of_find? {store : Store} {key : HashKey} {field data : String}
    (h : (store.hashOf key).find? field = some data) :
    store.write key [(field, data)] = store := by
  rw [write, Hash.write_cons, Hash.write_nil, OrderedMap.insert_of_find? h, insert_hashOf h]

end Store

theorem Request.written?_files_iff (request : Request) (machine uuid data : String) :
    request.written? (.files machine) = some (uuid, data) ↔
      ∃ f, request.file? = some f ∧ decide (f.machine = machine ∧ f.uuid = uuid) = true ∧
        f.data = data := by
  unfold written?
  cases demand : request.demand? with
  | none => simp [file?, demand]
  | some d => cases d <;> simp [file?, demand, Demand.written?, and_assoc]

/-- Apart from the entries of its traces, nothing but the file itself is written to the field of
a file. -/
theorem Request.written?_traces_iff {request : Request} {uuid : String}
    (apart : ∀ t, request.demand? = some (.addTrace t) → t.field ≠ uuid) (data : String) :
    request.written? (.traces uuid) = some (uuid, data) ↔
      ∃ f, request.file? = some f ∧ decide (f.uuid = uuid) = true ∧ f.data = data := by
  unfold written?
  cases demand : request.demand? with
  | none => simp [file?, demand]
  | some d =>
    cases d with
    | addTrace t => simp [file?, demand, Demand.written?, apart t demand]
    | _ => simp [file?, demand, Demand.written?]

/-- The document of a file that was accepted is accepted as this file. -/
theorem Request.storeFile_again {upload again : Request} {f : FileRecord}
    (stored : upload.demand? = some (.storeFile f))
    (posted : again.method.map Char.toUpper = "POST")
    (path : again.path = "/fileset") (sent : again.body = Utf8.bytes f.data) :
    again.demand? = some (.storeFile f) := by
  have parsed := parse_of_storeFile stored
  have fits := (demand?_eq_some_iff.mp stored).2.1
  have shorter := Record.length_data_le (FileRecord.document_of_parse parsed)
  refine demand?_eq_some_iff.mpr ⟨?_, ?_, posted, .setFile, path.symm, ?_⟩
  · rw [path]
    decide
  · rw [sent]
    exact Nat.le_trans shorter fits
  · rw [sent, Endpoint.demand, FileRecord.parse_data parsed]
    rfl

/-- A file whose document stands under its name and in the index of its machine is stored without
any change. -/
theorem Demand.effect_storeFile_of_find? {store : Store} {f : FileRecord}
    (held : (store.hashOf (.file f.uuid)).find? f.uuid = some f.data)
    (indexed : (store.hashOf (.files f.machine)).find? f.uuid = some f.data) :
    (storeFile f).effect store = store := by
  rw [effect, Store.write_of_find? held, Store.write_of_find? indexed]

/-- The file that was stored last under a name is the last one of its machine, too. -/
theorem Store.find?_files_of_lastStored? {requests : List Request} {upload : Request}
    {f : FileRecord}
    (last : Request.lastStored? (fun g => decide (g.uuid = f.uuid)) requests = some upload)
    (file : upload.file? = some f) :
    ((Store.after OrderedMap.empty requests).hashOf (.files f.machine)).find? f.uuid =
      some f.data := by
  have found := find?_hashOf_after fun r (_ : r ∈ requests) data =>
    Request.written?_files_iff r f.machine f.uuid data
  rw [Listing.key_files, Request.lastStored?_of_imp last (fun g => by simp) (by simp [file])]
    at found
  simpa [file] using found

namespace Gateway

/-- After a run in which no trace entry goes under the name of a file, a look-up of the file finds
the last document that was stored under this name: the whole text of the body of its upload, without
the blanks at its ends. To upload this document again is acknowledged and leaves the store as it
is. -/
theorem file_returned_and_stored_again (pageSize : Nat) (requests : List Request) (uuid : String)
    (apart : ∀ r ∈ requests, ∀ t, r.demand? = some (.addTrace t) → t.field ≠ uuid)
    (fetch : Request) (accepted : fetch.demand? = some (.fetchFile uuid)) :
    let store := (serveAll Engine.memory pageSize requests OrderedMap.empty).2
    let answer := (dispatch pageSize fetch).run Engine.memory store
    let last := Request.lastStored? (fun f => f.uuid = uuid) requests
    (last = none → answer = (⟨200, Envelope.missing.text⟩, store)) ∧
    ∀ upload, last = some upload → ∃ text : String, upload.body = Utf8.bytes text ∧
      answer = (⟨200, String.ofList (Text.trim text.toList)⟩, store) ∧
      ∀ again : Request, again.method.map Char.toUpper = "POST" → again.path = "/fileset" →
        again.body = Utf8.bytes answer.1.body →
        (dispatch pageSize again).run Engine.memory store = (⟨200, Envelope.ok.text⟩, store) := by
  intro store answer last
  have after : store = Store.after OrderedMap.empty requests :=
    store_serveAll pageSize requests OrderedMap.empty
  -- Only uploads of the file write to this field, so the last of them is found in it.
  have found : ((Store.after OrderedMap.empty requests).hashOf (.file uuid)).find? uuid =
      last.bind fun r => r.file?.map FileRecord.data :=
    Store.find?_hashOf_after fun r mem => Request.written?_traces_iff (apart r mem)
  have answered : answer =
      (⟨200, ((Demand.fetchFile uuid).outcome pageSize store).body⟩, store) := by
    rw [← Request.response_of_demand? accepted, show answer = _ from run_dispatch ..,
      Request.effect_of_demand? accepted]
    rfl
  rw [Demand.outcome, after, found, ← after] at answered
  refine ⟨fun unstored => ?_, fun upload here => ?_⟩
  · rw [unstored] at answered
    exact answered
  · obtain ⟨-, f, file, uploaded⟩ := Request.exists_file_of_lastStored? here
    have uploaded : f.uuid = uuid := by simpa using uploaded
    have parsed := Request.parse_of_storeFile (Request.file?_eq_some_iff.mp file)
    obtain ⟨cs, body, data⟩ := Record.document_eq_ok (FileRecord.document_of_parse parsed)
    have fetched : answer = (⟨200, f.data⟩, store) := by
      rw [answered, here, Option.bind_some, file]
      rfl
    refine ⟨String.ofList cs, by rw [body, Utf8.bytes, String.toList_ofList], ?_, ?_⟩
    · rw [fetched, data, String.toList_ofList]
    intro again posted path sent
    rw [fetched] at sent
    have stored := Request.file?_eq_some_iff.mp file
    have demand := Request.storeFile_again stored posted path sent
    -- What comes back is in both hashes already, so to store it again changes neither.
    have held : (store.hashOf (.file f.uuid)).find? f.uuid = some f.data := by
      rw [after, uploaded, found, here]
      simp [file]
    have indexed : (store.hashOf (.files f.machine)).find? f.uuid = some f.data := by
      rw [after]
      exact Store.find?_files_of_lastStored? (uploaded ▸ here) file
    rw [run_dispatch, Request.response_of_demand? demand, Request.effect_of_demand? demand,
      Demand.effect_storeFile_of_find? held indexed]
    rfl

/-- A file whose body begins and ends with blanks is fetched without them, and storing what was
fetched changes nothing. -/
theorem file_returned_and_stored_again_blanks :
    let body := " [\"m\",\"u\"]\n"
    let data := "[\"m\",\"u\"]"
    let set : Request := ⟨"POST", "/fileset", Utf8.bytes body, 0⟩
    let fetch : Request := ⟨"POST", "/fileget", Utf8.bytes "[\"u\"]", 0⟩
    let again : Request := ⟨"POST", "/fileset", Utf8.bytes data, 0⟩
    let store := (serveAll Engine.memory 20 [set] OrderedMap.empty).2
    (∀ r ∈ [set], ∀ t, r.demand? = some (.addTrace t) → t.field ≠ "u") ∧
      fetch.demand? = some (.fetchFile "u") ∧
      (dispatch 20 fetch).run Engine.memory store = (⟨200, data⟩, store) ∧
      (dispatch 20 again).run Engine.memory store = (⟨200, Envelope.ok.text⟩, store) := by
  intro body data set fetch again store
  have stored : set.demand? = some (.storeFile ⟨"m", "u", data⟩) :=
    Request.demand?_posted .setFile 0 (by decide +kernel) (by decide +kernel)
  have accepted : fetch.demand? = some (.fetchFile "u") :=
    Request.demand?_posted .getFile 0 (by decide +kernel) (by decide +kernel)
  have apart : ∀ r ∈ [set], ∀ t, r.demand? = some (.addTrace t) → t.field ≠ "u" := by
    simp [stored]
  have last : Request.lastStored? (fun f => decide (f.uuid = "u")) [set] = some set :=
    Request.lastStored?_singleton (Request.file?_eq_some_iff.mpr stored) rfl
  have returned := file_returned_and_stored_again 20 [set] "u" apart fetch accepted
  obtain ⟨text, is_text, answered, kept⟩ := returned.2 set last
  obtain rfl : body = text := by
    rw [← Option.some.injEq, ← Utf8.decode?_bytes, ← Utf8.decode?_bytes, ← is_text]
  have trimmed : String.ofList (Text.trim body.toList) = data := by decide +kernel
  rw [trimmed] at answered
  exact ⟨apart, accepted, answered,
    kept again (map_toUpper_eq (by decide)) (by decide) (by rw [answered])⟩

end Gateway

end HashGateway
