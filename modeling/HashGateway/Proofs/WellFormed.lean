import HashGateway.Proofs.Interference
import HashGateway.Proofs.Record.Rows
import HashGateway.Proofs.Registration
import HashGateway.Proofs.Traces

/-!
# What stores hold

A store of the gateway holds the hashes of registrations, of indexes and of files, each under
a key with a name. A registration has the name of its machine and of a user. What stands in an
index or under the name of a file is read as this very file, and every other field of a file is
that of a trace entry, and its value is read as this entry. No command of any request
breaks this, so it holds of every store that requests can come to, whatever the order of their
commands and whichever of them fail.

## Main definitions

* `HashKey.Admits` — what the hash of a key may hold
* `Store.WellFormed` — every hash has a field and a name, and holds what its key stands for

## Main results

* `Store.WellFormed.isPayload` — no document of a store is an envelope
* `Store.WellFormed.write` — writes of what a key admits keep a store well-formed
* `Gateway.sends_keeps_wellFormed`, `Store.WellFormed.after` — so do all commands of all requests,
  and runs of requests
* `Gateway.wellFormed_after` — every store that traffic can come to is well-formed
-/

namespace HashGateway

namespace HashKey

/-- The name of a machine or of a file in a key. -/
def name : HashKey → String
  | user machine => machine
  | files machine => machine
  | file uuid => uuid

/-- What the hash of a key may hold. -/
def Admits : HashKey → Hash → Prop
  /- A registration has its machine and a user with a name. -/
  | user machine, hash => ∃ username, username ≠ "" ∧
    hash.entries = [("machine", machine), ("username", username)]
  /- An index has files of its machine, each under its name. -/
  | files machine, hash => ∀ field data, hash.find? field = some data →
    field ≠ "" ∧ FileRecord.parse (Utf8.bytes data) = .ok ⟨machine, field, data⟩
  /- A file has itself under its name, of whichever machine, and trace entries of its own. -/
  | file uuid, hash => ∀ field data, hash.find? field = some data →
    (field = uuid ∧ ∃ machine, FileRecord.parse (Utf8.bytes data) = .ok ⟨machine, uuid, data⟩) ∨
    ∃ stamp, field = Record.traceField stamp ∧
      TraceRecord.parse stamp (Utf8.bytes data) = .ok ⟨uuid, field, data⟩

end HashKey

namespace Store

/-- Every hash of a store has a field and a key with a name, and holds what the key stands for. -/
def WellFormed (store : Store) : Prop :=
  ∀ text hash, store.find? text = some hash →
    hash.entries ≠ [] ∧ ∃ key : HashKey, key.text = text ∧ key.name ≠ "" ∧ key.Admits hash

theorem wellFormed_empty : WellFormed OrderedMap.empty := fun text hash found => by simp at found

end Store

/-! ### Names of records -/

theorem Record.ne_empty_of_nonEmpty {field text : String} {a : Unit}
    (h : nonEmpty field text = .ok a) : text ≠ "" := by
  rintro rfl
  simp [nonEmpty] at h

theorem Registration.named_of_parse {body : Bytes} {r : Registration} (h : parse body = .ok r) :
    r.machine ≠ "" ∧ r.username ≠ "" := by
  obtain ⟨⟨machine, username, flag, _⟩, -, h⟩ := Except.bind_eq_ok.mp h
  obtain ⟨_, machine_named, h⟩ := Except.bind_eq_ok.mp h
  obtain ⟨_, username_named, h⟩ := Except.bind_eq_ok.mp h
  have names : r.machine = machine ∧ r.username = username := by
    split at h
    · rw [← Except.ok.inj h]
      exact ⟨rfl, rfl⟩
    · rw [← Except.ok.inj h]
      exact ⟨rfl, rfl⟩
    · simp [throw, throwThe, MonadExceptOf.throw] at h
  rw [names.1, names.2]
  exact ⟨Record.ne_empty_of_nonEmpty machine_named, Record.ne_empty_of_nonEmpty username_named⟩

theorem FileRecord.named_of_parse {body : Bytes} {f : FileRecord} (h : parse body = .ok f) :
    f.machine ≠ "" ∧ f.uuid ≠ "" := by
  obtain ⟨row, -, h⟩ := Except.bind_eq_ok.mp h
  obtain ⟨_, machine, h⟩ := Except.bind_eq_ok.mp h
  obtain ⟨_, uuid, h⟩ := Except.bind_eq_ok.mp h
  obtain ⟨data, -, h⟩ := Except.bind_eq_ok.mp h
  rw [← Except.ok.inj h]
  exact ⟨Record.ne_empty_of_nonEmpty machine, Record.ne_empty_of_nonEmpty uuid⟩

theorem TraceRecord.named_of_parse {stamp : Int} {body : Bytes} {e : TraceRecord}
    (h : parse stamp body = .ok e) : e.uuid ≠ "" := by
  obtain ⟨row, -, h⟩ := Except.bind_eq_ok.mp h
  obtain ⟨_, uuid, h⟩ := Except.bind_eq_ok.mp h
  obtain ⟨data, -, h⟩ := Except.bind_eq_ok.mp h
  rw [← Except.ok.inj h]
  exact Record.ne_empty_of_nonEmpty uuid

/-! ## Writes -/

/-- Maps with the same pairs are equal. -/
theorem OrderedMap.eq_of_entries {α : Type} {m n : OrderedMap α} (h : m.entries = n.entries) :
    m = n := by
  cases m
  cases n
  simpa using h

namespace Hash

theorem entries_write_ne_nil (hash : Hash) {pairs : List (String × String)} (h : pairs ≠ []) :
    (hash.write pairs).entries ≠ [] := by
  obtain ⟨⟨field, value⟩, pairs, rfl⟩ := List.exists_cons_of_ne_nil h
  have found : (hash.insert field value).find? field = some value :=
    OrderedMap.find?_insert_self _ _ _
  have mem := (Ordered.find?_eq_some_iff (OrderedMap.ascending _)).mp found
  have positive : 0 < (hash.insert field value).size := List.length_pos_of_mem mem
  have size := size_write (hash.insert field value) pairs
  rw [← List.length_pos_iff, write_cons]
  change 0 < OrderedMap.size _
  omega

/-- What holds of all values of a hash holds after a write of one more. -/
theorem forall_find?_write {p : String → String → Prop} {hash : Hash} {field data : String}
    (h : ∀ field data, hash.find? field = some data → p field data) (new : p field data) :
    ∀ field' data', (hash.write [(field, data)]).find? field' = some data' → p field' data' := by
  intro field' data' found
  rw [write_cons, write_nil, OrderedMap.find?_insert] at found
  split at found
  · next own =>
    obtain rfl := Option.some.inj found
    rwa [own]
  · exact h field' data' found

end Hash

namespace Store.WellFormed

variable {store : Store} {key : HashKey} {pairs : List (String × String)}

/-- A hash that is there holds what its key stands for. -/
theorem admits_hashOf (h : store.WellFormed) (key : HashKey) :
    store.hashOf key = OrderedMap.empty ∨ key.Admits (store.hashOf key) := by
  cases found : store.find? key.text with
  | none => exact .inl (by simp [hashOf, Store.hash, found])
  | some hash =>
    obtain ⟨-, key', text, -, admits⟩ := h key.text hash found
    obtain rfl := HashKey.text_injective text
    exact .inr (by simpa [hashOf, Store.hash, found] using admits)

/-- The hash of a machine is that of its registration, or of none. -/
theorem exists_owner (h : store.WellFormed) (machine : String) :
    ∃ owner, store.hashOf (.user machine) = registrationHash machine owner := by
  rcases h.admits_hashOf (.user machine) with fresh | ⟨user, -, entries⟩
  · exact ⟨none, fresh⟩
  · rw [← entries_registrationHash] at entries
    exact ⟨some user, OrderedMap.eq_of_entries entries⟩

/-- No document of a store is an envelope: each holds the record of a file or of a trace entry. -/
theorem isPayload (h : store.WellFormed) {uuid field data : String}
    (found : (store.hashOf (.file uuid)).find? field = some data) : IsPayload data := by
  have files : FileRecord.shape.IsApart := by decide
  have traces : TraceRecord.shape.IsApart := by decide
  rcases h.admits_hashOf (.file uuid) with fresh | admits
  · simp [fresh] at found
  · rcases admits field data found with ⟨-, machine, read⟩ | ⟨stamp, -, read⟩
    · obtain ⟨row, fits, -⟩ := Except.bind_eq_ok.mp read
      exact isPayload_of_parse files (Record.row_eq_ok fits)
    · obtain ⟨row, fits, -⟩ := Except.bind_eq_ok.mp read
      exact isPayload_of_parse traces (Record.row_eq_ok fits)

/-- To write what a key admits into its hash keeps a store well-formed. -/
theorem write (h : store.WellFormed) (named : key.name ≠ "") (nonempty : pairs ≠ [])
    (admits : key.Admits ((store.hashOf key).write pairs)) :
    (store.write key pairs).WellFormed := by
  intro text hash found
  rw [Store.write, OrderedMap.find?_insert] at found
  split at found
  · next own =>
    obtain rfl := Option.some.inj found
    exact ⟨Hash.entries_write_ne_nil _ nonempty, key, own.symm, named, admits⟩
  · exact h text hash found

/-- A registration is written over another one, or into a new hash. -/
theorem write_registration (h : store.WellFormed) {machine username : String}
    (named : machine ≠ "") (named' : username ≠ "") :
    (store.write (.user machine) [("machine", machine), ("username", username)]).WellFormed := by
  refine h.write named (by simp) ⟨username, named', ?_⟩
  obtain ⟨owner, old⟩ := h.exists_owner machine
  rw [old, write_registrationHash, entries_registrationHash]

/-- All values of the hash of a key have what is asked of the values under this key. -/
theorem forall_find?_hashOf (h : store.WellFormed) {p : String → String → Prop}
    (admits : key.Admits (store.hashOf key) →
      ∀ field data, (store.hashOf key).find? field = some data → p field data) :
    ∀ field data, (store.hashOf key).find? field = some data → p field data := by
  rcases h.admits_hashOf key with fresh | held
  · simp [fresh]
  · exact admits held

/-- A file is written under its name into its own hash. -/
theorem write_file (h : store.WellFormed) {f : FileRecord} {body : Bytes}
    (parsed : FileRecord.parse body = .ok f) :
    (store.write (.file f.uuid) [(f.uuid, f.data)]).WellFormed := by
  refine h.write (FileRecord.named_of_parse parsed).2 (by simp) ?_
  exact Hash.forall_find?_write (h.forall_find?_hashOf fun admits => admits)
    (.inl ⟨rfl, f.machine, FileRecord.parse_data parsed⟩)

/-- A file is written under its name into the index of its machine. -/
theorem write_index (h : store.WellFormed) {f : FileRecord} {body : Bytes}
    (parsed : FileRecord.parse body = .ok f) :
    (store.write (.files f.machine) [(f.uuid, f.data)]).WellFormed := by
  obtain ⟨machine, uuid⟩ := FileRecord.named_of_parse parsed
  refine h.write machine (by simp) ?_
  exact Hash.forall_find?_write (h.forall_find?_hashOf fun admits => admits)
    ⟨uuid, FileRecord.parse_data parsed⟩

/-- A trace entry is written under its time into the hash of its file. -/
theorem write_trace (h : store.WellFormed) {e : TraceRecord} {stamp : Int} {body : Bytes}
    (parsed : TraceRecord.parse stamp body = .ok e) :
    (store.write (.file e.uuid) [(e.field, e.data)]).WellFormed := by
  refine h.write (TraceRecord.named_of_parse parsed) (by simp) ?_
  exact Hash.forall_find?_write (h.forall_find?_hashOf fun admits => admits)
    (.inr ⟨stamp, TraceRecord.field_of_parse parsed, TraceRecord.parse_data parsed⟩)

end Store.WellFormed

/-! ## Requests -/

/-- What a demand writes of the record of a body keeps stores well-formed. -/
theorem Demand.writes_keep_wellFormed {stamp : Int} {body : Bytes} {demand : Demand}
    (parsed : demand.IsReadFrom stamp body) : ∀ entry ∈ demand.writes, ∀ store : Store,
      store.WellFormed → (store.write entry.1 entry.2).WellFormed := by
  intro entry mem store held
  cases demand with
  | register r =>
    obtain ⟨machine, username⟩ := Registration.named_of_parse parsed
    obtain rfl := List.mem_singleton.mp mem
    exact held.write_registration machine username
  | storeFile f =>
    obtain rfl | rfl : entry = _ ∨ entry = _ := by simpa [writes] using mem
    · exact held.write_file parsed
    · exact held.write_index parsed
  | addTrace t =>
    obtain rfl := List.mem_singleton.mp mem
    exact held.write_trace parsed
  | lookUp machine => simp [writes] at mem
  | fetchFile uuid => simp [writes] at mem
  | page listing cursor => simp [writes] at mem

/-- A request as a whole keeps stores well-formed. -/
theorem Store.WellFormed.effect {store : Store} (h : store.WellFormed) (request : Request) :
    (request.effect store).WellFormed := by
  cases accepted : request.demand? with
  | none => rwa [Request.effect_of_demand?_eq_none accepted]
  | some demand =>
    rw [Request.effect_of_demand? accepted]
    exact Demand.effect_keeps
      (Demand.writes_keep_wellFormed (Request.isReadFrom_of_demand? accepted)) h

/-- So does a run of requests that are served one after the other. -/
theorem Store.WellFormed.after {store : Store} (h : store.WellFormed) (requests : List Request) :
    (store.after requests).WellFormed := by
  induction requests generalizing store with
  | nil => exact h
  | cons request requests ih => exact ih (h.effect request)

/-- All commands of all requests keep stores well-formed. -/
theorem Gateway.sends_keeps_wellFormed {pageSize : Nat} (request : Request) :
    (dispatch pageSize request).Sends (Command.Keeps Store.WellFormed) :=
  .dispatch fun demand accepted => demand.sends_keeps pageSize
    (Demand.writes_keep_wellFormed (Request.isReadFrom_of_demand? accepted))

/-- However many requests are on their way at the same time, in whatever order their commands are
served and whichever of them fail, every hash of the store has a field and a key with a name, and
holds what the key stands for. -/
theorem Gateway.wellFormed_after (pageSize : Nat) (events : List Traffic.Event) :
    (Traffic.after pageSize events).store.WellFormed :=
  Traffic.store_after Store.wellFormed_empty sends_keeps_wellFormed events

end HashGateway
