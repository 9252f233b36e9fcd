import HashGateway.Proofs.Paging
import HashGateway.Proofs.Record.Documents
import HashGateway.Proofs.TraceListing
import Mathlib.Data.List.Basic

/-!
# Which stored documents are listed

A document is stored when its body holds the record of a file or of a trace entry. For this
all members without a field of the record are only passed over. A page lists the documents
that are read as values. So a document that is stored is listed exactly if its tree is
sound: a document that is nested too deep, has a number out of range or a surrogate without
a partner is acknowledged, and left out of every page.

## Main definitions

* `Demand.Stores` — a demand is to store the record of a file or of a trace entry
* `Demand.document?` — the listing that the document of a demand goes to, with its entry

## Main results

* `Listing.Scanned.exists_visited_of_held` — a complete scan comes to an entry that stays
* `Gateway.stored_listed_iff_sound` — a complete scan comes to every stored document, and lists
  it exactly if its tree is sound
-/

namespace HashGateway

open Json (Document Tree)

/-- The listing that the document of a demand goes to, with its entry: a file is listed with the
files of its machine, a trace entry with the traces of its file. -/
def Demand.document? : Demand → Option (Listing × String × String)
  | storeFile f => some (.files f.machine, f.uuid, f.data)
  | addTrace e => some (.traces e.uuid, e.field, e.data)
  | _ => none

namespace Demand

variable {demand : Demand} {listing : Listing} {field data : String}

theorem document?_cases (h : demand.document? = some (listing, field, data)) :
    (∃ f, demand = .storeFile f ∧ listing = .files f.machine ∧ field = f.uuid ∧ data = f.data) ∨
    ∃ e, demand = .addTrace e ∧ listing = .traces e.uuid ∧ field = e.field ∧ data = e.data := by
  cases demand with
  | storeFile f =>
    simp only [document?, Option.some.injEq, Prod.mk.injEq] at h
    obtain ⟨rfl, rfl, rfl⟩ := h
    exact .inl ⟨f, rfl, rfl, rfl, rfl⟩
  | addTrace e =>
    simp only [document?, Option.some.injEq, Prod.mk.injEq] at h
    obtain ⟨rfl, rfl, rfl⟩ := h
    exact .inr ⟨e, rfl, rfl, rfl, rfl⟩
  | _ => simp [document?] at h

theorem written?_of_document? (h : demand.document? = some (listing, field, data)) :
    demand.written? listing = some (field, data) := by
  rcases document?_cases h with ⟨f, rfl, rfl, rfl, rfl⟩ | ⟨e, rfl, rfl, rfl, rfl⟩
  · simp [written?]
  · simp [written?]

/-- A demand is to store the record of a file or of a trace entry that a body holds. -/
def Stores (stamp : Int) (body : Bytes) (demand : Demand) : Prop :=
  (∃ f, FileRecord.parse body = .ok f ∧ demand = .storeFile f) ∨
    ∃ e, TraceRecord.parse stamp body = .ok e ∧ demand = .addTrace e

variable {stamp : Int} {body : Bytes}

/-- Listings show the fields of their documents. -/
theorem Stores.shows (stores : demand.Stores stamp body)
    (h : demand.document? = some (listing, field, data)) : listing.shows field = true := by
  rcases document?_cases h with ⟨f, -, rfl, -, -⟩ | ⟨e, rfl, rfl, rfl, -⟩
  · rfl
  · obtain ⟨_, -, other⟩ | ⟨_, parsed, added⟩ := stores
    · exact absurd other (by simp)
    · obtain rfl := addTrace.inj added
      rw [TraceRecord.field_of_parse parsed]
      exact Listing.shows_trace e.uuid (Numeral.renderInt stamp)

/-- What is stored has the value of the tree of the body, which is one exactly if the tree is
sound. -/
theorem Stores.exists_tree (stores : demand.Stores stamp body)
    (h : demand.document? = some (listing, field, data)) :
    ∃ t, Document t body ∧ (Json.parseText data).toOption = t.within Json.maxDepth ∧
      ((t.within Json.maxDepth).isSome = true ↔ t.Sound) := by
  obtain ⟨f, parsed, rfl⟩ | ⟨e, parsed, rfl⟩ := stores
  · simp only [document?, Option.some.injEq, Prod.mk.injEq] at h
    rw [← h.2.2]
    exact FileRecord.exists_tree parsed
  · simp only [document?, Option.some.injEq, Prod.mk.injEq] at h
    rw [← h.2.2]
    exact TraceRecord.exists_tree parsed

end Demand

/-- What a request stores is in the hash of its listing. -/
theorem Request.find?_hashOf_effect_of_document? {request : Request} {demand : Demand}
    {listing : Listing} {field data : String} (accepted : request.demand? = some demand)
    (h : demand.document? = some (listing, field, data)) (store : Store) :
    ((request.effect store).hashOf listing.key).find? field = some data := by
  rw [effect_of_demand? accepted, Demand.hashOf_effect, Demand.written?_of_document? h,
    Option.toList_some, Hash.write_cons, Hash.write_nil, OrderedMap.find?_insert_self]

/-- A complete scan comes to an entry of the hash if nothing else is written for its field, and
to no other entry of this field. -/
theorem Listing.Scanned.exists_visited_of_held {pageSize : Nat} {listing : Listing}
    {store : Store} {requests : List Request} {pages : List Page} {field data : String}
    (positive : 0 < pageSize) (scanned : Scanned pageSize listing store 0 requests pages)
    (held : (store.hashOf listing.key).find? field = some data)
    (shows : listing.shows field = true)
    (kept : ∀ r ∈ requests, ∀ data', r.written? listing = some (field, data') → data' = data) :
    ∃ visited, pages.flatMap Page.documents = Hash.documents visited ∧
      (field, data) ∈ visited ∧ ∀ entry ∈ visited, entry.1 = field → entry.2 = data := by
  obtain ⟨visited, listed, visits⟩ := scanned.exists_visited positive
  have ascending := (store.hashOf listing.key).ascending
  refine ⟨visited, listed, ?_, fun entry mem own => ?_⟩
  · exact visits.complete ((Ordered.find?_eq_some_iff ascending).mp held) shows kept
  · obtain ⟨field', data'⟩ := entry
    subst own
    rcases visits.known _ mem with there | ⟨r, mem', written⟩
    · have found := (Ordered.find?_eq_some_iff ascending).mpr there
      exact Option.some.inj (found.symm.trans held)
    · exact kept r mem' data' written

theorem Request.entries_of_first_file {request : Request} {f : FileRecord}
    (h : request.demand? = some (.storeFile f)) :
    ((request.effect OrderedMap.empty).hashOf (.files f.machine)).entries = [(f.uuid, f.data)] := by
  rw [effect_of_demand? h, Demand.effect, Store.hashOf_write_self,
    Store.hashOf_write_of_ne (by simp)]
  rfl

/-- Entries that are no documents add nothing to a listing. -/
theorem Hash.documents_filter {entries : List (String × String)} {p : String × String → Bool}
    (h : ∀ entry ∈ entries, p entry = false → (Json.parseText entry.2).toOption = none) :
    documents (entries.filter p) = documents entries := by
  rw [documents, documents, List.filterMap_filter]
  refine List.filterMap_congr fun entry mem => ?_
  by_cases chosen : p entry = true
  · rw [if_pos chosen]
  · rw [if_neg chosen, h entry mem (by simpa using chosen)]

namespace Gateway

/-- What is stored of the record of a file or of a trace entry is read as a value exactly if the
tree of the body is sound. Therefore, as long as nothing else is written for its field, a complete
scan that begins any time later lists the document of a record exactly if its tree is sound; if it
is not sound, the pages hold the documents of the other fields only. -/
theorem stored_listed_iff_sound (stamp : Int) (body : Bytes) (demand : Demand)
    (listing : Listing) (field data : String) (stores : demand.Stores stamp body)
    (document : demand.document? = some (listing, field, data)) :
    ∃ t, Document t body ∧ ((∃ v, Json.parseText data = .ok v) ↔ t.Sound) ∧
      ∀ (pageSize : Nat) (store : Store) (request : Request) (between requests : List Request)
        (pages : List Page), 0 < pageSize → request.demand? = some demand →
        (∀ r ∈ between ++ requests, ∀ data', r.written? listing = some (field, data') →
          data' = data) →
        Listing.Scanned pageSize listing
          (serveAll Engine.memory pageSize (request :: between) store).2 0 requests pages →
        ∃ visited, pages.flatMap Page.documents = Hash.documents visited ∧
          (field, data) ∈ visited ∧
          (t.Sound ↔ ∃ v, Json.parseText data = .ok v ∧ v ∈ pages.flatMap Page.documents) ∧
          (¬ t.Sound → pages.flatMap Page.documents =
            Hash.documents (visited.filter fun entry => entry.1 ≠ field)) := by
  obtain ⟨t, tree, read, sound⟩ := stores.exists_tree document
  have readable : (∃ v, Json.parseText data = .ok v) ↔ t.Sound := by
    rw [← sound, ← read, Option.isSome_iff_exists]
    exact exists_congr fun v => Except.toOption_eq_some.symm
  refine ⟨t, tree, readable, ?_⟩
  intro pageSize store request between requests pages positive accepted kept scanned
  rw [store_serveAll, Store.after_cons] at scanned
  -- The entry is there when the scan begins.
  have stored := Request.find?_hashOf_effect_of_document? accepted document store
  have stays := (Store.forall_find?_after_take_iff stored between).mpr
    fun r mem => kept r (List.mem_append_left _ mem)
  have held := stays between.length
  rw [List.take_length] at held
  obtain ⟨visited, listed, mem, only⟩ := scanned.exists_visited_of_held positive held
    (stores.shows document) fun r mem => kept r (List.mem_append_right _ mem)
  refine ⟨visited, listed, mem, ?_, fun not_sound => ?_⟩
  · rw [← readable, listed]
    refine exists_congr fun v => (and_iff_left_of_imp fun parsed => ?_).symm
    exact List.mem_filterMap.mpr ⟨_, mem, Except.toOption_eq_some.mpr parsed⟩
  · rw [listed]
    refine (Hash.documents_filter fun entry mem' own => ?_).symm
    rw [only entry mem' (by simpa using own), read]
    exact Option.not_isSome_iff_eq_none.mp (mt sound.mp not_sound)

/-- A file is stored and listed on the only page. -/
theorem stored_listed_iff_sound_file :
    let data := "[\"m\",\"u\"]"
    let set : Request := ⟨"POST", "/fileset", Utf8.bytes data, 0⟩
    let list : Request := ⟨"POST", "/filegetall", Utf8.bytes "[\"m\",0]", 0⟩
    let store := (serveAll Engine.memory 20 [set] OrderedMap.empty).2
    let demand := Demand.storeFile ⟨"m", "u", data⟩
    demand.Stores 0 set.body ∧ demand.document? = some (.files "m", "u", data) ∧
      set.demand? = some demand ∧
      ∃ pages, Listing.Scanned 20 (.files "m") store 0 [list] pages ∧
        ∃ t, Document t set.body ∧ t.Sound ∧
          ∃ v, Json.parseText data = .ok v ∧ v ∈ pages.flatMap Page.documents := by
  intro data set list store demand
  have accepted : set.demand? = some demand :=
    Request.demand?_posted .setFile 0 (by decide +kernel) (by decide +kernel)
  have asked : list.demand? = some (.page (.files "m") 0) :=
    Request.demand?_posted .listFiles 0 (by decide +kernel) (by decide +kernel)
  have stored : store = set.effect OrderedMap.empty := by
    simp only [store, store_serveAll, Store.after_cons, Store.after_nil]
  have entries := Request.entries_of_first_file accepted
  rw [← stored] at entries
  have page : store.page (.files "m") 0 20 = ⟨0, Hash.documents [("u", data)]⟩ :=
    Store.page_of_entries (.files "m") entries 0 20
  have scanned := Listing.Scanned.last asked (run_page asked (by decide) store)
    (congrArg Page.next page)
  have stores : demand.Stores 0 set.body := .inl ⟨_, Request.parse_of_storeFile accepted, rfl⟩
  obtain ⟨t, tree, readable, scans⟩ :=
    stored_listed_iff_sound 0 set.body demand (.files "m") "u" data stores rfl
  have kept : ∀ r ∈ [] ++ [list], ∀ data', r.written? (.files "m") = some ("u", data') →
      data' = data := by
    simp [Request.written?, asked, Demand.written?]
  obtain ⟨visited, -, -, iff, -⟩ :=
    scans 20 OrderedMap.empty set [] [list] _ (by decide) accepted kept scanned
  have value : (Json.parseText data).toOption.isSome = true := by decide +kernel
  obtain ⟨v, value⟩ := Option.isSome_iff_exists.mp value
  have sound := readable.mp ⟨v, Except.toOption_eq_some.mp value⟩
  exact ⟨stores, rfl, accepted, _, scanned, t, tree, sound, iff.mp sound⟩

/-- A file whose document has a number out of range is acknowledged, and the listing of its machine
is empty. -/
theorem file_not_listed_of_large_number :
    let data := "\x7b\"machine\":\"m\",\"uuid\":\"u\",\"x\":1e999\x7d"
    let set : Request := ⟨"POST", "/fileset", Utf8.bytes data, 0⟩
    let list : Request := ⟨"POST", "/filegetall", Utf8.bytes "[\"m\",0]", 0⟩
    let served := serveAll Engine.memory 20 [set, list] OrderedMap.empty
    FileRecord.parse set.body = .ok ⟨"m", "u", data⟩ ∧
      (Json.parseText data).toOption = none ∧
      served.1 = [⟨200, Envelope.ok.text⟩, ⟨200, (Page.mk 0 []).text "files"⟩] ∧
      (served.2.hashOf (.files "m")).entries = [("u", data)] ∧
      Listing.Scanned 20 (.files "m") (serveAll Engine.memory 20 [set] OrderedMap.empty).2 0
        [list] [⟨0, []⟩] := by
  intro data set list served
  have demand : set.demand? = some (.storeFile ⟨"m", "u", data⟩) :=
    Request.demand?_posted .setFile 0 (by decide +kernel) (by decide +kernel)
  have asked : list.demand? = some (.page (.files "m") 0) :=
    Request.demand?_posted .listFiles 0 (by decide +kernel) (by decide +kernel)
  have unread : (Json.parseText data).toOption.isNone = true := by decide +kernel
  -- From here on the text of the document does not matter.
  clear_value data
  have no_document := Option.isNone_iff_eq_none.mp unread
  have entries := Request.entries_of_first_file demand
  have askable : Operation.Askable 0 20 := by decide
  have page : (set.effect OrderedMap.empty).page (.files "m") 0 20 =
      ⟨0, Hash.documents [("u", data)]⟩ := Store.page_of_entries (.files "m") entries 0 20
  rw [Hash.documents_cons, no_document] at page
  have first : set.response 20 OrderedMap.empty = ⟨200, Envelope.ok.text⟩ :=
    Request.response_of_demand? demand 20 _
  have second : list.response 20 (set.effect OrderedMap.empty) =
      ⟨200, (Page.mk 0 []).text "files"⟩ := by
    rw [Request.response_of_demand? asked, Demand.outcome, if_pos askable, page]
    rfl
  refine ⟨Request.parse_of_storeFile demand, no_document, ?_, ?_, ?_⟩
  · simp only [served, serveAll_memory, serveAll_nil, first, second]
  · simp only [served, store_serveAll, Store.after_cons, Store.after_nil,
      Request.effect_of_page asked]
    exact entries
  · simp only [store_serveAll, Store.after_cons, Store.after_nil]
    have scanned := Listing.Scanned.last asked (run_page asked askable _) (congrArg Page.next page)
    rwa [page] at scanned

end Gateway

end HashGateway
