import HashGateway.Proofs.DocumentListing
import HashGateway.Proofs.Traces

/-!
# Files among their traces

A file and the entries of its traces share a hash, and a listing of traces tells them apart by
the names of the fields: it shows those that begin like the field of an entry. The field of a
file is its own name, which is any text. So a listing holds entries of the file and nothing
else, unless the name of the file itself begins in this way; then the file is listed with them.

## Main definitions

* `Record.TraceLike` — a name begins like the field of an entry

## Main results

* `Listing.shows_traces_iff` — which fields a listing of traces shows
* `Gateway.file_listed_with_traces_iff` — a scan of traces lists entries, and the file among them
  exactly if its name begins like the field of one
-/

namespace HashGateway

/-- A name begins like the field of a trace entry. -/
def Record.TraceLike (name : String) : Prop := "trace:".toList <+: name.toList

instance (name : String) : Decidable (Record.TraceLike name) :=
  inferInstanceAs (Decidable ("trace:".toList <+: name.toList))

theorem Record.traceLike_traceField (stamp : Int) : TraceLike (traceField stamp) := by
  have chars : (traceField stamp).toList = "trace:".toList ++ Numeral.renderInt stamp :=
    String.toList_ofList
  exact ⟨Numeral.renderInt stamp, chars.symm⟩

/-- A listing of traces shows the fields that begin like those of entries. -/
theorem Listing.shows_traces_iff {uuid field : String} :
    (traces uuid).shows field = true ↔ Record.TraceLike field :=
  Glob.fits_trace_bytes_iff

/-- What is in the hash of a listing after a run was there before or was written by a request. -/
theorem Store.mem_hashOf_after {listing : Listing} {store : Store} {requests : List Request}
    {entry : String × String}
    (mem : entry ∈ ((store.after requests).hashOf listing.key).entries) :
    entry ∈ (store.hashOf listing.key).entries ∨
      ∃ r ∈ requests, r.written? listing = some entry := by
  rw [hashOf_after] at mem
  exact (Hash.mem_entries_write mem).imp_right List.mem_filterMap.mp

/-- Into the hash of a file, accepted requests write the entries of its traces, and the file itself
under its name. -/
theorem Request.written?_traces_cases {request : Request} {uuid : String} {entry : String × String}
    (h : request.written? (.traces uuid) = some entry) :
    (∃ t, request.demand? = some (.addTrace t) ∧ t.uuid = uuid ∧ entry = (t.field, t.data)) ∨
    ∃ f, request.demand? = some (.storeFile f) ∧ f.uuid = uuid ∧ entry = (uuid, f.data) := by
  obtain ⟨demand, asked, written⟩ := Option.bind_eq_some_iff.mp h
  cases demand with
  | addTrace t =>
    simp only [Demand.written?, Option.ite_none_right_eq_some, Option.some.injEq] at written
    exact .inl ⟨t, asked, written.1, written.2.symm⟩
  | storeFile f =>
    simp only [Demand.written?, Option.ite_none_right_eq_some, Option.some.injEq] at written
    obtain ⟨rfl, rfl⟩ := written
    exact .inr ⟨f, asked, rfl, rfl⟩
  | _ => simp [Demand.written?] at written

theorem Request.entries_traces_of_first_file {request : Request} {f : FileRecord}
    (h : request.demand? = some (.storeFile f)) :
    ((request.effect OrderedMap.empty).hashOf (.file f.uuid)).entries = [(f.uuid, f.data)] := by
  rw [effect_of_demand? h, Demand.effect, Store.hashOf_write_of_ne (by simp),
    Store.hashOf_write_self]
  rfl

namespace Gateway

/-- A complete scan of the traces of a file after a run visits entries that accepted requests have
added to the file, and besides them the file itself, if its name begins like the field of an entry.
If it does not, the file is never visited, and if it does, a file that was stored before the scan
is, unless it is replaced meanwhile. -/
theorem file_listed_with_traces_iff (pageSize : Nat) (positive : 0 < pageSize) (uuid : String)
    (earlier requests : List Request) (pages : List Page)
    (scanned : Listing.Scanned pageSize (.traces uuid)
      (serveAll Engine.memory pageSize earlier OrderedMap.empty).2 0 requests pages) :
    ∃ visited, pages.flatMap Page.documents = Hash.documents visited ∧
      (∀ entry ∈ visited, ∃ r ∈ earlier ++ requests,
        (∃ t, r.demand? = some (.addTrace t) ∧ t.uuid = uuid ∧ entry = (t.field, t.data)) ∨
        Record.TraceLike uuid ∧
          ∃ f, r.demand? = some (.storeFile f) ∧ f.uuid = uuid ∧ entry = (uuid, f.data)) ∧
      ∀ data, ((serveAll Engine.memory pageSize earlier OrderedMap.empty).2.hashOf
          (.file uuid)).find? uuid = some data →
        (∀ r ∈ requests, ∀ data', r.written? (.traces uuid) = some (uuid, data') → data' = data) →
        ((uuid, data) ∈ visited ↔ Record.TraceLike uuid) := by
  obtain ⟨visited, listed, visits⟩ := scanned.exists_visited positive
  refine ⟨visited, listed, fun entry mem => ?_,
    fun data held kept => ⟨fun mem => ?_, fun like => ?_⟩⟩
  · -- The store was empty at first, so every entry was written by a request of one of the runs.
    have written : ∃ r ∈ earlier ++ requests, r.written? (.traces uuid) = some entry := by
      have known := visits.known entry mem
      rw [store_serveAll] at known
      rcases known with there | ⟨r, among, written⟩
      · obtain empty | ⟨r, among, written⟩ := Store.mem_hashOf_after there
        · exact absurd empty List.not_mem_nil
        · exact ⟨r, List.mem_append_left _ among, written⟩
      · exact ⟨r, List.mem_append_right _ among, written⟩
    obtain ⟨r, among, written⟩ := written
    refine ⟨r, among, (Request.written?_traces_cases written).imp_right ?_⟩
    rintro ⟨f, stored, own, rfl⟩
    exact ⟨Listing.shows_traces_iff.mp (visits.shows _ mem), f, stored, own, rfl⟩
  · exact Listing.shows_traces_iff.mp (visits.shows _ mem)
  · have there := (Ordered.find?_eq_some_iff (OrderedMap.ascending _)).mp held
    exact visits.complete there (Listing.shows_traces_iff.mpr like) kept

/-- A file with an ordinary name is not among its traces. -/
theorem file_listed_with_traces_iff_ordinary :
    let data := "[\"m\",\"u\"]"
    let set : Request := ⟨"POST", "/fileset", Utf8.bytes data, 0⟩
    let list : Request := ⟨"POST", "/filegettrace", Utf8.bytes "[\"u\",0]", 0⟩
    let store := (serveAll Engine.memory 20 [set] OrderedMap.empty).2
    0 < 20 ∧ ∃ pages, Listing.Scanned 20 (.traces "u") store 0 [list] pages ∧
      ∃ visited, pages.flatMap Page.documents = Hash.documents visited ∧
        (store.hashOf (.file "u")).find? "u" = some data ∧ ("u", data) ∉ visited := by
  intro data set list store
  have stored : set.demand? = some (.storeFile ⟨"m", "u", data⟩) :=
    Request.demand?_posted .setFile 0 (by decide +kernel) (by decide +kernel)
  clear_value data
  have asked : list.demand? = some (.page (.traces "u") 0) :=
    Request.demand?_posted .listTraces 0 (by decide +kernel) (by decide +kernel)
  have after : store = set.effect OrderedMap.empty := by
    simp only [store, store_serveAll, Store.after_cons, Store.after_nil]
  have entries := Request.entries_traces_of_first_file stored
  rw [← after] at entries
  have held : (store.hashOf (.file "u")).find? "u" = some data :=
    (Ordered.find?_eq_some_iff (OrderedMap.ascending _)).mpr (by rw [entries]; exact .head _)
  have next : (store.page (.traces "u") 0 20).next = 0 := by
    rw [Store.page_of_entries (.traces "u") entries 0 20]
    simp [Numeral.max64]
  have scanned := Listing.Scanned.last asked (run_page asked (by decide) store) next
  obtain ⟨visited, listed, -, iff⟩ :=
    file_listed_with_traces_iff 20 (by decide) "u" [set] [list] _ scanned
  have kept : ∀ r ∈ [list], ∀ data', r.written? (.traces "u") = some ("u", data') →
      data' = data := by
    simp [Request.written?, asked, Demand.written?]
  exact ⟨by decide, _, scanned, visited, listed, held, mt (iff data held kept).mp (by decide)⟩

/-- A file whose name begins like the field of an entry is listed as the only trace of itself,
though no trace was ever added to it. -/
theorem file_listed_as_own_trace :
    let data := "\x7b\"machine\":\"m\",\"uuid\":\"trace:x\"\x7d"
    let set : Request := ⟨"POST", "/fileset", Utf8.bytes data, 0⟩
    let list : Request := ⟨"POST", "/filegettrace",
      Utf8.bytes "\x7b\"uuid\":\"trace:x\",\"page\":0\x7d", 0⟩
    (∀ r ∈ [set, list], ∀ t, r.demand? ≠ some (.addTrace t)) ∧
      set.demand? = some (.storeFile ⟨"m", "trace:x", data⟩) ∧
      ∃ v, Json.parseText data = .ok v ∧
        Listing.Scanned 20 (.traces "trace:x")
          (serveAll Engine.memory 20 [set] OrderedMap.empty).2 0 [list] [⟨0, [v]⟩] ∧
        (serveAll Engine.memory 20 [set, list] OrderedMap.empty).1 =
          [⟨200, Envelope.ok.text⟩, ⟨200, (Page.mk 0 [v]).text "traces"⟩] := by
  intro data set list
  have stored : set.demand? = some (.storeFile ⟨"m", "trace:x", data⟩) :=
    Request.demand?_posted .setFile 0 (by decide +kernel) (by decide +kernel)
  have asked : list.demand? = some (.page (.traces "trace:x") 0) :=
    Request.demand?_posted .listTraces 0 (by decide +kernel) (by decide +kernel)
  have value : (Json.parseText data).toOption.isSome = true := by decide +kernel
  -- From here on the text of the document does not matter.
  clear_value data
  obtain ⟨v, value⟩ := Option.isSome_iff_exists.mp value
  have entries := Request.entries_traces_of_first_file stored
  have page : (set.effect OrderedMap.empty).page (.traces "trace:x") 0 20 = ⟨0, [v]⟩ := by
    have shown : (Listing.traces "trace:x").shows "trace:x" = true :=
      Listing.shows_traces_iff.mpr (by decide)
    rw [Store.page_of_entries (.traces "trace:x") entries 0 20]
    simp [shown, value, Numeral.max64, Hash.documents]
  have askable : Operation.Askable 0 20 := by decide
  refine ⟨by simp [stored, asked], stored, v, Except.toOption_eq_some.mp value, ?_, ?_⟩
  · have scanned := Listing.Scanned.last asked (run_page asked askable _) (congrArg Page.next page)
    rw [page] at scanned
    simpa only [store_serveAll, Store.after_cons, Store.after_nil] using scanned
  · have first : set.response 20 OrderedMap.empty = ⟨200, Envelope.ok.text⟩ :=
      Request.response_of_demand? stored 20 _
    have second : list.response 20 (set.effect OrderedMap.empty) =
        ⟨200, (Page.mk 0 [v]).text "traces"⟩ := by
      rw [Request.response_of_demand? asked, Demand.outcome, if_pos askable, page]
      rfl
    simp only [serveAll_memory, serveAll_nil, first, second]

end Gateway

end HashGateway
