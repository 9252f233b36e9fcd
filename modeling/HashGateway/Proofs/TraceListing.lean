import HashGateway.Proofs.Paging
import HashGateway.Proofs.Store.Patterns
import HashGateway.Proofs.Traces

/-!
# Listing traces while traces are added

The fields of trace entries whose times have sixteen digits come in the order of their
times. A scan of the traces of a file may therefore be interleaved with requests of any
kind, as long as new entries of this file come at later times and the file itself is
stored only where it has been stored: what is listed was there or is written meanwhile, no
entry is listed twice, and none is lost. Only an entry whose field is the name of the file
may be lost, because the file is stored over it.

## Main definitions

* `Record.Stamped` — a field is that of an entry that was made at a time with sixteen digits
* `Store.Appends` — a request adds to the traces of a file behind all of them, if at all
* `Store.ListsTraces` — what a complete scan lists

## Main results

* `Record.Stamped.lt_iff` — such fields come in the order of their times
* `Gateway.traces_listed_while_appending` — a complete scan lists every entry once, in order
* `Gateway.trace_missed_under_name_of_file` — the entry that is lost
-/

namespace HashGateway

theorem append_lt_append_iff {p cs ds : List Char} : p ++ cs < p ++ ds ↔ cs < ds := by
  induction p with
  | nil => rfl
  | cons c p ih => rw [List.cons_append, List.cons_append, List.cons_lt_cons_self, ih]

/-- A listing of traces shows the fields that begin like those of entries. -/
theorem Listing.shows_trace (uuid : String) (digits : List Char) :
    (traces uuid).shows (String.ofList ("trace:".toList ++ digits)) = true :=
  Glob.fits_trace_bytes_iff.mpr ⟨digits, String.toList_ofList.symm⟩

namespace Record

/-- A field is that of an entry that was made at a time with sixteen digits. -/
def Stamped (field : String) (stamp : Nat) : Prop :=
  ∃ digits : List Char, digits.length = 16 ∧ Numeral.digits? digits = some stamp ∧
    field = String.ofList ("trace:".toList ++ digits)

theorem stamped_traceField {stamp : Nat} (h : 10 ^ 15 ≤ stamp) (h' : stamp < 10 ^ 16) :
    Stamped (traceField stamp) stamp := by
  refine ⟨Numeral.render stamp, ?_, Numeral.digits?_render stamp, rfl⟩
  have most : (Nat.toDigits 10 stamp).length ≤ 16 ↔ stamp < 10 ^ 16 :=
    Nat.length_toDigits_le_iff (by omega) (by omega)
  have least : (Nat.toDigits 10 stamp).length ≤ 15 ↔ stamp < 10 ^ 15 :=
    Nat.length_toDigits_le_iff (by omega) (by omega)
  rw [Numeral.render]
  omega

namespace Stamped

variable {field field' : String} {m n : Nat}

/-- Fields of trace entries come in the order of their times. -/
theorem lt_iff (h : Stamped field m) (h' : Stamped field' n) : field < field' ↔ m < n := by
  obtain ⟨digits, length, value, rfl⟩ := h
  obtain ⟨digits', length', value', rfl⟩ := h'
  have same_length : digits.length = digits'.length := length.trans length'.symm
  rw [← Numeral.lt_iff_of_length_eq value value' same_length, String.lt_iff]
  simp only [String.toList_ofList, append_lt_append_iff]

theorem unique (h : Stamped field m) (h' : Stamped field n) : m = n := by
  have not_lt := mt (h.lt_iff h').mpr (String.lt_irrefl field)
  have not_gt := mt (h'.lt_iff h).mpr (String.lt_irrefl field)
  omega

/-- Every listing of traces shows them. -/
theorem shows (h : Stamped field n) (uuid : String) : (Listing.traces uuid).shows field = true := by
  obtain ⟨digits, -, -, rfl⟩ := h
  exact Listing.shows_trace uuid digits

end Stamped

end Record

open Record (Stamped)

namespace Store

/-- A request adds to the traces of a file behind all of them, if at all: an accepted entry comes
at a time with sixteen digits after those of all entries, and the file is stored only where it
has been stored. -/
def Appends (uuid : String) (store : Store) (request : Request) : Prop :=
  (∀ t, request.demand? = some (.addTrace t) → t.uuid = uuid →
    10 ^ 15 ≤ request.stamp ∧ request.stamp < 10 ^ 16 ∧
      ∀ entry ∈ (store.hashOf (.file uuid)).entries, entry.1 ≠ uuid →
        ∀ stamp : Nat, Stamped entry.1 stamp → stamp < request.stamp) ∧
  ∀ f, request.demand? = some (.storeFile f) → f.uuid = uuid →
    (store.hashOf (.file uuid)).contains uuid = true

/-- The fields of the hash of a file are its name and those of traces. -/
def HoldsTraces (uuid : String) (store : Store) : Prop :=
  ∀ entry ∈ (store.hashOf (.file uuid)).entries, entry.1 = uuid ∨ ∃ stamp, Stamped entry.1 stamp

variable {uuid field data : String} {store : Store} {request : Request}

/-- Listing is not adding. -/
theorem appends_of_page {listing : Listing} {cursor : Nat}
    (asked : request.demand? = some (.page listing cursor)) : store.Appends uuid request := by
  constructor <;> simp [asked]

/-- What such a request writes: the field of the file, or one behind those of all entries. -/
theorem Appends.written (appends : store.Appends uuid request)
    (written : request.written? (.traces uuid) = some (field, data)) :
    (field = uuid ∧ (store.hashOf (.file uuid)).contains uuid = true) ∨
      ∃ now, Stamped field now ∧ ∀ entry ∈ (store.hashOf (.file uuid)).entries, entry.1 ≠ uuid →
        ∀ stamp, Stamped entry.1 stamp → stamp < now := by
  unfold Request.written? at written
  cases demand : request.demand? with
  | none => simp [demand] at written
  | some d =>
    rw [demand, Option.bind_some] at written
    cases d with
    | storeFile f =>
      simp only [Demand.written?, Option.ite_none_right_eq_some, Option.some.injEq,
        Prod.mk.injEq] at written
      obtain ⟨own, rfl, rfl⟩ := written
      exact .inl ⟨own, appends.2 f demand own⟩
    | addTrace t =>
      simp only [Demand.written?, Option.ite_none_right_eq_some, Option.some.injEq,
        Prod.mk.injEq] at written
      obtain ⟨own, rfl, rfl⟩ := written
      obtain ⟨least, most, after⟩ := appends.1 t demand own
      -- The time of an entry is not negative, so it is told by the digits of its field.
      obtain ⟨now, at_time⟩ := Int.eq_ofNat_of_zero_le (show 0 ≤ request.stamp by omega)
      rw [Request.field_of_addTrace demand, at_time]
      refine .inr ⟨now, Record.stamped_traceField (by omega) (by omega), ?_⟩
      intro entry mem other stamp stamped
      have earlier := after entry mem other stamp stamped
      omega
    | _ => simp [Demand.written?] at written

/-- Its field is the name of the file or that of a trace. -/
theorem Appends.labelled (appends : store.Appends uuid request)
    (written : request.written? (.traces uuid) = some (field, data)) :
    field = uuid ∨ ∃ stamp, Stamped field stamp :=
  (appends.written written).imp And.left fun ⟨now, stamped, _⟩ => ⟨now, stamped⟩

theorem Appends.late (appends : store.Appends uuid request) (holds : store.HoldsTraces uuid)
    (written : request.written? (.traces uuid) = some (field, data)) :
    Hash.Late uuid (store.hashOf (.file uuid)) field := by
  rcases appends.written written with ⟨rfl, contained⟩ | ⟨now, stamped, after⟩
  · exact .inl contained
  · refine .inr fun entry mem other => ?_
    obtain ⟨stamp, stamped'⟩ := (holds entry mem).resolve_left other
    exact (stamped'.lt_iff stamped).mpr (after entry mem other stamp stamped')

/-- No such request writes over an entry, unless the entry has the name of the file. -/
theorem Appends.ne_written (appends : store.Appends uuid request) {entry : String × String}
    (mem : entry ∈ (store.hashOf (.file uuid)).entries) {stamp : Nat}
    (stamped : Stamped entry.1 stamp) (other : entry.1 ≠ uuid) (data : String) :
    request.written? (.traces uuid) ≠ some (entry.1, data) := by
  intro written
  rcases appends.written written with ⟨own, -⟩ | ⟨now, stamped', after⟩
  · exact other own
  · have before := after entry mem other stamp stamped
    exact String.lt_irrefl _ ((stamped.lt_iff stamped').mpr before)

theorem HoldsTraces.effect (holds : store.HoldsTraces uuid) (appends : store.Appends uuid request) :
    (request.effect store).HoldsTraces uuid := by
  intro entry mem
  rw [← Listing.key_traces] at mem
  rcases Listing.Scanned.mem_effect mem with held | written
  · exact holds entry held
  · exact appends.labelled written

/-! ### Runs of such requests -/

variable {requests : List Request}

theorem HoldsTraces.writesLate (holds : store.HoldsTraces uuid)
    (appends : store.Along (Appends uuid) requests) :
    Listing.Scanned.WritesLate (.traces uuid) uuid store requests := by
  induction requests generalizing store with
  | nil => trivial
  | cons request requests ih =>
    obtain ⟨first, rest⟩ := appends
    exact ⟨fun field data written => first.late holds written, ih (holds.effect first) rest⟩

theorem ne_written_of_along (appends : store.Along (Appends uuid) requests)
    {entry : String × String} (mem : entry ∈ (store.hashOf (.file uuid)).entries) {stamp : Nat}
    (stamped : Stamped entry.1 stamp) (other : entry.1 ≠ uuid) :
    ∀ r ∈ requests, ∀ data, r.written? (.traces uuid) ≠ some (entry.1, data) := by
  induction requests generalizing store with
  | nil => simp
  | cons request requests ih =>
    obtain ⟨first, rest⟩ := appends
    have kept := first.ne_written mem stamped other
    have behind : entry ∈ (store.hashOf (Listing.traces uuid).key).entries.drop 0 := mem
    obtain ⟨data, held, origin⟩ := Listing.Scanned.mem_drop_effect behind
    obtain rfl : data = entry.2 := origin.resolve_right (kept data)
    intro r found
    rcases List.mem_cons.mp found with rfl | found
    · exact kept
    · exact ih rest held r found

/-- What a complete scan of the traces of a file lists, while requests are served. -/
structure ListsTraces (uuid : String) (store : Store) (requests : List Request)
    (visited : List (String × String)) : Prop where
  /-- An entry that is listed has the field of a trace, or it is the file itself. -/
  labelled : ∀ entry ∈ visited, entry.1 = uuid ∨ ∃ stamp, Stamped entry.1 stamp
  /-- It was there when the scan began, or one of the requests has written it. -/
  known : ∀ entry ∈ visited, entry ∈ (store.hashOf (.file uuid)).entries ∨
    ∃ r ∈ requests, r.written? (.traces uuid) = some entry
  /-- No field is listed twice, and traces are listed in the order of their times. -/
  ordered : visited.Pairwise fun a b =>
    a.1 < b.1 ∧ ∀ m n, Stamped a.1 m → Stamped b.1 n → m < n
  /-- A trace that was there when the scan began is listed. Only if its field is the name of the
  file, something else that was stored over it may be listed in its place. -/
  complete : ∀ entry ∈ (store.hashOf (.file uuid)).entries, (∃ stamp, Stamped entry.1 stamp) →
    entry ∈ visited ∨ entry.1 = uuid ∧ ∃ data ≠ entry.2, (uuid, data) ∈ visited ∧
      ∃ r ∈ requests, r.written? (.traces uuid) = some (uuid, data)

end Store

namespace Gateway

/-- A complete scan of the traces of a file lists entries that were there when it began or were
written meanwhile, each of them once and in the order of their times, and among them every trace
that was there when the scan began. This holds whatever else is served meanwhile, as long as traces
are added to this file at later times only and the file is stored only where it has been stored.
Only a trace whose field is the name of the file may be missed, and then what was stored over it is
listed in its place. -/
theorem traces_listed_while_appending (uuid : String) (pageSize : Nat) (positive : 0 < pageSize)
    (store : Store) (requests : List Request) (pages : List Page)
    (holds : store.HoldsTraces uuid) (appends : store.Along (Store.Appends uuid) requests)
    (scanned : Listing.Scanned pageSize (.traces uuid) store 0 requests pages) :
    ∃ visited, pages.flatMap Page.documents = Hash.documents visited ∧
      store.ListsTraces uuid requests visited := by
  -- New entries come at later times and thus behind all others; only the file itself may stand
  -- anywhere among them.
  obtain ⟨visited, listed, visits⟩ := scanned.exists_visited positive
  obtain ⟨ascending, -⟩ := visits.ordered uuid (holds.writesLate appends) (.inl rfl)
  refine ⟨visited, listed, ?_, visits.known, ?_, fun entry mem ⟨stamp, stamped⟩ => ?_⟩
  · intro entry mem
    rcases visits.known entry mem with held | ⟨r, found, written⟩
    · exact holds entry held
    · obtain ⟨met, appends⟩ := appends.exists_of_mem found
      exact appends.labelled written
  · exact ascending.imp fun lt => ⟨lt, fun m n first second => (first.lt_iff second).mp lt⟩
  · obtain ⟨data, found, origin⟩ := visits.covers entry mem (stamped.shows uuid)
    by_cases equal : data = entry.2
    · subst equal
      exact .inl found
    · obtain ⟨r, among, written⟩ := origin.resolve_left equal
      have own : entry.1 = uuid := by
        by_contra other
        exact Store.ne_written_of_along appends mem stamped other r among data written
      rw [own] at found written
      exact .inr ⟨own, data, equal, found, r, among, written⟩

/-- Two entries are listed page by page while a third one is added. -/
theorem traces_listed_while_appending_third :
    let add (stamp : Int) : Request := ⟨"POST", "/filesettrace", Utf8.bytes "[\"u\"]", stamp⟩
    let list (body : String) : Request := ⟨"POST", "/filegettrace", Utf8.bytes body, 0⟩
    let store := (serveAll Engine.memory 1 [add 1400000000000000, add 1500000000000000]
      OrderedMap.empty).2
    let requests := [list "[\"u\",0]", add 1600000000000000, list "[\"u\",1]", list "[\"u\",2]"]
    ∃ pages, Listing.Scanned 1 (.traces "u") store 0 requests pages ∧ store.HoldsTraces "u" ∧
      store.Along (Store.Appends "u") requests ∧
      ∃ visited, pages.flatMap Page.documents = Hash.documents visited ∧
        store.ListsTraces "u" requests visited ∧
        ("trace:1400000000000000", "[\"u\"]") ∈ visited ∧
        ("trace:1500000000000000", "[\"u\"]") ∈ visited := by
  intro add list store requests
  have accepted (stamp : Int) : (add stamp).demand? =
      some (.addTrace ⟨"u", Record.traceField stamp, "[\"u\"]"⟩) :=
    Request.demand?_posted .addTrace stamp (by decide +kernel) rfl
  have first : (list "[\"u\",0]").demand? = some (.page (.traces "u") 0) :=
    Request.demand?_posted .listTraces 0 (by decide +kernel) (by decide +kernel)
  have second : (list "[\"u\",1]").demand? = some (.page (.traces "u") 1) :=
    Request.demand?_posted .listTraces 0 (by decide +kernel) (by decide +kernel)
  have third : (list "[\"u\",2]").demand? = some (.page (.traces "u") 2) :=
    Request.demand?_posted .listTraces 0 (by decide +kernel) (by decide +kernel)
  -- The hash before and after the third entry comes; the pages are read off it below.
  have entries : (store.hashOf (.file "u")).entries = [("trace:1400000000000000", "[\"u\"]"),
      ("trace:1500000000000000", "[\"u\"]")] := by
    simp only [store, store_serveAll, Store.after_cons, Store.after_nil,
      Request.effect_of_demand? (accepted _)]
    decide +kernel
  have stamped : Record.Stamped "trace:1400000000000000" 1400000000000000 :=
    Record.stamped_traceField (by omega) (by omega)
  have stamped' : Record.Stamped "trace:1500000000000000" 1500000000000000 :=
    Record.stamped_traceField (by omega) (by omega)
  have holds : store.HoldsTraces "u" := by
    intro entry mem
    rw [entries] at mem
    simp only [List.mem_cons, List.not_mem_nil, or_false] at mem
    rcases mem with rfl | rfl
    · exact .inr ⟨_, stamped⟩
    · exact .inr ⟨_, stamped'⟩
  have appends : store.Along (Store.Appends "u") requests := by
    refine ⟨Store.appends_of_page first, ?_⟩
    rw [Request.effect_of_page first]
    refine ⟨⟨?_, by simp [accepted]⟩, Store.appends_of_page second, Store.appends_of_page third,
      Store.along_nil _ _⟩
    intro t _ _
    have later : (add 1600000000000000).stamp = 1600000000000000 := rfl
    refine ⟨by omega, by omega, fun entry mem _ stamp found => ?_⟩
    rw [entries] at mem
    simp only [List.mem_cons, List.not_mem_nil, or_false] at mem
    rcases mem with rfl | rfl
    · have earlier := found.unique stamped
      omega
    · have earlier := found.unique stamped'
      omega
  have entries' : (((add 1600000000000000).effect store).hashOf (.file "u")).entries =
      [("trace:1400000000000000", "[\"u\"]"), ("trace:1500000000000000", "[\"u\"]"),
        ("trace:1600000000000000", "[\"u\"]")] := by
    rw [Request.effect_of_demand? (accepted _), Demand.effect, Store.hashOf_write_self]
    simp only [Hash.write_cons, Hash.write_nil, OrderedMap.insert, entries]
    decide +kernel
  have next_first : (store.page (.traces "u") 0 1).next = 1 := by
    rw [Store.page_of_entries (.traces "u") entries]
    rfl
  have next_second : (((add 1600000000000000).effect store).page (.traces "u") 1 1).next = 2 := by
    rw [Store.page_of_entries (.traces "u") entries']
    rfl
  have stop : (((add 1600000000000000).effect store).page (.traces "u") 2 1).next = 0 := by
    rw [Store.page_of_entries (.traces "u") entries']
    rfl
  have scanned : Listing.Scanned 1 (.traces "u") store 0 requests
      [store.page (.traces "u") 0 1, ((add 1600000000000000).effect store).page (.traces "u") 1 1,
        ((add 1600000000000000).effect store).page (.traces "u") 2 1] := by
    refine .page first (run_page first (by decide) store) (by rw [next_first]; decide) ?_
    rw [next_first]
    refine .other (run_dispatch 1 _ store) ?_
    refine .page second (run_page second (by decide) _) (by rw [next_second]; decide) ?_
    rw [next_second]
    exact .last third (run_page third (by decide) _) stop
  obtain ⟨visited, listed, lists⟩ :=
    traces_listed_while_appending "u" 1 (by decide) store requests _ holds appends scanned
  refine ⟨_, scanned, holds, appends, visited, listed, lists, ?_, ?_⟩
  · exact (lists.complete _ (by rw [entries]; simp) ⟨_, stamped⟩).resolve_right (by simp)
  · exact (lists.complete _ (by rw [entries]; simp) ⟨_, stamped'⟩).resolve_right (by simp)

/-- A file has the name of a trace field. The trace with this field is there when a scan begins, and
the file is stored only where there is something already; but it takes the place of the trace
before the scan gets there, so the trace is not listed. -/
theorem trace_missed_under_name_of_file :
    let add (stamp : Int) (body : String) : Request :=
      ⟨"POST", "/filesettrace", Utf8.bytes body, stamp⟩
    let list (body : String) : Request := ⟨"POST", "/filegettrace", Utf8.bytes body, 0⟩
    let missed := "\x7b\"uuid\":\"trace:1500000000000000\",\"n\":2\x7d"
    let store := (serveAll Engine.memory 1 [add 1400000000000000 "[\"trace:1500000000000000\"]",
      add 1500000000000000 missed] OrderedMap.empty).2
    let file : Request :=
      ⟨"POST", "/fileset", Utf8.bytes "[\"m\",\"trace:1500000000000000\"]", 0⟩
    let requests := [list "[\"trace:1500000000000000\",0]", file,
      list "[\"trace:1500000000000000\",1]"]
    store.HoldsTraces "trace:1500000000000000" ∧
      store.Along (Store.Appends "trace:1500000000000000") requests ∧
      ("trace:1500000000000000", missed) ∈
        (store.hashOf (.file "trace:1500000000000000")).entries ∧
      ∃ pages, Listing.Scanned 1 (.traces "trace:1500000000000000") store 0 requests pages ∧
        ∃ v, Json.parseText missed = .ok v ∧ v ∉ pages.flatMap Page.documents := by
  intro add list missed store file requests
  have accepted : (add 1400000000000000 "[\"trace:1500000000000000\"]").demand? =
      some (.addTrace ⟨"trace:1500000000000000", "trace:1400000000000000",
        "[\"trace:1500000000000000\"]"⟩) :=
    Request.demand?_posted .addTrace _ (by decide +kernel) (by decide +kernel)
  have accepted' : (add 1500000000000000 missed).demand? =
      some (.addTrace ⟨"trace:1500000000000000", "trace:1500000000000000", missed⟩) :=
    Request.demand?_posted .addTrace _ (by decide +kernel) (by decide +kernel)
  have first : (list "[\"trace:1500000000000000\",0]").demand? =
      some (.page (.traces "trace:1500000000000000") 0) :=
    Request.demand?_posted .listTraces 0 (by decide +kernel) (by decide +kernel)
  have stored : file.demand? =
      some (.storeFile ⟨"m", "trace:1500000000000000", "[\"m\",\"trace:1500000000000000\"]"⟩) :=
    Request.demand?_posted .setFile 0 (by decide +kernel) (by decide +kernel)
  have second : (list "[\"trace:1500000000000000\",1]").demand? =
      some (.page (.traces "trace:1500000000000000") 1) :=
    Request.demand?_posted .listTraces 0 (by decide +kernel) (by decide +kernel)
  -- The hash before and after the file is stored: it has the same fields, and one other value.
  have entries : (store.hashOf (.file "trace:1500000000000000")).entries =
      [("trace:1400000000000000", "[\"trace:1500000000000000\"]"),
        ("trace:1500000000000000", missed)] := by
    simp only [store, store_serveAll, Store.after_cons, Store.after_nil,
      Request.effect_of_demand? accepted, Request.effect_of_demand? accepted']
    decide +kernel
  have entries' : ((file.effect store).hashOf (.file "trace:1500000000000000")).entries =
      [("trace:1400000000000000", "[\"trace:1500000000000000\"]"),
        ("trace:1500000000000000", "[\"m\",\"trace:1500000000000000\"]")] := by
    rw [Request.effect_of_demand? stored, Demand.effect, Store.hashOf_write_of_ne (by simp),
      Store.hashOf_write_self]
    simp only [Hash.write_cons, Hash.write_nil, OrderedMap.insert, entries]
    decide +kernel
  have front := Store.page_of_entries (.traces "trace:1500000000000000") entries 0 1
  have back := Store.page_of_entries (.traces "trace:1500000000000000") entries' 1 1
  refine ⟨?_, ?_, by rw [entries]; simp, ?_⟩
  · intro entry mem
    rw [entries] at mem
    simp only [List.mem_cons, List.not_mem_nil, or_false] at mem
    rcases mem with rfl | rfl
    · exact .inr ⟨1400000000000000, Record.stamped_traceField (by omega) (by omega)⟩
    · exact .inl rfl
  · refine ⟨Store.appends_of_page first, ?_⟩
    rw [Request.effect_of_page first]
    refine ⟨⟨by simp [stored], fun _ _ _ => ?_⟩, Store.appends_of_page second,
      Store.along_nil _ _⟩
    rw [OrderedMap.contains_iff, entries]
    simp
  · have next_first : (store.page (.traces "trace:1500000000000000") 0 1).next = 1 := by
      rw [front]
      rfl
    have stop : ((file.effect store).page (.traces "trace:1500000000000000") 1 1).next = 0 := by
      rw [back]
      rfl
    refine ⟨[store.page (.traces "trace:1500000000000000") 0 1,
      (file.effect store).page (.traces "trace:1500000000000000") 1 1], ?_, ?_⟩
    · refine .page first (run_page first (by decide) store) (by rw [next_first]; decide) ?_
      rw [next_first]
      exact .other (run_dispatch 1 _ store) (.last second (run_page second (by decide) _) stop)
    · -- The values are told apart by their texts, as these can be computed.
      have text : (Json.parseText missed).toOption.map Json.Value.text =
          some "\x7b\"n\":2,\"uuid\":\"trace:1500000000000000\"\x7d" := by decide +kernel
      obtain ⟨v, parsed, text⟩ := Option.map_eq_some_iff.mp text
      have texts : ([store.page (.traces "trace:1500000000000000") 0 1,
          (file.effect store).page (.traces "trace:1500000000000000") 1 1].flatMap
            Page.documents).map Json.Value.text =
          ["[\"trace:1500000000000000\"]", "[\"m\",\"trace:1500000000000000\"]"] := by
        rw [front, back]
        decide +kernel
      refine ⟨v, Except.toOption_eq_some.mp parsed, fun listed => ?_⟩
      have found := List.mem_map_of_mem (f := Json.Value.text) listed
      rw [texts, text] at found
      exact absurd found (by decide)

end Gateway

end HashGateway
