import HashGateway.Proofs.FileRoundTrip
import HashGateway.Proofs.Paging
import HashGateway.Proofs.Record.Texts
import HashGateway.Proofs.Store.Scans
import Mathlib.Data.List.Basic

/-!
# Listing the files of a machine

The index of a machine has one field for each file that was stored under the machine, and it
holds the document of the last upload. A client that lists them knows of the pages only what it
reads in the answers: it asks for the page at zero, takes from each answer the number under the
name of the cursor, and stops when this is zero. What it is answered are the documents of the
index, cut into pages.

A cursor, and with it the size of a hash that can be listed to its end, has 64 bits.

## Main definitions

* `nextPage?` — where the next page begins, as a client reads it in an answer
* `FilePage.Chain` — a client asks for one page after the other

## Main results

* `FilePage.Chain.exists_pages` — what a client is answered from a cursor on
* `Store.mem_files_iff` — the index of a machine has the document of the last upload of each file
* `Gateway.files_listed_by_chain` — the files of a machine are listed once each, in order
-/

namespace HashGateway

open Json (Tree Value)
open Record (Draft Field FieldType Row Shape)

/-- Every page of the files of a machine can be asked for. -/
theorem FilePage.exists_body {machine : String} (named : machine ≠ "") {cursor : Nat}
    (fits : cursor ≤ Numeral.max64) : ∃ body, parse body = .ok ⟨machine, cursor⟩ := by
  obtain ⟨m, first, text⟩ := Record.exists_member "machine" machine
  obtain ⟨ps', name'⟩ := Json.exists_spells "page"
  obtain ⟨x, value, number⟩ := Json.exists_writes_natural fits
  have second : Json.WritesMember (ps', .number false x) ("page", .number (.int cursor)) :=
    ⟨name', number⟩
  have fields : Draft.ofMembers shape.fields (Draft.empty shape.fields)
      [m, (ps', .number false x)] = some (some machine, some cursor, ()) :=
    Draft.ofMembers_cons first (Draft.ofMember_own "machine" text _)
      (Draft.ofMembers_cons second (Draft.ofMember_other (by decide : "page" ≠ "machine")
        (Draft.ofMember_own "page" (FieldType.ofTree_number value fits) _) _) rfl)
  have read := Shape.parse_text (.cons first (.cons second .nil)) fields rfl
  refine ⟨_, Except.bind_eq_ok.mpr ⟨_, Record.row_of_parse read,
    Except.bind_eq_ok.mpr ⟨(), ?_, rfl⟩⟩⟩
  exact if_neg (by simpa using named)

/-- Where the next page begins, as a client reads it in an answer: the number under the name of the
cursor. All else in the answer is passed over. -/
def nextPage? : Except Error Outcome → Option Nat
  | .ok (.success answer) =>
    (Shape.parse ⟨"Page", [⟨"page", .natural⟩]⟩ (Utf8.bytes answer)).toOption.map Prod.fst
  | _ => none

/-- What a page says of the next one is read in its text, whatever its documents are. -/
theorem Page.nextPage?_text {list : String} (other : list ≠ "page") (page : Page)
    (fits : page.next ≤ Numeral.max64) :
    nextPage? (.ok (.success (page.text list))) = some page.next := by
  obtain ⟨ps, name⟩ := Json.exists_spells list
  obtain ⟨ts, items⟩ := Json.exists_writes_items page.documents
  obtain ⟨ps', name'⟩ := Json.exists_spells "page"
  obtain ⟨x, value, number⟩ := Json.exists_writes_natural fits
  have documents : Json.WritesMember (ps, .array ts) (list, .array page.documents) :=
    ⟨name, .array items⟩
  have cursor : Json.WritesMember (ps', .number false x) ("page", .number (.int page.next)) :=
    ⟨name', number⟩
  have own := Draft.ofMember_own "page" (FieldType.ofTree_number value fits) (Draft.empty [])
  have empty : Draft.ofMember list (.array ts) [] () = some () := rfl
  have apart : list ≠ Field.name ⟨"page", .natural⟩ := other
  have passed (old : Option Nat) := Draft.ofMember_other apart empty old
  -- The members stand in the order of their names.
  rw [Page.text, Outcome.page, Ordered.insert, Ordered.insert, if_neg other]
  split
  · rw [nextPage?, Shape.parse_text (.cons documents (.cons cursor .nil))
      (Draft.ofMembers_cons documents (passed none) (Draft.ofMembers_cons cursor own rfl)) rfl]
    rfl
  · rw [nextPage?, Shape.parse_text (.cons cursor (.cons documents .nil))
      (Draft.ofMembers_cons cursor own (Draft.ofMembers_cons documents (passed _) rfl)) rfl]
    rfl

/-! ## One page after the other -/

/-- A client lists the files of a machine. It asks for the page at a cursor and goes on with the
page that the answer names; it stops when that is zero, or when an answer names none. Nothing else
is served meanwhile. -/
inductive FilePage.Chain (pageSize : Nat) (machine : String) :
    Store → Nat → List (Except Error Outcome) → Prop
  | more {store store' : Store} {cursor next : Nat} {stamp : Int} {body : Bytes}
      {result : Except Error Outcome} {results : List (Except Error Outcome)}
      (asks : FilePage.parse body = .ok ⟨machine, cursor⟩)
      (served : (Endpoint.listFiles.handle pageSize stamp body).run Engine.memory store =
        (result, store'))
      (going_on : nextPage? result = some next) (ne : next ≠ 0)
      (rest : Chain pageSize machine store' next results) :
      Chain pageSize machine store cursor (result :: results)
  | stop {store store' : Store} {cursor : Nat} {stamp : Int} {body : Bytes}
      {result : Except Error Outcome}
      (asks : FilePage.parse body = .ok ⟨machine, cursor⟩)
      (served : (Endpoint.listFiles.handle pageSize stamp body).run Engine.memory store =
        (result, store'))
      (ended : ∀ next, nextPage? result = some next → next = 0) :
      Chain pageSize machine store cursor [result]

namespace FilePage.Chain

variable {pageSize cursor : Nat} {machine : String} {store : Store} {page : Page}
  {entries : List (String × String)}

theorem run_handle {body : Bytes} (asks : parse body = .ok ⟨machine, cursor⟩)
    (askable : Operation.Askable cursor pageSize) (stamp : Int)
    (shown : store.page (.files machine) cursor pageSize = page) :
    (Endpoint.listFiles.handle pageSize stamp body).run Engine.memory store =
      (.ok (.success (page.text "files")), store) := by
  rw [Endpoint.run_handle, Endpoint.demand, asks]
  simp only [Except.map_ok, Demand.outcome, if_pos askable, shown]
  rfl

/-- The first answer is the page at the cursor, and the others are those of a client that begins
where this page says. -/
theorem iff_of_page (named : machine ≠ "") (askable : Operation.Askable cursor pageSize)
    (shown : store.page (.files machine) cursor pageSize = page)
    (results : List (Except Error Outcome)) :
    Chain pageSize machine store cursor results ↔ ∃ rest,
      results = .ok (.success (page.text "files")) :: rest ∧
      (page.next = 0 ∧ rest = [] ∨
        page.next ≠ 0 ∧ Chain pageSize machine store page.next rest) := by
  have next : nextPage? (.ok (.success (page.text "files"))) = some page.next :=
    Page.nextPage?_text (by decide) page (shown ▸ Scan.next_le _ _)
  -- The first answer can only be this page, so it alone says whether there is another one.
  constructor
  · intro chain
    cases chain with
    | more asks served going_on ne rest =>
      rw [run_handle asks askable _ shown] at served
      obtain ⟨rfl, rfl⟩ := Prod.mk.inj served
      obtain rfl := Option.some.inj (next.symm.trans going_on)
      exact ⟨_, rfl, .inr ⟨ne, rest⟩⟩
    | stop asks served ended =>
      rw [run_handle asks askable _ shown] at served
      obtain ⟨rfl, rfl⟩ := Prod.mk.inj served
      exact ⟨[], rfl, .inl ⟨ended _ next, rfl⟩⟩
  · obtain ⟨body, asks⟩ := exists_body named askable.1
    have served := run_handle asks askable 0 shown
    rintro ⟨rest, rfl, ⟨zero, rfl⟩ | ⟨ne, chain⟩⟩
    · refine .stop asks served fun n going_on => ?_
      rw [← Option.some.inj (next.symm.trans going_on), zero]
    · exact .more asks served next ne chain

/-- A page of files has all documents from its cursor on, as many as are visited. -/
theorem page_eq (held : (store.hashOf (.files machine)).entries = entries)
    (small : entries.length ≤ Numeral.max64) (cursor pageSize : Nat) :
    store.page (.files machine) cursor pageSize =
      ⟨if entries.length ≤ cursor + pageSize then 0 else cursor + pageSize,
        Hash.documents ((entries.drop cursor).take pageSize)⟩ := by
  have all : ((entries.drop cursor).take pageSize).filter (fun entry =>
      (Listing.files machine).shows entry.1) = (entries.drop cursor).take pageSize :=
    List.filter_eq_self.mpr fun _ _ => rfl
  rw [Store.page_of_entries (.files machine) held, all]
  split
  · rw [if_pos (by omega)]
  · rw [if_neg (by omega), Nat.min_eq_left (by omega)]

/-- A client that begins inside the index, or at zero, is answered page by page up to the end. -/
theorem exists_pages (positive : 0 < pageSize) (fits : pageSize ≤ Numeral.max64)
    (named : machine ≠ "") (held : (store.hashOf (.files machine)).entries = entries)
    (small : entries.length ≤ Numeral.max64) (inside : cursor = 0 ∨ cursor < entries.length) :
    ∃ pages : List Page,
      (∀ results, Chain pageSize machine store cursor results ↔
        results = pages.map fun page => .ok (.success (page.text "files"))) ∧
      pages.length = max 1 ((entries.length - cursor + pageSize - 1) / pageSize) ∧
      pages.flatMap Page.documents = Hash.documents (entries.drop cursor) := by
  -- What is left of the index becomes less from page to page.
  induction left : entries.length - cursor using Nat.strong_induction_on generalizing cursor with
  | h left ih =>
    have askable : Operation.Askable cursor pageSize := ⟨by omega, positive, fits⟩
    have shown := page_eq held small cursor pageSize
    by_cases last : entries.length ≤ cursor + pageSize
    · rw [if_pos last, List.take_of_length_le (by simp; omega)] at shown
      refine ⟨[⟨0, Hash.documents (entries.drop cursor)⟩], fun results => ?_, ?_, by simp⟩
      · rw [iff_of_page named askable shown]
        simp
      · rw [Scan.count_of_le positive (by omega)]
        rfl
    · rw [if_neg last] at shown
      have ne : cursor + pageSize ≠ 0 := by omega
      have inside : cursor + pageSize = 0 ∨ cursor + pageSize < entries.length := by omega
      obtain ⟨pages, chain, count, documents⟩ := ih _ (by omega) inside rfl
      refine ⟨⟨cursor + pageSize, Hash.documents ((entries.drop cursor).take pageSize)⟩ :: pages,
        fun results => ?_, ?_, ?_⟩
      · rw [iff_of_page named askable shown]
        constructor
        · rintro ⟨rest, rfl, ⟨zero, -⟩ | ⟨-, more⟩⟩
          · exact absurd zero ne
          · rw [(chain rest).mp more, List.map_cons]
        · rintro rfl
          exact ⟨_, rfl, .inr ⟨ne, (chain _).mpr rfl⟩⟩
      · rw [List.length_cons, count, ← left,
          Scan.count_of_lt (n := entries.length - cursor) positive (by omega), Nat.sub_sub]
      · rw [List.flatMap_cons, documents, ← Hash.documents_append, ← List.drop_drop,
          List.take_append_drop]

end FilePage.Chain

/-! ## The index of a machine -/

/-- What is stored of a file has the value of its body, if that has one. -/
theorem FileRecord.toOption_parseText_data {body : Bytes} {f : FileRecord}
    (h : parse body = .ok f) : (Json.parseText f.data).toOption = (Json.parse body).toOption := by
  obtain ⟨t, document, read, -⟩ := exists_tree h
  rw [read, document.toOption_parse]

theorem Request.exists_lastStored?_iff (p : FileRecord → Bool) (requests : List Request) :
    (∃ r, lastStored? p requests = some r) ↔
      ∃ r ∈ requests, ∃ f, r.file? = some f ∧ p f = true := by
  rw [← Option.isSome_iff_exists, lastStored?, List.find?_isSome]
  simp only [List.mem_reverse, Option.any_eq_true]

/-- The index of a machine has the document of the last upload of each of its files. -/
theorem Store.mem_files_iff (requests : List Request) (machine uuid data : String) :
    (uuid, data) ∈ ((Store.after OrderedMap.empty requests).hashOf (.files machine)).entries ↔
      ∃ r f, Request.lastStored? (fun f => f.machine = machine ∧ f.uuid = uuid) requests = some r ∧
        r.file? = some f ∧ f.data = data := by
  have found := find?_hashOf_after fun r (_ : r ∈ requests) data =>
    Request.written?_files_iff r machine uuid data
  rw [Listing.key_files, OrderedMap.find?] at found
  rw [← Ordered.find?_eq_some_iff (OrderedMap.ascending _), found]
  simp only [Option.bind_eq_some_iff, Option.map_eq_some_iff, exists_and_left]

namespace Gateway

/-- After any run, a client that lists the files of a machine from zero on is answered with pages,
as many as all its files need and at least one, and then stops, unless there are more files than
64 bits can count. The machine has the files that accepted requests stored under it; in the order of
the bytes of their names, the pages have one element for each of them whose last body is a JSON
document: the value of this body. -/
theorem files_listed_by_chain (pageSize : Nat) (positive : 0 < pageSize)
    (fits : pageSize ≤ Numeral.max64) (machine : String) (named : machine ≠ "")
    (requests : List Request) :
    let store := (serveAll Engine.memory pageSize requests OrderedMap.empty).2
    let last (uuid : String) : Option Request :=
      Request.lastStored? (fun f => f.machine = machine ∧ f.uuid = uuid) requests
    ∃ uuids : List String,
      uuids.Pairwise (fun uuid uuid' => Utf8.bytes uuid < Utf8.bytes uuid') ∧
      (∀ uuid, uuid ∈ uuids ↔
        ∃ r ∈ requests, ∃ f, r.file? = some f ∧ f.machine = machine ∧ f.uuid = uuid) ∧
      (uuids.length ≤ Numeral.max64 → ∃ pages : List Page,
        (∀ results, FilePage.Chain pageSize machine store 0 results ↔
          results = pages.map fun page => .ok (.success (page.text "files"))) ∧
        pages.length = max 1 ((uuids.length + pageSize - 1) / pageSize) ∧
        pages.flatMap Page.documents =
          uuids.filterMap fun uuid => (last uuid).bind fun r => (Json.parse r.body).toOption) := by
  intro store last
  have after : store = Store.after OrderedMap.empty requests :=
    store_serveAll pageSize requests OrderedMap.empty
  obtain ⟨entries, held⟩ : ∃ entries, (store.hashOf (.files machine)).entries = entries := ⟨_, rfl⟩
  have ascending := (store.hashOf (.files machine)).ascending
  have mem_iff := Store.mem_files_iff requests machine
  rw [held] at ascending
  rw [← after, held] at mem_iff
  -- The names are the fields of the index of the machine, which keeps them in order.
  refine ⟨entries.map Prod.fst, ?_, fun uuid => ?_, fun small => ?_⟩
  · exact List.pairwise_map.mpr (ascending.imp Utf8.bytes_lt_bytes_iff.mpr)
  · have some_iff := Request.exists_lastStored?_iff
      (fun f => f.machine = machine ∧ f.uuid = uuid) requests
    simp only [decide_eq_true_eq] at some_iff
    rw [← some_iff, List.mem_map]
    constructor
    · rintro ⟨⟨uuid, data⟩, mem, rfl⟩
      obtain ⟨r, -, here, -⟩ := (mem_iff uuid data).mp mem
      exact ⟨r, here⟩
    · rintro ⟨r, here⟩
      obtain ⟨-, f, file, -⟩ := Request.exists_file_of_lastStored? here
      exact ⟨(uuid, f.data), (mem_iff uuid f.data).mpr ⟨r, f, here, file, rfl⟩, rfl⟩
  · rw [List.length_map] at small
    obtain ⟨pages, chain, count, documents⟩ :=
      FilePage.Chain.exists_pages positive fits named held small (.inl rfl)
    refine ⟨pages, chain, by rw [count, List.length_map, Nat.sub_zero], ?_⟩
    rw [documents, List.drop_zero, Hash.documents, List.filterMap_map]
    refine List.filterMap_congr fun entry mem => ?_
    obtain ⟨uuid, data⟩ := entry
    obtain ⟨r, f, here, file, rfl⟩ := (mem_iff uuid data).mp mem
    have parsed := Request.parse_of_storeFile (Request.file?_eq_some_iff.mp file)
    have value : last uuid = some r := here
    rw [FileRecord.toOption_parseText_data parsed, Function.comp_apply, value, Option.bind_some]

/-- Two files are listed by two requests for a page of one file. -/
theorem files_listed_by_chain_two :
    let first : Request := ⟨"POST", "/fileset", Utf8.bytes "[\"m\",\"u\"]", 0⟩
    let second : Request := ⟨"POST", "/fileset", Utf8.bytes "[\"m\",\"t\"]", 0⟩
    let store := (serveAll Engine.memory 1 [first, second] OrderedMap.empty).2
    0 < 1 ∧ 1 ≤ Numeral.max64 ∧ "m" ≠ "" ∧ ∃ pages : List Page,
      (∀ results, FilePage.Chain 1 "m" store 0 results ↔
        results = pages.map fun page => .ok (.success (page.text "files"))) ∧
      pages.length = 2 := by
  intro first second store
  have stored : first.file? = some ⟨"m", "u", "[\"m\",\"u\"]"⟩ :=
    Request.file?_eq_some_iff.mpr
      (Request.demand?_posted .setFile 0 (by decide +kernel) (by decide +kernel))
  have stored' : second.file? = some ⟨"m", "t", "[\"m\",\"t\"]"⟩ :=
    Request.file?_eq_some_iff.mpr
      (Request.demand?_posted .setFile 0 (by decide +kernel) (by decide +kernel))
  refine ⟨by decide, by decide, by decide, ?_⟩
  obtain ⟨uuids, ascending, mem_iff, listed⟩ :=
    files_listed_by_chain 1 (by decide) (by decide) "m" (by decide) [first, second]
  have perm : uuids.Perm ["u", "t"] := by
    refine (List.perm_ext_iff_of_nodup ?_ (by decide)).mpr fun uuid => ?_
    · refine ascending.imp fun less equal => ?_
      rw [equal] at less
      exact List.lt_irrefl _ less
    · rw [mem_iff]
      simp [stored, stored', eq_comm]
  have two := perm.length_eq
  obtain ⟨pages, chain, count, -⟩ := listed (by rw [two]; decide)
  exact ⟨pages, chain, by rw [count, two]; rfl⟩

end Gateway

end HashGateway
