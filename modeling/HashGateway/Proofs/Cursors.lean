import HashGateway.Proofs.FileListing
import HashGateway.Proofs.Outcomes
import HashGateway.Proofs.Record.Requests
import HashGateway.Proofs.Transcript
import HashGateway.Proofs.WellFormed

/-!
# Cursors

A client that lists something page by page is told by each page where the next one begins, and sends
this number back. It comes from the store as a text, is shown to the client as a number in a
document, is read from the body of the next request, and goes back to the store as a text. None of
these steps changes it, whatever the store and however large the number is; a store that answers no
number at all is answered for with a failure.

## Main definitions

* `Listing.endpoint`, `Listing.scanCommand` — where a listing is shown, and how a page is asked for
* `Listing.AskedIn` — a body asks for the page of a listing that begins at a cursor
* `ShowsNext` — a text is a page that says where the next one begins

## Main results

* `Listing.demand_of_askedIn` — a body that asks for a page is accepted
* `showsNext_page` — a page says where the next one begins
* `Gateway.cursors_are_relayed` — the cursor of the store is that of the next command
-/

namespace HashGateway

open Json (Document Piece Tree)
open Record (FieldType Row Shape valuesAt)

/-! ## Asking for a page -/

namespace Listing

/-- The endpoint that shows a listing. -/
def endpoint : Listing → Endpoint
  | files _ => .listFiles
  | traces _ => .listTraces

/-- The operation that reads a page. -/
def operation : Listing → Operation
  | files _ => .listFiles
  | traces _ => .listTraces

/-- The name under which a request says whose listing it is. -/
def field : Listing → String
  | files _ => "machine"
  | traces _ => "uuid"

/-- The machine or the file that a listing belongs to. -/
def owner : Listing → String
  | files machine => machine
  | traces uuid => uuid

/-- The command that asks for the page that begins at a cursor. -/
def scanCommand (listing : Listing) (cursor count : Nat) : Command :=
  ["HSCAN", listing.key.text, String.ofList (Numeral.render cursor)] ++
    (listing.pattern.toList.flatMap fun pattern => ["MATCH", pattern]) ++
    ["COUNT", String.ofList (Numeral.render count)]

/-- A body asks for the page of a listing that begins at a cursor. It is an object in which each of
the two fields is the name of one member, or a list of the two values. -/
inductive AskedIn (listing : Listing) (cursor : Nat) : Bytes → Prop
  | object {body : Bytes} {ms : List (List Piece × Tree)} {owner page : Tree}
      (text : Utf8.IsText body) (whole : Document (.object ms) body)
      (names : ∀ m ∈ ms, (Json.denote m.1).isSome = true)
      (one_owner : valuesAt listing.field ms = [owner])
      (named : FieldType.text.Denotes owner listing.owner)
      (one_page : valuesAt "page" ms = [page]) (begins : FieldType.natural.Denotes page cursor) :
      AskedIn listing cursor body
  | list {body : Bytes} {owner page : Tree} (whole : Document (.array [owner, page]) body)
      (named : FieldType.text.Denotes owner listing.owner)
      (begins : FieldType.natural.Denotes page cursor) : AskedIn listing cursor body

section Demand

variable {listing : Listing} {cursor : Nat} {stamp : Int} {body : Bytes}

/-- The record of the endpoint is read from a body that asks for a page. -/
theorem AskedIn.parse (title : String) (asked : listing.AskedIn cursor body) :
    Shape.parse ⟨title, [⟨listing.field, .text⟩, ⟨"page", .natural⟩]⟩ body =
      .ok (listing.owner, cursor, ()) := by
  cases asked with
  | object text whole names one_owner named one_page begins =>
    let shape : Shape := ⟨title, [⟨listing.field, .text⟩, ⟨"page", .natural⟩]⟩
    have distinct : (shape.fields.map Record.Field.name).Nodup := by
      cases listing <;> simp [shape, field]
    exact (Shape.parse_object_eq_ok_iff distinct names text whole).mpr
      ⟨⟨_, one_owner, named⟩, ⟨_, one_page, begins⟩, trivial⟩
  | list whole named begins =>
    -- The values of a list are taken in the order of the fields.
    refine Except.toOption_eq_some.mp ((Shape.toOption_parse whole).trans ?_)
    rw [Shape.ofTree, Row.ofItems, FieldType.ofTree_eq_some_iff.mpr named, Option.bind_some,
      Row.ofItems, FieldType.ofTree_eq_some_iff.mpr begins]
    rfl

/-- A page is asked for at the endpoint of its listing, and the owner has a name. -/
theorem of_demand {endpoint : Endpoint}
    (asks : endpoint.demand stamp body = .ok (.page listing cursor)) :
    endpoint = listing.endpoint ∧ listing.owner ≠ "" := by
  -- Only the two endpoints that list ask for a page, and both check the name of its owner.
  cases endpoint with
  | listFiles | listTraces =>
    obtain ⟨query, parsed, asked⟩ := Except.map_eq_ok.mp asks
    obtain ⟨⟨owner, page, _⟩, -, parsed⟩ := Except.bind_eq_ok.mp parsed
    obtain ⟨_, filled, parsed⟩ := Except.bind_eq_ok.mp parsed
    obtain rfl := Except.ok.inj parsed
    obtain ⟨rfl, -⟩ := Demand.page.inj asked
    exact ⟨rfl, Record.ne_empty_of_nonEmpty filled⟩
  | registerUser | getUser | setFile | getFile | addTrace =>
    obtain ⟨record, -, asked⟩ := Except.map_eq_ok.mp asks
    exact nomatch asked

/-- A body that asks for a page is accepted at the endpoint that shows it. -/
theorem demand_of_askedIn (named : listing.owner ≠ "") (asked : listing.AskedIn cursor body)
    (stamp : Int) : listing.endpoint.demand stamp body = .ok (.page listing cursor) := by
  have filled : Record.nonEmpty listing.field listing.owner = .ok () :=
    if_neg (by simpa using named)
  cases listing with
  | files machine =>
    have read : Record.row FilePage.shape body = .ok (machine, cursor, ()) :=
      Record.row_of_parse (asked.parse "FileAllQuery")
    refine Except.map_eq_ok.mpr ⟨⟨machine, cursor⟩, ?_, rfl⟩
    exact Except.bind_eq_ok.mpr ⟨_, read, Except.bind_eq_ok.mpr ⟨(), filled, rfl⟩⟩
  | traces uuid =>
    have read : Record.row TracePage.shape body = .ok (uuid, cursor, ()) :=
      Record.row_of_parse (asked.parse "TraceQuery")
    refine Except.map_eq_ok.mpr ⟨⟨uuid, cursor⟩, ?_, rfl⟩
    exact Except.bind_eq_ok.mpr ⟨_, read, Except.bind_eq_ok.mpr ⟨(), filled, rfl⟩⟩

end Demand

/-! ## Showing a page -/

/-- A page is asked for by one command, and what is shown is the meaning of its answer. -/
theorem exchange_page (listing : Listing) (cursor pageSize : Nat) :
    (Demand.page listing cursor).exchange pageSize =
      .send (listing.scanCommand cursor pageSize) fun answer =>
        .done (Exchange.meaning listing.operation answer) := by
  cases listing with
  | files machine => exact Exchange.perform_of_format (Operation.format_listFiles machine)
  | traces uuid => exact Exchange.perform_of_format (Operation.format_listTraces uuid)

theorem decode_operation (listing : Listing) :
    listing.operation.decode = Outcome.ofScan listing.name := by
  cases listing <;> rfl

theorem handle_eq {listing : Listing} {endpoint : Endpoint} {cursor : Nat} {stamp : Int}
    {body : Bytes} (asks : endpoint.demand stamp body = .ok (.page listing cursor))
    (pageSize : Nat) :
    endpoint.handle pageSize stamp body =
      .send (listing.scanCommand cursor pageSize) fun answer =>
        .done (Exchange.meaning listing.operation answer) := by
  rw [Endpoint.handle_eq, asks]
  exact exchange_page listing cursor pageSize

end Listing

/-- A reply is a string that writes a natural number of 64 bits. -/
def Reply.IsCursor (reply : Reply) (cursor : Nat) : Prop :=
  ∃ text, reply.Holds text ∧ Numeral.Writes text.toList cursor ∧ cursor ≤ Numeral.max64

/-- A page is a list of a cursor and a list. -/
theorem Reply.isPage_iff {reply : Reply} {cursor : Nat} {entries : List Reply} :
    reply.IsPage cursor entries ↔
      ∃ first, reply = .array [first, .array entries] ∧ first.IsCursor cursor := by
  simp only [IsPage, IsCursor, Numeral.unsigned?_eq_some_iff]
  constructor
  · rintro ⟨first, text, rfl, holds, writes⟩
    exact ⟨first, rfl, text, holds, writes⟩
  · rintro ⟨first, rfl, text, holds, writes⟩
    exact ⟨first, text, rfl, holds, writes⟩

/-- A text is an object with one member under the name of the cursor, and this is a number. -/
def ShowsNext (text : String) (next : Nat) : Prop :=
  ∃ ms page, Document (.object ms) (Utf8.bytes text) ∧ valuesAt "page" ms = [page] ∧
    FieldType.natural.Denotes page next

/-- A page says where the next one begins, whatever its documents are. -/
theorem showsNext_page {list : String} (other : list ≠ "page") {next : Nat}
    (fits : next ≤ Numeral.max64) (documents : List Json.Value) :
    ShowsNext (Outcome.page list next documents).text next := by
  obtain ⟨ps, name⟩ := Json.exists_spells list
  obtain ⟨ts, items⟩ := Json.exists_writes_items documents
  obtain ⟨ps', name'⟩ := Json.exists_spells "page"
  obtain ⟨x, value, number⟩ := Json.exists_writes_natural fits
  have listed : Json.WritesMember (ps, .array ts) (list, .array documents) := ⟨name, .array items⟩
  have cursor : Json.WritesMember (ps', .number false x) ("page", .number (.int next)) :=
    ⟨name', number⟩
  have denotes : FieldType.natural.Denotes (.number false x) next :=
    FieldType.ofTree_eq_some_iff.mp (Record.FieldType.ofTree_number value fits)
  -- The members stand in the order of their names.
  rw [Outcome.page, Ordered.insert, Ordered.insert, if_neg other]
  split
  · exact ⟨_, _, (Tree.Writes.object (.cons listed (.cons cursor .nil))).document,
      by simp [valuesAt, name.text, name'.text, other], denotes⟩
  · exact ⟨_, _, (Tree.Writes.object (.cons cursor (.cons listed .nil))).document,
      by simp [valuesAt, name.text, name'.text, other], denotes⟩

/-! ## The meaning of a page -/

namespace Listing

variable {listing : Listing} {endpoint : Endpoint} {cursor : Nat} {stamp : Int} {body : Bytes}
  {reply : Reply} {answer : Answer} {payload : String}

theorem transcript_handle (asks : endpoint.demand stamp body = .ok (.page listing cursor))
    (pageSize : Nat) {σ : Type} (engine : Engine σ) (s : σ) :
    (endpoint.handle pageSize stamp body).transcript engine s =
      [(listing.scanCommand cursor pageSize,
        (engine s (listing.scanCommand cursor pageSize)).1)] := by
  rw [handle_eq asks]
  rfl

theorem run_handle (asks : endpoint.demand stamp body = .ok (.page listing cursor))
    (pageSize : Nat) {σ : Type} (engine : Engine σ) (s : σ) :
    ((endpoint.handle pageSize stamp body).run engine s).1 =
      Exchange.meaning listing.operation (engine s (listing.scanCommand cursor pageSize)).1 := by
  rw [handle_eq asks]
  rfl

theorem meaning_ok (listing : Listing) (reply : Reply) :
    Exchange.meaning listing.operation (.ok reply) = .ok (Outcome.ofScan listing.name reply) := by
  rw [Exchange.meaning, decode_operation]

theorem meaning_of_isPage {next : Nat} {entries : List Reply} (page : reply.IsPage next entries) :
    ∃ payload, Exchange.meaning listing.operation (.ok reply) = .ok (.success payload) ∧
      ShowsNext payload next := by
  obtain ⟨-, -, -, -, -, fits⟩ := Reply.isPage_iff.mp page
  rw [meaning_ok, Outcome.ofScan_of_isPage page]
  exact ⟨_, rfl, showsNext_page listing.name_ne fits _⟩

theorem meaning_of_not_isPage (no_page : ¬ ∃ next entries, reply.IsPage next entries) :
    Exchange.meaning listing.operation (.ok reply) = .ok .failure := by
  rw [meaning_ok, Outcome.ofScan_of_not_isPage no_page]

/-- What is shown is where the page goes on that was answered. -/
theorem isPage_of_meaning_success
    (success : Exchange.meaning listing.operation answer = .ok (.success payload)) :
    ∃ reply next entries, answer = .ok reply ∧ reply.IsPage next entries ∧
      ShowsNext payload next := by
  cases answer with
  | error e => cases e <;> simp [Exchange.meaning] at success
  | ok reply =>
    -- A reply that is no page fails, so what succeeds is one.
    by_cases page : ∃ next entries, reply.IsPage next entries
    · obtain ⟨next, entries, page⟩ := page
      obtain ⟨payload', success', shows⟩ := meaning_of_isPage page
      obtain rfl := Outcome.success.inj (Except.ok.inj (success'.symm.trans success))
      exact ⟨reply, next, entries, rfl, page, shows⟩
    · rw [meaning_of_not_isPage page] at success
      simp at success

end Listing

namespace Gateway

variable {σ : Type}

/-- A page is asked for by one command, with the digits of the cursor that the request names. If the
store answers a list of a cursor and a list, the page says that the next one begins at this cursor;
every body that asks for that page is accepted, and what is sent for it has the digits of this
cursor again, without the sign or the zeros that the store may have written. If what the store
answers in the place of the cursor is none, the outcome is a failure. No page is shown otherwise, so
no page says anything else. -/
theorem cursors_are_relayed (engine : Engine σ) (s : σ) (pageSize : Nat) {endpoint : Endpoint}
    {stamp : Int} {body : Bytes} {listing : Listing} {cursor : Nat}
    (asks : endpoint.demand stamp body = .ok (.page listing cursor)) :
    let answer := (engine s (listing.scanCommand cursor pageSize)).1
    let result := ((endpoint.handle pageSize stamp body).run engine s).1
    (endpoint.handle pageSize stamp body).transcript engine s =
      [(listing.scanCommand cursor pageSize, answer)] ∧
    (∀ first entries next, answer = .ok (.array [first, .array entries]) → first.IsCursor next →
      (∃ payload, result = .ok (.success payload) ∧ ShowsNext payload next) ∧
      ∀ stamp' body', listing.AskedIn next body' →
        endpoint.demand stamp' body' = .ok (.page listing next) ∧
        ∀ s', ((endpoint.handle pageSize stamp' body').transcript engine s').map Prod.fst =
          [listing.scanCommand next pageSize]) ∧
    (∀ first entries, answer = .ok (.array [first, .array entries]) →
      (∀ next, ¬ first.IsCursor next) → result = .ok .failure) ∧
    ∀ payload, result = .ok (.success payload) → ∃ first entries next,
      answer = .ok (.array [first, .array entries]) ∧ first.IsCursor next ∧
        ShowsNext payload next := by
  intro answer result
  have meant : result = Exchange.meaning listing.operation answer :=
    Listing.run_handle asks pageSize engine s
  refine ⟨Listing.transcript_handle asks pageSize engine s, ?_, ?_, ?_⟩
  · intro first entries next replied is_cursor
    rw [meant, replied]
    refine ⟨Listing.meaning_of_isPage (Reply.isPage_iff.mpr ⟨first, rfl, is_cursor⟩), ?_⟩
    intro stamp' body' asked
    -- The owner was named before, so it is not empty this time either.
    obtain ⟨rfl, named⟩ := Listing.of_demand asks
    have asks' := Listing.demand_of_askedIn named asked stamp'
    refine ⟨asks', fun s' => ?_⟩
    rw [Listing.transcript_handle asks', List.map_singleton]
  · intro first entries replied no_cursor
    rw [meant, replied]
    refine Listing.meaning_of_not_isPage ?_
    rintro ⟨next, entries', page⟩
    obtain ⟨first', replies, is_cursor⟩ := Reply.isPage_iff.mp page
    obtain ⟨rfl, -⟩ := List.cons.inj (Reply.array.inj replies)
    exact no_cursor next is_cursor
  · intro payload success
    obtain ⟨reply, next, entries, replied, page, shows⟩ :=
      Listing.isPage_of_meaning_success (meant.symm.trans success)
    obtain ⟨first, rfl, is_cursor⟩ := Reply.isPage_iff.mp page
    exact ⟨first, entries, next, replied, is_cursor, shows⟩

/-- A store answers the largest cursor with a sign and a zero, and the client lists the traces of a
file from there on. -/
theorem cursors_are_relayed_last :
    let engine : Engine Unit := fun _ _ =>
      (.ok (.array [.simple "+018446744073709551615", .array []]), ())
    let body := Utf8.bytes "[\"u\",0]"
    let body' := Utf8.bytes "[\"u\",18446744073709551615]"
    Endpoint.listTraces.demand 0 body = .ok (.page (.traces "u") 0) ∧
      Reply.IsCursor (.simple "+018446744073709551615") 18446744073709551615 ∧
      (Listing.traces "u").AskedIn 18446744073709551615 body' ∧
      ((Endpoint.listTraces.handle 20 0 body').transcript engine ()).map Prod.fst =
        [["HSCAN", "filekey:u", "18446744073709551615", "MATCH", "trace:*", "COUNT", "20"]] := by
  intro engine body body'
  have asks : Endpoint.listTraces.demand 0 body = .ok (.page (.traces "u") 0) := by
    exact Except.toOption_eq_some.mp (by decide +kernel)
  have is_cursor : Reply.IsCursor (.simple "+018446744073709551615") 18446744073709551615 :=
    ⟨_, .inr rfl, ⟨['+'], ['0'], .inr rfl, by simp, by decide +kernel⟩, by decide⟩
  have asked : (Listing.traces "u").AskedIn 18446744073709551615 body' := by
    let figures : Json.Figures := ⟨[1,8,4,4,6,7,4,4,0,7,3,7,0,9,5,5,1,6,1,5], [], none⟩
    -- The body is written out as a document, because `AskedIn` speaks of no reader.
    have whole : Document (.array [.string [.byte 0x75], .number false figures]) body' :=
      ⟨[], .array rfl
        (.item rfl (.string rfl (.plain (by decide) (by decide) (by decide) (.close _)))
          (.item rfl (.number rfl rfl rfl) (.noItem rfl))), rfl⟩
    exact .list whole ⟨_, rfl, rfl⟩ ⟨⟨_, rfl, rfl⟩, by decide⟩
  obtain ⟨-, relayed, -, -⟩ := cursors_are_relayed engine () 20 asks
  obtain ⟨-, next⟩ := relayed _ _ _ rfl is_cursor
  refine ⟨asks, is_cursor, asked, ?_⟩
  rw [(next 0 body' asked).2 ()]
  decide +kernel

end Gateway

end HashGateway
