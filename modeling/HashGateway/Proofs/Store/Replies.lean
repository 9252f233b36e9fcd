import HashGateway.Outcome
import HashGateway.Proofs.Numeral
import HashGateway.Proofs.Utf8
import HashGateway.Store.Scan

/-!
# What the replies of a store in memory mean

The replies of a store of hashes have the shapes that the outcomes of operations
expect: a hash is read back field by field, and a page of it as its documents.

## Main definitions

* `Hash.record` — the outcome of reading a whole hash
* `Hash.documents` — the documents among the values of some fields
* `Page`, `Page.text` — a page of documents, and how it is sent
* `Scan.view` — the page of a hash that a scan shows

## Main results

* `Hash.ofRecord_listing`, `Scan.ofScan_reply` — the replies mean these outcomes
-/

namespace HashGateway

@[simp] theorem Reply.text?_bulk (s : String) : (Reply.bulk s).text? = some s :=
  Utf8.decode?_bytes s

namespace Hash

/-- The members that fields with their values are as JSON. -/
def members (entries : List (String × String)) : List (String × Json.Value) :=
  entries.map fun (field, value) => (field, .string value)

/-- The outcome of reading a whole hash: an object of its fields, if it has any. -/
def record (hash : Hash) : Outcome :=
  if hash.entries = [] then .notFound
  else .success (Json.Value.object (members hash.entries)).text

/-- The documents among the values of some fields. -/
def documents (entries : List (String × String)) : List Json.Value :=
  entries.filterMap fun entry => (Json.parseText entry.2).toOption

@[simp] theorem listing_nil : listing [] = [] := rfl

@[simp] theorem listing_cons (field value : String) (entries : List (String × String)) :
    listing ((field, value) :: entries) = .bulk field :: .bulk value :: listing entries := rfl

@[simp] theorem documents_append (entries entries' : List (String × String)) :
    documents (entries ++ entries') = documents entries ++ documents entries' :=
  List.filterMap_append

theorem documents_cons (field value : String) (entries : List (String × String)) :
    documents ((field, value) :: entries) =
      (Json.parseText value).toOption.toList ++ documents entries := by
  simp only [documents, List.filterMap_cons]
  cases (Json.parseText value).toOption <;> rfl

/-- The fields of a listing join the members before them, as long as all are in order. -/
theorem members?_listing {before : List (String × Json.Value)}
    {entries : List (String × String)}
    (h : Ordered.Ascending (before ++ members entries)) :
    Outcome.members? before (listing entries) = some (before ++ members entries) := by
  induction entries generalizing before with
  | nil => simp [Outcome.members?, members]
  | cons entry entries ih =>
    obtain ⟨field, value⟩ := entry
    have moved : before ++ members ((field, value) :: entries) =
        (before ++ [(field, .string value)]) ++ members entries := by simp [members]
    rw [moved] at h ⊢
    have below : ∀ other ∈ before, other.1 < field := fun other mem =>
      (List.pairwise_append.mp (List.pairwise_append.mp h).1).2.2 other mem
        (field, .string value) (by simp)
    rw [listing_cons, Outcome.members?]
    simp only [Reply.text?_bulk]
    rw [Ordered.insert_of_forall_lt below]
    exact ih h

theorem ascending_members (hash : Hash) : Ordered.Ascending (members hash.entries) := by
  rw [Ordered.Ascending, members, List.pairwise_map]
  exact hash.ascending

/-- A listing of a whole hash means its record. -/
theorem ofRecord_listing (hash : Hash) :
    Outcome.ofRecord (.array (listing hash.entries)) = hash.record := by
  have read := @members?_listing [] hash.entries hash.ascending_members
  cases empty : hash.entries with
  | nil => simp [Outcome.ofRecord, Outcome.items?, record, empty]
  | cons entry entries =>
    obtain ⟨field, value⟩ := entry
    rw [empty, listing_cons] at read
    simp only [listing_cons, Outcome.ofRecord, Outcome.items?]
    rw [read]
    simp [record, empty]

/-- The documents of a listing are those of its fields. -/
theorem documents_listing (entries : List (String × String)) :
    Outcome.documents (listing entries) = documents entries := by
  induction entries with
  | nil => rfl
  | cons entry entries ih =>
    obtain ⟨field, value⟩ := entry
    rw [listing_cons, Outcome.documents, ih, documents_cons]
    simp only [Reply.isString_bulk, if_true, Reply.text?_bulk, Option.bind_some]
    cases (Json.parseText value).toOption <;> rfl

end Hash

/-- A page of documents: where the next one begins, and the documents. -/
structure Page where
  next : Nat
  documents : List Json.Value

/-- How a page is sent; `list` is the name that its documents go by. -/
def Page.text (list : String) (page : Page) : String :=
  (Outcome.page list page.next page.documents).text

namespace Scan

/-- The page of a hash that a scan shows. -/
def view (scan : Scan) (hash : Hash) : Page := ⟨scan.next hash, Hash.documents (scan.items hash)⟩

theorem next_le (scan : Scan) (hash : Hash) : scan.next hash ≤ Numeral.max64 := by
  simp only [next]
  split <;> omega

/-- The reply to a scan means the page that it shows. -/
theorem ofScan_reply (list : String) (scan : Scan) (hash : Hash) :
    Outcome.ofScan list (scan.reply hash) = .success ((scan.view hash).text list) := by
  have cursor := Numeral.unsigned?_render (scan.next_le hash)
  simp only [reply, Outcome.ofScan, Reply.text?_bulk, Option.bind_some, String.toList_ofList,
    cursor, Hash.documents_listing]
  rfl

end Scan

end HashGateway
