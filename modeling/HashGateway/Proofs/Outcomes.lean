import HashGateway.Command.Operation
import HashGateway.Proofs.Json.Exactness
import HashGateway.Proofs.Store.Histories
import HashGateway.Proofs.Store.Replies

/-!
# What replies mean

A reply to a scan is a page of documents, and a reply with all fields of a hash is an object. Which
replies have a meaning is told by their shape alone, and what is sent back is read as what the reply
holds: pairs are taken at fixed places, so one that is left out shifts no other, and of several
values of a field the last one counts. The record of a hash in memory is read as this hash.

## Main definitions

* `Reply.Holds` — a reply is a string of either form with a text
* `pairs` — the elements of a list at even places, each with the next one
* `Reply.IsPage`, `Reply.IsRecord` — the replies that are pages, and those that are hashes
* `Outcome.document?` — the document of a field and its value
* `Outcome.LastOf` — the last text of a field
* `Outcome.DecodesPages`, `Outcome.DecodesRecords` — how replies of both kinds are understood

## Main results

* `Outcome.documents_eq` — the documents of a page are those of its pairs
* `Outcome.mem_members_iff` — the members of an object are the last ones of their names
* `Operation.decodesPages`, `Operation.decodesRecords` — how the operations understand replies
-/

namespace HashGateway

/-- A reply is a string of either form with a text. -/
def Reply.Holds (reply : Reply) (s : String) : Prop := reply = .bulk s ∨ reply = .simple s

theorem Reply.text?_eq_some_iff {reply : Reply} {s : String} :
    reply.text? = some s ↔ reply.Holds s := by
  cases reply <;> simp [text?, Holds, bulk, Utf8.decode?_eq_some_iff]

/-! ## Pairs -/

section Pairs

variable {α : Type}

/-- The elements of a list in pairs: those at the places `2 * i` and `2 * i + 1`. The last one of
an odd number has no partner. -/
def pairs (as : List α) : List (α × α) :=
  (List.range (as.length / 2)).filterMap fun i =>
    as[2 * i]?.bind fun a => as[2 * i + 1]?.map fun b => (a, b)

@[simp] theorem pairs_nil : pairs ([] : List α) = [] := by simp [pairs]

@[simp] theorem pairs_singleton (a : α) : pairs [a] = [] := by simp [pairs]

@[simp] theorem pairs_cons_cons (a b : α) (as : List α) :
    pairs (a :: b :: as) = (a, b) :: pairs as := by
  have half : (a :: b :: as).length / 2 = as.length / 2 + 1 := by
    rw [List.length_cons, List.length_cons]
    omega
  rw [pairs, half, List.range_succ_eq_map, List.filterMap_cons, List.filterMap_map]
  simp [pairs, Nat.mul_add]

end Pairs

/-! ## Pages -/

/-- A reply is a list of two: a text that is a natural number of 64 bits, and a list. -/
def Reply.IsPage (reply : Reply) (cursor : Nat) (entries : List Reply) : Prop :=
  ∃ first s, reply = .array [first, .array entries] ∧ first.Holds s ∧
    Numeral.unsigned? Numeral.max64 s.toList = some cursor

namespace Outcome

/-- The document of a pair. There is none unless the field is a string, of any bytes, and the value
is a JSON text. -/
def document? (pair : Reply × Reply) : Option Json.Value :=
  if pair.1.isString then pair.2.text?.bind fun s => (Json.parseText s).toOption else none

theorem document?_eq_some_iff {field value : Reply} {v : Json.Value} :
    document? (field, value) = some v ↔
      field.isString = true ∧ ∃ s, value.Holds s ∧ Json.parseText s = .ok v := by
  rw [document?]
  split
  · next string => simp [string, Option.bind_eq_some_iff, Reply.text?_eq_some_iff,
      Except.toOption_eq_some]
  · next other => simp [other]

/-- The documents of fields and values in turn are those of the pairs. -/
theorem documents_eq (entries : List Reply) :
    documents entries = (pairs entries).filterMap document? := by
  induction entries using List.twoStepInduction with
  | nil => rw [documents, pairs_nil, List.filterMap_nil]; simp
  | singleton entry => rw [documents, pairs_singleton, List.filterMap_nil]; simp
  | cons_cons field value entries ih _ =>
    -- The first pair stands before the others on both sides, or on neither.
    have first : documents (field :: value :: entries) =
        (document? (field, value)).toList ++ documents entries := by
      rw [documents, document?]
      split <;> simp [*]
    rw [first, pairs_cons_cons, List.filterMap_cons, ih]
    cases document? (field, value) <;> rfl

/-- How replies to scans are understood: exactly the pages succeed, with the documents of their
pairs in order. Unless a number would lose its value, or a document nests too deep to be read inside
the list and the object around it, the page is read as it was sent. -/
structure DecodesPages (list : String) (decode : Reply → Outcome) : Prop where
  success : ∀ reply, (∃ payload, decode reply = .success payload) ↔
    ∃ cursor entries, reply.IsPage cursor entries
  failure : ∀ reply, decode reply = .failure ↔ ¬ ∃ cursor entries, reply.IsPage cursor entries
  documents : ∀ reply cursor entries, reply.IsPage cursor entries →
    decode reply = .success (page list cursor ((pairs entries).filterMap document?)).text
  payload : ∀ reply (cursor : Nat) entries payload, reply.IsPage cursor entries →
    decode reply = .success payload →
    (∀ v ∈ (pairs entries).filterMap document?, v.IsWhole ∧ v.depth + 2 ≤ Json.maxDepth) →
    ∃ members, Json.parseText payload = .ok (.object members) ∧
      members.Perm [("page", .number (.int cursor)),
        (list, .array ((pairs entries).filterMap document?))]

/-! ### The payload of a page -/

section Page

variable {list : String} {cursor : Nat} {vs : List Json.Value}

theorem mem_page {member : String × Json.Value}
    (h : member ∈ Ordered.insert list (.array vs) [("page", .number (.int cursor))]) :
    member = (list, .array vs) ∨ member = ("page", .number (.int cursor)) :=
  (Ordered.mem_insert h).imp_right List.mem_singleton.mp

/-- A page of documents without floating point numbers is read as it was sent. -/
theorem parseText_page (fits : cursor ≤ Numeral.max64) (whole : ∀ v ∈ vs, v.IsWhole)
    (ordered : ∀ v ∈ vs, v.IsOrdered) (shallow : ∀ v ∈ vs, v.depth + 2 ≤ Json.maxDepth) :
    Json.parseText (page list cursor vs).text = .ok (page list cursor vs) := by
  refine Json.parseText_text ?_ ?_ ?_
  · refine Json.Value.isWhole_object.mpr fun member mem => ?_
    rcases mem_page mem with rfl | rfl
    · exact Json.Value.isWhole_array.mpr whole
    · exact Json.Value.isWhole_number.mpr
        ⟨cursor, rfl, by omega, Int.ofNat_le.mpr fits⟩
  · refine Json.Value.isOrdered_object.mpr
      ⟨Ordered.pairwise_insert _ _ (List.pairwise_singleton _ _), fun member mem => ?_⟩
    rcases mem_page mem with rfl | rfl
    · exact Json.Value.isOrdered_array.mpr ordered
    · exact Json.Value.isOrdered_number _
  · -- The documents stand inside the list, and this inside the object.
    have items : ∀ v ∈ vs, v.depth ≤ 125 := fun v mem => Nat.le_of_add_le_add_right (shallow v mem)
    refine Nat.succ_le_succ (Json.entriesDepth_le_iff.mpr fun member mem => ?_)
    rcases mem_page mem with rfl | rfl
    · exact Nat.succ_le_succ (Json.valuesDepth_le_iff.mpr items)
    · exact Nat.zero_le _

theorem perm_page (other : list ≠ "page") :
    (Ordered.insert list (.array vs) [("page", .number (.int cursor))]).Perm
      [("page", Json.Value.number (.int cursor)), (list, .array vs)] := by
  rw [Ordered.insert, if_neg other, Ordered.insert]
  split
  · exact .swap _ _ _
  · exact .refl _

theorem ofScan_of_isPage {reply : Reply} {entries : List Reply}
    (h : reply.IsPage cursor entries) : ofScan list reply =
      .success (page list cursor ((pairs entries).filterMap document?)).text := by
  obtain ⟨first, s, rfl, holds, numeral⟩ := h
  simp only [ofScan, Reply.text?_eq_some_iff.mpr holds, Option.bind_some, numeral, documents_eq]

theorem ofScan_of_not_isPage {reply : Reply}
    (h : ¬ ∃ cursor entries, reply.IsPage cursor entries) : ofScan list reply = .failure := by
  unfold ofScan
  split
  · next first entries =>
    split
    · next cursor numeral =>
      obtain ⟨s, holds, numeral⟩ := Option.bind_eq_some_iff.mp numeral
      exact absurd ⟨cursor, entries, first, s, rfl, Reply.text?_eq_some_iff.mp holds, numeral⟩ h
    · rfl
  · rfl

theorem isOrdered_of_document? {pair : Reply × Reply} {v : Json.Value}
    (h : document? pair = some v) : v.IsOrdered := by
  obtain ⟨-, s, -, parsed⟩ := document?_eq_some_iff.mp h
  exact Json.isOrdered_of_parse parsed

theorem decodesPages_ofScan (other : list ≠ "page") : DecodesPages list (ofScan list) where
  success reply := by
    constructor
    · rintro ⟨payload, decoded⟩
      by_contra no_page
      simp [ofScan_of_not_isPage no_page] at decoded
    · rintro ⟨cursor, entries, is_page⟩
      exact ⟨_, ofScan_of_isPage is_page⟩
  failure reply := by
    constructor
    · rintro failed ⟨cursor, entries, is_page⟩
      simp [ofScan_of_isPage is_page] at failed
    · exact ofScan_of_not_isPage
  documents _ _ _ is_page := ofScan_of_isPage is_page
  payload reply cursor entries payload is_page decoded faithful := by
    rw [ofScan_of_isPage is_page, success.injEq] at decoded
    subst decoded
    -- The page is written and read back: its cursor fits, and its documents are as they were read.
    have fits : cursor ≤ Numeral.max64 := by
      obtain ⟨_, _, -, -, numeral⟩ := is_page
      exact Numeral.le_of_unsigned? numeral
    refine ⟨_, parseText_page fits (fun v mem => (faithful v mem).1) (fun v mem => ?_)
      (fun v mem => (faithful v mem).2), perm_page other⟩
    obtain ⟨pair, -, document⟩ := List.mem_filterMap.mp mem
    exact isOrdered_of_document? document

end Page

end Outcome

/-! ## Records -/

/-- A reply lists fields and values in turn: it is a list of them, or a map. -/
def Reply.Lists (reply : Reply) (items : List Reply) : Prop :=
  reply = .array items ∨ ∃ ps, reply = .map ps ∧ items = ps.flatMap fun p => [p.1, p.2]

/-- A reply lists some fields with their values, and all of them are texts. -/
def Reply.IsRecord (reply : Reply) : Prop :=
  ∃ items, reply.Lists items ∧ items ≠ [] ∧ items.length % 2 = 0 ∧
    ∀ item ∈ items, ∃ s, item.Holds s

namespace Outcome

/-- A field has a text in some pairs, and no later pair is one of this field. -/
def LastOf (ps : List (Reply × Reply)) (field text : String) : Prop :=
  ∃ earlier name value later, ps = earlier ++ (name, value) :: later ∧ name.Holds field ∧
    value.Holds text ∧ ∀ p ∈ later, ¬ p.1.Holds field

/-- How replies with all fields of a hash are understood: a list of no fields is a hash that does
not exist, a list of fields that all have values is read as an object of the last ones, and anything
else is a failure. A list and a map of the same pairs are understood alike, and what a store in
memory answers is read as its hash. -/
structure DecodesRecords (decode : Reply → Outcome) : Prop where
  notFound : ∀ reply, decode reply = .notFound ↔ reply.Lists []
  success : ∀ reply, (∃ payload, decode reply = .success payload) ↔ reply.IsRecord
  failure : ∀ reply, decode reply = .failure ↔ ¬ reply.Lists [] ∧ ¬ reply.IsRecord
  forms : ∀ ps, decode (.array (ps.flatMap fun p => [p.1, p.2])) = decode (.map ps)
  payload : ∀ reply items payload, reply.Lists items → decode reply = .success payload →
    ∃ members, Json.parseText payload = .ok (.object members) ∧ Ordered.Ascending members ∧
      ∀ field value, (field, value) ∈ members ↔
        ∃ text, value = .string text ∧ LastOf (pairs items) field text
  stored : ∀ (store : Store) name key, name.map Char.toUpper = "HGETALL" →
    ∃ reply, (store.execute [name, key]).1 = .ok reply ∧
      ((store.hash key).entries = [] → decode reply = .notFound) ∧
      ((store.hash key).entries ≠ [] → ∃ payload, decode reply = .success payload ∧
        Json.parseText payload = .ok (.object (Hash.members (store.hash key).entries)))

section Record

variable {items : List Reply} {before members : List (String × Json.Value)} {reply : Reply}

theorem flat_eq (ps : List (Reply × Reply)) : flat ps = ps.flatMap fun p => [p.1, p.2] := by
  induction ps with
  | nil => rfl
  | cons p ps ih => rw [flat, ih, List.flatMap_cons]; rfl

theorem items?_eq_some_iff : items? reply = some items ↔ reply.Lists items := by
  cases reply <;> simp [items?, Reply.Lists, flat_eq, eq_comm]

theorem lastOf_cons {name value : Reply} {ps : List (Reply × Reply)} {field text : String} :
    LastOf ((name, value) :: ps) field text ↔ LastOf ps field text ∨
      name.Holds field ∧ value.Holds text ∧ ∀ p ∈ ps, ¬ p.1.Holds field := by
  constructor
  · rintro ⟨earlier, name', value', later, cut, named, held, last⟩
    cases earlier with
    | nil =>
      obtain ⟨head, rfl⟩ := List.cons.inj cut
      obtain ⟨rfl, rfl⟩ := Prod.mk.inj head
      exact .inr ⟨named, held, last⟩
    | cons p earlier =>
      obtain ⟨-, rfl⟩ := List.cons.inj cut
      exact .inl ⟨earlier, name', value', later, rfl, named, held, last⟩
  · rintro (⟨earlier, name', value', later, rfl, named, held, last⟩ | ⟨named, held, last⟩)
    · exact ⟨(name, value) :: earlier, name', value', later, rfl, named, held, last⟩
    · exact ⟨[], name, value, ps, rfl, named, held, last⟩

theorem members?_cons_cons {name value : Reply} :
    members? before (name :: value :: items) = some members ↔
      ∃ field text, name.Holds field ∧ value.Holds text ∧
        members? (Ordered.insert field (.string text) before) items = some members := by
  simp only [← Reply.text?_eq_some_iff, members?]
  cases name.text? <;> cases value.text? <;> simp

/-- There are members exactly if each field has a value and all are texts. -/
theorem exists_members?_iff : (∃ members, members? before items = some members) ↔
    items.length % 2 = 0 ∧ ∀ item ∈ items, ∃ s, item.Holds s := by
  induction items using List.twoStepInduction generalizing before with
  | nil => simp [members?]
  | singleton item => simp [members?]
  | cons_cons name value items ih _ =>
    simp only [members?_cons_cons, List.forall_mem_cons, List.length_cons]
    constructor
    · rintro ⟨members, field, text, named, held, rest⟩
      obtain ⟨even, texts⟩ := ih.mp ⟨members, rest⟩
      exact ⟨by omega, ⟨field, named⟩, ⟨text, held⟩, texts⟩
    · rintro ⟨even, ⟨field, named⟩, ⟨text, held⟩, texts⟩
      obtain ⟨members, rest⟩ := ih.mpr ⟨by omega, texts⟩
      exact ⟨members, field, text, named, held, rest⟩

/-- The members that fields and values make are the last ones of their names. -/
theorem mem_members_iff (ascending : Ordered.Ascending before)
    (made : members? before items = some members) : Ordered.Ascending members ∧
      ∀ field value, (field, value) ∈ members ↔
        (∃ text, value = .string text ∧ LastOf (pairs items) field text) ∨
          (field, value) ∈ before ∧ ∀ p ∈ pairs items, ¬ p.1.Holds field := by
  induction items using List.twoStepInduction generalizing before with
  | nil =>
    obtain rfl : before = members := Option.some.inj made
    simp [ascending, LastOf]
  | singleton item => simp [members?] at made
  | cons_cons name value items ih _ =>
    obtain ⟨field, text, named, held, rest⟩ := members?_cons_cons.mp made
    -- The first pair is among the members that the other pairs find, and each of them may hide it.
    obtain ⟨ascending', later⟩ := ih (Ordered.pairwise_insert _ _ ascending) rest
    refine ⟨ascending', fun field' value' => ?_⟩
    have put : (field', value') ∈ Ordered.insert field (.string text) before ↔
        if field' = field then value' = .string text else (field', value') ∈ before := by
      rw [← Ordered.find?_eq_some_iff (Ordered.pairwise_insert _ _ ascending),
        Ordered.find?_insert]
      split
      · rw [Option.some.injEq, eq_comm]
      · exact Ordered.find?_eq_some_iff ascending
    have name_iff : name.Holds field' ↔ field' = field := by
      rw [← Reply.text?_eq_some_iff, Reply.text?_eq_some_iff.mpr named, Option.some.injEq, eq_comm]
    have value_iff (text' : String) : value.Holds text' ↔ text' = text := by
      rw [← Reply.text?_eq_some_iff, Reply.text?_eq_some_iff.mpr held, Option.some.injEq, eq_comm]
    rw [later, put, pairs_cons_cons, List.forall_mem_cons, name_iff]
    simp only [lastOf_cons, name_iff, value_iff]
    by_cases atField : field' = field
    · simp [atField, and_or_left, exists_or]
    · simp [atField]

/-- A reply lists one list of items only. -/
theorem eq_of_lists {items' : List Reply} (lists : reply.Lists items)
    (lists' : reply.Lists items') : items = items' :=
  Option.some.inj ((items?_eq_some_iff.mpr lists).symm.trans (items?_eq_some_iff.mpr lists'))

/-- A reply lists nothing, or it is a record and an object is made of it, or it is neither. -/
theorem ofRecord_cases (reply : Reply) :
    (reply.Lists [] ∧ ¬ reply.IsRecord ∧ ofRecord reply = .notFound) ∨
    (¬ reply.Lists [] ∧ reply.IsRecord ∧ ∃ items members, reply.Lists items ∧
      members? [] items = some members ∧
      ofRecord reply = .success (Json.Value.object members).text) ∨
    (¬ reply.Lists [] ∧ ¬ reply.IsRecord ∧ ofRecord reply = .failure) := by
  rw [ofRecord]
  -- The same cases as in the definition: no list, an empty one, one that is incomplete or not.
  cases listed : items? reply with
  | none =>
    have nothing (items : List Reply) : ¬ reply.Lists items := fun lists =>
      Option.some_ne_none _ ((items?_eq_some_iff.mpr lists).symm.trans listed)
    refine .inr (.inr ⟨nothing [], ?_, rfl⟩)
    rintro ⟨items, lists, -⟩
    exact nothing items lists
  | some items =>
    have lists := items?_eq_some_iff.mp listed
    cases items with
    | nil =>
      refine .inl ⟨lists, ?_, rfl⟩
      rintro ⟨items, lists', some_item, -⟩
      exact some_item (eq_of_lists lists' lists)
    | cons item items =>
      have not_empty : ¬ reply.Lists [] := fun empty =>
        List.cons_ne_nil _ _ (eq_of_lists lists empty)
      cases made : members? [] (item :: items) with
      | none =>
        refine .inr (.inr ⟨not_empty, ?_, by simp only [made]⟩)
        rintro ⟨items', lists', -, complete⟩
        obtain rfl := eq_of_lists lists lists'
        obtain ⟨members, made'⟩ := exists_members?_iff.mpr complete
        exact Option.some_ne_none _ (made'.symm.trans made)
      | some members =>
        have complete := exists_members?_iff.mp ⟨members, made⟩
        have record : reply.IsRecord := ⟨_, lists, List.cons_ne_nil _ _, complete⟩
        exact .inr (.inl ⟨not_empty, record, _, members, lists, made, by simp only [made]⟩)

/-- An object of texts is read as it was sent. -/
theorem parseText_texts (ascending : Ordered.Ascending members)
    (texts : ∀ member ∈ members, ∃ text, member.2 = .string text) :
    Json.parseText (Json.Value.object members).text = .ok (.object members) := by
  have depth : Json.entriesDepth members ≤ 126 := Json.entriesDepth_le_iff.mpr fun member mem => by
    obtain ⟨text, is_text⟩ := texts member mem
    rw [is_text]
    exact Nat.zero_le _
  refine Json.parseText_text ?_ ?_ (Nat.succ_le_succ depth)
  · refine Json.Value.isWhole_object.mpr fun member mem => ?_
    obtain ⟨text, is_text⟩ := texts member mem
    exact is_text ▸ Json.Value.isWhole_string text
  · refine Json.Value.isOrdered_object.mpr ⟨ascending, fun member mem => ?_⟩
    obtain ⟨text, is_text⟩ := texts member mem
    exact is_text ▸ Json.Value.isOrdered_string text

theorem parseText_ofRecord {payload : String} (lists : reply.Lists items)
    (decoded : ofRecord reply = .success payload) : ∃ members,
    Json.parseText payload = .ok (.object members) ∧ Ordered.Ascending members ∧
      ∀ field value, (field, value) ∈ members ↔
        ∃ text, value = .string text ∧ LastOf (pairs items) field text := by
  obtain ⟨-, -, other⟩ | ⟨-, -, items', members, lists', made, result⟩ | ⟨-, -, other⟩ :=
    ofRecord_cases reply
  · simp [other] at decoded
  · obtain rfl := eq_of_lists lists' lists
    obtain rfl : _ = payload := Outcome.success.inj (result.symm.trans decoded)
    obtain ⟨ascending, last⟩ := mem_members_iff Ordered.ascending_nil made
    simp only [List.not_mem_nil, false_and, or_false] at last
    refine ⟨members, parseText_texts ascending fun member mem => ?_, ascending, last⟩
    obtain ⟨text, is_text, -⟩ := (last member.1 member.2).mp mem
    exact ⟨text, is_text⟩
  · simp [other] at decoded

end Record

theorem decodesRecords_ofRecord : DecodesRecords ofRecord where
  notFound reply := by
    rcases ofRecord_cases reply with ⟨empty, -, decoded⟩ | ⟨not_empty, -, _, _, -, -, decoded⟩ |
      ⟨not_empty, -, decoded⟩ <;> simp [*]
  success reply := by
    rcases ofRecord_cases reply with ⟨-, no_record, decoded⟩ | ⟨-, record, _, _, -, -, decoded⟩ |
      ⟨-, no_record, decoded⟩ <;> simp [*]
  failure reply := by
    rcases ofRecord_cases reply with ⟨empty, -, decoded⟩ | ⟨-, record, _, _, -, -, decoded⟩ |
      ⟨not_empty, no_record, decoded⟩ <;> simp [*]
  forms ps := by rw [ofRecord, ofRecord, items?, items?, flat_eq]
  payload _ _ _ := parseText_ofRecord
  stored store name key named := by
    refine ⟨_, store.execute_hgetall named key, fun empty => ?_, fun some_field => ?_⟩
    · rw [Hash.ofRecord_listing, Hash.record, if_pos empty]
    · refine ⟨_, by rw [Hash.ofRecord_listing, Hash.record, if_neg some_field], ?_⟩
      refine parseText_texts (store.hash key).ascending_members fun member mem => ?_
      obtain ⟨entry, -, rfl⟩ := List.mem_map.mp mem
      exact ⟨entry.2, rfl⟩

end Outcome

namespace Operation

/-- The pages of files and of trace entries are understood alike, under names of their own. -/
theorem decodesPages : Outcome.DecodesPages "files" listFiles.decode ∧
    Outcome.DecodesPages "traces" listTraces.decode :=
  ⟨Outcome.decodesPages_ofScan (by decide), Outcome.decodesPages_ofScan (by decide)⟩

/-- A pair whose field is no string is left out, and so is a field without a value. The document
between them is read as it is. -/
theorem decodesPages_left_out :
    let entries : List Reply := [.nil, .bulk "1", .simple "f", .bulk "[-2]", .bulk "g"]
    let document : Json.Value := .array [.number (.int (-2))]
    ∃ payload members, listFiles.decode (.array [.bulk "7", .array entries]) = .success payload ∧
      Json.parseText payload = .ok (.object members) ∧
      members.Perm [("page", .number (.int 7)), ("files", .array [document])] := by
  intro entries document
  have is_page : (Reply.array [.bulk "7", .array entries]).IsPage 7 entries :=
    ⟨.bulk "7", "7", rfl, .inl rfl, by decide⟩
  have whole : document.IsWhole := Json.Value.isWhole_array.mpr fun v mem => by
    obtain rfl := List.mem_singleton.mp mem
    exact Json.Value.isWhole_number.mpr ⟨-2, rfl, by decide, by decide⟩
  have ordered : document.IsOrdered := Json.Value.isOrdered_array.mpr fun v mem => by
    obtain rfl := List.mem_singleton.mp mem
    exact Json.Value.isOrdered_number _
  have parsed : Json.parseText "[-2]" = .ok document :=
    (congrArg Json.parseText (by decide : "[-2]" = document.text)).trans
      (Json.parseText_text whole ordered (by decide))
  have kept : Outcome.document? (.simple "f", .bulk "[-2]") = some document :=
    Outcome.document?_eq_some_iff.mpr ⟨rfl, "[-2]", .inl rfl, parsed⟩
  have documents : (pairs entries).filterMap Outcome.document? = [document] := by
    have left_out : Outcome.document? (.nil, .bulk "1") = none := rfl
    simp [entries, kept, left_out]
  have decoded := decodesPages.1.documents _ 7 entries is_page
  obtain ⟨members, read, perm⟩ := decodesPages.1.payload _ 7 entries _ is_page decoded (by
    rw [documents]
    simpa using ⟨whole, by decide⟩)
  exact ⟨_, members, decoded, read, documents ▸ perm⟩

/-- A registration is read as the last values of its fields. -/
theorem decodesRecords : Outcome.DecodesRecords getUser.decode := Outcome.decodesRecords_ofRecord

end Operation

end HashGateway
