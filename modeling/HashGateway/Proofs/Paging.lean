import HashGateway.Proofs.Session

/-!
# Listing page by page

A scan begins at zero, goes on where the last page said, and ends with a page that says
zero. Other requests may be served between its pages. As long as new fields are put
behind all others, apart from one field that may stand anywhere, no insertion moves an
entry over a cursor: the cursor of a page that is not the last stands before the last
field of the hash, and a new field is put there or behind it.

## Main definitions

* `Listing.Scanned` — a scan with the requests that are served until it ends
* `Hash.Late`, `Listing.Scanned.WritesLate` — a field has a value already, or comes behind all
  others but one; a run writes no other fields
* `Listing.Scanned.Visits` — what a scan visits

## Main results

* `Ordered.mem_drop_insert`, `Ordered.mem_drop_insert_self`, `Ordered.map_fst_take_insert` — what
  an insertion does to the entries after and before a cursor
* `Listing.Scanned.exists_visited` — a scan visits every field that is there when it begins, and in
  order if only late fields are written meanwhile
-/

namespace HashGateway

/-! ## Insertions and cursors -/

namespace Ordered

variable {α : Type} {key : String} {a : α} {cursor : Nat} {entries : List (String × α)}

theorem mem_insert_of_mem {entry : String × α} (h : entry ∈ entries) (other : entry.1 ≠ key) :
    entry ∈ insert key a entries := by
  induction entries with
  | nil => simp at h
  | cons first rest ih =>
    rw [insert]
    split
    · exact List.mem_cons_of_mem _ h
    · rcases List.mem_cons.mp h with rfl | mem
      · rw [if_neg (Ne.symm other)]
        exact List.mem_cons_self
      · split
        · exact List.mem_cons_of_mem _ mem
        · exact List.mem_cons_of_mem _ (ih mem)

/-- An entry behind a cursor stays behind it. -/
theorem mem_drop_insert {entry : String × α} (h : entry ∈ entries.drop cursor)
    (other : entry.1 ≠ key) : entry ∈ (insert key a entries).drop cursor := by
  induction entries generalizing cursor with
  | nil => simp at h
  | cons first rest ih =>
    cases cursor with
    | zero => exact mem_insert_of_mem h other
    | succ cursor =>
      -- The cursor passes over the first entry; an insertion before that adds one behind it.
      rw [List.drop_succ_cons] at h
      rw [insert]
      split
      · rw [List.drop_succ_cons]
        exact (List.drop_sublist_drop_left (first :: rest) (Nat.le_succ cursor)).mem h
      · split
        · exact h
        · exact ih h

/-- A value behind a cursor is replaced behind it. -/
theorem mem_drop_insert_self (ascending : Ascending entries) {b : α}
    (h : (key, b) ∈ entries.drop cursor) : (key, a) ∈ (insert key a entries).drop cursor := by
  induction entries generalizing cursor with
  | nil => simp at h
  | cons first rest ih =>
    cases cursor with
    | zero =>
      refine (find?_eq_some_iff (pairwise_insert key a ascending)).mp ?_
      rw [find?_insert, if_pos rfl]
    | succ cursor =>
      obtain ⟨below, tail⟩ := List.pairwise_cons.mp ascending
      rw [List.drop_succ_cons] at h
      have lt : first.1 < key := below _ (List.mem_of_mem_drop h)
      rw [insert, if_neg (String.lt_asymm lt), if_neg (String.ne_of_lt lt).symm]
      exact ih tail h

/-- The keys before a cursor stay before it, if a new key comes behind all others but one and the
cursor stands before the last entry. -/
theorem map_fst_take_insert {own : String} (ascending : Ascending entries)
    (late : key ∈ entries.map Prod.fst ∨ ∀ entry ∈ entries, entry.1 ≠ own → entry.1 < key)
    (before : cursor = 0 ∨ cursor < entries.length) :
    ((insert key a entries).take cursor).map Prod.fst = (entries.take cursor).map Prod.fst := by
  induction entries generalizing cursor with
  | nil => obtain rfl : cursor = 0 := by simpa using before
           rfl
  | cons first rest ih =>
    cases cursor with
    | zero => rfl
    | succ cursor =>
      obtain ⟨k, b⟩ := first
      have ⟨below, tail⟩ := List.pairwise_cons.mp ascending
      have inside : cursor < rest.length := by simpa using before
      rw [insert]
      split
      · next lt =>
        -- Only the one field that may stand anywhere can be larger, and it would be the last.
        exfalso
        rcases late with mem | late
        · rcases List.mem_cons.mp mem with rfl | mem
          · exact String.lt_irrefl _ lt
          · obtain ⟨entry, found, rfl⟩ := List.mem_map.mp mem
            exact String.lt_irrefl k (String.lt_trans (below entry found) lt)
        · have own_first : k = own := by
            by_contra other
            exact String.lt_irrefl k (String.lt_trans (late (k, b) (by simp) other) lt)
          obtain ⟨second, found⟩ := List.exists_mem_of_length_pos (Nat.zero_lt_of_lt inside)
          have second_lt := late second (by simp [found]) fun is_own =>
            String.lt_irrefl k (by simpa [is_own, own_first] using below second found)
          exact String.lt_irrefl k
            (String.lt_trans (String.lt_trans (below second found) second_lt) lt)
      · split
        · next head => simp [head]
        · next ne =>
          have late' : key ∈ rest.map Prod.fst ∨
              ∀ entry ∈ rest, entry.1 ≠ own → entry.1 < key := by
            refine late.imp (fun mem => ?_) fun late entry mem => late entry (by simp [mem])
            exact (List.mem_cons.mp mem).resolve_left ne
          simp [ih tail late' (.inr inside)]

end Ordered

/-- A field has a value already, or comes behind all others but one. -/
def Hash.Late (own : String) (hash : Hash) (field : String) : Prop :=
  hash.contains field = true ∨ ∀ entry ∈ hash.entries, entry.1 ≠ own → entry.1 < field

/-! ## Scans -/

/-- Whether a listing shows a field. -/
def Listing.shows (listing : Listing) (field : String) : Bool := (listing.scan 0 0).selects field

/-- A page shows the fields from its cursor on, as many as are visited, and goes on behind them. -/
theorem Store.page_of_entries {store : Store} (listing : Listing)
    {entries : List (String × String)} (h : (store.hashOf listing.key).entries = entries)
    (cursor count : Nat) :
    store.page listing cursor count =
      ⟨if entries.length ≤ min (cursor + count) Numeral.max64 then 0
        else min (cursor + count) Numeral.max64,
        Hash.documents (((entries.drop cursor).take count).filter fun entry =>
          listing.shows entry.1)⟩ := by
  rw [← h]
  rfl

/-- A scan of a listing that goes on at a cursor: all requests that are served until its last
page, those of others among them, and its own pages. -/
inductive Listing.Scanned (pageSize : Nat) (listing : Listing) :
    Store → Nat → List Request → List Page → Prop
  | other {store store' : Store} {cursor : Nat} {request : Request} {response : Response}
      {requests : List Request} {pages : List Page}
      (served : (Gateway.dispatch pageSize request).run Engine.memory store = (response, store'))
      (rest : Scanned pageSize listing store' cursor requests pages) :
      Scanned pageSize listing store cursor (request :: requests) pages
  | page {store store' : Store} {cursor : Nat} {request : Request}
      {requests : List Request} {pages : List Page}
      (asked : request.demand? = some (.page listing cursor))
      (served : (Gateway.dispatch pageSize request).run Engine.memory store =
        (⟨200, (store.page listing cursor pageSize).text listing.name⟩, store'))
      (more : (store.page listing cursor pageSize).next ≠ 0)
      (rest : Scanned pageSize listing store' (store.page listing cursor pageSize).next
        requests pages) :
      Scanned pageSize listing store cursor (request :: requests)
        (store.page listing cursor pageSize :: pages)
  | last {store store' : Store} {cursor : Nat} {request : Request}
      (asked : request.demand? = some (.page listing cursor))
      (served : (Gateway.dispatch pageSize request).run Engine.memory store =
        (⟨200, (store.page listing cursor pageSize).text listing.name⟩, store'))
      (stop : (store.page listing cursor pageSize).next = 0) :
      Scanned pageSize listing store cursor [request] [store.page listing cursor pageSize]

theorem Request.size_hashOf_effect (listing : Listing) (request : Request) (store : Store) :
    (store.hashOf listing.key).size ≤ ((request.effect store).hashOf listing.key).size := by
  rw [hashOf_effect, Hash.size_write]
  exact Nat.le_add_right _ _

theorem Gateway.eq_effect_of_run {pageSize : Nat} {request : Request} {store store' : Store}
    {response : Response}
    (h : (dispatch pageSize request).run Engine.memory store = (response, store')) :
    store' = request.effect store := by
  rw [run_dispatch] at h
  exact (Prod.mk.inj h).2.symm

theorem Request.effect_of_page {listing : Listing} {cursor : Nat} {request : Request}
    (asked : request.demand? = some (.page listing cursor)) (store : Store) :
    request.effect store = store :=
  effect_of_demand? asked store

/-- A page that a store can be asked for is answered, and asking changes nothing. -/
theorem Gateway.run_page {pageSize cursor : Nat} {listing : Listing} {request : Request}
    (asked : request.demand? = some (.page listing cursor))
    (askable : Operation.Askable cursor pageSize) (store : Store) :
    (dispatch pageSize request).run Engine.memory store =
      (⟨200, (store.page listing cursor pageSize).text listing.name⟩, store) := by
  rw [run_dispatch, Request.response_of_demand? asked, Request.effect_of_page asked,
    Demand.outcome, if_pos askable]
  rfl

namespace Listing.Scanned

variable {pageSize cursor : Nat} {listing : Listing} {store : Store} {requests : List Request}
  {pages : List Page}

/-- A page that is not the last goes on where it stops, before the end of the hash. -/
theorem next_eq (more : (store.page listing cursor pageSize).next ≠ 0) :
    (store.page listing cursor pageSize).next = min (cursor + pageSize) Numeral.max64 ∧
      min (cursor + pageSize) Numeral.max64 < (store.hashOf listing.key).size := by
  by_cases reached : (store.hashOf listing.key).size ≤ min (cursor + pageSize) Numeral.max64
  · exact absurd (if_pos reached) more
  · exact ⟨if_neg reached, Nat.not_le.mp reached⟩

/-- The last page reaches the end of the hash. -/
theorem size_le (positive : 0 < pageSize) (stop : (store.page listing cursor pageSize).next = 0) :
    (store.hashOf listing.key).size ≤ min (cursor + pageSize) Numeral.max64 := by
  by_contra inside
  have next : (store.page listing cursor pageSize).next = min (cursor + pageSize) Numeral.max64 :=
    if_neg inside
  have max_positive : 0 < Numeral.max64 := by decide
  omega

/-- A scan does not end at the largest cursor if the hash has more fields. -/
theorem size_le_max (positive : 0 < pageSize)
    (scanned : Scanned pageSize listing store cursor requests pages)
    (at_end : cursor = Numeral.max64) : (store.hashOf listing.key).size ≤ Numeral.max64 := by
  -- No request makes the hash smaller, so the last page bounds it for all pages before.
  induction scanned with
  | other served rest ih =>
    rw [Gateway.eq_effect_of_run served] at ih
    exact Nat.le_trans (Request.size_hashOf_effect listing _ _) (ih at_end)
  | page asked served more rest ih =>
    rw [Gateway.eq_effect_of_run served, (next_eq more).1] at ih
    exact Nat.le_trans (Request.size_hashOf_effect listing _ _) (ih (by omega))
  | last asked served stop => exact Nat.le_trans (size_le positive stop) (Nat.min_le_right _ _)

/-- The keys before a cursor are still before it after a request. -/
theorem mem_take_effect {own : String} {request : Request}
    (late : ∀ field data, request.written? listing = some (field, data) →
      Hash.Late own (store.hashOf listing.key) field)
    (before : cursor = 0 ∨ cursor < (store.hashOf listing.key).size) :
    (((request.effect store).hashOf listing.key).entries.take cursor).map Prod.fst =
      ((store.hashOf listing.key).entries.take cursor).map Prod.fst := by
  rw [Request.hashOf_effect]
  cases written : request.written? listing with
  | none => rfl
  | some pair =>
    obtain ⟨field, data⟩ := pair
    have late' := (late field data written).imp_left OrderedMap.contains_iff.mp
    exact Ordered.map_fst_take_insert (store.hashOf listing.key).ascending late' before

/-- The field of an entry behind a cursor is still behind it after a request, with its value or
with the one that the request writes for it. -/
theorem mem_drop_effect {request : Request} {entry : String × String}
    (mem : entry ∈ (store.hashOf listing.key).entries.drop cursor) :
    ∃ data, (entry.1, data) ∈ ((request.effect store).hashOf listing.key).entries.drop cursor ∧
      (data = entry.2 ∨ request.written? listing = some (entry.1, data)) := by
  rw [Request.hashOf_effect]
  cases written : request.written? listing with
  | none => exact ⟨entry.2, mem, .inl rfl⟩
  | some pair =>
    obtain ⟨field, data⟩ := pair
    by_cases own : entry.1 = field
    · subst own
      exact ⟨data, Ordered.mem_drop_insert_self (store.hashOf listing.key).ascending mem, .inr rfl⟩
    · exact ⟨entry.2, Ordered.mem_drop_insert mem own, .inl rfl⟩

/-- What is in the hash of a listing after a request was there before or is written by it. -/
theorem mem_effect {request : Request} {entry : String × String}
    (mem : entry ∈ ((request.effect store).hashOf listing.key).entries) :
    entry ∈ (store.hashOf listing.key).entries ∨ request.written? listing = some entry := by
  rw [Request.hashOf_effect] at mem
  exact (Hash.mem_entries_write mem).imp_right Option.mem_toList.mp

section Items

variable (listing : Listing) (cursor pageSize : Nat) (hash : Hash)

theorem mem_items_iff {entry : String × String} :
    entry ∈ (listing.scan cursor pageSize).items hash ↔
      entry ∈ (hash.entries.drop cursor).take pageSize ∧ listing.shows entry.1 = true :=
  List.mem_filter

theorem mem_of_mem_items {entry : String × String}
    (mem : entry ∈ (listing.scan cursor pageSize).items hash) : entry ∈ hash.entries := by
  have visited := (mem_items_iff listing cursor pageSize hash).mp mem
  exact List.mem_of_mem_drop (List.mem_of_mem_take visited.1)

theorem ascending_items : Ordered.Ascending ((listing.scan cursor pageSize).items hash) := by
  have sublist : ((listing.scan cursor pageSize).items hash).Sublist hash.entries :=
    List.filter_sublist.trans ((List.take_sublist _ _).trans (List.drop_sublist _ _))
  exact hash.ascending.sublist sublist

/-- The fields of a page stand before the cursor of the next one. -/
theorem mem_take_of_mem_items {entry : String × String}
    (mem : entry ∈ (listing.scan cursor pageSize).items hash) :
    entry.1 ∈ (hash.entries.take (cursor + pageSize)).map Prod.fst := by
  have visited := (mem_items_iff listing cursor pageSize hash).mp mem
  rw [List.take_add, List.map_append]
  exact List.mem_append_right _ (List.mem_map_of_mem visited.1)

/-- The fields before a cursor are smaller than those behind it. -/
theorem lt_of_mem_take_of_mem_drop {entry : String × String} {field : String}
    (before : field ∈ (hash.entries.take cursor).map Prod.fst)
    (behind : entry ∈ hash.entries.drop cursor) : field < entry.1 := by
  obtain ⟨other, mem, rfl⟩ := List.mem_map.mp before
  have ascending := hash.ascending
  rw [Ordered.Ascending, ← List.take_append_drop cursor hash.entries,
    List.pairwise_append] at ascending
  exact ascending.2.2 other mem entry behind

theorem lt_of_mem_take_of_mem_items {entry : String × String} {field : String}
    (before : field ∈ (hash.entries.take cursor).map Prod.fst)
    (mem : entry ∈ (listing.scan cursor pageSize).items hash) : field < entry.1 :=
  lt_of_mem_take_of_mem_drop cursor hash before
    (List.mem_of_mem_take ((mem_items_iff listing cursor pageSize hash).mp mem).1)

end Items

/-- The fields that are written by the requests of a run are late when they are written. -/
def WritesLate (listing : Listing) (own : String) : Store → List Request → Prop :=
  Store.Along fun store request => ∀ field data, request.written? listing = some (field, data) →
    Hash.Late own (store.hashOf listing.key) field

/-- What a scan that goes on at a cursor visits, whatever is served meanwhile. -/
structure Visits (listing : Listing) (store : Store) (cursor : Nat) (requests : List Request)
    (visited : List (String × String)) : Prop where
  /-- Only fields of the listing are visited. -/
  shows : ∀ entry ∈ visited, listing.shows entry.1 = true
  /-- A visited entry is in the hash already or is written meanwhile. -/
  known : ∀ entry ∈ visited, entry ∈ (store.hashOf listing.key).entries ∨
    ∃ r ∈ requests, r.written? listing = some entry
  /-- The field of an entry behind the cursor is visited, with its value or with one that is
  written for it meanwhile. -/
  covers : ∀ entry ∈ (store.hashOf listing.key).entries.drop cursor,
    listing.shows entry.1 = true → ∃ data, (entry.1, data) ∈ visited ∧
      (data = entry.2 ∨ ∃ r ∈ requests, r.written? listing = some (entry.1, data))
  /-- If only late fields are written, entries are visited in order, and none of those before the
  cursor is visited again. -/
  ordered : ∀ own, WritesLate listing own store requests →
    cursor = 0 ∨ cursor < (store.hashOf listing.key).size →
      Ordered.Ascending visited ∧ ∀ entry ∈ visited,
        ∀ field ∈ ((store.hashOf listing.key).entries.take cursor).map Prod.fst, field < entry.1

namespace Visits

variable {request : Request} {visited : List (String × String)}

/-- An entry behind the cursor is visited unless something else is written for its field. -/
theorem complete (visits : Visits listing store cursor requests visited)
    {entry : String × String} (mem : entry ∈ (store.hashOf listing.key).entries.drop cursor)
    (shows : listing.shows entry.1 = true)
    (kept : ∀ r ∈ requests, ∀ data, r.written? listing = some (entry.1, data) → data = entry.2) :
    entry ∈ visited := by
  obtain ⟨data, visited, rfl | ⟨r, found, written⟩⟩ := visits.covers entry mem shows
  · exact visited
  · rwa [kept r found data written] at visited

/-- A request of others before a scan goes on. -/
theorem of_effect (visits : Visits listing (request.effect store) cursor requests visited) :
    Visits listing store cursor (request :: requests) visited where
  shows := visits.shows
  known := by
    intro entry mem
    rcases visits.known entry mem with held | ⟨r, mem', written⟩
    · exact (mem_effect held).imp_right fun written => ⟨request, by simp, written⟩
    · exact .inr ⟨r, by simp [mem'], written⟩
  covers := by
    intro entry mem shows
    obtain ⟨held, behind, origin⟩ := mem_drop_effect mem
    obtain ⟨data, found, rfl | ⟨r, mem', written⟩⟩ := visits.covers _ behind shows
    · exact ⟨_, found, origin.imp_right fun written => ⟨request, by simp, written⟩⟩
    · exact ⟨data, found, .inr ⟨r, by simp [mem'], written⟩⟩
  ordered := by
    intro own ⟨late_first, late_rest⟩ before
    have grown := Request.size_hashOf_effect listing request store
    obtain ⟨ascending, above⟩ := visits.ordered own late_rest
      (before.imp_right fun inside => Nat.lt_of_lt_of_le inside grown)
    -- A late field comes behind the cursor, so what stands before it is the same as before.
    rw [mem_take_effect late_first before] at above
    exact ⟨ascending, above⟩

/-- A page before a scan goes on behind it. -/
theorem of_page (asked : request.demand? = some (.page listing cursor))
    (inside : cursor + pageSize < (store.hashOf listing.key).size)
    (visits : Visits listing store (cursor + pageSize) requests visited) :
    Visits listing store cursor (request :: requests)
      ((listing.scan cursor pageSize).items (store.hashOf listing.key) ++ visited) where
  shows := by
    intro entry mem
    rcases List.mem_append.mp mem with mem | mem
    · exact ((mem_items_iff _ _ _ _).mp mem).2
    · exact visits.shows entry mem
  known := by
    intro entry mem
    rcases List.mem_append.mp mem with mem | mem
    · exact .inl (mem_of_mem_items _ _ _ _ mem)
    · apply (visits.known entry mem).imp_right
      rintro ⟨r, mem', written⟩
      exact ⟨r, by simp [mem'], written⟩
  covers := by
    intro entry mem shows
    -- What stands behind the cursor is on this page or behind the next cursor.
    rw [← List.take_append_drop pageSize (List.drop cursor _), List.drop_drop] at mem
    rcases List.mem_append.mp mem with mem | mem
    · have item := (mem_items_iff _ _ _ _).mpr ⟨mem, shows⟩
      exact ⟨entry.2, List.mem_append_left _ item, .inl rfl⟩
    · obtain ⟨data, found, origin⟩ := visits.covers entry mem shows
      refine ⟨data, List.mem_append_right _ found, origin.imp_right ?_⟩
      rintro ⟨r, mem', written⟩
      exact ⟨r, by simp [mem'], written⟩
  ordered := by
    intro own late before
    have late_rest := late.2
    rw [Request.effect_of_page asked] at late_rest
    obtain ⟨ascending, above⟩ := visits.ordered own late_rest (.inr inside)
    refine ⟨List.pairwise_append.mpr ⟨ascending_items _ _ _ _, ascending, ?_⟩, ?_⟩
    · -- The fields of this page stand before the next cursor.
      intro item mem entry mem'
      exact above entry mem' _ (mem_take_of_mem_items _ _ _ _ mem)
    · intro entry mem field before
      rcases List.mem_append.mp mem with mem | mem
      · exact lt_of_mem_take_of_mem_items _ _ _ _ before mem
      · apply above entry mem field
        rw [List.take_add, List.map_append]
        exact List.mem_append_left _ before

/-- A page that reaches the end of the hash. -/
theorem of_last (reached : (store.hashOf listing.key).size ≤ cursor + pageSize) :
    Visits listing store cursor [request]
      ((listing.scan cursor pageSize).items (store.hashOf listing.key)) where
  shows := by
    intro entry mem
    exact ((mem_items_iff _ _ _ _).mp mem).2
  known := by
    intro entry mem
    exact .inl (mem_of_mem_items _ _ _ _ mem)
  covers := by
    intro entry mem shows
    -- Nothing is left behind the last page, so taking from what is behind the cursor takes all of
    -- it.
    have all : ((store.hashOf listing.key).entries.drop cursor).take pageSize =
        (store.hashOf listing.key).entries.drop cursor := by
      apply List.take_of_length_le
      rw [List.length_drop]
      rw [OrderedMap.size] at reached
      omega
    refine ⟨entry.2, (mem_items_iff _ _ _ _).mpr ⟨?_, shows⟩, .inl rfl⟩
    rw [all]
    exact mem
  ordered := by
    intro own _ _
    refine ⟨ascending_items _ _ _ _, fun entry mem field before => ?_⟩
    exact lt_of_mem_take_of_mem_items _ _ _ _ before mem

end Visits

/-- The pages of a scan hold the documents of the entries that it visits. -/
theorem exists_visited (positive : 0 < pageSize)
    (scanned : Scanned pageSize listing store cursor requests pages) :
    ∃ visited, pages.flatMap Page.documents = Hash.documents visited ∧
      Visits listing store cursor requests visited := by
  induction scanned with
  | @other store store' cursor request _ requests pages served rest ih =>
    have after_eq := Gateway.eq_effect_of_run served
    subst after_eq
    obtain ⟨visited, listed, visits⟩ := ih
    exact ⟨visited, listed, visits.of_effect⟩
  | @page store store' cursor request requests pages asked served more rest ih =>
    obtain ⟨next, inside⟩ := next_eq more
    have unchanged : store' = store :=
      (Gateway.eq_effect_of_run served).trans (Request.effect_of_page asked store)
    subst unchanged
    -- A scan that had come to the largest cursor would stay there and never end.
    have going_on : min (cursor + pageSize) Numeral.max64 = cursor + pageSize := by
      by_contra at_end
      have reached := size_le_max positive rest (by omega)
      omega
    rw [going_on] at next inside
    rw [next] at ih
    obtain ⟨visited, listed, visits⟩ := ih
    refine ⟨_, ?_, visits.of_page asked inside⟩
    rw [List.flatMap_cons, listed, Hash.documents_append]
    rfl
  | @last store store' cursor request asked served stop =>
    have reached := size_le positive stop
    refine ⟨_, ?_, Visits.of_last (Nat.le_trans reached (Nat.min_le_left _ _))⟩
    rw [List.flatMap_cons, List.flatMap_nil, List.append_nil]
    rfl

end Listing.Scanned

end HashGateway
