import HashGateway.Proofs.Record.Lengths
import HashGateway.Proofs.Store.Histories
import HashGateway.Proofs.WellFormed
import HashGateway.Proofs.Wire.Serving

/-!
# A store in memory and the same store over the wire

A gateway answers every request in the same way whether its store is in memory, or is that of a
server which is reached over the wire. The numbers of the protocol have 64 bits. Texts never come
near to this, because the body of a request is short and all that is stored comes from bodies; a
page has at most as many fields as are asked for, and at most as many as there were requests.

## Main definitions

* `IsShort`, `Store.IsShort` — a text that is no longer than a body, and a store of such texts

## Main results

* `Demand.run_exchange_served` — a demand has the same outcome and effect over the wire
* `Gateway.serveAll_serving` — a run of requests is answered in the same way over the wire
-/

namespace HashGateway

/-! ## Short texts -/

/-- A text is no longer than the body of a request may be. -/
def IsShort (s : String) : Prop := (Utf8.bytes s).length ≤ Gateway.maxBody

instance (s : String) : Decidable (IsShort s) := inferInstanceAs (Decidable (_ ≤ _))

theorem Utf8.length_encode_le (cs : List Char) : (encode cs).length ≤ 4 * cs.length := by
  induction cs with
  | nil => simp
  | cons c cs ih =>
    have first := length_encodeChar_le c
    rw [encode_cons, List.length_append, List.length_cons]
    omega

theorem Utf8.bytes_append (s t : String) : bytes (s ++ t) = bytes s ++ bytes t := by
  rw [bytes, String.toList_append, encode_append, bytes, bytes]

theorem Numeral.length_render_le {n : Nat} (h : n ≤ max64) : (render n).length ≤ 20 :=
  (Nat.length_toDigits_le_iff (by decide) (by decide)).mpr (Nat.lt_of_le_of_lt h (by decide))

theorem Numeral.length_renderInt_le {i : Int} (h : i.natAbs ≤ max64) :
    (renderInt i).length ≤ 21 := by
  cases i with
  | ofNat n => exact Nat.le_succ_of_le (length_render_le h)
  | negSucc n => exact Nat.succ_le_succ (length_render_le h)

theorem isShort_ofList {cs : List Char} (h : cs.length ≤ 30) : IsShort (String.ofList cs) := by
  have length := Utf8.length_encode_le cs
  rw [IsShort, Utf8.bytes, String.toList_ofList]
  exact Nat.le_trans length (by rw [Gateway.maxBody]; omega)

theorem isShort_render {n : Nat} (h : n ≤ Numeral.max64) :
    IsShort (String.ofList (Numeral.render n)) :=
  isShort_ofList (Nat.le_trans (Numeral.length_render_le h) (by decide))

theorem isShort_traceField {stamp : Int} (h : stamp.natAbs ≤ Numeral.max64) :
    IsShort (Record.traceField stamp) := by
  refine isShort_ofList ?_
  have digits := Numeral.length_renderInt_le h
  have start : "trace:".toList.length = 6 := by decide
  rw [List.length_append]
  omega

theorem IsShort.lt {s : String} (h : IsShort s) : (Utf8.bytes s).length < Numeral.half64 :=
  Nat.lt_of_le_of_lt h (by decide)

/-! ## Stores of short texts -/

namespace Store

/-- All fields and values of a store are short. -/
def IsShort (store : Store) : Prop := ∀ key field value,
  (store.hash key).find? field = some value → HashGateway.IsShort field ∧ HashGateway.IsShort value

theorem isShort_empty : IsShort OrderedMap.empty := fun key field value found => by
  simp [hash] at found

variable {store : Store}

theorem IsShort.of_mem (h : store.IsShort) {key : HashKey} {entry : String × String}
    (mem : entry ∈ (store.hashOf key).entries) :
    HashGateway.IsShort entry.1 ∧ HashGateway.IsShort entry.2 :=
  h key.text entry.1 entry.2 ((Ordered.find?_eq_some_iff (OrderedMap.ascending _)).mpr mem)

theorem IsShort.write (h : store.IsShort) (key : HashKey) {pairs : List (String × String)}
    (short : ∀ pair ∈ pairs, HashGateway.IsShort pair.1 ∧ HashGateway.IsShort pair.2) :
    (store.write key pairs).IsShort := by
  intro key' field value found
  rw [Store.write, hash_insert] at found
  split at found
  · rw [Hash.find?_write, Option.or_eq_some_iff] at found
    rcases found with new | ⟨-, old⟩
    · obtain ⟨before, after, rfl, -⟩ := lookup_reverse_eq_some_iff.mp new
      exact short (field, value) (by simp)
    · exact h key.text field value old
  · exact h key' field value found

theorem IsShort.effect (h : store.IsShort) {request : Request}
    (stamp_fits : request.stamp.natAbs ≤ Numeral.max64) : (request.effect store).IsShort := by
  cases accepted : request.demand? with
  | none => rwa [Request.effect_of_demand?_eq_none accepted]
  | some demand =>
    rw [Request.effect_of_demand? accepted]
    have texts := (Request.fits_of_demand? accepted).1
    refine Demand.effect_keeps (fun entry mem store held => held.write entry.1 ?_) h
    cases demand with
    | register r =>
      have fields : HashGateway.IsShort "machine" ∧ HashGateway.IsShort "username" := by decide
      obtain rfl := List.mem_singleton.mp mem
      exact List.forall_mem_cons.mpr ⟨⟨fields.1, texts r.machine (by simp [Demand.texts])⟩,
        List.forall_mem_singleton.mpr ⟨fields.2, texts r.username (by simp [Demand.texts])⟩⟩
    | storeFile f =>
      have file : HashGateway.IsShort f.uuid ∧ HashGateway.IsShort f.data :=
        ⟨texts f.uuid (by simp [Demand.texts]), texts f.data (by simp [Demand.texts])⟩
      obtain rfl | rfl : entry = _ ∨ entry = _ := by simpa [Demand.writes] using mem
      · exact List.forall_mem_singleton.mpr file
      · exact List.forall_mem_singleton.mpr file
    | addTrace t =>
      obtain rfl := List.mem_singleton.mp mem
      have field : t.field = Record.traceField request.stamp :=
        TraceRecord.field_of_parse (Request.parse_of_addTrace accepted)
      refine List.forall_mem_singleton.mpr ⟨?_, texts t.data (by simp [Demand.texts])⟩
      rw [field]
      exact isShort_traceField stamp_fits
    | lookUp machine => simp [Demand.writes] at mem
    | fetchFile uuid => simp [Demand.writes] at mem
    | page listing cursor => simp [Demand.writes] at mem

end Store

/-! ## Commands and replies -/

/-- The name and the key of a command and its other parts are short. -/
theorem Command.isSendable_of_isShort {name : String} {key : HashKey} {rest : List String}
    (name_short : IsShort name) (key_short : IsShort key.name)
    (rest_short : ∀ part ∈ rest, IsShort part) (few : rest.length < 8) :
    IsSendable (name :: key.text :: rest) where
  named := List.cons_ne_nil _ _
  few := by
    simp only [List.length_cons, Numeral.half64]
    omega
  short := by
    -- A key has a few letters more than the name in it.
    have key_length : (Utf8.bytes key.text).length ≤ (Utf8.bytes key.name).length + 8 := by
      cases key <;> simp only [HashKey.text, HashKey.name, Utf8.bytes_append, List.length_append]
      · have start : (Utf8.bytes "userkey:").length = 8 := by decide
        omega
      · have start : (Utf8.bytes "machine:").length = 8 := by decide
        omega
      · have start : (Utf8.bytes "filekey:").length = 8 := by decide
        omega
    have key_fits : (Utf8.bytes key.text).length < Numeral.half64 :=
      calc (Utf8.bytes key.text).length
        _ ≤ (Utf8.bytes key.name).length + 8 := key_length
        _ ≤ Gateway.maxBody + 8 := Nat.add_le_add_right key_short 8
        _ < Numeral.half64 := by decide
    exact List.forall_mem_cons.mpr ⟨name_short.lt, List.forall_mem_cons.mpr ⟨key_fits,
      fun part mem => (rest_short part mem).lt⟩⟩

theorem Hash.listing_eq (entries : List (String × String)) :
    listing entries = (inTurn entries).map .bulk := by
  rw [listing, inTurn, List.map_flatMap]
  rfl

theorem Hash.length_inTurn (entries : List (String × String)) :
    (inTurn entries).length = 2 * entries.length := by
  induction entries with
  | nil => rfl
  | cons entry entries ih =>
    rw [inTurn, List.flatMap_cons, ← inTurn, List.length_append, ih, List.length_cons]
    simp
    omega

theorem Hash.isShort_of_mem_inTurn {entries : List (String × String)}
    (short : ∀ entry ∈ entries, IsShort entry.1 ∧ IsShort entry.2) :
    ∀ part ∈ inTurn entries, IsShort part := by
  intro part mem
  obtain ⟨entry, stands, rfl | rfl⟩ : ∃ entry ∈ entries, part = entry.1 ∨ part = entry.2 := by
    simpa [inTurn] using mem
  · exact (short entry stands).1
  · exact (short entry stands).2

/-- A listing of short fields and values is read, unless there are too many of them. -/
theorem Hash.isReadable_listing {entries : List (String × String)}
    (few : 2 * entries.length < Numeral.half64)
    (short : ∀ entry ∈ entries, IsShort entry.1 ∧ IsShort entry.2) :
    (Reply.array (listing entries)).IsReadable := by
  rw [listing_eq]
  exact Wire.isReadable_texts (by rwa [length_inTurn])
    fun part mem => (isShort_of_mem_inTurn short part mem).lt

section Replies

variable {store : Store}

/-- The registration of a machine has two fields. -/
theorem Store.isReadable_getAll (well_formed : store.WellFormed) (short : store.IsShort)
    (machine : String) :
    (store.apply (.getAll (HashKey.user machine).text)).1.IsReadable := by
  refine Hash.isReadable_listing ?_ fun entry mem => short.of_mem mem
  change 2 * (store.hashOf (.user machine)).entries.length < _
  obtain ⟨owner, held⟩ := well_formed.exists_owner machine
  cases owner with
  | none => simp [held, registrationHash, Numeral.half64]
  | some user =>
    rw [held, entries_registrationHash]
    simp [Numeral.half64]

theorem Store.isReadable_get (short : store.IsShort) (key : HashKey) (field : String) :
    (store.apply (.get key.text field)).1.IsReadable := by
  simp only [apply]
  split
  · next value found => exact Wire.isReadable_bulk (short key.text field value found).2.lt
  · exact Wire.isReadable_nil

theorem Hash.added_le_length (hash : Hash) (pairs : List (String × String)) :
    hash.added pairs ≤ pairs.length := by
  induction pairs generalizing hash with
  | nil => simp [added]
  | cons pair pairs ih =>
    have rest := ih (hash.insert pair.1 pair.2)
    rw [added, List.length_cons]
    split <;> omega

theorem Store.isReadable_set (key : HashKey) {pairs : List (String × String)}
    (few : pairs.length < 8) (counted : Bool) :
    (store.apply (.set key.text pairs counted)).1.IsReadable := by
  rw [apply_set]
  cases counted with
  | false => exact Wire.isReadable_okay
  | true =>
    have added := Hash.added_le_length (store.hashOf key) pairs
    exact Wire.isReadable_int (Nat.lt_trans (Nat.lt_of_le_of_lt added few) (by decide))

theorem Scan.length_items_le (scan : Scan) (hash : Hash) :
    (scan.items hash).length ≤ min scan.count hash.size := by
  refine Nat.le_trans (List.length_filter_le _ _) ?_
  rw [List.length_take, List.length_drop]
  exact Nat.le_min.mpr ⟨Nat.min_le_left _ _, Nat.le_trans (Nat.min_le_right _ _) (Nat.sub_le _ _)⟩

theorem Scan.isReadable_reply (short : store.IsShort) (key : HashKey) (scan : Scan)
    (few : 2 * min scan.count (store.hashOf key).size < Numeral.half64) :
    (scan.reply (store.hashOf key)).IsReadable := by
  have size := scan.length_items_le (store.hashOf key)
  have visited : ∀ entry ∈ scan.items (store.hashOf key), entry ∈ (store.hashOf key).entries :=
    fun entry mem => List.mem_of_mem_drop (List.mem_of_mem_take (List.mem_of_mem_filter mem))
  rw [Scan.reply, Hash.listing_eq]
  refine Wire.isReadable_scan (isShort_render (scan.next_le _)).lt ?_ fun part mem => ?_
  · rw [Hash.length_inTurn]
    omega
  · exact (Hash.isShort_of_mem_inTurn (fun entry mem => short.of_mem (visited entry mem))
      part mem).lt

end Replies

/-! ## Demands -/

section Demands

open Exchange

variable {store : Store} {pageSize : Nat}

theorem Registration.run_write_served {r : Registration} (machine : IsShort r.machine)
    (username : IsShort r.username) (store : Store) :
    r.write.run Wire.served store = r.write.run Engine.memory store := by
  have words : IsShort "machine" ∧ IsShort "username" := by decide
  refine run_andThen_congr ?_ fun outcome store' => by cases outcome <;> rfl
  exact run_means_serving (Operation.format_registerUser _ _ _)
    (Operation.means_registerUser _ _ _)
    (Command.isSendable_of_isShort (by decide) machine (by simp [*]) (by simp))
    (Store.isReadable_set _ (by simp) _)

theorem run_getUser_served {machine : String} (name : IsShort machine)
    (well_formed : store.WellFormed) (short : store.IsShort) :
    (perform .getUser [.text machine]).run Wire.served store =
      (perform .getUser [.text machine]).run Engine.memory store :=
  run_means_serving (Operation.format_getUser _) (Operation.means_getUser _)
    (Command.isSendable_of_isShort (by decide) name (by simp) (by decide))
    (Store.isReadable_getAll well_formed short machine)

theorem FileRecord.run_exchange_served {f : FileRecord} (machine : IsShort f.machine)
    (uuid : IsShort f.uuid) (data : IsShort f.data) (store : Store) :
    f.exchange.run Wire.served store = f.exchange.run Engine.memory store := by
  have file : ∀ part ∈ [f.uuid, f.data], IsShort part := by simp [*]
  have readable (key : HashKey) (store : Store) :
      (store.apply (.set key.text [(f.uuid, f.data)] false)).1.IsReadable :=
    Store.isReadable_set key (by simp) _
  refine run_andThen_congr ?_ fun outcome store' => ?_
  · exact run_means_serving (Operation.format_setFile _ _ _) (Operation.means_setFile _ _ _)
      (Command.isSendable_of_isShort (by decide) uuid file (by simp)) (readable _ _)
  · split
    · exact run_means_serving (Operation.format_indexFile _ _ _) (Operation.means_indexFile _ _ _)
        (Command.isSendable_of_isShort (by decide) machine file (by simp)) (readable _ _)
    · rfl

/-- A page is read in the same way, whether or not the store takes its cursor. -/
theorem run_page_served {operation : Operation} {arguments : List Argument} {command : Command}
    {key : HashKey} {scan : Scan} {p : Prop} (short : store.IsShort)
    (formatted : Template.format operation.template arguments = .ok command)
    (means : p → operation.Means arguments (.scan key.text scan))
    (refused : ¬ p → operation.IsRefused arguments) (sendable : command.IsSendable)
    (few : 2 * min scan.count (store.hashOf key).size < Numeral.half64) :
    (perform operation arguments).run Wire.served store =
      (perform operation arguments).run Engine.memory store := by
  by_cases taken : p
  · exact run_means_serving formatted (means taken) sendable
      (Scan.isReadable_reply short key scan few)
  -- A refused scan has no reply that would have to be read.
  · refine run_perform_serving formatted sendable fun reply executed => ?_
    obtain ⟨words, rejection, formatted', parsed⟩ := refused taken
    obtain rfl := Except.ok.inj (formatted.symm.trans formatted')
    simp [Store.execute, parsed] at executed

/-- A demand has the same outcome and the same effect over the wire. -/
theorem Demand.run_exchange_served {demand : Demand} (fits : demand.Fits Gateway.maxBody)
    (field_fits : ∀ t, demand = .addTrace t → IsShort t.field) (well_formed : store.WellFormed)
    (short : store.IsShort) (size_fits : pageSize ≤ Numeral.max64)
    (few : ∀ listing : Listing, 2 * min pageSize (store.hashOf listing.key).size < Numeral.half64) :
    (demand.exchange pageSize).run Wire.served store =
      (demand.exchange pageSize).run Engine.memory store := by
  obtain ⟨texts, cursors⟩ := fits
  cases demand with
  | register r =>
    have machine : IsShort r.machine := texts _ (by simp [Demand.texts])
    have username : IsShort r.username := texts _ (by simp [Demand.texts])
    have write := Registration.run_write_served machine username
    change r.exchange.run _ _ = r.exchange.run _ _
    unfold Registration.exchange
    split
    · exact write store
    · refine run_andThen_congr (run_getUser_served machine well_formed short)
        fun outcome store' => ?_
      cases outcome with
      | notFound => exact write store'
      | _ => rfl
  | lookUp machine =>
    exact run_getUser_served (texts _ (by simp [Demand.texts])) well_formed short
  | storeFile f =>
    exact FileRecord.run_exchange_served (texts _ (by simp [Demand.texts]))
      (texts _ (by simp [Demand.texts])) (texts _ (by simp [Demand.texts])) store
  | fetchFile uuid =>
    have name : IsShort uuid := texts _ (by simp [Demand.texts])
    exact run_means_serving (Operation.format_getFile _ _) (Operation.means_getFile _ _)
      (Command.isSendable_of_isShort (by decide) name (by simpa using name) (by simp))
      (Store.isReadable_get short _ _)
  | addTrace t =>
    have uuid : IsShort t.uuid := texts _ (by simp [Demand.texts])
    have data : IsShort t.data := texts _ (by simp [Demand.texts])
    exact run_means_serving (Operation.format_addTrace _ _ _) (Operation.means_addTrace _ _ _)
      (Command.isSendable_of_isShort (by decide) uuid
        (by simpa using ⟨field_fits t rfl, data⟩) (by simp))
      (Store.isReadable_set _ (by simp) _)
  | page listing cursor =>
    have cursor_short := isShort_render (cursors listing cursor rfl)
    have size_short := isShort_render size_fits
    have words : IsShort "COUNT" ∧ IsShort "MATCH" ∧ IsShort "trace:*" := by decide
    cases listing with
    | files machine =>
      exact run_page_served short (Operation.format_listFiles machine)
        (Operation.means_listFiles machine) (Operation.isRefused_listFiles machine)
        (Command.isSendable_of_isShort (by decide) (texts machine (by simp [Demand.texts]))
          (by simp [*]) (by simp)) (few (.files machine))
    | traces uuid =>
      exact run_page_served short (Operation.format_listTraces uuid)
        (Operation.means_listTraces uuid) (Operation.isRefused_listTraces uuid)
        (Command.isSendable_of_isShort (by decide) (texts uuid (by simp [Demand.texts]))
          (by simp [*]) (by simp)) (few (.traces uuid))

end Demands

/-! ## Runs of requests -/

/-- A request adds one field at most to a hash that is listed. -/
theorem Request.size_hashOf_effect_le (request : Request) (listing : Listing) (store : Store) :
    ((request.effect store).hashOf listing.key).size ≤ (store.hashOf listing.key).size + 1 := by
  have one : (request.written? listing).toList.length ≤ 1 := by
    cases request.written? listing <;> simp
  have added := Hash.added_le_length (store.hashOf listing.key) (request.written? listing).toList
  rw [hashOf_effect, Hash.size_write]
  omega

namespace Gateway

variable {pageSize : Nat}

theorem run_dispatch_served {request : Request} {store : Store} (well_formed : store.WellFormed)
    (short : store.IsShort) (stamp_fits : request.stamp.natAbs ≤ Numeral.max64)
    (size_fits : pageSize ≤ Numeral.max64)
    (few : ∀ listing : Listing, 2 * min pageSize (store.hashOf listing.key).size < Numeral.half64) :
    (dispatch pageSize request).run Wire.served store =
      (dispatch pageSize request).run Engine.memory store := by
  cases accepted : request.demand? with
  | none =>
    rw [dispatch_of_demand?_eq_none accepted]
    rfl
  | some demand =>
    have field_fits : ∀ t, demand = .addTrace t → IsShort t.field := by
      rintro t rfl
      rw [TraceRecord.field_of_parse (Request.parse_of_addTrace accepted)]
      exact isShort_traceField stamp_fits
    rw [dispatch_of_demand? accepted, Exchange.run_respond, Exchange.run_respond,
      Demand.run_exchange_served (Request.fits_of_demand? accepted) field_fits well_formed short
        size_fits few]

/-- The fields of a page are no more than were there at the start and have come since. -/
theorem serveAll_served_of_room {requests : List Request} {store : Store}
    (well_formed : store.WellFormed) (short : store.IsShort)
    (stamps_fit : ∀ request ∈ requests, request.stamp.natAbs ≤ Numeral.max64)
    (size_fits : pageSize ≤ Numeral.max64)
    (room : ∀ listing : Listing,
      min pageSize ((store.hashOf listing.key).size + requests.length) < 2 ^ 62) :
    serveAll Wire.served pageSize requests store =
      serveAll Engine.memory pageSize requests store := by
  induction requests generalizing store with
  | nil => rfl
  | cons request requests ih =>
    -- A request adds one field at most to a listing, so the room left suffices for the others.
    have few (listing : Listing) :
        2 * min pageSize (store.hashOf listing.key).size < Numeral.half64 := by
      have room := room listing
      rw [Numeral.half64]
      omega
    have served := run_dispatch_served well_formed short
      (stamps_fit request List.mem_cons_self) size_fits few
    have rest := ih (well_formed.effect request)
      (short.effect (stamps_fit request List.mem_cons_self))
      (fun other mem => stamps_fit other (List.mem_cons_of_mem _ mem)) fun listing => by
        have room := room listing
        have grown := request.size_hashOf_effect_le listing store
        rw [List.length_cons] at room
        omega
    rw [serveAll, served, serveAll_memory, run_dispatch]
    simp only [rest]

/-- A run of requests is answered in the same way, and stores the same, whether the store is in
memory or behind a server. Page sizes and stamps have 64 bits, and so has the number of parts of
a page; no page can have `2 ^ 62` fields, each with its value, if it is not asked for so many or
if so many requests have not come. -/
theorem serveAll_serving (pageSize : Nat) (requests : List Request)
    (size_fits : pageSize ≤ Numeral.max64)
    (stamps_fit : ∀ request ∈ requests, request.stamp.natAbs ≤ Numeral.max64)
    (pages_fit : min pageSize requests.length < 2 ^ 62) :
    serveAll (Wire.engine (Wire.Link.serving Engine.memory)) pageSize requests OrderedMap.empty =
      serveAll Engine.memory pageSize requests OrderedMap.empty := by
  refine serveAll_served_of_room Store.wellFormed_empty Store.isShort_empty stamps_fit size_fits
    fun listing => ?_
  have fresh : (Store.hashOf OrderedMap.empty listing.key).size = 0 := rfl
  rwa [fresh, Nat.zero_add]

/-- Two traces of one microsecond, whose file has a line break in its name, and a page of no
fields: the first is acknowledged, the second fails, and the server refuses the page. -/
theorem serveAll_serving_traces :
    let add : Request := ⟨"POST", "/filesettrace", Utf8.bytes "[\"a\\r\\nb\"]", 7⟩
    let list : Request := ⟨"POST", "/filegettrace", Utf8.bytes "[\"a\\r\\nb\",0]", 8⟩
    let served := serveAll (Wire.engine (Wire.Link.serving Engine.memory)) 0 [add, add, list]
      OrderedMap.empty
    0 ≤ Numeral.max64 ∧ (∀ request ∈ [add, add, list], request.stamp.natAbs ≤ Numeral.max64) ∧
      min 0 [add, add, list].length < 2 ^ 62 ∧
      served = serveAll Engine.memory 0 [add, add, list] OrderedMap.empty ∧
      served.1 =
        [⟨200, Envelope.ok.text⟩, ⟨200, Envelope.fail.text⟩, ⟨200, Envelope.fail.text⟩] := by
  intro add list served
  have stamps_fit : ∀ request ∈ [add, add, list], request.stamp.natAbs ≤ Numeral.max64 := by decide
  have served_eq := serveAll_serving 0 [add, add, list] (by decide) stamps_fit (by decide)
  have added : add.demand? =
      some (.addTrace ⟨"a\r\nb", Record.traceField 7, "[\"a\\r\\nb\"]"⟩) :=
    Request.demand?_posted .addTrace 7 (by decide +kernel) (by decide +kernel)
  have listed : list.demand? = some (.page (.traces "a\r\nb") 0) :=
    Request.demand?_posted .listTraces 8 (by decide +kernel) (by decide +kernel)
  refine ⟨by decide, stamps_fit, by decide, served_eq, ?_⟩
  rw [show served = _ from served_eq]
  simp only [serveAll_memory, serveAll_nil, Request.response_of_demand? added,
    Request.response_of_demand? listed, Request.effect_of_demand? added]
  decide +kernel

end Gateway

end HashGateway
