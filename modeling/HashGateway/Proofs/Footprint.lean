import HashGateway.Proofs.Acceptance
import HashGateway.Proofs.Interference
import HashGateway.Proofs.Store.Effects
import HashGateway.Proofs.TraceSeparation

/-!
# What requests touch

A request touches its own record only: a registration has the two fields of its machine, a file
has one field of its own hash and one of the index of its machine, and a trace entry has one field
of the hash of its file. Which fields these are is told by the texts of the record, whatever
characters are in them, and all others stay as they are. So do all fields when a request only reads
or is not found.

## Main definitions

* `Demand.Touches` — the fields that a demand may change
* `Gateway.KeepsToRecord` — what a request that has been served leaves of a store

## Main results

* `Demand.agreesOutside_effect` — a demand changes fields that it touches
* `Gateway.keepsToRecord` — every request keeps to its record
-/

namespace HashGateway

/-- A demand may change a field of the hash at a key. -/
def Demand.Touches (demand : Demand) (key field : String) : Prop :=
  ∃ entry ∈ demand.writes, key = entry.1.text ∧ field ∈ entry.2.map Prod.fst

/-! ## Demands -/

namespace Demand

variable {key field : String}

theorem touches_register {r : Registration} : (register r).Touches key field ↔
    key = "userkey:" ++ r.machine ∧ (field = "machine" ∨ field = "username") := by
  simp only [Touches, writes, exists_eq_left, List.map_cons, List.map_nil, List.mem_cons,
    List.not_mem_nil, or_false, HashKey.text]

theorem touches_storeFile {f : FileRecord} : (storeFile f).Touches key field ↔
    (key = "filekey:" ++ f.uuid ∨ key = "machine:" ++ f.machine) ∧ field = f.uuid := by
  rw [or_and_right]
  simp only [Touches, writes, List.mem_cons, List.not_mem_nil, or_false, exists_eq_or_imp,
    exists_eq_left, List.map_cons, List.map_nil, HashKey.text]

theorem touches_addTrace {t : TraceRecord} :
    (addTrace t).Touches key field ↔ key = "filekey:" ++ t.uuid ∧ field = t.field := by
  simp only [Touches, writes, List.mem_singleton, exists_eq_left, List.map_cons, List.map_nil,
    HashKey.text]

/-- What a demand writes into a hash has fields. -/
theorem snd_ne_nil_of_mem_writes {demand : Demand} {entry : HashKey × List (String × String)}
    (mem : entry ∈ demand.writes) : entry.2 ≠ [] := by
  cases demand <;> simp only [writes, List.mem_cons, List.not_mem_nil, or_false] at mem
  case storeFile f => rcases mem with rfl | rfl <;> simp
  all_goals simp [mem]

/-- A demand changes fields that it touches. -/
theorem agreesOutside_effect (demand : Demand) (store : Store) :
    store.AgreesOutside demand.Touches (demand.effect store) := by
  -- It is enough that each of its writes does.
  refine effect_keeps (fun entry mem store' agrees => agrees.trans ?_) (.refl _ store)
  have written := store'.agreesOutside_insert entry.1.text (snd_ne_nil_of_mem_writes mem)
  exact written.mono fun key field touched => ⟨entry, mem, touched⟩

end Demand

/-! ## Requests -/

/-- The endpoints that only read. -/
def Endpoint.reading : List Endpoint := [.getUser, .getFile, .listFiles, .listTraces]

/-- A request to the path of an endpoint that only reads does nothing. -/
theorem Request.effect_of_reading {request : Request} {endpoint : Endpoint}
    (reads : endpoint ∈ Endpoint.reading) (path : request.path = endpoint.path) (store : Store) :
    request.effect store = store := by
  cases demand : request.demand? with
  | none => exact effect_of_demand?_eq_none demand store
  | some d =>
    rw [effect_of_demand? demand]
    obtain ⟨-, -, -, endpoint', path', held⟩ := demand?_eq_some_iff.mp demand
    obtain rfl := Endpoint.path_injective (path'.trans path)
    have parsed := Except.toOption_eq_some.mp held
    simp only [Endpoint.reading, List.mem_cons, List.not_mem_nil, or_false] at reads
    rcases reads with rfl | rfl | rfl | rfl
    all_goals
      obtain ⟨query, -, rfl⟩ := Except.map_eq_ok.mp parsed
      rfl

namespace Gateway

/-- What a request that has been served leaves of a store. -/
structure KeepsToRecord (request : Request) (store : Store) (served : Response × Store) :
    Prop where
  /-- A request to the path of an endpoint that only reads changes nothing. -/
  reads : ∀ endpoint ∈ Endpoint.reading, request.path = endpoint.path → served.2 = store
  /-- A request that is not found changes nothing. -/
  refused : served.1.status = 404 → served.2 = store
  /-- A registration changes at most the two fields of its machine. -/
  registration : ∀ r, request.demand? = some (.register r) →
    store.AgreesOutside (fun key field =>
      key = "userkey:" ++ r.machine ∧ (field = "machine" ∨ field = "username")) served.2
  /-- A registration that is not forced changes nothing if its machine has a field. -/
  registered : ∀ r, request.demand? = some (.register r) → r.force = false →
    (store.hash ("userkey:" ++ r.machine)).entries ≠ [] → served.2 = store
  /-- A file changes at most one field of its own hash and one of the index of its machine, and
  both have one text. -/
  file : ∀ f, request.demand? = some (.storeFile f) →
    store.AgreesOutside (fun key field =>
      (key = "filekey:" ++ f.uuid ∨ key = "machine:" ++ f.machine) ∧ field = f.uuid) served.2 ∧
    served.2.field? ("filekey:" ++ f.uuid) f.uuid = some f.data ∧
    served.2.field? ("machine:" ++ f.machine) f.uuid = some f.data
  /-- A trace entry changes at most one field of the hash of its file, and its name begins with that
  of all such fields. -/
  trace : ∀ t, request.demand? = some (.addTrace t) →
    store.AgreesOutside (fun key field => key = "filekey:" ++ t.uuid ∧ field = t.field) served.2 ∧
    Record.TraceLike t.field

/-- Every request keeps to its record, whatever store it is served by. -/
theorem keepsToRecord (pageSize : Nat) (request : Request) (store : Store) :
    KeepsToRecord request store ((dispatch pageSize request).run Engine.memory store) := by
  rw [run_dispatch]
  constructor <;> dsimp only
  · intro endpoint reads path
    rw [Request.effect_of_reading reads path]
  · intro missing
    cases demand : request.demand? with
    | none => rw [Request.effect_of_demand?_eq_none demand]
    | some d => simp [Request.response_of_demand? demand] at missing
  · intro r demand
    rw [Request.effect_of_demand? demand]
    exact (Demand.agreesOutside_effect _ store).mono fun _ _ => Demand.touches_register.mp
  · intro r demand unforced held
    -- An unforced registration writes only where the machine has no entry.
    have kept : ¬ (r.force = true ∨ (store.hashOf (.user r.machine)).entries = []) := by
      simp only [unforced, Bool.false_eq_true, false_or]
      exact held
    rw [Request.effect_of_demand? demand, Demand.effect, if_neg kept]
  · intro f demand
    rw [Request.effect_of_demand? demand]
    refine ⟨(Demand.agreesOutside_effect _ store).mono fun _ _ => Demand.touches_storeFile.mp,
      ?_, ?_⟩
    · show ((Demand.effect _ store).hashOf (.file f.uuid)).find? f.uuid = some f.data
      rw [Demand.effect, Store.hashOf_write_of_ne (by simp)]
      simp
    · show ((Demand.effect _ store).hashOf (.files f.machine)).find? f.uuid = some f.data
      simp [Demand.effect]
  · intro t demand
    rw [Request.effect_of_demand? demand]
    refine ⟨(Demand.agreesOutside_effect _ store).mono fun _ _ => Demand.touches_addTrace.mp, ?_⟩
    rw [Request.field_of_addTrace demand]
    exact Record.traceLike_traceField request.stamp

/-- A file with names that look like keys and like holes leaves the index of another machine as it
is, although it has the same field. -/
theorem keepsToRecord_braces :
    let body := "\x7b\"machine\":\"m \x7b\x7d u\",\"uuid\":\"machine:m\"\x7d"
    let request : Request := ⟨"POST", "/fileset", Utf8.bytes body, 0⟩
    let store : Store := OrderedMap.insert OrderedMap.empty "machine:m"
      (OrderedMap.insert OrderedMap.empty "machine:m" "old")
    let served := (dispatch 20 request).run Engine.memory store
    served.2.field? "filekey:machine:m" "machine:m" = some body ∧
      served.2.field? "machine:m \x7b\x7d u" "machine:m" = some body ∧
      served.2.field? "machine:m" "machine:m" = some "old" := by
  intro body request store served
  have demand : request.demand? = some (.storeFile ⟨"m \x7b\x7d u", "machine:m", body⟩) :=
    Request.demand?_posted .setFile 0 (by decide +kernel) (by decide +kernel)
  obtain ⟨others, stored, indexed⟩ := (keepsToRecord 20 request store).file _ demand
  exact ⟨stored, indexed, (others.fields "machine:m" "machine:m" (by decide)).trans (by decide)⟩

end Gateway

end HashGateway
