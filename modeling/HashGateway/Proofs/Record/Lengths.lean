import HashGateway.Proofs.Demand
import HashGateway.Proofs.Record.Rows

/-!
# How long the texts of a record are

A text of a record is no longer than the body that it is read from: an escape is never shorter
than what it stands for. Numbers have a bound of their own. So everything that an accepted
request asks for is short, because the body of a request is.

## Main definitions

* `Record.Row.Fits` — the texts of a record are within a length, its numbers within their bounds
* `Demand.Fits` — the same of what a request asks for

## Main results

* `Record.Shape.fits_of_parse` — the texts of a record are no longer than its body
* `Request.fits_of_demand?` — what an accepted request asks for is no longer than a body may be
-/

namespace HashGateway

theorem Utf8.length_encodeChar_le (c : Char) : (encodeChar c).length ≤ 4 := by
  simp only [encodeChar]
  split
  · simp
  · split
    · simp
    · split <;> simp

namespace Json

/-- What a string denotes is shorter than what is read of it. -/
theorem Quoted.length_lt {bs t r : Bytes} {ps : List Piece} (h : Quoted bs ps r)
    (denoted : denote ps = some t) : t.length + r.length < bs.length := by
  fun_induction denote ps generalizing bs t with
  | case1 =>
    cases h
    obtain rfl := Option.some.inj denoted
    simp
  | case2 b ps ih =>
    obtain ⟨t', inner, rfl⟩ := Option.map_eq_some_iff.mp denoted
    cases h with
    | plain _ _ _ rest =>
      have shorter := ih rest inner
      simp only [List.length_cons]
      omega
    | short _ rest =>
      have shorter := ih rest inner
      simp only [List.length_cons]
      omega
  -- Two escapes of six bytes each make up one character.
  | case4 n _ _ m ps _ ih =>
    obtain ⟨t', inner, rfl⟩ := Option.map_eq_some_iff.mp denoted
    cases h with
    | unit digits rest =>
      cases rest with
      | unit digits' rest =>
        have shorter := ih rest inner
        have char := Utf8.length_encodeChar_le (joined n m)
        simp only [List.length_cons, List.length_append]
        omega
  | case7 n ps _ _ ih =>
    obtain ⟨t', inner, rfl⟩ := Option.map_eq_some_iff.mp denoted
    cases h with
    | unit digits rest =>
      have shorter := ih rest inner
      have char := Utf8.length_encodeChar_le (Char.ofNat n)
      simp only [List.length_cons, List.length_append]
      omega
  | _ => simp at denoted

theorem Quoted.length_bytes_le {bs r : Bytes} {ps : List Piece} (h : Quoted bs ps r) {s : String}
    (text : text? ps = some s) : (Utf8.bytes s).length ≤ bs.length := by
  obtain ⟨t, denoted, decoded⟩ := Option.bind_eq_some_iff.mp text
  have shorter := h.length_lt denoted
  rw [Utf8.decode?_eq_some_iff.mp decoded] at shorter
  omega

theorem Number.le_of_natural? {bound m : Nat} {n : Number} (h : n.natural? bound = some m) :
    m ≤ bound := by
  cases n with
  | real x => simp [natural?] at h
  | int i =>
    simp only [natural?, Option.ite_none_right_eq_some, Option.some.injEq] at h
    omega

theorem Tree.le_of_natural? {bound n : Nat} {t : Tree} (h : t.natural? bound = some n) :
    n ≤ bound := by
  cases t with
  | number negative figures =>
    obtain ⟨number, -, read⟩ := Option.bind_eq_some_iff.mp h
    exact Number.le_of_natural? read
  | _ => simp [natural?] at h

end Json

namespace Record

open Json

/-- A text is within a length, or a number within the bound of its type. -/
def FieldType.Fits (limit : Nat) : (type : FieldType) → type.Value → Prop
  | .text, s => (Utf8.bytes s).length ≤ limit
  | .byte, n => n ≤ 255
  | .natural, n => n ≤ Numeral.max64

/-- All values of a record fit. -/
def Row.Fits (limit : Nat) : (fields : List Field) → Row fields → Prop
  | [], _ => True
  | field :: fields, (value, row) => field.type.Fits limit value ∧ Row.Fits limit fields row

/-- All values that have been read fit. -/
def Draft.Fits (limit : Nat) : (fields : List Field) → Draft fields → Prop
  | [], _ => True
  | field :: fields, (value, draft) =>
    (∀ v ∈ value, field.type.Fits limit v) ∧ Draft.Fits limit fields draft

section Fits

variable {limit : Nat} {bs r : Bytes} {t : Tree} {fields : List Field}

theorem FieldType.fits_of_ofTree {type : FieldType} (begins : Begins (.value t) bs r)
    (short : bs.length ≤ limit) {v : type.Value} (h : type.ofTree t = some v) :
    type.Fits limit v := by
  cases type with
  | text =>
    cases begins with
    | string head quoted =>
      have length := quoted.length_bytes_le h
      have shorter := (Leaves.of_skipBlank head).length_lt
      exact Nat.le_trans length (by omega)
    | _ => simp [ofTree, Tree.text?] at h
  | byte => exact Tree.le_of_natural? h
  | natural => exact Tree.le_of_natural? h

theorem Row.fits_of_ofItems {first : Bool} {ts : List Tree} {row : Row fields}
    (begins : Begins (.items first ts) bs r) (short : bs.length ≤ limit)
    (h : ofItems fields ts = some row) : Row.Fits limit fields row := by
  induction fields generalizing first ts bs with
  | nil => trivial
  | cons field fields ih =>
    cases begins with
    | noItem close => simp [ofItems] at h
    | @item _ _ m _ _ _ _ separated value rest =>
      obtain ⟨v, read, h⟩ := Option.bind_eq_some_iff.mp h
      obtain ⟨row', others, rfl⟩ := Option.map_eq_some_iff.mp h
      have shorter := separated.length_le
      have left := value.leaves.length_lt
      exact ⟨FieldType.fits_of_ofTree value (by omega) read, ih rest (by omega) others⟩

theorem Draft.fits_empty : Draft.Fits limit fields (empty fields) := by
  induction fields with
  | nil => trivial
  | cons field fields ih => exact ⟨by simp, ih⟩

theorem Draft.fits_of_ofMember {name : String} {draft draft' : Draft fields}
    (begins : Begins (.value t) bs r) (short : bs.length ≤ limit) (fits : Fits limit fields draft)
    (h : ofMember name t fields draft = some draft') : Fits limit fields draft' := by
  induction fields with
  | nil => trivial
  | cons field fields ih =>
    obtain ⟨value, draft⟩ := draft
    simp only [ofMember] at h
    split at h
    · split at h
      · simp at h
      · obtain ⟨v, read, rfl⟩ := Option.map_eq_some_iff.mp h
        refine ⟨fun v' mem => ?_, fits.2⟩
        obtain rfl := Option.some.inj mem
        exact FieldType.fits_of_ofTree begins short read
    · obtain ⟨others, read, rfl⟩ := Option.map_eq_some_iff.mp h
      exact ⟨fits.1, ih fits.2 read⟩

theorem Draft.fits_of_ofMembers {first : Bool} {ms : List (List Piece × Tree)}
    {draft draft' : Draft fields} (begins : Begins (.members first ms) bs r)
    (short : bs.length ≤ limit) (fits : Fits limit fields draft)
    (h : ofMembers fields draft ms = some draft') : Fits limit fields draft' := by
  induction ms generalizing first bs draft with
  | nil =>
    obtain rfl := Option.some.inj h
    exact fits
  | cons m ms ih =>
    cases begins with
    | member separated name quoted colon value rest =>
      obtain ⟨name', -, h⟩ := Option.bind_eq_some_iff.mp h
      obtain ⟨draft₁, read, others⟩ := Option.bind_eq_some_iff.mp h
      have front := separated.length_le
      have quote := (Leaves.of_skipBlank name).length_lt
      have inside := quoted.leaves.length_lt
      have mark := (Leaves.of_skipBlank colon).length_lt
      have left := value.leaves.length_lt
      exact ih rest (by omega) (Draft.fits_of_ofMember value (by omega) fits read) others

theorem Draft.fits_of_finish {draft : Draft fields} {row : Row fields}
    (fits : Fits limit fields draft) (h : draft.finish = .ok row) : Row.Fits limit fields row := by
  induction fields with
  | nil => trivial
  | cons field fields ih =>
    obtain ⟨value, draft⟩ := draft
    cases value with
    | none => simp [finish] at h
    | some v =>
      obtain ⟨others, finished, rfl⟩ := Except.map_eq_ok.mp h
      exact ⟨fits.1 v rfl, ih fits.2 finished⟩

end Fits

/-- The texts of a record are no longer than the body that it is read from. -/
theorem Shape.fits_of_parse {shape : Shape} {body : Bytes} {row : Row shape.fields}
    (h : shape.parse body = .ok row) : Row.Fits body.length shape.fields row := by
  obtain ⟨t, container, whole⟩ := exists_document h
  have held : shape.ofTree t = some row := by
    rw [← toOption_parse whole, h]
    rfl
  obtain ⟨r, begins, -⟩ := whole
  cases begins with
  | array head items =>
    have shorter := (Leaves.of_skipBlank head).length_lt
    exact Row.fits_of_ofItems items (by omega) held
  | object head members =>
    have shorter := (Leaves.of_skipBlank head).length_lt
    obtain ⟨draft, read, finished⟩ := Option.bind_eq_some_iff.mp held
    exact Draft.fits_of_finish
      (Draft.fits_of_ofMembers members (by omega) Draft.fits_empty read)
      (Except.toOption_eq_some.mp finished)
  | _ => simp [ofTree] at held

theorem fits_of_row {shape : Shape} {body : Bytes} {row : Row shape.fields}
    (h : Record.row shape body = .ok row) : Row.Fits body.length shape.fields row :=
  Shape.fits_of_parse (row_eq_ok h)

end Record

/-! ## Demands -/

/-- The texts of the body that a demand is about. -/
def Demand.texts : Demand → List String
  | register r => [r.machine, r.username]
  | lookUp machine => [machine]
  | storeFile f => [f.machine, f.uuid, f.data]
  | fetchFile uuid => [uuid]
  | addTrace t => [t.uuid, t.data]
  | page (.files machine) _ => [machine]
  | page (.traces uuid) _ => [uuid]

/-- The texts of a demand are no longer than the body, and the cursor of a page fits into 64
bits. -/
def Demand.Fits (limit : Nat) (demand : Demand) : Prop :=
  (∀ s ∈ demand.texts, (Utf8.bytes s).length ≤ limit) ∧
    ∀ listing cursor, demand = .page listing cursor → cursor ≤ Numeral.max64

theorem Registration.fits_of_parse {body : Bytes} {r : Registration} (h : parse body = .ok r) :
    (Demand.register r).Fits body.length := by
  obtain ⟨⟨machine, username, flag, _⟩, read, h⟩ := Except.bind_eq_ok.mp h
  obtain ⟨_, -, h⟩ := Except.bind_eq_ok.mp h
  obtain ⟨_, -, h⟩ := Except.bind_eq_ok.mp h
  obtain ⟨machine_fits, username_fits, -⟩ := Record.fits_of_row read
  have names : r.machine = machine ∧ r.username = username := by
    split at h
    · rw [← Except.ok.inj h]
      exact ⟨rfl, rfl⟩
    · rw [← Except.ok.inj h]
      exact ⟨rfl, rfl⟩
    · simp [throw, throwThe, MonadExceptOf.throw] at h
  simp only [Demand.Fits, Demand.texts, names.1, names.2]
  exact ⟨by simpa using ⟨machine_fits, username_fits⟩, by simp⟩

theorem FileRecord.fits_of_parse {body : Bytes} {f : FileRecord} (h : parse body = .ok f) :
    (Demand.storeFile f).Fits body.length := by
  obtain ⟨⟨machine, uuid, _⟩, read, h⟩ := Except.bind_eq_ok.mp h
  obtain ⟨_, -, h⟩ := Except.bind_eq_ok.mp h
  obtain ⟨_, -, h⟩ := Except.bind_eq_ok.mp h
  obtain ⟨data, stored, h⟩ := Except.bind_eq_ok.mp h
  obtain rfl := Except.ok.inj h
  obtain ⟨machine_fits, uuid_fits, -⟩ := Record.fits_of_row read
  exact ⟨by simpa [Demand.texts] using ⟨machine_fits, uuid_fits, Record.length_data_le stored⟩,
    by simp⟩

theorem TraceRecord.fits_of_parse {stamp : Int} {body : Bytes} {t : TraceRecord}
    (h : parse stamp body = .ok t) : (Demand.addTrace t).Fits body.length := by
  obtain ⟨⟨uuid, _⟩, read, h⟩ := Except.bind_eq_ok.mp h
  obtain ⟨_, -, h⟩ := Except.bind_eq_ok.mp h
  obtain ⟨data, stored, h⟩ := Except.bind_eq_ok.mp h
  obtain rfl := Except.ok.inj h
  obtain ⟨uuid_fits, -⟩ := Record.fits_of_row read
  exact ⟨by simpa [Demand.texts] using ⟨uuid_fits, Record.length_data_le stored⟩, by simp⟩

/-- What a body asks for is no longer than the body. -/
theorem Endpoint.fits_of_demand {endpoint : Endpoint} {stamp : Int} {body : Bytes}
    {demand : Demand} (h : endpoint.demand stamp body = .ok demand) : demand.Fits body.length := by
  cases endpoint with
  | registerUser =>
    obtain ⟨r, parsed, rfl⟩ := Except.map_eq_ok.mp h
    exact r.fits_of_parse parsed
  | setFile =>
    obtain ⟨f, parsed, rfl⟩ := Except.map_eq_ok.mp h
    exact f.fits_of_parse parsed
  | addTrace =>
    obtain ⟨t, parsed, rfl⟩ := Except.map_eq_ok.mp h
    exact t.fits_of_parse parsed
  | getUser | getFile =>
    obtain ⟨q, parsed, rfl⟩ := Except.map_eq_ok.mp h
    obtain ⟨⟨name, _⟩, read, parsed⟩ := Except.bind_eq_ok.mp parsed
    obtain ⟨_, -, parsed⟩ := Except.bind_eq_ok.mp parsed
    obtain rfl := Except.ok.inj parsed
    exact ⟨List.forall_mem_singleton.mpr (Record.fits_of_row read).1, by simp⟩
  | listFiles | listTraces =>
    obtain ⟨q, parsed, rfl⟩ := Except.map_eq_ok.mp h
    obtain ⟨⟨name, cursor, _⟩, read, parsed⟩ := Except.bind_eq_ok.mp parsed
    obtain ⟨_, -, parsed⟩ := Except.bind_eq_ok.mp parsed
    obtain rfl := Except.ok.inj parsed
    obtain ⟨name_fits, cursor_fits, -⟩ := Record.fits_of_row read
    refine ⟨List.forall_mem_singleton.mpr name_fits, fun listing other asked => ?_⟩
    obtain ⟨-, rfl⟩ := Demand.page.inj asked
    exact cursor_fits

/-- What an accepted request asks for is no longer than a body may be. -/
theorem Request.fits_of_demand? {request : Request} {demand : Demand}
    (h : request.demand? = some demand) : demand.Fits Gateway.maxBody := by
  obtain ⟨-, short, -, endpoint, -, held⟩ := demand?_eq_some_iff.mp h
  obtain ⟨texts, cursors⟩ := Endpoint.fits_of_demand (Except.toOption_eq_some.mp held)
  exact ⟨fun s mem => Nat.le_trans (texts s mem) short, cursors⟩

end HashGateway
