import HashGateway.Proofs.Json.Numerals
import HashGateway.Proofs.Record.Texts

/-!
# Records and the members of an object

An object holds a record if each field is the name of one member, and this member is a value of the
type of the field. Members may stand in any order, names and texts may be written with escapes, and
members that have the name of no field may be anything. A list of the same values, in the order of
the fields, holds the same record.

## Main definitions

* `Record.valuesAt` — the values of the members with a name
* `Json.Tree.IsNatural` — a tree is digits only
* `Record.FieldType.Denotes` — a tree is a value of a type
* `Record.Row.HeldBy` — each field is the name of one member, and this is its value

## Main results

* `Record.FieldType.ofTree_eq_some_iff` — the values of a type that trees are
* `Record.ofMembers_eq_some_iff`, `Record.ofItems_eq_some_iff` — the record that an object holds,
  and the one that a list of its values holds
* `Record.Shape.parse_object_eq_ok_iff`, `Record.Shape.parse_list_eq_ok_iff` — a record is read from
  both exactly if the members hold it
-/

namespace HashGateway

open Json

/-- A tree is digits without a sign, a fraction or an exponent, and they write a number. -/
def Json.Tree.IsNatural (t : Tree) (n : Nat) : Prop :=
  ∃ whole, t = .number false ⟨whole, [], none⟩ ∧ Numeral.ofDigits whole = n

namespace Record

/-- The values of the members with a name, in their order. -/
def valuesAt (name : String) (ms : List (List Piece × Tree)) : List Tree :=
  ms.filterMap fun m => if Json.text? m.1 = some name then some m.2 else none

/-- A tree is a value of a type. -/
def FieldType.Denotes : (type : FieldType) → Tree → type.Value → Prop
  | .text, t, s => ∃ ps, t = .string ps ∧ Json.text? ps = some s
  | .byte, t, n => t.IsNatural n ∧ n ≤ 255
  | .natural, t, n => t.IsNatural n ∧ n ≤ Numeral.max64

/-- Each field is the name of one member, and this is the value of the field. -/
def Row.HeldBy (ms : List (List Piece × Tree)) {fields : List Field} (row : Row fields) : Prop :=
  match fields, row with
  | [], _ => True
  | field :: _, (value, row) =>
    (∃ t, valuesAt field.name ms = [t] ∧ field.type.Denotes t value) ∧ HeldBy ms row

/-! ## Values of a type -/

/-- The natural numbers that trees are: digits only, and not above the bound. -/
theorem natural?_eq_some_iff {t : Tree} {bound n : Nat} (small : bound ≤ Numeral.max64) :
    t.natural? bound = some n ↔ t.IsNatural n ∧ n ≤ bound := by
  constructor
  · intro h
    cases t with
    | number negative x =>
      obtain ⟨number, value, inside⟩ := Option.bind_eq_some_iff.mp h
      cases number with
      | real m => simp [Number.natural?] at inside
      | int i =>
        rw [Number.natural?] at inside
        split at inside
        · next range =>
          obtain rfl := Option.some.inj inside
          obtain ⟨whole, fraction, exponent⟩ := x
          -- An integer is written with digits only, and below zero if it has a sign.
          obtain ⟨rfl, rfl, sign⟩ := of_number?_eq_int value
          cases negative with
          | true => exact absurd sign (by simpa using range.1)
          | false =>
            obtain rfl : i = Numeral.ofDigits whole := by simpa using sign
            exact ⟨⟨whole, rfl, rfl⟩, by simpa using range.2⟩
        · simp at inside
    | _ => simp [Tree.natural?] at h
  · rintro ⟨⟨whole, rfl, rfl⟩, fits⟩
    rw [Tree.natural?, number?_whole (Nat.le_trans fits small), Option.bind_some, Number.natural?,
      if_pos (by omega)]
    rfl

theorem FieldType.ofTree_eq_some_iff {type : FieldType} {t : Tree} {v : type.Value} :
    type.ofTree t = some v ↔ type.Denotes t v := by
  cases type with
  | text =>
    rw [ofTree, Denotes]
    cases t <;> simp [Tree.text?]
  | byte => exact natural?_eq_some_iff (by decide)
  | natural => exact natural?_eq_some_iff (Nat.le_refl _)

/-! ## Objects -/

/-- The value of a field after those of some more members: there may be one only. -/
def once (type : FieldType) : Option type.Value → List Tree → Option (Option type.Value)
  | old, [] => some old
  | some _, _ :: _ => none
  | none, t :: ts => (type.ofTree t).bind fun value => once type (some value) ts

theorem once_eq_some_iff {type : FieldType} {ts : List Tree} {value : type.Value} :
    once type none ts = some (some value) ↔ ∃ t, ts = [t] ∧ type.Denotes t value := by
  rcases ts with _ | ⟨t, _ | ⟨t', ts⟩⟩
  · simp [once]
  · simp [once, ← FieldType.ofTree_eq_some_iff, Option.bind_eq_some_iff]
  · simp [once]

section Members

variable {field : Field} {fields : List Field} {ps : List Piece} {t : Tree} {name : String}
  {ms : List (List Piece × Tree)}

theorem valuesAt_cons (named : Json.text? ps = some name) :
    valuesAt field.name ((ps, t) :: ms) =
      if name = field.name then t :: valuesAt field.name ms else valuesAt field.name ms := by
  rw [valuesAt, List.filterMap_cons]
  simp only [named, Option.some.injEq]
  split <;> simp_all [valuesAt]

theorem Draft.ofMembers_nil (named : ∀ m ∈ ms, (Json.text? m.1).isSome = true)
    (draft : Draft []) : ofMembers [] draft ms = some draft := by
  induction ms with
  | nil => rfl
  | cons m ms ih =>
    obtain ⟨first, named⟩ := List.forall_mem_cons.mp named
    obtain ⟨name, first⟩ := Option.isSome_iff_exists.mp first
    rw [ofMembers_named first, ofMember, Option.bind_some, ih named]

/-- A field is read from the members of its own name, and the other fields from the others. -/
theorem Draft.ofMembers_field (own : ∀ other ∈ fields, other.name ≠ field.name)
    (named : ∀ m ∈ ms, (Json.text? m.1).isSome = true) (old : Option field.type.Value)
    (draft : Draft fields) :
    ofMembers (field :: fields) (cons old draft) ms =
      (once field.type old (valuesAt field.name ms)).bind fun value =>
        (ofMembers fields draft ms).map (cons value) := by
  induction ms generalizing old draft with
  | nil => rfl
  | cons m ms ih =>
    obtain ⟨ps, t⟩ := m
    obtain ⟨first, named⟩ := List.forall_mem_cons.mp named
    obtain ⟨name, first⟩ := Option.isSome_iff_exists.mp first
    rw [ofMembers_named first, ofMembers_named first, valuesAt_cons first]
    by_cases own_name : name = field.name
    · -- The member is passed over by the other fields.
      have other : ofMember name t fields draft = some draft :=
        ofMember_of_forall_ne (fun other mem => own_name ▸ own other mem) draft
      rw [other, if_pos own_name, own_name]
      cases old with
      | some value =>
        -- The field has been read before.
        rw [ofMember_own_some]
        rfl
      | none =>
        rw [ofMember_own_none, once]
        cases field.type.ofTree t with
        | none => rfl
        | some value => exact ih named (some value) draft
    · rw [ofMember_of_ne own_name, if_neg own_name]
      cases ofMember name t fields draft with
      | none => cases once field.type old (valuesAt field.name ms) <;> rfl
      | some draft => exact ih named old draft

theorem Draft.toOption_finish_cons (value : Option field.type.Value) (draft : Draft fields) :
    (finish (field :: fields) (cons value draft)).toOption =
      value.bind fun value => draft.finish.toOption.map (Row.cons value) := by
  cases value with
  | none => rfl
  | some value => exact Except.toOption_map _ _

theorem Row.cons_inj {value value' : field.type.Value} {row row' : Row fields} :
    cons value row = cons value' row' ↔ value = value' ∧ row = row' := Prod.mk_inj

theorem Row.heldBy_cons_iff {value : field.type.Value} {row : Row fields} :
    HeldBy ms (cons value row) ↔
      (∃ t, valuesAt field.name ms = [t] ∧ field.type.Denotes t value) ∧ HeldBy ms row :=
  Iff.rfl

/-- The record that the members of an object hold. -/
theorem ofMembers_eq_some_iff (distinct : (fields.map Field.name).Nodup)
    (named : ∀ m ∈ ms, (Json.text? m.1).isSome = true) {row : Row fields} :
    ((Draft.ofMembers fields (Draft.empty fields) ms).bind fun draft => draft.finish.toOption) =
      some row ↔ row.HeldBy ms := by
  induction fields with
  | nil =>
    rw [Draft.ofMembers_nil named]
    exact iff_of_true rfl trivial
  | cons field fields ih =>
    obtain ⟨value, row, rfl⟩ : ∃ value rest, row = Row.cons value rest := ⟨_, _, rfl⟩
    rw [List.map_cons, List.nodup_cons] at distinct
    have own : ∀ other ∈ fields, other.name ≠ field.name := fun other mem equal =>
      distinct.1 (equal ▸ List.mem_map_of_mem mem)
    have empty : Draft.empty (field :: fields) = Draft.cons none (Draft.empty fields) := rfl
    -- The first field takes its own members only, so it can be split off from the draft.
    rw [empty, Draft.ofMembers_field own named, Row.heldBy_cons_iff, ← ih distinct.2,
      ← once_eq_some_iff]
    cases once field.type none (valuesAt field.name ms) with
    | none => simp
    | some found =>
      cases Draft.ofMembers fields (Draft.empty fields) ms with
      | none => simp
      | some draft =>
        simp only [Option.bind_some, Option.map_some, Draft.toOption_finish_cons]
        cases found with
        | none => simp
        | some found => simp [Option.map_eq_some_iff, Row.cons_inj, and_comm]

/-- A list of the values of the fields, in their order, holds what the members hold. -/
theorem ofItems_eq_some_iff {ts : List Tree}
    (values : List.Forall₂ (fun field t => valuesAt field.name ms = [t]) fields ts)
    {row : Row fields} : Row.ofItems fields ts = some row ↔ row.HeldBy ms := by
  induction values with
  | nil => exact iff_of_true rfl trivial
  | @cons field t fields ts only _ ih =>
    obtain ⟨value, row, rfl⟩ : ∃ value rest, row = Row.cons value rest := ⟨_, _, rfl⟩
    rw [Row.ofItems, Row.heldBy_cons_iff, ← ih, only]
    simp [Option.bind_eq_some_iff, Option.map_eq_some_iff, FieldType.ofTree_eq_some_iff,
      Row.cons_inj]

end Members

/-! ## Bodies -/

theorem mem_membersStrings {m : List Piece × Tree} {ms : List (List Piece × Tree)} (h : m ∈ ms) :
    m.1 ∈ membersStrings ms := by
  induction h with
  | head ms => exact .head _
  | tail other _ ih => exact .tail _ (List.mem_append_right _ ih)

namespace Shape

variable {shape : Shape} {ms : List (List Piece × Tree)} {body : Bytes}

/-- A record is read from an object exactly if the members hold it. Names may have any escapes, but
no half of a character alone. -/
theorem parse_object_eq_ok_iff (distinct : (shape.fields.map Field.name).Nodup)
    (names : ∀ m ∈ ms, (denote m.1).isSome = true) (text : Utf8.IsText body)
    (whole : Document (.object ms) body) {row : Row shape.fields} :
    shape.parse body = .ok row ↔ row.HeldBy ms := by
  have named : ∀ m ∈ ms, (Json.text? m.1).isSome = true := fun m mem => by
    obtain ⟨r, begins, -⟩ := whole
    obtain ⟨bytes, denoted⟩ := Option.isSome_iff_exists.mp (names m mem)
    have name := (begins.isText text).2 m.1 (mem_membersStrings mem) bytes denoted
    rw [Json.text?, denoted, Option.bind_some]
    exact Utf8.isText_iff_decode?.mp name
  rw [← Except.toOption_eq_some, toOption_parse whole]
  exact ofMembers_eq_some_iff distinct named

/-- A record is read from the list of the values of its fields exactly if the members hold it. -/
theorem parse_list_eq_ok_iff {ts : List Tree} (whole : Document (.array ts) body)
    (values : List.Forall₂ (fun field t => valuesAt field.name ms = [t]) shape.fields ts)
    {row : Row shape.fields} : shape.parse body = .ok row ↔ row.HeldBy ms := by
  rw [← Except.toOption_eq_some, toOption_parse whole]
  exact ofItems_eq_some_iff values

end Shape

end Record

end HashGateway
