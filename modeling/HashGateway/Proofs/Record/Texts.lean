import HashGateway.Outcome
import HashGateway.Proofs.Json.Rendering
import HashGateway.Proofs.Record.Rows

/-!
# Records in the texts of objects

The text of an object holds a record if its members have the fields of the record, in any order;
members that have the name of no field are passed over. An envelope is an object of a flag and a
message. A record that has a field but neither of these is not read from it, so a text that holds
such a record is no envelope.

## Main definitions

* `IsPayload` — a text that is no envelope
* `Record.Shape.IsApart` — a record with none of the fields of an envelope

## Main results

* `Record.Shape.parse_text` — a record is read from the text of an object
* `Envelope.text_injective` — the text of an envelope tells its flag and its message
* `isPayload_of_parse` — a text that holds a record is no envelope
-/

namespace HashGateway

open Json (Tree Value)
open Record (Draft Field FieldType Row Shape)

namespace Record

section Draft

variable {field : Field} {fields : List Field} {draft draft' draft'' : Draft fields}
  {name : String} {t : Tree}

theorem FieldType.ofTree_number {x : Json.Figures} {n : Nat}
    (value : x.number? false = some (.int n)) (fits : n ≤ Numeral.max64) :
    ofTree .natural (.number false x) = some n := by
  have inside : (0 : Int) ≤ n ∧ (n : Int) ≤ Numeral.max64 := by omega
  rw [ofTree, Tree.natural?, value, Option.bind_some, Json.Number.natural?, if_pos inside]
  rfl

/-- A member with a text is written for every name and every text. -/
theorem exists_member (name s : String) : ∃ m : List Json.Piece × Tree,
    Json.WritesMember m (name, .string s) ∧ FieldType.ofTree .text m.2 = some s := by
  obtain ⟨ps, named⟩ := Json.exists_spells name
  obtain ⟨qs, text⟩ := Json.exists_spells s
  exact ⟨(ps, .string qs), ⟨named, .string text⟩, text.text⟩

/-- What has been read of one more field. -/
def Draft.cons (value : Option field.type.Value) (draft : Draft fields) :
    Draft (field :: fields) := (value, draft)

theorem Draft.ofMember_own_some (value : field.type.Value) (draft : Draft fields) :
    ofMember field.name t (field :: fields) (cons (some value) draft) = none := by
  simp [ofMember, cons]

theorem Draft.ofMember_own_none (draft : Draft fields) :
    ofMember field.name t (field :: fields) (cons none draft) =
      (field.type.ofTree t).map fun value => cons (some value) draft := by
  simp [ofMember, cons]

theorem Draft.ofMember_of_ne (other : name ≠ field.name) (old : Option field.type.Value)
    (draft : Draft fields) : ofMember name t (field :: fields) (cons old draft) =
      (ofMember name t fields draft).map (cons old) := by
  simp only [ofMember, cons, if_neg other]
  rfl

/-- A member is the value of the field with its name. -/
theorem Draft.ofMember_own {type : FieldType} {value : type.Value} (name : String)
    (read : type.ofTree t = some value) (draft : Draft fields) :
    ofMember name t (⟨name, type⟩ :: fields) (none, draft) = some (some value, draft) :=
  (@ofMember_own_none ⟨name, type⟩ _ t draft).trans (congrArg (Option.map _) read)

theorem Draft.ofMember_other (other : name ≠ field.name)
    (read : ofMember name t fields draft = some draft') (old : Option field.type.Value) :
    ofMember name t (field :: fields) (old, draft) = some (old, draft') :=
  (ofMember_of_ne other old draft).trans (congrArg (Option.map _) read)

theorem Draft.ofMembers_named {ps : List Json.Piece} {ms : List (List Json.Piece × Tree)}
    (named : Json.text? ps = some name) (draft : Draft fields) :
    ofMembers fields draft ((ps, t) :: ms) =
      (ofMember name t fields draft).bind fun draft => ofMembers fields draft ms := by
  rw [ofMembers, named, Option.bind_some]

/-- The members of an object are read in the order in which they are written. -/
theorem Draft.ofMembers_cons {m : List Json.Piece × Tree} {ms : List (List Json.Piece × Tree)}
    {p : String × Value} (writes : Json.WritesMember m p)
    (read : ofMember p.1 m.2 fields draft = some draft')
    (rest : ofMembers fields draft' ms = some draft'') :
    ofMembers fields draft (m :: ms) = some draft'' := by
  obtain ⟨ps, t⟩ := m
  rw [ofMembers_named writes.1.text, read, Option.bind_some, rest]

/-- A member that has the name of no field is passed over. -/
theorem Draft.ofMember_of_forall_ne (other : ∀ field ∈ fields, field.name ≠ name)
    (draft : Draft fields) : ofMember name t fields draft = some draft := by
  induction fields with
  | nil => rfl
  | cons field fields ih =>
    obtain ⟨value, draft⟩ := draft
    exact ofMember_other (other field (by simp)).symm
      (ih (fun field mem => other field (by simp [mem])) draft) value

/-- Without any field that has been read there is no record, unless it has no fields. -/
theorem Draft.toOption_finish_empty (some_field : fields ≠ []) :
    (empty fields).finish.toOption = none := by
  obtain ⟨field, fields, rfl⟩ := List.exists_cons_of_ne_nil some_field
  rfl

end Draft

/-- A record is read from the text of an object if its fields are read from the members. -/
theorem Shape.parse_text {shape : Shape} {ms : List (List Json.Piece × Tree)}
    {ps : List (String × Value)} {draft : Draft shape.fields} {row : Row shape.fields}
    (writes : List.Forall₂ Json.WritesMember ms ps)
    (read : Draft.ofMembers shape.fields (Draft.empty shape.fields) ms = some draft)
    (finished : draft.finish = .ok row) :
    shape.parse (Utf8.bytes (Value.object ps).text) = .ok row := by
  refine Except.toOption_eq_some.mp ?_
  rw [toOption_parse (Tree.Writes.object writes).document, ofTree, read, Option.bind_some,
    finished]
  rfl

/-- A record that has a field but neither a flag nor a message. -/
def Shape.IsApart (shape : Shape) : Prop :=
  shape.fields ≠ [] ∧ ∀ field ∈ shape.fields, field.name ≠ "flag" ∧ field.name ≠ "msg"

instance (shape : Shape) : Decidable shape.IsApart := inferInstanceAs (Decidable (_ ∧ _))

/-- No such record is read from an envelope. -/
theorem Shape.IsApart.toOption_parse {shape : Shape} (apart : shape.IsApart) (e : Envelope) :
    (shape.parse (Utf8.bytes e.text)).toOption = none := by
  obtain ⟨some_field, other⟩ := apart
  obtain ⟨m, first, -⟩ := exists_member "flag" e.flag
  obtain ⟨m', second, -⟩ := exists_member "msg" e.msg
  -- Both members are passed over, so no field has a value when the object ends.
  have nothing : Draft.ofMembers shape.fields (Draft.empty shape.fields) [m, m'] =
      some (Draft.empty shape.fields) :=
    Draft.ofMembers_cons first
      (Draft.ofMember_of_forall_ne (fun field mem => (other field mem).1) _)
      (Draft.ofMembers_cons second
        (Draft.ofMember_of_forall_ne (fun field mem => (other field mem).2) _) rfl)
  rw [Envelope.text, Shape.toOption_parse
    (Tree.Writes.object (.cons first (.cons second .nil))).document, ofTree, nothing,
    Option.bind_some, Draft.toOption_finish_empty some_field]

end Record

namespace Envelope

/-- The fields of an envelope. -/
def shape : Shape := ⟨"Envelope", [⟨"flag", .text⟩, ⟨"msg", .text⟩]⟩

theorem parse_text (e : Envelope) : shape.parse (Utf8.bytes e.text) = .ok (e.flag, e.msg, ()) := by
  obtain ⟨m, first, flag⟩ := Record.exists_member "flag" e.flag
  obtain ⟨m', second, msg⟩ := Record.exists_member "msg" e.msg
  exact Shape.parse_text (.cons first (.cons second .nil))
    (Draft.ofMembers_cons first (Draft.ofMember_own "flag" flag _)
      (Draft.ofMembers_cons second (Draft.ofMember_other (by decide : "msg" ≠ "flag")
        (Draft.ofMember_own "msg" msg _) _) rfl)) rfl

/-- The text of an envelope tells its flag and its message. -/
theorem text_injective {e e' : Envelope} (texts : e.text = e'.text) : e = e' := by
  have whole := e.parse_text
  rw [texts, e'.parse_text] at whole
  obtain ⟨flag, rest⟩ := Prod.mk.inj (Except.ok.inj whole)
  obtain ⟨msg, -⟩ := Prod.mk.inj rest
  exact congrArg₂ Envelope.mk flag.symm msg.symm

end Envelope

/-- A text is no envelope, whatever the flag and the message. -/
def IsPayload (text : String) : Prop := ∀ e : Envelope, text ≠ e.text

/-- A text that holds a record is no envelope. -/
theorem isPayload_of_parse {shape : Shape} {text : String} {row : Row shape.fields}
    (apart : shape.IsApart) (read : shape.parse (Utf8.bytes text) = .ok row) :
    IsPayload text := by
  rintro e rfl
  have nothing := apart.toOption_parse e
  rw [read] at nothing
  exact Option.some_ne_none row nothing

end HashGateway
