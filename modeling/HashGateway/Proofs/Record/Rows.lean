import HashGateway.Proofs.Json.Passing
import HashGateway.Proofs.Record.Documents

/-!
# The records that trees hold

Which record a document holds is a question of its tree alone: an object holds one if each
field stands in it once and has a value of its type, a list if it has these values in their
order. Blanks around a document are not part of its tree, so what is stored of the body of
a record holds the same record.

## Main definitions

* `Record.FieldType.ofTree` — the value of a type that a tree is
* `Record.Shape.ofTree` — the record that a tree holds

## Main results

* `Record.Shape.toOption_parse` — a document is read as the record of its tree
* `FileRecord.parse_data`, `TraceRecord.parse_data` — what is stored of a record is read as
  this record
-/

namespace HashGateway

open Json

/-- A number that is an integer from zero up to a bound. -/
def Json.Number.natural? (bound : Nat) : Number → Option Nat
  | .int i => if 0 ≤ i ∧ i ≤ bound then some i.toNat else none
  | .real _ => none

namespace Json.Tree

/-- The text that a tree is. -/
def text? : Tree → Option String
  | string ps => Json.text? ps
  | _ => none

/-- The integer from zero up to a bound that a tree is. -/
def natural? (bound : Nat) : Tree → Option Nat
  | number negative figures => (figures.number? negative).bind (Number.natural? bound)
  | _ => none

end Json.Tree

namespace Record

/-- The value of a type that a tree is. -/
def FieldType.ofTree : (type : FieldType) → Tree → Option type.Value
  | .text, t => t.text?
  | .byte, t => t.natural? 255
  | .natural, t => t.natural? Numeral.max64

namespace Draft

/-- The values that have been read, after one more member of an object. -/
def ofMember (name : String) (t : Tree) :
    (fields : List Field) → Draft fields → Option (Draft fields)
  | [], draft => some draft
  | field :: fields, (value, draft) =>
    if name = field.name then
      match value with
      | some _ => none
      | none => (field.type.ofTree t).map fun value => (some value, draft)
    else (ofMember name t fields draft).map fun draft => (value, draft)

/-- The values that have been read, after all members of an object. -/
def ofMembers (fields : List Field) :
    Draft fields → List (List Piece × Tree) → Option (Draft fields)
  | draft, [] => some draft
  | draft, (ps, t) :: ms =>
    (text? ps).bind fun name => (ofMember name t fields draft).bind fun draft =>
      ofMembers fields draft ms

end Draft

/-- The value of one more field. -/
def Row.cons {field : Field} {fields : List Field} (value : field.type.Value)
    (row : Row fields) : Row (field :: fields) := (value, row)

/-- The values of all fields that the items of a list are. -/
def Row.ofItems : (fields : List Field) → List Tree → Option (Row fields)
  | [], [] => some ()
  | field :: fields, t :: ts =>
    (field.type.ofTree t).bind fun value => (ofItems fields ts).map (cons value)
  | _, _ => none

/-- The record that a tree holds. -/
def Shape.ofTree (shape : Shape) : Tree → Option (Row shape.fields)
  | .object ms =>
    (Draft.ofMembers shape.fields (Draft.empty shape.fields) ms).bind fun draft =>
      (draft.finish).toOption
  | .array ts => Row.ofItems shape.fields ts
  | _ => none

/-! ## Fields -/

namespace FieldType

theorem toOption_mismatch {α : Type} (wanted : String) (bs : Bytes) :
    (mismatch wanted bs : Except Json.Fault α).toOption = none := by
  cases h : (mismatch wanted bs : Except Json.Fault α) with
  | error fault => rfl
  | ok a => exact absurd h (mismatch_ne_ok wanted bs a)

theorem toOption_bounded (bound : Nat) (wanted : String) (n : Number) :
    (bounded bound wanted n).toOption = n.natural? bound := by
  cases n with
  | real x => rfl
  | int i =>
    rw [bounded, Number.natural?]
    split <;> rfl

section Read

variable {bound : Nat} {wanted : String} {b : UInt8} {m r : Bytes} {figures : Figures}

/-- A number is read, and then held to the bound. -/
theorem toOption_bind_bounded {negative : Bool} (read : Figures.read m = .ok (figures, r)) :
    (do let (n, rest) ← readNumber negative m; return (← bounded bound wanted n, rest) :
      Except Json.Fault (Nat × Bytes)).toOption =
      ((figures.number? negative).bind (Number.natural? bound)).map fun n => (n, r) := by
  rw [Except.toOption_bind, toOption_readNumber read]
  cases figures.number? negative with
  | none => rfl
  | some n =>
    simp only [Option.map_some, Option.bind_some, Except.toOption_bind, toOption_bounded]
    cases n.natural? bound <;> rfl

theorem readBounded_minus : readBounded bound wanted (0x2D :: m) =
    (do let (n, rest) ← readNumber true m; return (← bounded bound wanted n, rest)) := rfl

theorem readBounded_digit (other : b ≠ 0x2D) (digit : (digit? b).isSome = true) :
    readBounded bound wanted (b :: m) =
      (do let (n, rest) ← readNumber false (b :: m); return (← bounded bound wanted n, rest)) := by
  rw [readBounded, if_neg other, if_pos digit]

theorem toOption_readBounded_other (other : b ≠ 0x2D) (no_digit : (digit? b).isSome = false) :
    (readBounded bound wanted (b :: m)).toOption = none := by
  rw [readBounded, if_neg other, if_neg (by simp [no_digit]), Except.toOption_bind,
    toOption_mismatch]
  rfl

end Read

variable {t : Tree} {bs r : Bytes}

theorem toOption_readBounded (h : Begins (.value t) bs r) (bound : Nat) (wanted : String) :
    (readBounded bound wanted (skipBlank bs)).toOption =
      (t.natural? bound).map fun n => (n, r) := by
  cases h with
  | minus head read => rw [head, readBounded_minus, toOption_bind_bounded read, Tree.natural?]
  | @number b _ _ _ _ head digit read =>
    have other : b ≠ 0x2D := by
      rintro rfl
      exact absurd digit (by decide)
    rw [head, readBounded_digit other digit, toOption_bind_bounded read, Tree.natural?]
  | null head => rw [head, toOption_readBounded_other (by decide) rfl]; rfl
  | isTrue head => rw [head, toOption_readBounded_other (by decide) rfl]; rfl
  | isFalse head => rw [head, toOption_readBounded_other (by decide) rfl]; rfl
  | string head => rw [head, toOption_readBounded_other (by decide) rfl]; rfl
  | array head => rw [head, toOption_readBounded_other (by decide) rfl]; rfl
  | object head => rw [head, toOption_readBounded_other (by decide) rfl]; rfl

theorem toOption_readText_other {b : UInt8} {m : Bytes} (head : skipBlank bs = b :: m)
    (other : b ≠ 0x22) : (read .text bs).toOption = none := by
  rw [read.eq_def, head]
  simp only [if_neg other]
  exact toOption_mismatch _ _

theorem toOption_readText (h : Begins (.value t) bs r) :
    (read .text bs).toOption = t.text?.map fun s => (s, r) := by
  cases h with
  | string head quoted =>
    rw [read.eq_def, head]
    exact toOption_readString quoted
  | @number b _ _ _ _ head digit read =>
    have other : b ≠ 0x22 := by
      rintro rfl
      exact absurd digit (by decide)
    rw [toOption_readText_other head other]
    rfl
  | null head => rw [toOption_readText_other head (by decide)]; rfl
  | isTrue head => rw [toOption_readText_other head (by decide)]; rfl
  | isFalse head => rw [toOption_readText_other head (by decide)]; rfl
  | minus head => rw [toOption_readText_other head (by decide)]; rfl
  | array head => rw [toOption_readText_other head (by decide)]; rfl
  | object head => rw [toOption_readText_other head (by decide)]; rfl

/-- A field is read as the value of its type that the tree is. -/
theorem toOption_read (h : Begins (.value t) bs r) (type : FieldType) :
    (type.read bs).toOption = (type.ofTree t).map fun v => (v, r) := by
  obtain ⟨b, m, head, -⟩ := h.head
  have number := toOption_readBounded h
  rw [head] at number
  cases type with
  | text => exact toOption_readText h
  | byte =>
    rw [read.eq_def, head]
    exact number 255 _
  | natural =>
    rw [read.eq_def, head]
    exact number Numeral.max64 _

theorem read_skipBlank (type : FieldType) (bs : Bytes) :
    type.read (skipBlank bs) = type.read bs := by
  rw [read.eq_def type (skipBlank bs), read.eq_def type bs]
  simp only [skipBlank_skipBlank]

end FieldType

/-! ## Objects -/

namespace Draft

variable {fields : List Field}

/-- A member is read if it has a field, and passed over if not. -/
theorem toOption_member {name : String} {t : Tree} {c v r : Bytes} (colon : skipBlank c = 0x3A :: v)
    (value : Begins (.value t) v r) (draft : Draft fields) :
    (member name fields draft c).toOption =
      (ofMember name t fields draft).map fun draft => (draft, r) := by
  induction fields with
  | nil =>
    rw [member, colon_eq_ok_iff.mpr colon]
    simp only [bind, Except.bind, value.skipValue_eq]
    rfl
  | cons field fields ih =>
    obtain ⟨old, draft⟩ := draft
    simp only [member, ofMember]
    split
    · cases old with
      | some _ => rfl
      | none =>
        simp only [Except.toOption_bind, colon_eq_ok_iff.mpr colon]
        rw [Except.toOption, Option.bind_some, FieldType.toOption_read value]
        cases field.type.ofTree t <;> rfl
    · rw [Except.toOption_bind, ih]
      cases ofMember name t fields draft <;> rfl

/-- The members of an object are read one after the other. -/
theorem toOption_readMembers {first : Bool} {ms : List (List Piece × Tree)} {bs r : Bytes}
    (h : Begins (.members first ms) bs r) {fuel : Nat} (enough : bs.length < fuel)
    (draft : Draft fields) :
    (readMembers .keep (fun draft bs => do
        let (name, rest) ← readString bs
        member name fields draft rest) fuel first draft bs).toOption =
      (ofMembers fields draft ms).map fun draft => (draft, r) := by
  induction ms generalizing first bs fuel draft with
  | nil =>
    cases h with
    | noMember close =>
      obtain ⟨fuel, rfl⟩ := Nat.exists_eq_add_one_of_ne_zero (Nat.ne_zero_of_lt enough)
      rw [readMembers, nextMember_of_close close]
      rfl
  | cons m ms ih =>
    cases h with
    | @member _ _ _ _ _ _ _ _ ps t _ separated name quoted colon value rest =>
      obtain ⟨fuel, rfl⟩ := Nat.exists_eq_add_one_of_ne_zero (Nat.ne_zero_of_lt enough)
      -- A member leaves fewer bytes, so the fuel lasts for those that follow.
      have read := quoted.leaves.trans ((Leaves.of_skipBlank colon).trans value.leaves)
      have shorter := (separated.leaves_trans ((Leaves.of_skipBlank name).trans read)).length_lt
      rw [readMembers_of_separated separated name, Except.toOption_bind, Except.toOption_bind,
        toOption_readString quoted, ofMembers]
      cases text? ps with
      | none => rfl
      | some name =>
        simp only [Option.map_some, Option.bind_some, toOption_member colon value]
        cases ofMember name t fields draft with
        | none => rfl
        | some draft => exact ih rest (by omega) draft

end Draft

/-! ## Records -/

namespace Shape

variable {shape : Shape} {bs r : Bytes}

theorem toOption_readObject {ms : List (List Piece × Tree)}
    (h : Begins (.members true ms) bs r) : (shape.readObject bs).toOption =
      (shape.ofTree (.object ms)).map fun row => (row, r) := by
  rw [readObject, ofTree, Except.toOption_bind]
  have read := Draft.toOption_readMembers h (Nat.lt_succ_self _) (Draft.empty shape.fields)
  rw [read]
  cases Draft.ofMembers shape.fields (Draft.empty shape.fields) ms with
  | none => rfl
  | some draft =>
    simp only [Option.map_some, Option.bind_some, Except.toOption_bind]
    cases draft.finish.toOption <;> rfl

theorem endOfList_of_close (close : skipBlank bs = 0x5D :: r) : endOfList bs = .ok r := by
  simp only [endOfList, close, if_true]

/-- A list does not end before another item. -/
theorem toOption_endOfList_of_separated {first : Bool} {m : Bytes} {t : Tree}
    (separated : Separated first bs m) (value : Begins (.value t) m r) :
    (endOfList bs).toOption = none := by
  have head : ∃ b q, skipBlank bs = b :: q ∧ b ≠ 0x5D := by
    cases first with
    | true =>
      obtain rfl : bs = m := separated
      exact value.head
    | false => exact ⟨0x2C, m, separated, by decide⟩
  obtain ⟨b, q, head, other⟩ := head
  simp only [endOfList, head, if_neg other]
  split
  · split <;> rfl
  · rfl

/-- The first of some fields is read from the first item of a list. -/
theorem toOption_readFields_cons {done : Nat} {m m' : Bytes} {t : Tree}
    (separated : Separated (done == 0) bs m) (value : Begins (.value t) m m') (field : Field)
    (fields : List Field) :
    (shape.readFields (field :: fields) done bs).toOption =
      (field.type.ofTree t).bind fun value =>
        (shape.readFields fields (done + 1) m').toOption.map fun read =>
          (Row.cons value read.1, read.2) := by
  obtain ⟨b, q, head, other⟩ := value.head
  -- The reader of the field and the tree of the item agree on the value and on what is left.
  have read := FieldType.toOption_read value field.type
  rw [readFields, nextItem_of_separated separated head other]
  simp only [bind, Except.bind, FieldType.read_skipBlank]
  cases item : field.type.read m with
  | error fault =>
    rw [item] at read
    obtain refused := Option.map_eq_none_iff.mp read.symm
    rw [refused]
    rfl
  | ok a =>
    rw [item] at read
    obtain ⟨value, found, result⟩ := Option.map_eq_some_iff.mp read.symm
    obtain rfl := result
    rw [found, Option.bind_some]
    dsimp only
    cases shape.readFields fields (done + 1) m' <;> rfl

/-- Fields are read from the items of a list, and nothing may follow them. -/
theorem toOption_readFields {fields : List Field} {done : Nat} {ts : List Tree}
    (h : Begins (.items (done == 0) ts) bs r) :
    ((shape.readFields fields done bs).toOption.bind fun read =>
      (endOfList read.2).toOption.map fun rest => (read.1, rest)) =
      (Row.ofItems fields ts).map fun row => (row, r) := by
  induction fields generalizing done ts bs with
  | nil =>
    change (endOfList bs).toOption.map _ = _
    cases h with
    | noItem close =>
      rw [endOfList_of_close close]
      rfl
    | item separated value rest =>
      rw [toOption_endOfList_of_separated separated value]
      rfl
  | cons field fields ih =>
    cases h with
    | noItem close =>
      rw [readFields, nextItem_of_close close]
      rfl
    | @item _ _ m m' _ t ts separated value rest =>
      have rest : Begins (.items (done + 1 == 0) ts) m' r := rest
      have later := ih rest
      rw [toOption_readFields_cons separated value, Row.ofItems]
      cases field.type.ofTree t with
      | none => rfl
      | some a =>
        have moved := congrArg (Option.map (Prod.map (Row.cons a) id)) later
        rw [Option.map_bind] at moved
        simpa [Option.bind_map, Option.map_map, Function.comp_def] using moved

theorem toOption_readList {ts : List Tree} (h : Begins (.items true ts) bs r) :
    (shape.readList bs).toOption = (shape.ofTree (.array ts)).map fun row => (row, r) := by
  have read := @toOption_readFields shape bs r shape.fields 0 ts h
  rw [readList, ofTree, Except.toOption_bind, ← read]
  cases shape.readFields shape.fields 0 bs with
  | error fault => rfl
  | ok read =>
    simp only [Except.toOption, Option.bind_some, bind, Except.bind]
    cases endOfList read.2 <;> rfl

theorem toOption_read_other {b : UInt8} {m : Bytes} (head : skipBlank bs = b :: m)
    (other : b ≠ 0x7B ∧ b ≠ 0x5B) : (shape.read bs).toOption = none := by
  rw [read, head]
  simp only [if_neg other.1, if_neg other.2]
  exact FieldType.toOption_mismatch _ _

/-- A record is read from a value as the one that its tree holds. -/
theorem toOption_read {t : Tree} (h : Begins (.value t) bs r) :
    (shape.read bs).toOption = (shape.ofTree t).map fun row => (row, r) := by
  cases h with
  | object head members =>
    rw [read, head]
    exact toOption_readObject members
  | array head items =>
    rw [read, head]
    exact toOption_readList items
  | @number b _ _ _ _ head digit read =>
    have other : b ≠ 0x7B ∧ b ≠ 0x5B := by
      constructor <;> (rintro rfl; exact absurd digit (by decide))
    rw [toOption_read_other head other]
    rfl
  | null head => rw [toOption_read_other head (by decide)]; rfl
  | isTrue head => rw [toOption_read_other head (by decide)]; rfl
  | isFalse head => rw [toOption_read_other head (by decide)]; rfl
  | minus head => rw [toOption_read_other head (by decide)]; rfl
  | string head => rw [toOption_read_other head (by decide)]; rfl

/-- A document is read as the record that its tree holds. -/
theorem toOption_parse {t : Tree} (h : Document t bs) :
    (shape.parse bs).toOption = shape.ofTree t := by
  obtain ⟨r, begins, blank⟩ := h
  rw [parse, Except.toOption_bind, toOption_read begins]
  cases shape.ofTree t with
  | none => rfl
  | some row =>
    simp only [Option.map_some, Option.bind_some, endOfDocument, blank]
    rfl

end Shape

/-! ## What is stored of a record -/

theorem row_of_parse {shape : Shape} {body : Bytes} {row : Row shape.fields}
    (h : shape.parse body = .ok row) : Record.row shape body = .ok row := by
  simp only [Record.row, h]

theorem document_of_text (text : List Char) :
    document (Utf8.encode text) = .ok (String.ofList (Text.trim text)) := by
  simp only [document, Utf8.decode_encode]

/-- Nothing more is removed from the ends of what is stored. -/
theorem document_data {body : Bytes} {data : String} (h : document body = .ok data) :
    document (Utf8.bytes data) = .ok data := by
  obtain ⟨cs, -, rfl⟩ := document_eq_ok h
  rw [Utf8.bytes, String.toList_ofList, document_of_text, Text.trim_trim]

/-- What is stored of a body is no longer than the body. -/
theorem length_data_le {body : Bytes} {data : String} (h : document body = .ok data) :
    (Utf8.bytes data).length ≤ body.length := by
  obtain ⟨cs, rfl, rfl⟩ := document_eq_ok h
  obtain ⟨before, after, cut, -⟩ := Text.exists_blanks_append_trim cs
  have length := congrArg (fun cs => (Utf8.encode cs).length) cut
  simp only [Utf8.encode_append, List.length_append] at length
  rw [Utf8.bytes, String.toList_ofList]
  omega

/-- What is stored of the body of a record has the fields of the body. -/
theorem row_data {shape : Shape} {body : Bytes} {row : Row shape.fields} {data : String}
    (parsed : Record.row shape body = .ok row) (stored : document body = .ok data) :
    Record.row shape (Utf8.bytes data) = .ok row := by
  have parsed := row_eq_ok parsed
  obtain ⟨t, container, whole⟩ := Shape.exists_document parsed
  have read : (shape.parse body).toOption = shape.ofTree t := Shape.toOption_parse whole
  have read' : (shape.parse (Utf8.bytes data)).toOption = shape.ofTree t :=
    Shape.toOption_parse (document_of_document container whole stored)
  exact row_of_parse (Except.toOption_eq_some.mp
    (read'.trans (read.symm.trans (Except.toOption_eq_some.mpr parsed))))

end Record

theorem FileRecord.document_of_parse {body : Bytes} {f : FileRecord} (h : parse body = .ok f) :
    Record.document body = .ok f.data := by
  obtain ⟨row, -, h⟩ := Except.bind_eq_ok.mp h
  obtain ⟨-, -, h⟩ := Except.bind_eq_ok.mp h
  obtain ⟨-, -, h⟩ := Except.bind_eq_ok.mp h
  obtain ⟨data, stored, h⟩ := Except.bind_eq_ok.mp h
  rw [stored, ← Except.ok.inj h]

/-- What is stored of a file is read as this file. -/
theorem FileRecord.parse_data {body : Bytes} {f : FileRecord} (h : parse body = .ok f) :
    parse (Utf8.bytes f.data) = .ok f := by
  obtain ⟨row, parsed, h⟩ := Except.bind_eq_ok.mp h
  obtain ⟨⟨⟩, machine, h⟩ := Except.bind_eq_ok.mp h
  obtain ⟨⟨⟩, uuid, h⟩ := Except.bind_eq_ok.mp h
  obtain ⟨data, stored, h⟩ := Except.bind_eq_ok.mp h
  obtain rfl := Except.ok.inj h
  exact Except.bind_eq_ok.mpr ⟨row, Record.row_data parsed stored,
    Except.bind_eq_ok.mpr ⟨(), machine, Except.bind_eq_ok.mpr ⟨(), uuid,
      Except.bind_eq_ok.mpr ⟨data, Record.document_data stored, rfl⟩⟩⟩⟩

/-- What is stored of a trace is read as this trace, if it is read at the same time. -/
theorem TraceRecord.parse_data {stamp : Int} {body : Bytes} {e : TraceRecord}
    (h : parse stamp body = .ok e) : parse stamp (Utf8.bytes e.data) = .ok e := by
  obtain ⟨row, parsed, h⟩ := Except.bind_eq_ok.mp h
  obtain ⟨⟨⟩, uuid, h⟩ := Except.bind_eq_ok.mp h
  obtain ⟨data, stored, h⟩ := Except.bind_eq_ok.mp h
  obtain rfl := Except.ok.inj h
  exact Except.bind_eq_ok.mpr ⟨row, Record.row_data parsed stored,
    Except.bind_eq_ok.mpr ⟨(), uuid,
      Except.bind_eq_ok.mpr ⟨data, Record.document_data stored, rfl⟩⟩⟩

end HashGateway
