import HashGateway.Proofs.Record.Members

/-!
# Requests that are read

Each of the seven records is read from a body in the same way: the fields are read first, and then
they are checked. A body that does not hold the fields is a fault of its JSON, and one whose fields
are not admissible is refused, so a fault comes before a refusal whatever stands first in the body.

## Main definitions

* `Record.IsTrimmed` — a text is a body without the blanks at its ends
* `Record.Row.IsAdmissible` — no text is empty, and a byte is zero or one
* `Record.Judges` — what a reader makes of a body
* `Record.Decides` — what it makes of an object, and of the lists of its values

## Main results

* `Record.document_eq_ok_iff` — what is stored of a body is the body without blanks at its ends
* `Record.requests_decided` — all records are read from objects, and from lists of their values
-/

namespace HashGateway.Record

open Json

/-! ## Bodies without blanks at their ends -/

/-- A text is a body without the blanks at its ends. -/
def IsTrimmed (body : Bytes) (data : String) : Prop :=
  ∃ before after : List Char, body = Utf8.encode (before ++ (data.toList ++ after)) ∧
    (∀ c ∈ before, Text.isBlank c = true) ∧ (∀ c ∈ after, Text.isBlank c = true) ∧
    (∀ c ∈ data.toList.head?, Text.isBlank c = false) ∧
    ∀ c ∈ data.toList.getLast?, Text.isBlank c = false

theorem document_eq_ok_iff {body : Bytes} {data : String} :
    document body = .ok data ↔ IsTrimmed body data := by
  constructor
  · intro stored
    obtain ⟨cs, rfl, rfl⟩ := document_eq_ok stored
    obtain ⟨before, after, cut, rest⟩ := Text.exists_blanks_append_trim cs
    exact ⟨before, after, by rw [String.toList_ofList, ← cut], by simpa using rest⟩
  · rintro ⟨before, after, rfl, blank, blank', first, last⟩
    rw [document_of_text, Text.trim_append blank blank' first last, String.ofList_toList]

/-- A body that is a text has one text without the blanks at its ends. -/
theorem exists_document_of_isText {body : Bytes} (text : Utf8.IsText body) :
    ∃ data, document body = .ok data := by
  obtain ⟨cs, rfl⟩ := text
  exact ⟨_, document_of_text cs⟩

/-! ## Checks -/

/-- A value of a field may be used: a text is not empty, and a byte is zero or one. -/
def FieldType.Admits : (type : FieldType) → type.Value → Prop
  | .text, s => s ≠ ""
  | .byte, n => n ≤ 1
  | .natural, _ => True

/-- The values of all fields may be used. -/
def Row.IsAdmissible {fields : List Field} (row : Row fields) : Prop :=
  match fields, row with
  | [], _ => True
  | field :: _, (value, row) => field.type.Admits value ∧ IsAdmissible row

section Judges

variable {R : Type}

/-- What a reader makes of a body: it reads the record that the members hold if that is admissible,
refuses one that is not, and finds fault with the JSON if they hold none. -/
structure Judges (ms : List (List Piece × Tree)) (shape : Shape) (parse : Bytes → Except Error R)
    (build : Row shape.fields → String → R) (body : Bytes) : Prop where
  accepts : ∀ record, parse body = .ok record ↔
    ∃ (row : Row shape.fields) (data : String), row.HeldBy ms ∧ row.IsAdmissible ∧
      IsTrimmed body data ∧ record = build row data
  refuses : (∃ refusal, parse body = .error (.invalidRequest refusal)) ↔
    ∃ row : Row shape.fields, row.HeldBy ms ∧ ¬ row.IsAdmissible
  faults : (∃ fault, parse body = .error (.json fault)) ↔
    ∀ row : Row shape.fields, ¬ row.HeldBy ms

/-- What a reader makes of a body, and of each list of the values that its members have for the
fields. -/
structure Decides (ms : List (List Piece × Tree)) (shape : Shape) (parse : Bytes → Except Error R)
    (build : Row shape.fields → String → R) (body : Bytes) : Prop where
  object : Judges ms shape parse build body
  list : ∀ ts list, List.Forall₂ (fun field t => valuesAt field.name ms = [t]) shape.fields ts →
    Utf8.IsText list → Document (.array ts) list → Judges ms shape parse build list

/-- A check passes, with a record as its result, exactly if something is admissible. -/
structure Checks (result : Except Error R) (admissible : Prop) (record : R) : Prop where
  passes : admissible → result = .ok record
  refuses : ¬ admissible → ∃ refusal, result = .error (.invalidRequest refusal)

namespace Checks

variable {result : Except Error R} {admissible : Prop} {record : R}

theorem ok (holds : admissible) : Checks (.ok record) admissible record :=
  ⟨fun _ => rfl, fun fails => absurd holds fails⟩

theorem nonEmpty (field : String) {s : String} (rest : Checks result admissible record) :
    Checks (Record.nonEmpty field s >>= fun _ => result) (s ≠ "" ∧ admissible) record := by
  by_cases empty : s = ""
  · subst empty
    exact ⟨fun h => absurd rfl h.1, fun _ => ⟨.empty field, rfl⟩⟩
  · have filled : Record.nonEmpty field s = .ok () := by simp [Record.nonEmpty, empty]
    rw [filled]
    exact ⟨fun h => rest.passes h.2, fun h => rest.refuses fun holds => h ⟨empty, holds⟩⟩

/-- A record with what is stored of its body is made without any check. -/
theorem stored {body : Bytes} {data : String} (h : document body = .ok data)
    (build : String → R) : Checks (do return build (← document body)) True (build data) := by
  rw [h]
  exact .ok trivial

/-- A flag is not set or set. -/
theorem flag {machine username : String} {n : Nat} :
    Checks (match n with
      | 0 => .ok (⟨machine, username, false⟩ : Registration)
      | 1 => .ok ⟨machine, username, true⟩
      | n => .error (.invalidRequest (.flag n)))
      (n ≤ 1 ∧ True) ⟨machine, username, decide (n = 1)⟩ := by
  match n with
  | 0 => exact .ok ⟨by omega, trivial⟩
  | 1 => exact .ok ⟨by omega, trivial⟩
  | n + 2 => exact ⟨fun h => absurd h.1 (by omega), fun _ => ⟨_, rfl⟩⟩

end Checks

/-- A reader that reads the fields and checks them judges bodies by what the members hold. -/
theorem judges_of_reads {ms : List (List Piece × Tree)} {shape : Shape}
    {parse : Bytes → Except Error R} {build : Row shape.fields → String → R} {body : Bytes}
    {check : Row shape.fields → Except Error R} {data : String}
    (parses : parse body = Record.row shape body >>= check) (stored : document body = .ok data)
    (checks : ∀ row : Row shape.fields, Checks (check row) row.IsAdmissible (build row data))
    (reads : ∀ row, shape.parse body = .ok row ↔ row.HeldBy ms) :
    Judges ms shape parse build body := by
  cases parsed : shape.parse body with
  | error fault =>
    -- Nothing is checked without a row.
    have nothing (row : Row shape.fields) : ¬ row.HeldBy ms := fun held => by
      simp [(reads row).mpr held] at parsed
    have faulty : parse body = .error (.json fault) := by
      rw [parses, Record.row, parsed]
      rfl
    exact ⟨by simp [faulty, nothing], by simp [faulty, nothing], by simp [faulty, nothing]⟩
  | ok row =>
    -- The members hold no other row, so the check of this one decides.
    have only (row' : Row shape.fields) : row'.HeldBy ms ↔ row = row' := by
      rw [← reads, parsed, Except.ok.injEq]
    have trimmed (data' : String) : IsTrimmed body data' ↔ data = data' := by
      rw [← document_eq_ok_iff, stored, Except.ok.injEq]
    have checked : parse body = check row := by
      rw [parses, row_of_parse parsed]
      rfl
    by_cases admissible : row.IsAdmissible
    · have passes := (checks row).passes admissible
      refine ⟨fun record => ?_, ?_, ?_⟩
      · simp [checked, passes, only, trimmed, admissible, eq_comm]
      · simp [checked, passes, only, admissible]
      · simp [checked, passes, only]
    · obtain ⟨refusal, refused⟩ := (checks row).refuses admissible
      refine ⟨fun record => ?_, ?_, ?_⟩
      · simp [checked, refused, only, admissible]
      · simp [checked, refused, only, admissible]
      · simp [checked, refused, only]

/-- Such a reader decides about objects, and about the lists of their values. -/
theorem decides_of_checks {ms : List (List Piece × Tree)} {shape : Shape}
    {parse : Bytes → Except Error R} {build : Row shape.fields → String → R} {body : Bytes}
    {check : Bytes → Row shape.fields → Except Error R}
    (names : ∀ m ∈ ms, (denote m.1).isSome = true) (text : Utf8.IsText body)
    (whole : Document (.object ms) body) (distinct : (shape.fields.map Field.name).Nodup)
    (parses : ∀ body, parse body = Record.row shape body >>= check body)
    (checks : ∀ body data, document body = .ok data → ∀ row : Row shape.fields,
      Checks (check body row) row.IsAdmissible (build row data)) :
    Decides ms shape parse build body where
  object := by
    obtain ⟨data, stored⟩ := exists_document_of_isText text
    exact judges_of_reads (parses body) stored (checks body data stored)
      fun row => Shape.parse_object_eq_ok_iff distinct names text whole
  list ts list values text whole := by
    obtain ⟨data, stored⟩ := exists_document_of_isText text
    exact judges_of_reads (parses list) stored (checks list data stored)
      fun row => Shape.parse_list_eq_ok_iff whole values

end Judges

/-- All requests are read from objects by their members alone: in any order, with any others among
them, and whatever escapes are used. -/
theorem requests_decided {ms : List (List Piece × Tree)} {body : Bytes}
    (names : ∀ m ∈ ms, (denote m.1).isSome = true) (text : Utf8.IsText body)
    (whole : Document (.object ms) body) :
    Decides ms Registration.shape Registration.parse
      (fun (machine, username, flag, _) _ => ⟨machine, username, decide (flag = 1)⟩) body ∧
    Decides ms MachineQuery.shape MachineQuery.parse (fun (machine, _) _ => ⟨machine⟩) body ∧
    Decides ms FileRecord.shape FileRecord.parse
      (fun (machine, uuid, _) data => ⟨machine, uuid, data⟩) body ∧
    Decides ms FileQuery.shape FileQuery.parse (fun (uuid, _) _ => ⟨uuid⟩) body ∧
    Decides ms FilePage.shape FilePage.parse (fun (machine, page, _) _ => ⟨machine, page⟩) body ∧
    (∀ stamp, Decides ms TraceRecord.shape (TraceRecord.parse stamp)
      (fun (uuid, _) data => ⟨uuid, traceField stamp, data⟩) body) ∧
    Decides ms TracePage.shape TracePage.parse (fun (uuid, page, _) _ => ⟨uuid, page⟩) body := by
  -- The parsers differ in their checks, which come in the order of the fields.
  refine ⟨?_, ?_, ?_, ?_, ?_, fun stamp => ?_, ?_⟩
  · exact decides_of_checks names text whole (by decide) (fun _ => rfl)
      fun _ _ _ (machine, username, flag, _) => .nonEmpty _ (.nonEmpty _ .flag)
  · exact decides_of_checks names text whole (by decide) (fun _ => rfl)
      fun _ _ _ (machine, _) => .nonEmpty _ (.ok trivial)
  · exact decides_of_checks names text whole (by decide) (fun _ => rfl)
      fun _ _ stored (machine, uuid, _) => .nonEmpty _ (.nonEmpty _ (.stored stored _))
  · exact decides_of_checks names text whole (by decide) (fun _ => rfl)
      fun _ _ _ (uuid, _) => .nonEmpty _ (.ok trivial)
  · exact decides_of_checks names text whole (by decide) (fun _ => rfl)
      fun _ _ _ (machine, page, _) => .nonEmpty _ (.ok ⟨trivial, trivial⟩)
  · exact decides_of_checks names text whole (by decide) (fun _ => rfl)
      fun _ _ stored (uuid, _) => .nonEmpty _ (.stored stored _)
  · exact decides_of_checks names text whole (by decide) (fun _ => rfl)
      fun _ _ _ (uuid, page, _) => .nonEmpty _ (.ok ⟨trivial, trivial⟩)

/-- An object with an escape in a name, and a list of the same values, ask for the same page. -/
theorem requests_decided_escape :
    TracePage.parse (Utf8.bytes "\x7b\"page\":7,\"\\u0075uid\":\"x\"\x7d") = .ok ⟨"x", 7⟩ ∧
    TracePage.parse (Utf8.bytes "[\"x\",7]") = .ok ⟨"x", 7⟩ := by
  let page : List Piece := (Utf8.bytes "page").map .byte
  let uuid : List Piece := .unit 0x75 :: (Utf8.bytes "uid").map .byte
  let seven : Tree := .number false ⟨[7], [], none⟩
  let x : Tree := .string [.byte 0x78]
  have quoted (s : String) (r : Bytes) (plain : (Utf8.bytes s).all
      (fun b => b != 0x22 && b != 0x5C && 0x20 ≤ b.toNat) = true) :
      Quoted (Utf8.bytes s ++ 0x22 :: r) ((Utf8.bytes s).map .byte) r := by
    have written : ∀ b ∈ Utf8.bytes s, b ≠ 0x22 ∧ b ≠ 0x5C ∧ ¬ b.toNat < 0x20 := by
      simpa [and_assoc] using plain
    simpa using Quoted.plain_append written (.close r)
  -- The bytes once, so that they are not made again at each token.
  have tokens : Utf8.bytes "\x7b\"page\":7,\"\\u0075uid\":\"x\"\x7d" =
      0x7B :: 0x22 :: (Utf8.bytes "page" ++ 0x22 :: 0x3A :: 0x37 :: 0x2C :: 0x22 ::
        0x5C :: 0x75 :: 0x30 :: 0x30 :: 0x37 :: 0x35 :: (Utf8.bytes "uid" ++ 0x22 :: 0x3A ::
          0x22 :: (Utf8.bytes "x" ++ [0x22, 0x7D]))) := rfl
  have object : Document (.object [(page, seven), (uuid, x)])
      (Utf8.bytes "\x7b\"page\":7,\"\\u0075uid\":\"x\"\x7d") := by
    rw [tokens]
    exact ⟨[], .object rfl (.member rfl rfl (quoted "page" _ (by decide)) rfl (.number rfl rfl rfl)
      (.member rfl rfl (.unit rfl (quoted "uid" _ (by decide))) rfl
        (.string rfl (quoted "x" _ (by decide))) (.noMember rfl))), rfl⟩
  have list : Document (.array [x, seven]) (Utf8.bytes "[\"x\",7]") :=
    ⟨[], .array rfl (.item rfl (.string rfl (quoted "x" _ (by decide)))
      (.item rfl (.number rfl rfl rfl) (.noItem rfl))), rfl⟩
  have decided := (requests_decided (by decide) ⟨_, rfl⟩ object).2.2.2.2.2.2
  let row : Row TracePage.shape.fields := ("x", 7, ())
  have held : row.HeldBy [(page, seven), (uuid, x)] :=
    ⟨⟨x, rfl, _, rfl, rfl⟩, ⟨seven, rfl, ⟨_, rfl, rfl⟩, by decide⟩, trivial⟩
  have admissible : row.IsAdmissible := ⟨(by decide : "x" ≠ ""), trivial, trivial⟩
  have trimmed {body : String} {c d : Char} (first : body.toList.head? = some c)
      (last : body.toList.getLast? = some d) (dark : (Text.isBlank c || Text.isBlank d) = false) :
      IsTrimmed (Utf8.bytes body) body := by
    rw [Bool.or_eq_false_iff] at dark
    exact ⟨[], [], by simp [Utf8.bytes], by simp, by simp, by simpa [first] using dark.1,
      by simpa [last] using dark.2⟩
  exact ⟨(decided.object.accepts _).mpr
      ⟨row, _, held, admissible, trimmed rfl rfl (by decide), rfl⟩,
    ((decided.list [x, seven] _ (.cons rfl (.cons rfl .nil)) ⟨_, rfl⟩ list).accepts _).mpr
      ⟨row, _, held, admissible, trimmed rfl rfl (by decide), rfl⟩⟩

end HashGateway.Record
