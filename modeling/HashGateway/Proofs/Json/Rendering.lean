import HashGateway.Proofs.Json.Grammar
import HashGateway.Proofs.Json.Numerals

/-!
# Values that are written

The compact text of a value is a document. Its tree has the strings and the integers of the
value, so what a reader of records asks for is found in the text; a floating point number is
written as some number.

## Main definitions

* `Json.Spells` — pieces that are written for a text between two quotes
* `Json.Tree.Writes` — a tree that is written for a value

## Main results

* `Json.exists_spells` — every text is written between two quotes
* `Json.exists_writes` — every value is written as a tree
* `Json.Tree.Writes.document` — what is written for a value is a document
-/

namespace HashGateway.Json

open Utf8 (encode encodeChar)

/-! ## Strings -/

/-- Pieces that are written for a text, up to the closing quote. -/
structure Spells (ps : List Piece) (s : String) : Prop where
  text : text? ps = some s
  quoted : ∀ r, Quoted (encode (s.toList.flatMap escape) ++ 0x22 :: r) ps r

/-- Bytes that need no escape stand for themselves. -/
theorem Quoted.plain_append {p bs r : Bytes} {ps : List Piece}
    (plain : ∀ b ∈ p, b ≠ 0x22 ∧ b ≠ 0x5C ∧ ¬ b.toNat < 0x20) (rest : Quoted bs ps r) :
    Quoted (p ++ bs) (p.map .byte ++ ps) r := by
  induction p with
  | nil => exact rest
  | cons b p ih =>
    obtain ⟨quote, escape, control⟩ := plain b (by simp)
    exact .plain quote escape control (ih fun b mem => plain b (List.mem_cons_of_mem _ mem))

theorem denote_bytes_append (p : Bytes) (ps : List Piece) :
    denote (p.map .byte ++ ps) = (denote ps).map (p ++ ·) := by
  induction p with
  | nil => simp
  | cons b p ih =>
    rw [List.map_cons, List.cons_append, denote, ih, Option.map_map]
    rfl

theorem hexDigit?_digitChar {n : Nat} (h : n < 16) :
    ∃ b, encodeChar (Nat.digitChar n) = [b] ∧ hexDigit? b = some n := by
  interval_cases n <;> exact ⟨_, rfl, rfl⟩

/-- Pieces that are written for a character: they stand before any others and denote it. -/
structure SpellsChar (qs : List Piece) (c : Char) : Prop where
  quoted : ∀ bs ps r, Quoted bs ps r → Quoted (encode (escape c) ++ bs) (qs ++ ps) r
  denote : ∀ ps, denote (qs ++ ps) = (denote ps).map (encodeChar c ++ ·)

namespace SpellsChar

variable {c : Char}

theorem short {e b : UInt8} (stands : shortEscape? e = some b) (byte : encodeChar c = [b])
    (written : encode (escape c) = [0x5C, e]) : SpellsChar [.byte b] c where
  quoted bs ps r rest := by
    rw [written]
    exact .short stands rest
  denote ps := by
    rw [byte]
    rfl

/-- A control is written as a unit with two zeros in front. -/
theorem control (small : c.toNat < 0x20) (written : escape c =
    ['\\', 'u', '0', '0', Nat.digitChar (c.toNat / 16), Nat.digitChar (c.toNat % 16)]) :
    SpellsChar [.unit c.toNat] c where
  quoted bs ps r rest := by
    obtain ⟨h, high, high_digit⟩ := hexDigit?_digitChar (n := c.toNat / 16) (by omega)
    obtain ⟨l, low, low_digit⟩ := hexDigit?_digitChar (n := c.toNat % 16) (by omega)
    -- A control is one byte, and its two halves are the digits that are written.
    have bytes : encode (escape c) = [0x5C, 0x75, 0x30, 0x30, h, l] := by
      rw [written]
      simp only [Utf8.encode_cons, Utf8.encode_nil, high, low]
      rfl
    have zero : hexDigit? 0x30 = some 0 := rfl
    have digits : unit? 0x30 0x30 h l = some c.toNat := by
      simp only [unit?, zero, high_digit, low_digit, Option.bind_eq_bind, Option.bind_some,
        Option.pure_def, Option.some.injEq]
      omega
    rw [bytes]
    exact .unit digits rest
  denote ps := by
    have no_trail : isTrail c.toNat = false := by simp [isTrail]; omega
    have no_lead : isLead c.toNat = false := by simp [isLead]; omega
    rw [List.singleton_append, Json.denote.eq_def]
    simp [no_trail, no_lead, Char.ofNat_toNat]

/-- The bytes of any other character stand for themselves. -/
theorem plain (quote : c ≠ '"') (backslash : c ≠ '\\') (large : ¬ c.toNat < 0x20)
    (written : escape c = [c]) : SpellsChar ((encodeChar c).map .byte) c where
  quoted bs ps r rest := by
    rw [written, Utf8.encode_cons, Utf8.encode_nil, List.append_nil]
    refine Quoted.plain_append (fun b mem => ?_) rest
    by_cases byte : b.toNat < 0x80
    · -- Such a byte is the whole character.
      have alone := Utf8.encodeChar_eq_singleton mem byte
      have chars_eq : [c] = [Char.ofNat b.toNat] := Utf8.encode_injective (by
        rw [Utf8.encode_cons, Utf8.encode_cons, alone, Utf8.encodeChar_ofNat byte])
      obtain rfl := (List.cons.inj chars_eq).1
      rw [Utf8.toNat_charOfNat (by omega)] at large
      exact ⟨fun equal => quote (by rw [equal]; rfl),
        fun equal => backslash (by rw [equal]; rfl), large⟩
    · refine ⟨?_, ?_, by omega⟩
      · rintro rfl
        exact byte (by decide)
      · rintro rfl
        exact byte (by decide)
  denote ps := denote_bytes_append _ ps

end SpellsChar

theorem exists_spellsChar (c : Char) : ∃ qs, SpellsChar qs c := by
  -- Two characters and five controls have an escape of their own.
  by_cases quote : c = '"'
  · exact ⟨_, .short (e := 0x22) rfl (quote ▸ rfl) (quote ▸ rfl)⟩
  by_cases backslash : c = '\\'
  · exact ⟨_, .short (e := 0x5C) rfl (backslash ▸ rfl) (backslash ▸ rfl)⟩
  by_cases backspace : c = '\x08'
  · exact ⟨_, .short (e := 0x62) rfl (backspace ▸ rfl) (backspace ▸ rfl)⟩
  by_cases feed : c = '\x0c'
  · exact ⟨_, .short (e := 0x66) rfl (feed ▸ rfl) (feed ▸ rfl)⟩
  by_cases line : c = '\n'
  · exact ⟨_, .short (e := 0x6E) rfl (line ▸ rfl) (line ▸ rfl)⟩
  by_cases carriage : c = '\r'
  · exact ⟨_, .short (e := 0x72) rfl (carriage ▸ rfl) (carriage ▸ rfl)⟩
  by_cases tab : c = '\t'
  · exact ⟨_, .short (e := 0x74) rfl (tab ▸ rfl) (tab ▸ rfl)⟩
  by_cases small : c.toNat < 0x20
  · exact ⟨_, .control small
      (by simp [escape, quote, backslash, backspace, feed, line, carriage, tab, small])⟩
  · exact ⟨_, .plain quote backslash small
      (by simp [escape, quote, backslash, backspace, feed, line, carriage, tab, small])⟩

/-- Every text is written between two quotes. -/
theorem exists_spells (s : String) : ∃ ps, Spells ps s := by
  have chars (cs : List Char) : ∃ ps, denote ps = some (encode cs) ∧
      ∀ r, Quoted (encode (cs.flatMap escape) ++ 0x22 :: r) ps r := by
    induction cs with
    | nil => exact ⟨[], rfl, .close⟩
    | cons c cs ih =>
      obtain ⟨ps, denoted, quoted⟩ := ih
      obtain ⟨qs, spells⟩ := exists_spellsChar c
      refine ⟨qs ++ ps, ?_, fun r => ?_⟩
      · rw [spells.denote, denoted, Utf8.encode_cons]
        rfl
      · rw [List.flatMap_cons, Utf8.encode_append, List.append_assoc]
        exact spells.quoted _ _ _ (quoted r)
  obtain ⟨ps, denoted, quoted⟩ := chars s.toList
  refine ⟨ps, ?_, quoted⟩
  rw [text?, denoted]
  exact Utf8.decode?_bytes s

/-! ## Values -/

/-- A tree is written for a value, before whatever is no part of a number. -/
def Tree.Writes (t : Tree) (v : Value) : Prop :=
  ∀ r, Stops r → Begins (.value t) (encode v.render ++ r) r

theorem begins_number {bs r : Bytes} {figures : Figures}
    (read : Figures.read bs = .ok (figures, r)) :
    Begins (.value (.number false figures)) bs r := by
  cases bs with
  | nil => simp [Figures.read, digits] at read
  | cons b bs =>
    have digit : (digit? b).isSome = true := by
      rw [Figures.read_eq, digits] at read
      cases first : digit? b with
      | none => simp [first] at read
      | some d => rfl
    have dark : isSpace b = false := by
      rw [Bool.eq_false_iff]
      intro space
      simp [digit?_of_isSpace space] at digit
    exact .number (skipBlank_cons dark bs) digit read

/-! ### Lists of texts -/

theorem commaSeparated_cons (text : List Char) (texts : List (List Char)) :
    commaSeparated (text :: texts) = text ++ texts.flatMap (',' :: ·) := by
  induction texts generalizing text with
  | nil => simp [commaSeparated]
  | cons next texts ih => rw [commaSeparated, ih, List.flatMap_cons, List.cons_append]; simp

/-- What follows an item or a member stops a number: a comma, or the end of the list. -/
theorem stops_of_end {e : UInt8} (closes : e = 0x5D ∨ e = 0x7D) (texts : List (List Char))
    (r : Bytes) : Stops (encode (texts.flatMap (',' :: ·)) ++ e :: r) := by
  intro b mem
  cases texts with
  | nil =>
    obtain rfl : e = b := by simpa [Utf8.encode_nil] using mem
    exact .inr closes
  | cons text texts =>
    have comma : encode ((text :: texts).flatMap (',' :: ·)) ++ e :: r =
        0x2C :: (encode (text ++ texts.flatMap (',' :: ·)) ++ e :: r) := rfl
    rw [comma] at mem
    exact .inl (Option.mem_some.mp mem).symm

theorem begins_items_rest {ts : List Tree} {vs : List Value} (h : List.Forall₂ Tree.Writes ts vs)
    (r : Bytes) :
    Begins (.items false ts) (encode ((renderItems vs).flatMap (',' :: ·)) ++ 0x5D :: r) r := by
  induction h with
  | nil => exact .noItem (skipBlank_cons (by decide) r)
  | @cons t v ts vs writes _ ih =>
    have comma : encode ((renderItems (v :: vs)).flatMap (',' :: ·)) ++ 0x5D :: r =
        0x2C :: (encode v.render ++
          (encode ((renderItems vs).flatMap (',' :: ·)) ++ 0x5D :: r)) := by
      rw [renderItems, List.flatMap_cons, List.cons_append, Utf8.encode_cons, Utf8.encode_append]
      simp
      rfl
    rw [comma]
    exact .item (skipBlank_cons (by decide) _) (writes _ (stops_of_end (.inl rfl) _ r)) ih

/-- The texts of items, with commas between them, are a list up to its bracket. -/
theorem begins_items {ts : List Tree} {vs : List Value} (h : List.Forall₂ Tree.Writes ts vs)
    (r : Bytes) :
    Begins (.items true ts) (encode (commaSeparated (renderItems vs)) ++ 0x5D :: r) r := by
  cases h with
  | nil => exact .noItem (skipBlank_cons (by decide) r)
  | @cons t v ts vs writes rest =>
    rw [renderItems, commaSeparated_cons, Utf8.encode_append, List.append_assoc]
    exact .item rfl (writes _ (stops_of_end (.inl rfl) _ r)) (begins_items_rest rest r)

/-- A name and a tree are written for a member of an object. -/
def WritesMember (m : List Piece × Tree) (p : String × Value) : Prop :=
  Spells m.1 p.1 ∧ m.2.Writes p.2

theorem encode_renderString (s : String) (bs : Bytes) : encode (renderString s) ++ bs =
    0x22 :: (encode (s.toList.flatMap escape) ++ 0x22 :: bs) := by
  rw [renderString, Utf8.encode_cons, Utf8.encode_append, List.append_assoc, List.append_assoc]
  rfl

theorem begins_member {first : Bool} {m : List Piece × Tree} {p : String × Value}
    {ms : List (List Piece × Tree)} {bs q r : Bytes} (writes : WritesMember m p)
    (separated : Separated first bs (encode (renderString p.1 ++ ':' :: p.2.render) ++ q))
    (stops : Stops q) (rest : Begins (.members false ms) q r) :
    Begins (.members first (m :: ms)) bs r := by
  obtain ⟨spells, value⟩ := writes
  have colon : encode (':' :: p.2.render) ++ q = 0x3A :: (encode p.2.render ++ q) := rfl
  rw [Utf8.encode_append, List.append_assoc, colon, encode_renderString] at separated
  exact .member separated (skipBlank_cons (by decide) _) (spells.quoted _)
    (skipBlank_cons (by decide) _) (value q stops) rest

theorem begins_members_rest {ms : List (List Piece × Tree)} {ps : List (String × Value)}
    (h : List.Forall₂ WritesMember ms ps) (r : Bytes) :
    Begins (.members false ms) (encode ((renderMembers ps).flatMap (',' :: ·)) ++ 0x7D :: r) r := by
  induction h with
  | nil => exact .noMember (skipBlank_cons (by decide) r)
  | @cons m p ms ps writes _ ih =>
    have comma : encode ((renderMembers (p :: ps)).flatMap (',' :: ·)) ++ 0x7D :: r =
        0x2C :: (encode (renderString p.1 ++ ':' :: p.2.render) ++
          (encode ((renderMembers ps).flatMap (',' :: ·)) ++ 0x7D :: r)) := by
      rw [renderMembers, List.flatMap_cons, List.cons_append, Utf8.encode_cons, Utf8.encode_append,
        List.append_assoc, List.append_assoc]
      rfl
    rw [comma]
    exact begins_member writes (skipBlank_cons (by decide) _) (stops_of_end (.inr rfl) _ r) ih

/-- The texts of members, with commas between them, are an object up to its brace. -/
theorem begins_members {ms : List (List Piece × Tree)} {ps : List (String × Value)}
    (h : List.Forall₂ WritesMember ms ps) (r : Bytes) :
    Begins (.members true ms) (encode (commaSeparated (renderMembers ps)) ++ 0x7D :: r) r := by
  cases h with
  | nil => exact .noMember (skipBlank_cons (by decide) r)
  | @cons m p ms ps writes rest =>
    rw [renderMembers, commaSeparated_cons, Utf8.encode_append, List.append_assoc]
    exact begins_member writes rfl (stops_of_end (.inr rfl) _ r) (begins_members_rest rest r)

/-! ### One value after the other -/

namespace Tree.Writes

theorem string {ps : List Piece} {s : String} (spells : Spells ps s) :
    (Tree.string ps).Writes (.string s) := by
  intro r _
  rw [Value.render, encode_renderString]
  exact .string (skipBlank_cons (by decide) _) (spells.quoted r)

theorem array {ts : List Tree} {vs : List Value} (h : List.Forall₂ Tree.Writes ts vs) :
    (Tree.array ts).Writes (.array vs) := by
  intro r _
  have text : encode (Value.render (.array vs)) ++ r =
      0x5B :: (encode (commaSeparated (renderItems vs)) ++ 0x5D :: r) := by
    rw [Value.render, Utf8.encode_cons, Utf8.encode_append, List.append_assoc, List.append_assoc]
    rfl
  rw [text]
  exact .array (skipBlank_cons (by decide) _) (begins_items h r)

theorem object {ms : List (List Piece × Tree)} {ps : List (String × Value)}
    (h : List.Forall₂ WritesMember ms ps) : (Tree.object ms).Writes (.object ps) := by
  intro r _
  have text : encode (Value.render (.object ps)) ++ r =
      0x7B :: (encode (commaSeparated (renderMembers ps)) ++ 0x7D :: r) := by
    rw [Value.render, Utf8.encode_cons, Utf8.encode_append, List.append_assoc, List.append_assoc]
    rfl
  rw [text]
  exact .object (skipBlank_cons (by decide) _) (begins_members h r)

/-- The text of a value is a document of the tree that is written for it. -/
theorem document {t : Tree} {v : Value} (h : t.Writes v) : Document t (Utf8.bytes v.text) := by
  have begins := h [] fun b mem => by simp at mem
  rw [List.append_nil] at begins
  rw [Utf8.bytes, Value.text, String.toList_ofList]
  exact ⟨[], begins, rfl⟩

end Tree.Writes

/-- Natural numbers of 64 bits are written as themselves. -/
theorem exists_writes_natural {n : Nat} (fits : n ≤ Numeral.max64) : ∃ x : Figures,
    x.number? false = some (.int n) ∧ (Tree.number false x).Writes (.number (.int n)) := by
  obtain ⟨x, value, read⟩ := exists_read_render fits
  exact ⟨x, value, fun r stops => begins_number (read r stops)⟩

theorem exists_writes_number (n : Number) : ∃ t : Tree, t.Writes (.number n) := by
  obtain ⟨negative, cs, text, numeral⟩ := n.exists_render
  obtain ⟨x, read⟩ := numeral.exists_read
  refine ⟨.number negative x, fun r stops => ?_⟩
  rw [Value.render, text]
  cases negative with
  | false => exact begins_number (read r stops)
  | true => exact .minus (skipBlank_cons (by decide) _) (read r stops)

mutual

/-- Every value is written as a tree. -/
theorem exists_writes : (v : Value) → ∃ t : Tree, t.Writes v
  | .null => ⟨.null, fun r _ => .null (skipBlank_cons (by decide) _)⟩
  | .bool true => ⟨.bool true, fun r _ => .isTrue (skipBlank_cons (by decide) _)⟩
  | .bool false => ⟨.bool false, fun r _ => .isFalse (skipBlank_cons (by decide) _)⟩
  | .number n => exists_writes_number n
  | .string s =>
    have ⟨_, spells⟩ := exists_spells s
    ⟨_, .string spells⟩
  | .array vs =>
    have ⟨_, writes⟩ := exists_writes_items vs
    ⟨_, .array writes⟩
  | .object ps =>
    have ⟨_, writes⟩ := exists_writes_members ps
    ⟨_, .object writes⟩

theorem exists_writes_items : (vs : List Value) → ∃ ts, List.Forall₂ Tree.Writes ts vs
  | [] => ⟨[], .nil⟩
  | v :: vs =>
    have ⟨_, first⟩ := exists_writes v
    have ⟨_, rest⟩ := exists_writes_items vs
    ⟨_, .cons first rest⟩

theorem exists_writes_members : (ps : List (String × Value)) →
    ∃ ms, List.Forall₂ WritesMember ms ps
  | [] => ⟨[], .nil⟩
  | (name, v) :: ps =>
    have ⟨_, spells⟩ := exists_spells name
    have ⟨_, first⟩ := exists_writes v
    have ⟨_, rest⟩ := exists_writes_members ps
    ⟨(_, _) :: _, .cons ⟨spells, first⟩ rest⟩

end

end HashGateway.Json
