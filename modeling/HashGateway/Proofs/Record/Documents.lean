import HashGateway.Proofs.Json.Readers
import HashGateway.Record.Request

/-!
# The documents of records

The body of a record is a document, and its tree is a list or an object. What is stored of
it, the body without the blanks at its ends, is a document with the same tree. So what is
stored is read as a value exactly if the tree of the body is sound.

## Main definitions

* `Json.Tree.IsContainer` — a tree is that of a list or of an object

## Main results

* `Record.Shape.exists_document` — the body of a record is a document
* `Record.document_of_document` — the body without the blanks at its ends has the same tree
* `FileRecord.exists_tree`, `TraceRecord.exists_tree` — what is stored is read as a value exactly
  if the tree of the body is sound
-/

namespace HashGateway

open Json

/-- A list or an object. -/
def Json.Tree.IsContainer : Tree → Prop
  | .array _ => True
  | .object _ => True
  | _ => False

namespace Record

/-! ## Bodies of records -/

namespace FieldType

theorem mismatch_ne_ok {α : Type} (wanted : String) (bs : Bytes) (a : α) :
    mismatch wanted bs ≠ .ok a := by
  intro h
  obtain ⟨found, -, h⟩ := Except.bind_eq_ok.mp h
  simp [throw, throwThe, MonadExceptOf.throw] at h

theorem exists_of_bounded {bound n : Nat} {wanted : String} {r : Bytes}
    {x : Except Json.Fault (Number × Bytes)}
    (h : (do let (n, rest) ← x; return (← bounded bound wanted n, rest)) = .ok (n, r)) :
    ∃ number, x = .ok (number, r) := by
  obtain ⟨⟨number, rest⟩, read, h⟩ := Except.bind_eq_ok.mp h
  obtain ⟨i, inside, h⟩ := Except.bind_eq_ok.mp h
  obtain ⟨-, rfl⟩ := Prod.mk.inj (Except.ok.inj h)
  exact ⟨number, read⟩

theorem exists_begins_of_readBounded {bound n : Nat} {wanted : String} {bs r : Bytes}
    (h : readBounded bound wanted (skipBlank bs) = .ok (n, r)) :
    ∃ t, Begins (.value t) bs r := by
  cases head : skipBlank bs with
  | nil => simp [head, readBounded] at h
  | cons b m =>
    rw [head, readBounded] at h
    split at h
    · next minus =>
      obtain ⟨number, read⟩ := exists_of_bounded h
      obtain ⟨figures, read⟩ := exists_of_readNumber read
      exact ⟨_, .minus (by rw [head, minus]) read⟩
    · split at h
      · next digit =>
        obtain ⟨number, read⟩ := exists_of_bounded h
        obtain ⟨figures, read⟩ := exists_of_readNumber read
        exact ⟨_, .number head digit read⟩
      · obtain ⟨number, read⟩ := exists_of_bounded h
        exact absurd read (mismatch_ne_ok _ _ _)

theorem exists_begins_of_read {type : FieldType} {bs r : Bytes} {v : type.Value}
    (h : type.read bs = .ok (v, r)) : ∃ t, Begins (.value t) bs r := by
  cases head : skipBlank bs with
  | nil =>
    rw [read.eq_def, head] at h
    cases type <;> simp at h
  | cons b m =>
    -- A text begins with a quote, and the two types of numbers share their reader.
    cases type with
    | text =>
      rw [read.eq_def, head] at h
      simp only at h
      split at h
      · next quote =>
        obtain ⟨ps, quoted⟩ := exists_quoted_of_readString h
        exact ⟨_, .string (by rw [head, quote]) quoted⟩
      · exact absurd h (mismatch_ne_ok _ _ _)
    | byte =>
      rw [read.eq_def, head] at h
      exact exists_begins_of_readBounded (by rw [head]; exact h)
    | natural =>
      rw [read.eq_def, head] at h
      exact exists_begins_of_readBounded (by rw [head]; exact h)

end FieldType

theorem Draft.exists_begins_of_member {name : String} {fields : List Field}
    {draft draft' : Draft fields} {c r : Bytes}
    (h : Draft.member name fields draft c = .ok (draft', r)) :
    ∃ v t, skipBlank c = 0x3A :: v ∧ Begins (.value t) v r := by
  -- A member without a field is passed over, one with a field is read; both have a tree.
  fun_induction Draft.member name fields draft c with
  | case1 bs draft =>
    obtain ⟨v, colon, h⟩ := Except.bind_eq_ok.mp h
    obtain ⟨rest, skipped, h⟩ := Except.bind_eq_ok.mp h
    obtain ⟨-, rfl⟩ := Prod.mk.inj (Except.ok.inj h)
    obtain ⟨t, value⟩ := exists_begins_of_skipValue skipped
    exact ⟨v, t, colon_eq_ok_iff.mp colon, value⟩
  | case2 => simp at h
  | case3 field fields draft bs =>
    obtain ⟨v, colon, h⟩ := Except.bind_eq_ok.mp h
    obtain ⟨⟨a, rest⟩, read, h⟩ := Except.bind_eq_ok.mp h
    obtain ⟨-, rfl⟩ := Prod.mk.inj (Except.ok.inj h)
    obtain ⟨t, value⟩ := FieldType.exists_begins_of_read read
    exact ⟨v, t, colon_eq_ok_iff.mp colon, value⟩
  | case4 field fields value draft bs _ ih =>
    obtain ⟨⟨draft'', rest⟩, read, h⟩ := Except.bind_eq_ok.mp h
    obtain ⟨-, rfl⟩ := Prod.mk.inj (Except.ok.inj h)
    exact ih read

namespace Shape

variable {shape : Shape} {bs r : Bytes}

theorem exists_begins_of_readObject {row : Row shape.fields}
    (h : shape.readObject bs = .ok (row, r)) : ∃ ms, Begins (.members true ms) bs r := by
  obtain ⟨⟨draft, rest⟩, read, h⟩ := Except.bind_eq_ok.mp h
  obtain ⟨row', finished, h⟩ := Except.bind_eq_ok.mp h
  obtain ⟨-, rfl⟩ := Prod.mk.inj (Except.ok.inj h)
  refine exists_begins_of_readMembers (fun _ q _ r' read => ?_) read
  obtain ⟨⟨name, c⟩, name_read, member⟩ := Except.bind_eq_ok.mp read
  obtain ⟨ps, quoted⟩ := exists_quoted_of_readString name_read
  obtain ⟨v, t, colon, value⟩ := Draft.exists_begins_of_member member
  exact ⟨ps, c, v, t, quoted, colon, value⟩

theorem endOfList_eq_ok (h : endOfList bs = .ok r) : skipBlank bs = 0x5D :: r := by
  unfold endOfList at h
  split at h
  · simp at h
  · next b m head =>
    split at h
    · next close => rw [head, close, Except.ok.inj h]
    · split at h
      · split at h <;> simp at h
      · simp at h

theorem exists_begins_of_readFields {fields : List Field} {done : Nat} {row : Row fields}
    {m : Bytes} (h : shape.readFields fields done bs = .ok (row, m))
    (close : endOfList m = .ok r) : ∃ ts, Begins (.items (done == 0) ts) bs r := by
  induction fields generalizing done bs with
  | nil =>
    obtain ⟨-, rfl⟩ := Prod.mk.inj (Except.ok.inj h)
    exact ⟨[], .noItem (endOfList_eq_ok close)⟩
  | cons field fields ih =>
    obtain ⟨⟨more, rest⟩, next, h⟩ := Except.bind_eq_ok.mp h
    rcases nextItem_cases next with ⟨rfl, -⟩ | ⟨rfl, m', separated, rfl⟩
    · simp [throw, throwThe, MonadExceptOf.throw] at h
    · obtain ⟨⟨a, m''⟩, read, h⟩ := Except.bind_eq_ok.mp h
      obtain ⟨⟨row', rest⟩, rest_read, h⟩ := Except.bind_eq_ok.mp h
      obtain ⟨-, rfl⟩ := Prod.mk.inj (Except.ok.inj h)
      obtain ⟨t, value⟩ := FieldType.exists_begins_of_read read
      obtain ⟨ts, items⟩ := ih rest_read
      exact ⟨t :: ts, .item separated value.of_skipBlank items⟩

/-- The body of a record is a document of a list or of an object. -/
theorem exists_document {row : Row shape.fields} (h : shape.parse bs = .ok row) :
    ∃ t : Tree, t.IsContainer ∧ Document t bs := by
  obtain ⟨⟨row', r⟩, read, last⟩ := Except.bind_eq_ok.mp h
  have blank : skipBlank r = [] := by
    rw [endOfDocument] at last
    split at last
    · next empty => simpa using empty
    · simp at last
  -- The first byte tells an object from a list; anything else is refused.
  unfold Shape.read at read
  split at read
  · simp at read
  · next b m head =>
    split at read
    · next brace =>
      obtain ⟨ms, members⟩ := exists_begins_of_readObject read
      exact ⟨.object ms, trivial, r, .object (by rw [head, brace]) members, blank⟩
    · split at read
      · next bracket =>
        obtain ⟨⟨row'', rest⟩, fields, read⟩ := Except.bind_eq_ok.mp read
        obtain ⟨r', close, read⟩ := Except.bind_eq_ok.mp read
        obtain ⟨-, rfl⟩ := Prod.mk.inj (Except.ok.inj read)
        obtain ⟨ts, items⟩ := exists_begins_of_readFields fields close
        exact ⟨.array ts, trivial, r', .array (by rw [head, bracket]) items, blank⟩
      · exact absurd read (FieldType.mismatch_ne_ok _ _ _)

end Shape

end Record

/-! ## Blanks at the ends -/

namespace Text

theorem trim_append {before cs after : List Char} (h : ∀ c ∈ before, isBlank c = true)
    (h' : ∀ c ∈ after, isBlank c = true) (first : ∀ c ∈ cs.head?, isBlank c = false)
    (last : ∀ c ∈ cs.getLast?, isBlank c = false) : trim (before ++ (cs ++ after)) = cs := by
  rw [trim, trimStart, List.dropWhile_append_of_pos h]
  cases cs with
  | nil =>
    have nothing : after.dropWhile isBlank = [] := by simpa using h'
    rw [List.nil_append, nothing]
    rfl
  | cons c cs =>
    have dark : ¬ isBlank c = true := by simp [first c rfl]
    have stop : trimEnd (c :: cs ++ after) = trimEnd (c :: cs) := by
      rw [trimEnd, trimEnd, List.reverse_append, List.dropWhile_append_of_pos (by simpa using h')]
    have kept := trim_eq_self first last
    rw [trim, trimStart, List.dropWhile_cons_of_neg dark] at kept
    rw [List.cons_append, List.dropWhile_cons_of_neg dark, ← List.cons_append, stop, kept]

end Text

/-- Blanks of a JSON text are blank characters. -/
theorem Json.Blank.exists_encode {w : Bytes} (h : Blank w) :
    ∃ cs, Utf8.encode cs = w ∧ ∀ c ∈ cs, Text.isBlank c = true := by
  induction w with
  | nil => exact ⟨[], rfl, by simp⟩
  | cons b w ih =>
    obtain ⟨cs, encoded, blank⟩ := ih h.of_cons
    have space := h b (by simp)
    refine ⟨Char.ofNat b.toNat :: cs, ?_, ?_⟩
    · rw [Utf8.encode_cons, Utf8.encodeChar_ofNat (toNat_lt_of_isSpace space), encoded,
        List.singleton_append]
    · intro c mem
      rcases List.mem_cons.mp mem with rfl | mem
      · simp only [isSpace, Bool.or_eq_true, decide_eq_true_eq] at space
        rcases space with ((rfl | rfl) | rfl) | rfl <;> decide
      · exact blank c mem

namespace Record

theorem document_eq_ok {body : Bytes} {data : String} (h : document body = .ok data) :
    ∃ cs, body = Utf8.encode cs ∧ data = String.ofList (Text.trim cs) := by
  unfold document at h
  split at h
  · next cs decoded => exact ⟨cs, Utf8.decode_eq_ok_iff.mp decoded, (Except.ok.inj h).symm⟩
  · simp at h

/-- What stands between two brackets stays when blanks around them are removed. -/
theorem bytes_of_document {w c r : Bytes} {o e : UInt8} {data : String} (blank : Blank w)
    (blank' : Blank r) (open_small : o.toNat < 0x80) (end_small : e.toNat < 0x80)
    (open_dark : Text.isBlank (Char.ofNat o.toNat) = false)
    (end_dark : Text.isBlank (Char.ofNat e.toNat) = false)
    (h : document (w ++ o :: (c ++ e :: r)) = .ok data) : Utf8.bytes data = o :: (c ++ [e]) := by
  obtain ⟨cs, body, rfl⟩ := document_eq_ok h
  -- The brackets are characters of their own, so what stands between them is a text.
  have text : Utf8.IsText (w ++ o :: (c ++ e :: r)) := ⟨cs, body⟩
  obtain ⟨inside, rfl⟩ := ((text.split open_small).2.split end_small).1
  obtain ⟨before, rfl, all_before⟩ := blank.exists_encode
  obtain ⟨after, rfl, all_after⟩ := blank'.exists_encode
  have middle : Utf8.encode (Char.ofNat o.toNat :: (inside ++ [Char.ofNat e.toNat])) =
      o :: (Utf8.encode inside ++ [e]) := by
    rw [Utf8.encode_cons, Utf8.encode_append, Utf8.encode_cons, Utf8.encode_nil,
      Utf8.encodeChar_ofNat open_small, Utf8.encodeChar_ofNat end_small]
    rfl
  have whole :
      before ++ ((Char.ofNat o.toNat :: (inside ++ [Char.ofNat e.toNat])) ++ after) = cs := by
    refine Utf8.encode_injective ?_
    rw [← body, Utf8.encode_append, Utf8.encode_append, middle]
    simp
  rw [← whole, Text.trim_append all_before all_after (by simpa using open_dark)
    (by simpa [List.getLast?_cons] using end_dark), Utf8.bytes, String.toList_ofList, middle]

theorem document_of_begins {t : Tree} {bs r : Bytes} (blank : Blank r)
    (h : Begins (.value t) (bs ++ r) r) : Document t bs := by
  obtain ⟨m, cut, begins⟩ := h.of_append blank
  obtain rfl : m = [] := by simpa using cut
  exact ⟨[], begins, rfl⟩

/-- What is stored of a document of a list or an object is a document with the same tree. -/
theorem document_of_document {body : Bytes} {data : String} {t : Tree}
    (container : t.IsContainer) (whole : Document t body) (h : document body = .ok data) :
    Document t (Utf8.bytes data) := by
  obtain ⟨r, begins, last⟩ := whole
  have blank := blank_iff_skipBlank.mpr last
  obtain ⟨w, blank_w, cut⟩ := exists_blank_append_skipBlank body
  -- Its first and its last byte are no blanks, so trimming takes away what stands around them only.
  cases begins with
  | array first items =>
    obtain ⟨c, rfl⟩ := items.ends
    rw [cut, first] at h
    refine document_of_begins blank (.array ?_ items)
    rw [bytes_of_document blank_w blank (by decide) (by decide) (by decide) (by decide) h,
      List.cons_append, skipBlank_cons (by decide), List.append_assoc, List.singleton_append]
  | object first members =>
    obtain ⟨c, rfl⟩ := members.ends
    rw [cut, first] at h
    refine document_of_begins blank (.object ?_ members)
    rw [bytes_of_document blank_w blank (by decide) (by decide) (by decide) (by decide) h,
      List.cons_append, skipBlank_cons (by decide), List.append_assoc, List.singleton_append]
  | _ => exact container.elim

/-- What is stored of the body of a record has the value of its tree, which is one exactly if
the tree is sound. -/
theorem exists_tree {shape : Shape} {body : Bytes} {row : Row shape.fields} {data : String}
    (parsed : shape.parse body = .ok row) (stored : document body = .ok data) :
    ∃ t, Document t body ∧ (Json.parseText data).toOption = t.within maxDepth ∧
      ((t.within maxDepth).isSome = true ↔ t.Sound) := by
  obtain ⟨t, container, whole⟩ := Shape.exists_document parsed
  obtain ⟨cs, text, -⟩ := document_eq_ok stored
  have read := (document_of_document container whole stored).toOption_parse
  obtain ⟨r, begins, -⟩ := id whole
  exact ⟨t, whole, read, begins.isSome_within_iff ⟨cs, text⟩⟩

theorem row_eq_ok {shape : Shape} {body : Bytes} {row : Row shape.fields}
    (h : Record.row shape body = .ok row) : shape.parse body = .ok row := by
  unfold Record.row at h
  split at h
  · next parsed => rw [parsed, Except.ok.inj h]
  · simp at h

end Record

theorem FileRecord.exists_tree {body : Bytes} {f : FileRecord} (h : parse body = .ok f) :
    ∃ t, Document t body ∧ (Json.parseText f.data).toOption = t.within maxDepth ∧
      ((t.within maxDepth).isSome = true ↔ t.Sound) := by
  obtain ⟨row, parsed, h⟩ := Except.bind_eq_ok.mp h
  obtain ⟨-, -, h⟩ := Except.bind_eq_ok.mp h
  obtain ⟨-, -, h⟩ := Except.bind_eq_ok.mp h
  obtain ⟨data, stored, h⟩ := Except.bind_eq_ok.mp h
  rw [← Except.ok.inj h]
  exact Record.exists_tree (Record.row_eq_ok parsed) stored

theorem TraceRecord.exists_tree {stamp : Int} {body : Bytes} {e : TraceRecord}
    (h : parse stamp body = .ok e) :
    ∃ t, Document t body ∧ (Json.parseText e.data).toOption = t.within maxDepth ∧
      ((t.within maxDepth).isSome = true ↔ t.Sound) := by
  obtain ⟨row, parsed, h⟩ := Except.bind_eq_ok.mp h
  obtain ⟨-, -, h⟩ := Except.bind_eq_ok.mp h
  obtain ⟨data, stored, h⟩ := Except.bind_eq_ok.mp h
  rw [← Except.ok.inj h]
  exact Record.exists_tree (Record.row_eq_ok parsed) stored

end HashGateway
