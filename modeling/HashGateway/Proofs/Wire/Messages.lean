import HashGateway.Proofs.Results
import HashGateway.Proofs.Wire.Reads

/-!
# Messages as they are written

A message of the second version of the protocol is a line of text, an error, an integer, a text of
any bytes, no value, or a list of messages. Here it is said which bytes write a message. A whole
message is read as its value, or as a failure of the command if it holds an error, and a part of
it is never read as anything: the connection is then found to be closed.

## Main definitions

* `Wire.Message` — a message by what it says
* `Wire.Message.value?` — the value of a message without errors
* `Wire.Written` — some bytes write a message

## Main results

* `Wire.decode_of_written` — a whole message means its value
* `Wire.decode_of_isCut` — a message that is cut off means that the connection is closed
* `Wire.decode_encodeFailure` — an error is a failure of the command
-/

namespace HashGateway.Wire

/-- A message by what it says. -/
inductive Message
  | simple (text : List Char)
  | error (text : List Char)
  | integer (i : Int)
  | bulk (b : Bytes)
  | null
  | array (items : List Message)

mutual

/-- The value of a message. There is none if an error is in it. -/
def Message.value? : Message → Option Reply
  | .simple text => some (if text = ['O', 'K'] then .okay else .simple (String.ofList text))
  | .error _ => none
  | .integer i => some (.int i)
  | .bulk b => some (.bytes b)
  | .null => some .nil
  | .array items => (Message.values? items).map .array

/-- The values of messages, if no error is in any of them. -/
def Message.values? : List Message → Option (List Reply)
  | [] => some []
  | m :: ms => m.value?.bind fun r => (Message.values? ms).map fun rs => r :: rs

end

mutual

/-- Some bytes write a message whose lists are at most `depth` deep inside each other. Lines have
no carriage return in them, and a size or a number of items is any numeral of it. -/
inductive Written : (depth : Nat) → Message → Bytes → Prop
  | simple {depth : Nat} {text : List Char} (oneLine : '\r' ∉ text) :
      Written depth (.simple text) (line '+' (Utf8.encode text))
  | error {depth : Nat} {text : List Char} (oneLine : '\r' ∉ text) :
      Written depth (.error text) (line '-' (Utf8.encode text))
  | integer {depth : Nat} {numeral : List Char} {i : Int} (read : integer? numeral = some i) :
      Written depth (.integer i) (line ':' (Utf8.encode numeral))
  | bulk {depth : Nat} {size : List Char} {b : Bytes}
      (read : integer? size = some (b.length : Int)) :
      Written depth (.bulk b) (line '$' (Utf8.encode size) ++ (b ++ crlf))
  | null {depth : Nat} : Written depth .null (line '$' (Utf8.bytes "-1"))
  | nullArray {depth : Nat} : Written depth .null (line '*' (Utf8.bytes "-1"))
  | array {depth : Nat} {count : List Char} {items : List Message} {bs : Bytes}
      (read : integer? count = some (items.length : Int)) (inside : WrittenAll depth items bs) :
      Written (depth + 1) (.array items) (line '*' (Utf8.encode count) ++ bs)

/-- Some bytes write messages one after the other. -/
inductive WrittenAll : (depth : Nat) → List Message → Bytes → Prop
  | nil {depth : Nat} : WrittenAll depth [] []
  | cons {depth : Nat} {m : Message} {ms : List Message} {bs bs' : Bytes}
      (first : Written depth m bs) (others : WrittenAll depth ms bs') :
      WrittenAll depth (m :: ms) (bs ++ bs')

end

mutual

/-- What a message means: its value, or the first error in it. -/
def Message.meaning : Message → Meaning
  | .simple text => .ok (if text = ['O', 'K'] then .okay else .simple (String.ofList text))
  | .error text => .error (worded text)
  | .integer i => .ok (.int i)
  | .bulk b => .ok (.bytes b)
  | .null => .ok .nil
  | .array items => (values (Message.meanings items)).map .array

/-- What messages mean. -/
def Message.meanings : List Message → List Meaning
  | [] => []
  | m :: ms => m.meaning :: Message.meanings ms

end

/-! ## Meanings -/

mutual

theorem Message.toOption_meaning : (m : Message) → m.meaning.toOption = m.value?
  | .simple _ | .error _ | .integer _ | .bulk _ | .null => rfl
  | .array items => by
    rw [meaning, value?, Except.toOption_map, Message.toOption_meanings items]

theorem Message.toOption_meanings :
    (ms : List Message) → (values (Message.meanings ms)).toOption = Message.values? ms
  | [] => rfl
  | m :: ms => by
    rw [meanings, values, values?, ← Message.toOption_meaning m, ← Message.toOption_meanings ms]
    cases m.meaning <;> cases values (meanings ms) <;> rfl

end

/-- The words of a server never say that the connection failed. -/
theorem isConnection_worded (text : List Char) : (worded text).isConnection = false := by
  unfold worded
  dsimp only
  split
  · next kind found =>
    unfold codeKind? at found
    split at found <;> first | (obtain rfl := Option.some.inj found; rfl) | simp at found
  · rfl

/-! ## Reading -/

/-- Goes on after a number. Below zero it stands for no value. -/
def afterNumber (g : Nat → Bytes → Except Failure (Meaning × Bytes)) (bs : Bytes) :
    Except Failure (Meaning × Bytes) :=
  readInteger bs >>= fun x => if x.1 < 0 then .ok (.ok .nil, x.2) else g x.1.toNat x.2

/-- Reads a text of a size. -/
def readBulk (size : Nat) (bs : Bytes) : Except Failure (Meaning × Bytes) :=
  readSized size bs >>= fun x => .ok (.ok (.bytes x.1), x.2)

/-- Reads a list of a number of items. -/
def readItems (item : Bytes → Except Failure (Meaning × Bytes)) (count : Nat) (bs : Bytes) :
    Except Failure (Meaning × Bytes) :=
  readMany item count bs >>= fun x => .ok ((values x.1).map .array, x.2)

section Marks

variable {steps level : Nat}

theorem readReply_nil : readReply steps level [] = .error closed := by
  cases steps <;> rfl

theorem readReply_simple (bs : Bytes) : readReply (steps + 1) level (0x2B :: bs) =
    readText bs >>= fun x =>
      .ok (.ok (if x.1 = ['O', 'K'] then .okay else .simple (String.ofList x.1)), x.2) := by
  rw [readReply]
  rfl

theorem readReply_error (bs : Bytes) : readReply (steps + 1) level (0x2D :: bs) =
    readText bs >>= fun x => .ok (.error (worded x.1), x.2) := by
  rw [readReply]
  rfl

theorem readReply_integer (bs : Bytes) : readReply (steps + 1) level (0x3A :: bs) =
    readInteger bs >>= fun x => .ok (.ok (.int x.1), x.2) := by
  rw [readReply]
  rfl

theorem readReply_bulk (bs : Bytes) :
    readReply (steps + 1) level (0x24 :: bs) = afterNumber readBulk bs := by
  rw [readReply]
  rfl

theorem readReply_array (shallow : level < maxDepth) (bs : Bytes) :
    readReply (steps + 1) level (0x2A :: bs) =
      afterNumber (readItems (readReply steps (level + 1))) bs := by
  rw [readReply]
  simp only [if_neg (Nat.not_le.mpr shallow)]
  rfl

end Marks

section Numbers

variable {limit : Nat} {numeral : List Char} {g : Nat → Bytes → Except Failure (Meaning × Bytes)}

theorem reads_negative {i : Int} (read : integer? numeral = some i) (negative : i < 0) :
    Reads limit (afterNumber g) (Utf8.encode numeral ++ crlf) (.ok .nil) := by
  have nothing : Reads limit
      (fun bs => if i < 0 then .ok (Except.ok Reply.nil, bs) else g i.toNat bs) [] (.ok .nil) := by
    simpa only [negative, if_true] using Reads.pure (Except.ok Reply.nil)
  have number := (reads_integer read).bind
    (fun i bs => if i < 0 then .ok (.ok .nil, bs) else g i.toNat bs) nothing
  rwa [List.append_nil] at number

theorem reads_counted {n : Nat} {bs : Bytes} {meaning : Meaning}
    (read : integer? numeral = some (n : Int)) (counted : Reads limit (g n) bs meaning) :
    Reads limit (afterNumber g) (Utf8.encode numeral ++ crlf ++ bs) meaning :=
  (reads_integer read).bind (fun i bs => if i < 0 then .ok (.ok .nil, bs) else g i.toNat bs)
    (by simpa)

theorem reads_bulk (b : Bytes) : Reads limit (readBulk b.length) (b ++ crlf) (.ok (.bytes b)) :=
  (reads_sized b).map fun b => Except.ok (Reply.bytes b)

theorem reads_items {item : Bytes → Except Failure (Meaning × Bytes)} {count : Nat} {bs : Bytes}
    {ms : List Meaning} (items : Reads limit (readMany item count) bs ms) :
    Reads limit (readItems item count) bs ((values ms).map .array) :=
  items.map fun ms => (values ms).map Reply.array

end Numbers

/-- Nothing is read without a step. -/
theorem reads_reply_zero {level : Nat} {mark : UInt8} {bs : Bytes} {meaning : Meaning} :
    Reads 0 (readReply 0 level) (mark :: bs) meaning where
  whole rest fits := by simp at fits
  cut p fits _ := rfl

theorem integer?_minusOne : integer? "-1".toList = some (-1) := by decide

mutual

/-- Written messages are read as what they mean. The items of a list are inside one list more,
and they are read with one step less. -/
theorem Written.reads {depth : Nat} {m : Message} {bs : Bytes} :
    Written depth m bs → ∀ {level : Nat}, level + depth < maxDepth → ∀ steps : Nat,
      Reads steps (readReply steps level) bs m.meaning
  | written, _, _, 0 => by cases written <;> exact reads_reply_zero
  | .simple oneLine, _, _, steps + 1 =>
    ((reads_text oneLine).map fun cs => .ok (if cs = ['O', 'K'] then .okay
      else .simple (String.ofList cs))).cons readReply_simple readReply_nil
  | .error oneLine, _, _, steps + 1 =>
    ((reads_text oneLine).map fun cs => .error (worded cs)).cons readReply_error readReply_nil
  | .integer read, _, _, steps + 1 =>
    ((reads_integer read).map fun i => .ok (.int i)).cons readReply_integer readReply_nil
  | .bulk read, _, _, steps + 1 =>
    (reads_counted read (reads_bulk _)).cons readReply_bulk readReply_nil
  | .null, _, _, steps + 1 =>
    (reads_negative integer?_minusOne (by decide)).cons readReply_bulk readReply_nil
  | .nullArray, _, shallow, steps + 1 =>
    (reads_negative integer?_minusOne (by decide)).cons (readReply_array (by omega)) readReply_nil
  | .array read inside, _, shallow, steps + 1 =>
    (reads_counted read (reads_items (inside.reads (by omega) steps))).cons
      (readReply_array (by omega)) readReply_nil

theorem WrittenAll.reads {depth : Nat} {ms : List Message} {bs : Bytes} :
    WrittenAll depth ms bs → ∀ {level : Nat}, level + depth < maxDepth → ∀ steps : Nat,
      Reads steps (readMany (readReply steps level) ms.length) bs (Message.meanings ms)
  | .nil, _, _, steps => reads_many_zero
  | .cons first others, _, shallow, steps =>
    reads_many_succ (first.reads shallow steps) (others.reads shallow steps)

end

/-- No message is one that may come before a reply. -/
theorem Written.head?_ne {depth : Nat} {m : Message} {bs : Bytes} (h : Written depth m bs) :
    bs.head? ≠ some 0x3E := by
  cases h <;> exact fun terminal => absurd (Option.some.inj terminal) (by decide)

theorem decode_of_readReply {bs rest : Bytes} {meaning : Meaning}
    (read : readReply bs.length 0 bs = .ok (meaning, rest)) (head : bs.head? ≠ some 0x3E) :
    decode bs = meaning := by
  rw [decode, readAnswer, read]
  exact if_neg head

/-- A whole message means its value, or a failure of the command that is in it. -/
theorem decode_of_written {depth : Nat} {m : Message} {bs : Bytes} (h : Written depth m bs)
    (shallow : depth < maxDepth) : decode bs = m.meaning := by
  have outermost : 0 + depth < maxDepth := by omega
  have whole := (h.reads outermost bs.length).whole [] (by simp)
  rw [List.append_nil] at whole
  exact decode_of_readReply whole h.head?_ne

/-- A whole message without errors is read as its value. -/
theorem decode_of_value? {depth : Nat} {m : Message} {bs : Bytes} {reply : Reply}
    (h : Written depth m bs) (shallow : depth < maxDepth) (value : m.value? = some reply) :
    decode bs = .ok reply := by
  rw [decode_of_written h shallow, ← Except.toOption_eq_some, m.toOption_meaning, value]

/-- A message that is cut off means that the connection is closed. -/
theorem decode_of_isCut {depth : Nat} {m : Message} {p bs : Bytes} (h : Written depth m bs)
    (shallow : depth < maxDepth) (cut : IsCut p bs) : decode p = .error closed := by
  have outermost : 0 + depth < maxDepth := by omega
  rw [decode, readAnswer, (h.reads outermost p.length).cut p le_rfl cut]
  rfl

/-- A list that lacks an item is not a shorter list. -/
example : decode (Utf8.bytes "*2\r\n$1\r\na\r\n") = .error closed := rfl

/-! ### Errors with line breaks

The words of an error may have line breaks in them. Then the error ends with the first of them. -/

theorem eq_of_readLine {bs text rest : Bytes} (h : readLine bs = some (text, rest)) :
    bs = text ++ crlf ++ rest := by
  fun_induction readLine bs generalizing text with
  | case1 | case4 => simp at h
  | case2 a b rest' ends =>
    simp only [Bool.and_eq_true, decide_eq_true_eq] at ends
    obtain ⟨rfl, rfl⟩ := Prod.mk.inj (Option.some.inj h)
    simp [ends.1, ends.2, crlf]
  | case3 a b rest' _ ih =>
    obtain ⟨⟨text', rest''⟩, read, result⟩ := Option.map_eq_some_iff.mp h
    obtain ⟨rfl, rfl⟩ := Prod.mk.inj result
    rw [ih read]
    rfl

theorem exists_readLine (bs : Bytes) : ∃ text rest, readLine (bs ++ crlf) = some (text, rest) := by
  induction bs with
  | nil => exact ⟨[], [], rfl⟩
  | cons b bs ih =>
    obtain ⟨text, rest, read⟩ := ih
    obtain ⟨c, more, next⟩ : ∃ c more, bs ++ crlf = c :: more := by
      cases bs <;> exact ⟨_, _, rfl⟩
    rw [List.cons_append, next, readLine, ← next, read]
    split
    · exact ⟨_, _, rfl⟩
    · exact ⟨_, _, rfl⟩

theorem exists_readText (cs : List Char) :
    ∃ ds rest, readText (Utf8.encode cs ++ crlf) = .ok (ds, rest) := by
  obtain ⟨text, rest, read⟩ := exists_readLine (Utf8.encode cs)
  -- The line ends at a byte below `0x80`, so it is a text itself.
  have whole : Utf8.IsText (Utf8.encode cs ++ crlf) :=
    Utf8.IsText.append ⟨cs, rfl⟩ ⟨['\r', '\n'], rfl⟩
  rw [eq_of_readLine read, List.append_assoc] at whole
  obtain ⟨⟨ds, rfl⟩, -⟩ := whole.split (by decide)
  exact ⟨ds, rest, by simp only [readText, read, Utf8.decode_encode]⟩

/-- An error of any words means a failure of the command. -/
theorem decode_encodeFailure (text : String) :
    ∃ failure, decode (encodeFailure text) = .error failure ∧ failure.isConnection = false := by
  obtain ⟨ds, rest, read⟩ := exists_readText text.toList
  have marked : encodeFailure text = 0x2D :: (Utf8.encode text.toList ++ crlf) := rfl
  have failed : readReply (encodeFailure text).length 0 (encodeFailure text) =
      .ok (.error (worded ds), rest) := by
    rw [marked, List.length_cons, readReply_error, read]
    rfl
  have head : (encodeFailure text).head? ≠ some 0x3E :=
    fun terminal => absurd (Option.some.inj terminal) (by decide)
  exact ⟨worded ds, decode_of_readReply failed head, isConnection_worded ds⟩

/-! ## Texts in a list -/

/-- A list of texts as messages. -/
def Message.texts (parts : List String) : List Message := parts.map fun s => .bulk (Utf8.bytes s)

theorem Message.values?_texts (parts : List String) :
    values? (texts parts) = some (parts.map .bulk) := by
  induction parts with
  | nil => rfl
  | cons part parts ih =>
    rw [texts, List.map_cons, ← texts, values?, ih]
    rfl

theorem written_bulk {depth : Nat} {b : Bytes} (short : b.length < Numeral.half64) :
    Written depth (.bulk b) (encodeReply (.bytes b)) := by
  rw [encodeReply, sized, List.append_assoc]
  exact .bulk (integer?_render short)

theorem writtenAll_texts {depth : Nat} {parts : List String}
    (short : ∀ part ∈ parts, (Utf8.bytes part).length < Numeral.half64) :
    WrittenAll depth (Message.texts parts) (encodeReplies (parts.map .bulk)) := by
  induction parts with
  | nil => exact .nil
  | cons part parts ih =>
    exact .cons (written_bulk (short part (by simp)))
      (ih fun other mem => short other (by simp [mem]))

/-- A list of texts is written as it is encoded. -/
theorem written_texts {depth : Nat} {parts : List String} (few : parts.length < Numeral.half64)
    (short : ∀ part ∈ parts, (Utf8.bytes part).length < Numeral.half64) :
    Written (depth + 1) (.array (Message.texts parts))
      (encodeReply (.array (parts.map .bulk))) := by
  rw [encodeReply, List.length_map]
  refine .array ?_ (writtenAll_texts short)
  rw [Message.texts, List.length_map]
  exact integer?_render few

end HashGateway.Wire
