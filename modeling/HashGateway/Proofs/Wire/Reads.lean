import HashGateway.Proofs.Numeral
import HashGateway.Proofs.Utf8
import HashGateway.Wire.Resp

/-!
# Reading what may be cut off

A reader of the protocol reads some bytes as a value if it does so whatever follows them, and
finds the connection closed if only a part of them is there. So a part is never read as another,
shorter value. Bytes that are read like this may be put after each other, and the protocol is put
together of a few kinds of them: lines, texts after their size, and items after their number.

## Main definitions

* `Wire.Reads` — a reader reads some bytes as a value, and no part of them

## Main results

* `Wire.Reads.bind` — one reader after another
* `Wire.reads_text`, `Wire.reads_integer`, `Wire.reads_sized` — lines, integers, and texts after
  their size
-/

namespace HashGateway

/-! ## Numerals -/

namespace Numeral

theorem toNat_of_mem_digits? {cs : List Char} {n : Nat} (h : digits? cs = some n) {c : Char}
    (mem : c ∈ cs) : '0'.toNat ≤ c.toNat ∧ c.toNat ≤ '9'.toNat := by
  simp only [digits?, Option.ite_none_left_eq_some, Option.map_eq_some_iff] at h
  obtain ⟨-, ds, read, -⟩ := h
  clear n
  induction cs generalizing ds with
  | nil => simp at mem
  | cons d cs ih =>
    obtain ⟨value, rest, first, others, rfl⟩ := mapM_digit?_cons.mp read
    rcases List.mem_cons.mp mem with rfl | mem
    · obtain ⟨small, value⟩ := digit?_eq_some first
      simp only [Char.reduceToNat] at value ⊢
      omega
    · exact ih mem rest others

/-- All characters of a numeral with a sign are between the plus sign and the largest digit. -/
theorem toNat_of_mem_integer? {cs : List Char} {i : Int} (h : integer? cs = some i) {c : Char}
    (mem : c ∈ cs) : '+'.toNat ≤ c.toNat ∧ c.toNat ≤ '9'.toNat := by
  have digit {cs : List Char} {n : Nat} (h : digits? cs = some n) (mem : c ∈ cs) :
      '+'.toNat ≤ c.toNat ∧ c.toNat ≤ '9'.toNat := by
    have range := toNat_of_mem_digits? h mem
    simp only [Char.reduceToNat] at range ⊢
    omega
  unfold integer? at h
  split at h
  · next cs =>
    obtain ⟨_, lifted, -⟩ := Option.map_eq_some_iff.mp h
    obtain ⟨n, read, -⟩ := Option.bind_eq_some_iff.mp lifted
    rcases List.mem_cons.mp mem with rfl | mem
    · decide
    · exact digit read mem
  · obtain ⟨n, read, -⟩ : ∃ n, digits? (unsign cs) = some n ∧ Int.ofNat n = i :=
      Option.map_eq_some_iff.mp h
    unfold unsign at read
    split at read
    · rcases List.mem_cons.mp mem with rfl | mem
      · decide
      · exact digit read mem
    · exact digit read mem

end Numeral

namespace Wire

variable {α β : Type} {limit : Nat} {p bs bs' : Bytes}

/-! ## Cut bytes -/

/-- What comes of some bytes when they are cut off before their end. -/
def IsCut (p bs : Bytes) : Prop := p <+: bs ∧ p ≠ bs

theorem not_isCut_nil : ¬ IsCut p [] := fun h => h.2 (List.prefix_nil.mp h.1)

/-- The cut is in the first bytes, or these are whole and it is in the second ones. -/
theorem isCut_append (h : IsCut p (bs ++ bs')) : IsCut p bs ∨ ∃ q, p = bs ++ q ∧ IsCut q bs' := by
  by_cases first : IsCut p bs
  · exact .inl first
  · obtain ⟨q, rfl⟩ : bs <+: p := by
      rcases List.prefix_or_prefix_of_prefix h.1 (List.prefix_append bs bs') with part | part
      · exact (not_not.mp fun other => first ⟨part, other⟩ : p = bs) ▸ List.prefix_rfl
      · exact part
    refine .inr ⟨q, rfl, (List.prefix_append_right_inj bs).mp h.1, ?_⟩
    rintro rfl
    exact h.2 rfl

theorem isCut_cons {b : UInt8} (h : IsCut p (b :: bs)) : p = [] ∨ ∃ q, p = b :: q ∧ IsCut q bs := by
  rcases List.prefix_cons_iff.mp h.1 with rfl | ⟨q, rfl, part⟩
  · exact .inl rfl
  · exact .inr ⟨q, rfl, part, fun remains => h.2 (by rw [remains])⟩

/-- The end of a line is cut off before its first byte or between its bytes. -/
theorem isCut_crlf (h : IsCut p crlf) : p = [] ∨ p = [0x0D] := by
  rcases isCut_cons h with rfl | ⟨q, rfl, inside⟩
  · exact .inl rfl
  · rcases isCut_cons inside with rfl | ⟨r, rfl, beyond⟩
    · exact .inr rfl
    · exact absurd beyond not_isCut_nil

/-! ## Readers -/

/-- A reader reads some bytes as a value whatever follows them, and finds the connection closed
when they are cut off. This is said of inputs of up to `limit` bytes, because a reader of lists
takes only so many steps. -/
structure Reads (limit : Nat) (read : Bytes → Except Failure (α × Bytes)) (bs : Bytes) (a : α) :
    Prop where
  whole : ∀ rest, (bs ++ rest).length ≤ limit → read (bs ++ rest) = .ok (a, rest)
  cut : ∀ p, p.length ≤ limit → IsCut p bs → read p = .error closed

namespace Reads

variable {read : Bytes → Except Failure (α × Bytes)} {a : α}

/-- One reader after another reads the bytes of both. -/
theorem bind {b : β} (first : Reads limit read bs a)
    (read' : α → Bytes → Except Failure (β × Bytes)) (second : Reads limit (read' a) bs' b) :
    Reads limit (fun bs => read bs >>= fun x => read' x.1 x.2) (bs ++ bs') b where
  whole rest fits := by
    rw [List.append_assoc] at fits ⊢
    rw [first.whole _ fits]
    exact second.whole rest (by rw [List.length_append] at fits; omega)
  cut p fits cut := by
    rcases isCut_append cut with early | ⟨q, rfl, late⟩
    · rw [first.cut p fits early]
      rfl
    · rw [first.whole q fits]
      exact second.cut q (by rw [List.length_append] at fits; omega) late

/-- A reader that takes no bytes. -/
theorem pure (a : α) : Reads limit (fun bs => .ok (a, bs)) [] a where
  whole _ _ := rfl
  cut _ _ cut := absurd cut not_isCut_nil

/-- The value that was read goes through a function. -/
theorem map (first : Reads limit read bs a) (f : α → β) :
    Reads limit (fun bs => read bs >>= fun x => .ok (f x.1, x.2)) bs (f a) := by
  have second := first.bind (fun a bs => .ok (f a, bs)) (pure (f a))
  rwa [List.append_nil] at second

/-- A mark before the bytes takes one step more. -/
theorem cons {read' : Bytes → Except Failure (α × Bytes)} {mark : UInt8}
    (h : Reads limit read bs a) (marked : ∀ bs, read' (mark :: bs) = read bs)
    (empty : read' [] = .error closed) : Reads (limit + 1) read' (mark :: bs) a where
  whole rest fits := by
    rw [List.cons_append, marked]
    exact h.whole rest (by simpa using fits)
  cut p fits cut := by
    rcases isCut_cons cut with rfl | ⟨q, rfl, inside⟩
    · exact empty
    · rw [marked]
      exact h.cut q (by simpa using fits) inside

end Reads

/-! ## Lines -/

theorem readLine_append_crlf {text : Bytes} (h : 0x0D ∉ text) (rest : Bytes) :
    readLine (text ++ crlf ++ rest) = some (text, rest) := by
  induction text with
  | nil => rfl
  | cons b text ih =>
    obtain ⟨first, others⟩ := not_or.mp (List.mem_cons.not.mp h)
    obtain ⟨c, more, next⟩ : ∃ c more, text ++ crlf ++ rest = c :: more := by
      cases text <;> exact ⟨_, _, rfl⟩
    rw [List.cons_append, List.cons_append, next, readLine, ← next, ih others]
    simp [Ne.symm first]

/-- A line that is cut off is none. -/
theorem readLine_of_isCut {text : Bytes} (h : 0x0D ∉ text) (cut : IsCut p (text ++ crlf)) :
    readLine p = none := by
  induction text generalizing p with
  | nil => rcases isCut_crlf cut with rfl | rfl <;> rfl
  | cons b text ih =>
    obtain ⟨first, others⟩ := not_or.mp (List.mem_cons.not.mp h)
    rcases isCut_cons cut with rfl | ⟨q, rfl, inside⟩
    · rfl
    · have no_line := ih others inside
      cases q with
      | nil => rfl
      | cons c q =>
        rw [readLine, no_line]
        simp [Ne.symm first]

theorem not_mem_encode {cs : List Char} (h : '\r' ∉ cs) : 0x0D ∉ Utf8.encode cs := by
  intro mem
  obtain ⟨c, mem_cs, mem⟩ := List.mem_flatMap.mp mem
  have alone := Utf8.encodeChar_eq_singleton mem (by decide)
  have encoded : Utf8.encode [c] = Utf8.encode ['\r'] := by
    rw [Utf8.encode_cons, alone]
    rfl
  obtain rfl : c = '\r' := by simpa using Utf8.encode_injective encoded
  exact h mem_cs

/-- A line without a carriage return in it is read as its text. -/
theorem reads_text {cs : List Char} (h : '\r' ∉ cs) :
    Reads limit readText (Utf8.encode cs ++ crlf) cs where
  whole rest fits := by
    simp only [readText, readLine_append_crlf (not_mem_encode h), Utf8.decode_encode]
  cut p fits cut := by simp only [readText, readLine_of_isCut (not_mem_encode h) cut]

theorem integer?_eq_some_iff {cs : List Char} {i : Int} : integer? cs = some i ↔
    Numeral.integer? cs = some i ∧ -Numeral.half64 ≤ i ∧ i < Numeral.half64 := by
  unfold integer?
  split
  · next j read =>
    rw [read]
    simp only [Bool.and_eq_true, decide_eq_true_eq, Option.ite_none_right_eq_some,
      Option.some.injEq]
    constructor
    · rintro ⟨range, rfl⟩
      exact ⟨rfl, range⟩
    · rintro ⟨rfl, range⟩
      exact ⟨range, rfl⟩
  · next refused => simp [refused]

theorem integer?_render {n : Nat} (small : n < Numeral.half64) :
    integer? (Numeral.render n) = some (n : Int) :=
  integer?_eq_some_iff.mpr ⟨Numeral.integer?_renderInt n, by omega, by omega⟩

/-- A line with a numeral is read as its integer. -/
theorem reads_integer {numeral : List Char} {i : Int} (h : integer? numeral = some i) :
    Reads limit readInteger (Utf8.encode numeral ++ crlf) i := by
  have range {c : Char} (mem : c ∈ numeral) :=
    Numeral.toNat_of_mem_integer? (integer?_eq_some_iff.mp h).1 mem
  -- A numeral holds neither blanks nor a line end, so the line is read as it was written.
  have visible {c : Char} (mem : c ∈ numeral) : Text.isBlank c = false := by
    have range := range mem
    simp only [Char.reduceToNat] at range
    simp only [Text.isBlank, Bool.or_eq_false_iff, Bool.and_eq_false_iff, decide_eq_false_iff_not,
      beq_eq_false_iff_ne]
    omega
  have trimmed : Text.trim numeral = numeral :=
    Text.trim_eq_self (fun c mem => visible (List.mem_of_mem_head? mem))
      fun c mem => visible (List.mem_of_mem_getLast? mem)
  have inside : '\r' ∉ numeral := fun mem => by
    have range := range mem
    simp only [Char.reduceToNat] at range
    omega
  have text : Reads limit readText (Utf8.encode numeral ++ crlf) numeral := reads_text inside
  constructor
  · intro rest fits
    rw [readInteger, text.whole rest fits]
    simp only [bind, Except.bind, trimmed, h]
    rfl
  · intro p fits cut
    rw [readInteger, text.cut p fits cut]
    rfl

/-! ## Texts after their size, and items after their number -/

theorem reads_sized (b : Bytes) : Reads limit (readSized b.length) (b ++ crlf) b where
  whole rest fits := by simp [readSized, crlf]
  cut p fits cut := by
    by_cases short : p.length < b.length
    · rw [readSized, if_pos short]
    · rcases isCut_append cut with ⟨part, other⟩ | ⟨q, rfl, late⟩
      · exact absurd (part.eq_of_length_le (Nat.not_lt.mp short)) other
      · rw [readSized, if_neg short, List.drop_left]
        rcases isCut_crlf late with rfl | rfl <;> rfl

section Many

variable {item : Bytes → Except Failure (Meaning × Bytes)}

theorem reads_many_zero : Reads limit (readMany item 0) [] [] := Reads.pure []

/-- One item more. -/
theorem reads_many_succ {bs bs' : Bytes} {m : Meaning} {ms : List Meaning} {count : Nat}
    (first : Reads limit item bs m) (others : Reads limit (readMany item count) bs' ms) :
    Reads limit (readMany item (count + 1)) (bs ++ bs') (m :: ms) :=
  first.bind (fun m bs => readMany item count bs >>= fun x => .ok (m :: x.1, x.2))
    (others.map (m :: ·))

end Many

end Wire

end HashGateway
