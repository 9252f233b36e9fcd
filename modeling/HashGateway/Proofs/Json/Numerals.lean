import HashGateway.Proofs.Json.Lexemes
import HashGateway.Proofs.Numeral
import HashGateway.Proofs.Utf8

/-!
# Numbers that are written

What is written for a number is a number of the grammar, whatever follows that is no part of
one. A number that is written has digits before its point, the first of which is zero only if it
is the only one, and what comes after them is a fraction and an exponent or neither.

## Main definitions

* `Json.Stops` — bytes with which no number goes on
* `Json.NumeralText` — the texts of numbers without their sign

## Main results

* `Json.NumeralText.exists_read` — a text of a number is read up to its end
* `Json.number?_whole`, `Json.number?_opposite` — the values of digits without a fraction and an
  exponent
* `Json.of_number?_eq_int` — integers have no fraction and no exponent
* `Json.exists_read_render` — what is written for a natural number of 64 bits is read as this number
* `Json.Number.exists_render` — every number is written as a sign and the text of a number
-/

namespace HashGateway.Json

open Utf8 (encode encodeChar)

/-- Bytes with which no number goes on. -/
def Stops (r : Bytes) : Prop := ∀ b ∈ r.head?, b = 0x2C ∨ b = 0x5D ∨ b = 0x7D

/-! ## Digits -/

theorem digit?_encodeChar {c : Char} {d : Nat} (h : Numeral.digit? c = some d) :
    ∃ b, encodeChar c = [b] ∧ digit? b = some d := by
  obtain ⟨small, value⟩ := Numeral.digit?_eq_some h
  simp only [Char.reduceToNat] at value
  have byte := Utf8.toNat_ofNat (n := c.toNat) (by omega)
  refine ⟨UInt8.ofNat c.toNat, by rw [encodeChar, if_pos (by omega)], ?_⟩
  simp only [digit?, byte, Bool.and_eq_true, decide_eq_true_eq]
  rw [if_pos (by omega), value]
  simp

/-- Digits are read up to their end. -/
theorem digits_encode {cs : List Char} {ds : List Nat} {r : Bytes}
    (h : cs.mapM Numeral.digit? = some ds) (stop : ∀ b ∈ r.head?, digit? b = none) :
    digits (encode cs ++ r) = (ds, r) := by
  induction cs generalizing ds with
  | nil =>
    obtain rfl : [] = ds := by simpa using h
    cases r with
    | nil => rfl
    | cons b r => simp [Utf8.encode_nil, digits, stop b rfl]
  | cons c cs ih =>
    obtain ⟨d, rest, first, others, rfl⟩ := Numeral.mapM_digit?_cons.mp h
    obtain ⟨b, byte, digit⟩ := digit?_encodeChar first
    rw [Utf8.encode_cons, byte, List.singleton_append, List.cons_append, digits, ih others]
    simp [digit]

theorem exists_digit? {c : Char} (h : c.isDigit = true) : ∃ d, Numeral.digit? c = some d := by
  have range : '0' ≤ c ∧ c ≤ '9' := by
    simpa [Char.isDigit, Char.le_def] using h
  exact ⟨_, by rw [Numeral.digit?, if_pos (by simpa using range)]⟩

theorem exists_mapM_digit? {cs : List Char} (h : ∀ c ∈ cs, c.isDigit = true) :
    ∃ ds, cs.mapM Numeral.digit? = some ds ∧ ds.length = cs.length := by
  induction cs with
  | nil => exact ⟨[], rfl, rfl⟩
  | cons c cs ih =>
    obtain ⟨d, first⟩ := exists_digit? (h c (by simp))
    obtain ⟨ds, rest, length⟩ := ih fun c mem => h c (List.mem_cons_of_mem _ mem)
    exact ⟨d :: ds, Numeral.mapM_digit?_cons.mpr ⟨d, ds, first, rest, rfl⟩, by simp [length]⟩

/-- Digits are read up to their end, and if there are some, some are read. -/
theorem exists_digits_encode {cs : List Char} (h : ∀ c ∈ cs, c.isDigit = true)
    (some_digit : cs ≠ []) : ∃ d ds, ∀ r : Bytes, (∀ b ∈ r.head?, digit? b = none) →
      digits (encode cs ++ r) = (d :: ds, r) := by
  obtain ⟨ds, read, length⟩ := exists_mapM_digit? h
  cases ds with
  | nil => exact absurd (List.length_eq_zero_iff.mp length.symm) some_digit
  | cons d ds => exact ⟨d, ds, fun r stop => digits_encode read stop⟩

/-! ## The parts of a number -/

/-- The digits before the point. -/
inductive WholeText : List Char → Prop
  | zero : WholeText ['0']
  | digits {c : Char} {cs : List Char} (first : c.isDigit = true) (other : c ≠ '0')
      (rest : ∀ c ∈ cs, c.isDigit = true) : WholeText (c :: cs)

/-- The point and the digits after it. -/
inductive FractionText : List Char → Prop
  | absent : FractionText []
  | digits {cs : List Char} (all : ∀ c ∈ cs, c.isDigit = true) (one : cs ≠ []) :
      FractionText ('.' :: cs)

/-- The exponent with its sign. -/
inductive ExponentText : List Char → Prop
  | absent : ExponentText []
  | digits {sign : Char} {cs : List Char} (signed : sign = '+' ∨ sign = '-')
      (all : ∀ c ∈ cs, c.isDigit = true) (one : cs ≠ []) : ExponentText ('e' :: sign :: cs)

/-- The texts of numbers without their sign. -/
inductive NumeralText : List Char → Prop
  | mk {whole fraction exponent : List Char} (w : WholeText whole) (f : FractionText fraction)
      (e : ExponentText exponent) : NumeralText (whole ++ (fraction ++ exponent))

theorem WholeText.exists_digits {cs : List Char} (h : WholeText cs) :
    ∃ d ds, cs.mapM Numeral.digit? = some (d :: ds) ∧ (d = 0 → ds = []) := by
  cases h with
  | zero => exact ⟨0, [], rfl, fun _ => rfl⟩
  | @digits c cs first other rest =>
    obtain ⟨d, digit⟩ := exists_digit? first
    obtain ⟨ds, digits, -⟩ := exists_mapM_digit? rest
    refine ⟨d, ds, Numeral.mapM_digit?_cons.mpr ⟨d, ds, digit, digits, rfl⟩, ?_⟩
    rintro rfl
    exact absurd (Char.toNat_inj.mp (Numeral.digit?_eq_some digit).2) other

namespace Stops

variable {r : Bytes}

theorem no_digit (h : Stops r) : ∀ b ∈ r.head?, digit? b = none := by
  intro b mem
  rcases h b mem with rfl | rfl | rfl <;> rfl

theorem readExponent (h : Stops r) : Figures.readExponent r = .ok (none, r) := by
  cases r with
  | nil => rfl
  | cons b r => rcases h b rfl with rfl | rfl | rfl <;> rfl

theorem readFraction (h : Stops r) : Figures.readFraction r = .ok ([], r) := by
  cases r with
  | nil => rfl
  | cons b r => rcases h b rfl with rfl | rfl | rfl <;> rfl

end Stops

/-- An exponent is read up to its end. -/
theorem ExponentText.exists_read {cs : List Char} (h : ExponentText cs) :
    ∃ x, ∀ r, Stops r → Figures.readExponent (encode cs ++ r) = .ok (x, r) := by
  cases h with
  | absent => exact ⟨_, fun r stops => stops.readExponent⟩
  | @digits sign cs signed all one =>
    obtain ⟨d, ds, read⟩ := exists_digits_encode all one
    have mark (r : Bytes) : encode ('e' :: sign :: cs) ++ r = 0x65 :: (encode (sign :: cs) ++ r) :=
      rfl
    rcases signed with rfl | rfl
    · refine ⟨some (false, d :: ds), fun r stops => ?_⟩
      have plus : encode ('+' :: cs) ++ r = 0x2B :: (encode cs ++ r) := rfl
      rw [mark, Figures.readExponent_cons, plus]
      simp [Figures.sign, read r stops.no_digit]
    · refine ⟨some (true, d :: ds), fun r stops => ?_⟩
      have minus : encode ('-' :: cs) ++ r = 0x2D :: (encode cs ++ r) := rfl
      rw [mark, Figures.readExponent_cons, minus]
      simp [Figures.sign, read r stops.no_digit]

/-- Neither a fraction nor digits go on with an exponent. -/
theorem ExponentText.apart {cs : List Char} {r : Bytes} (h : ExponentText cs) (stops : Stops r) :
    Figures.readFraction (encode cs ++ r) = .ok ([], encode cs ++ r) ∧
      ∀ b ∈ (encode cs ++ r).head?, digit? b = none := by
  cases h with
  | absent => exact ⟨stops.readFraction, stops.no_digit⟩
  | @digits sign cs _ _ _ =>
    have mark : encode ('e' :: sign :: cs) ++ r = 0x65 :: (encode (sign :: cs) ++ r) := rfl
    rw [mark]
    exact ⟨rfl, by simp [digit?]⟩

/-- A fraction is read up to its end. -/
theorem FractionText.exists_read {cs : List Char} (h : FractionText cs) :
    ∃ ds, ∀ r, Figures.readFraction r = .ok ([], r) → (∀ b ∈ r.head?, digit? b = none) →
      Figures.readFraction (encode cs ++ r) = .ok (ds, r) := by
  cases h with
  | absent => exact ⟨[], fun r plain _ => plain⟩
  | @digits cs all one =>
    obtain ⟨d, ds, read⟩ := exists_digits_encode all one
    refine ⟨d :: ds, fun r _ stop => ?_⟩
    have point : encode ('.' :: cs) ++ r = 0x2E :: (encode cs ++ r) := rfl
    rw [point, Figures.readFraction, if_pos rfl, read r stop]

/-- Digits do not go on with a fraction. -/
theorem FractionText.apart {cs : List Char} {r : Bytes} (h : FractionText cs)
    (stop : ∀ b ∈ r.head?, digit? b = none) : ∀ b ∈ (encode cs ++ r).head?, digit? b = none := by
  cases h with
  | absent => exact stop
  | @digits cs all one =>
    have point : encode ('.' :: cs) ++ r = 0x2E :: (encode cs ++ r) := rfl
    rw [point]
    simp [digit?]

/-- A text of a number is read up to its end. -/
theorem NumeralText.exists_read {cs : List Char} (h : NumeralText cs) :
    ∃ x, ∀ r, Stops r → Figures.read (encode cs ++ r) = .ok (x, r) := by
  cases h with
  | @mk W F E w f e =>
    obtain ⟨exponent, last⟩ := e.exists_read
    obtain ⟨fraction, middle⟩ := f.exists_read
    obtain ⟨d, ds, digits, single⟩ := w.exists_digits
    refine ⟨⟨d :: ds, fraction, exponent⟩, fun r stops => ?_⟩
    -- Each part ends where the next one begins, so they are read from the last to the first.
    obtain ⟨plain, stop⟩ := e.apart stops
    have tail : Figures.readTail (d :: ds) (encode F ++ (encode E ++ r)) =
        .ok (⟨d :: ds, fraction, exponent⟩, r) := by
      simp only [Figures.readTail, middle _ plain stop, last r stops, bind, Except.bind]
      rfl
    rw [Utf8.encode_append, Utf8.encode_append, List.append_assoc, List.append_assoc,
      Figures.read_eq, digits_encode digits (f.apart stop)]
    cases d with
    | zero =>
      obtain rfl := single rfl
      exact tail
    | succ d => exact tail

/-! ## Integers -/

theorem wholeText_render (n : Nat) : WholeText (Numeral.render n) := by
  induction n using Nat.strongRecOn with
  | ind n ih =>
    by_cases small : n < 10
    · rw [Numeral.render, Nat.toDigits_of_lt_base small]
      interval_cases n
      · exact .zero
      all_goals exact .digits rfl (by decide) (by simp)
    · -- The digits before the last one are those of the quotient, which is not zero.
      have last : (Nat.digitChar (n % 10)).isDigit = true :=
        Numeral.isDigit_of_mem_render (n := n % 10) (by
          rw [Numeral.render, Nat.toDigits_of_lt_base (by omega)]
          exact .head _)
      have shorter := ih (n / 10) (by omega)
      rw [Numeral.render, Nat.toDigits_of_base_le (by omega) (by omega), ← Numeral.render]
      generalize rendered : Numeral.render (n / 10) = cs at shorter
      cases shorter with
      | zero =>
        have zero : n / 10 = 0 := Numeral.render_injective (rendered.trans rfl)
        omega
      | digits first other rest =>
        refine .digits first other fun c mem => ?_
        rcases List.mem_append.mp mem with mem | mem
        · exact rest c mem
        · rw [List.mem_singleton.mp mem]
          exact last

theorem numeralText_render (n : Nat) : NumeralText (Numeral.render n) := by
  simpa using NumeralText.mk (wholeText_render n) .absent .absent

theorem le_foldl_digits (m : Nat) (ds : List Nat) : m ≤ ds.foldl (fun n d => 10 * n + d) m := by
  induction ds generalizing m with
  | nil => exact Nat.le_refl m
  | cons d ds ih => exact Nat.le_trans (by omega) (ih (10 * m + d))

/-- All digits are taken onto a significand that fits into 64 bits in the end. -/
theorem accumulate_eq {m : Nat} {ds : List Nat}
    (h : ds.foldl (fun n d => 10 * n + d) m ≤ Numeral.max64) :
    Figures.accumulate m ds = (ds.foldl (fun n d => 10 * n + d) m, []) := by
  induction ds generalizing m with
  | nil => rfl
  | cons d ds ih =>
    have fits := Nat.le_trans (le_foldl_digits (10 * m + d) ds) h
    rw [Figures.accumulate, if_pos fits, ih h]
    rfl

/-- Digits without a sign are the number that they make up, if it fits into 64 bits. -/
theorem number?_whole {whole : List Nat} (fits : Numeral.ofDigits whole ≤ Numeral.max64) :
    Figures.number? false ⟨whole, [], none⟩ = some (.int (Numeral.ofDigits whole)) := by
  have taken := accumulate_eq (m := 0) fits
  simp [Figures.number?, taken, Numeral.ofDigits]

/-- Digits behind a sign are the opposite of a number other than zero, if that fits into 64 bits. -/
theorem number?_opposite {whole : List Nat} (some_digit : Numeral.ofDigits whole ≠ 0)
    (fits : Numeral.ofDigits whole ≤ Numeral.half64) :
    Figures.number? true ⟨whole, [], none⟩ = some (.int (-(Numeral.ofDigits whole : Int))) := by
  have small : Numeral.half64 ≤ Numeral.max64 := by decide
  have taken := accumulate_eq (m := 0) (Nat.le_trans fits small)
  rw [← Numeral.ofDigits] at taken
  simp [Figures.number?, taken, some_digit, Nat.not_lt.mpr fits]

/-- If all digits are taken, they make up the significand. -/
theorem of_accumulate_eq_nil {m n : Nat} {ds : List Nat} (fits : m ≤ Numeral.max64)
    (h : Figures.accumulate m ds = (n, [])) :
    n = ds.foldl (fun n d => 10 * n + d) m ∧ n ≤ Numeral.max64 := by
  induction ds generalizing m with
  | nil =>
    obtain ⟨rfl, -⟩ := Prod.mk.inj h
    exact ⟨rfl, fits⟩
  | cons d ds ih =>
    rw [Figures.accumulate] at h
    split at h
    · next fits => exact ih fits h
    · simp at h

/-- A number that is an integer has neither a fraction nor an exponent. Without a sign it is the
number of its digits, with one it is negative. -/
theorem of_number?_eq_int {negative : Bool} {x : Figures} {i : Int}
    (h : x.number? negative = some (.int i)) : x.fraction = [] ∧ x.exponent = none ∧
      if negative then i < 0 else i = Numeral.ofDigits x.whole := by
  have no_real {m : Option Decimal.Magnitude} {f : Decimal.Magnitude → Decimal.Binary64} :
      m.map (fun m => Number.real (f m)) ≠ some (.int i) := by
    simp
  rw [Figures.number?] at h
  -- With a fraction, an exponent or digits that did not fit, the number would be a real one.
  obtain ⟨n, left, taken⟩ : ∃ n left, Figures.accumulate 0 x.whole = (n, left) := ⟨_, _, rfl⟩
  simp only [taken] at h
  split at h
  · next plain =>
    rw [Bool.and_eq_true, List.isEmpty_iff, Option.isNone_iff_eq_none] at plain
    refine ⟨plain.1, plain.2, ?_⟩
    split at h
    · next all =>
      rw [List.isEmpty_iff.mp all] at taken
      obtain ⟨rfl, -⟩ := of_accumulate_eq_nil (by decide) taken
      cases negative with
      | false => simpa [Numeral.ofDigits, eq_comm] using h
      | true =>
        simp only [Bool.not_true, Bool.false_eq_true, if_false] at h
        split at h
        · simp at h
        · next inside =>
          obtain rfl := Number.int.inj (Option.some.inj h)
          simp only [Bool.or_eq_true, decide_eq_true_eq] at inside
          rw [if_pos rfl]
          omega
    · exact absurd h no_real
  · exact absurd h no_real

/-- What is written for a natural number are its digits, with no fraction and no exponent. -/
theorem exists_read_whole (n : Nat) : ∃ whole, Numeral.ofDigits whole = n ∧
    ∀ r, Stops r → Figures.read (encode (Numeral.render n) ++ r) = .ok (⟨whole, [], none⟩, r) := by
  obtain ⟨d, ds, digits, single⟩ := (wholeText_render n).exists_digits
  obtain ⟨ds', digits', value⟩ := Numeral.exists_digits_render n
  obtain rfl := Option.some.inj (digits'.symm.trans digits)
  refine ⟨d :: ds, value, fun r stops => ?_⟩
  have tail : Figures.readTail (d :: ds) r = .ok (⟨d :: ds, [], none⟩, r) := by
    simp only [Figures.readTail, stops.readFraction, bind, Except.bind, stops.readExponent]
    rfl
  rw [Figures.read_eq, digits_encode digits stops.no_digit]
  cases d with
  | zero =>
    obtain rfl := single rfl
    exact tail
  | succ d => exact tail

/-- What is written for a natural number of 64 bits is read as this number. -/
theorem exists_read_render {n : Nat} (fits : n ≤ Numeral.max64) : ∃ x : Figures,
    x.number? false = some (.int n) ∧
      ∀ r, Stops r → Figures.read (encode (Numeral.render n) ++ r) = .ok (x, r) := by
  obtain ⟨whole, rfl, read⟩ := exists_read_whole n
  exact ⟨_, number?_whole fits, read⟩

/-! ## Decimals -/

section Decimals

open Decimal

namespace WholeText

variable {cs : List Char}

theorem all_digits (h : WholeText cs) : ∀ c ∈ cs, c.isDigit = true := by
  cases h with
  | zero => simp
  | digits first other rest =>
    intro c mem
    rcases List.mem_cons.mp mem with rfl | mem
    · exact first
    · exact rest c mem

theorem ne_nil (h : WholeText cs) : cs ≠ [] := by
  cases h <;> simp

/-- Digits may follow, unless there is a zero alone. -/
theorem append (h : WholeText cs) (not_zero : cs ≠ ['0']) {more : List Char}
    (all : ∀ c ∈ more, c.isDigit = true) : WholeText (cs ++ more) := by
  cases h with
  | zero => exact absurd rfl not_zero
  | digits first other rest =>
    refine .digits first other fun c mem => ?_
    exact (List.mem_append.mp mem).elim (rest c) (all c)

theorem take (h : WholeText cs) (not_zero : cs ≠ ['0']) (n : Nat) :
    WholeText (cs.take (n + 1)) := by
  cases h with
  | zero => exact absurd rfl not_zero
  | digits first other rest =>
    exact .digits first other fun c mem => rest c (List.mem_of_mem_take mem)

end WholeText

theorem render_ne_zero {n : Nat} (h : n ≠ 0) : Numeral.render n ≠ ['0'] := fun rendered =>
  h (Numeral.render_injective (rendered.trans rfl))

theorem exponentText_style (e : Int) : ExponentText ('e' :: exponentText style e) := by
  have digits (n : Nat) : (∀ c ∈ Nat.toDigits 10 n, c.isDigit = true) ∧ Nat.toDigits 10 n ≠ [] :=
    ⟨(wholeText_render n).all_digits, (wholeText_render n).ne_nil⟩
  cases e with
  | ofNat n => exact .digits (.inl rfl) (digits n).1 (digits n).2
  | negSucc k => exact .digits (.inr rfl) (digits (k + 1)).1 (digits (k + 1)).2

theorem point_zero : FractionText style.wholeEnd :=
  .digits (by simp) (by simp)

theorem numeralText_withPoint {ds : List Char} (whole : WholeText ds) (not_zero : ds ≠ ['0'])
    (n : Nat) : NumeralText (withPoint style ds (n + 1)) := by
  rw [withPoint]
  split
  · have zeros : ∀ c ∈ List.replicate (n + 1 - ds.length) '0', c.isDigit = true := fun c mem => by
      rw [List.eq_of_mem_replicate mem]
      rfl
    exact .mk (whole.append not_zero zeros) point_zero .absent
  · next longer =>
    have fraction : FractionText ('.' :: ds.drop (n + 1)) :=
      .digits (fun c mem => whole.all_digits c (List.mem_of_mem_drop mem))
        (by rw [Ne, List.drop_eq_nil_iff]; omega)
    simpa using NumeralText.mk (whole.take not_zero n) fraction .absent

theorem numeralText_exponent {ds : List Char} (e : Int) : WholeText ds →
    NumeralText (match ds with
      | [d] => d :: style.mark :: exponentText style e
      | ds => ds.take 1 ++ '.' :: ds.drop 1 ++ style.mark :: exponentText style e) := by
  intro whole
  split
  · exact .mk whole .absent (exponentText_style e)
  · next other =>
    have longer : 1 < ds.length := by
      match ds, whole.ne_nil, other with
      | [d], _, other => exact absurd rfl (other d)
      | _ :: _ :: _, _, _ => simp
    have fraction : FractionText ('.' :: ds.drop 1) :=
      .digits (fun c mem => whole.all_digits c (List.mem_of_mem_drop mem))
        (by rw [Ne, List.drop_eq_nil_iff]; omega)
    have not_zero : ds ≠ ['0'] := other '0'
    have parts := NumeralText.mk (whole.take not_zero 0) fraction (exponentText_style e)
    rwa [List.append_assoc]

/-- A decimal is written as a number, except for a zero with places before the point. -/
theorem numeralText_scientific {x : Scientific} (h : x.digits ≠ 0 ∨ style.greatest < x.power) :
    NumeralText (x.render style) := by
  have whole := wholeText_render x.digits
  rw [Scientific.render]
  simp only [← Numeral.render.eq_def]
  split
  · next positional =>
    simp only [Bool.and_eq_true, decide_eq_true_eq] at positional
    have not_zero : x.digits ≠ 0 := by
      intro zero
      have one : (Numeral.render x.digits).length = 1 := by rw [zero]; rfl
      rcases h with some_digit | large
      · exact some_digit zero
      · omega
    have not_zero := render_ne_zero not_zero
    split
    · next n _ => exact numeralText_withPoint whole not_zero n
    · next k _ =>
      have zeros : ∀ c ∈ List.replicate k '0' ++ Numeral.render x.digits, c.isDigit = true := by
        intro c mem
        rcases List.mem_append.mp mem with mem | mem
        · rw [List.eq_of_mem_replicate mem]
          rfl
        · exact whole.all_digits c mem
      have fraction : FractionText ('.' :: (List.replicate k '0' ++ Numeral.render x.digits)) :=
        .digits zeros (by simp [whole.ne_nil])
      simpa using NumeralText.mk .zero fraction .absent
  · exact numeralText_exponent _ whole

/-! ### The shortest decimal -/

/-- A whole number in an interval of positive numbers is positive. -/
theorem pos_of_holds {i : Interval} (positive : 0 < i.low) {n : Nat} (h : i.holds n = true) :
    n ≠ 0 := by
  rintro rfl
  simp only [Interval.holds, Nat.zero_mul] at h
  split at h
  · simp at h
    omega
  · simp at h

theorem nearest?_ne_zero {i : Interval} (positive : 0 < i.low) {n : Nat}
    (h : i.nearest? = some n) : n ≠ 0 := by
  rw [Interval.nearest?] at h
  split at h
  · next below _ =>
    split at h
    · exact Option.some.inj h ▸ pos_of_holds positive below
    · exact Option.some.inj h ▸ Nat.succ_ne_zero _
  · next below _ => exact Option.some.inj h ▸ pos_of_holds positive below
  · exact Option.some.inj h ▸ Nat.succ_ne_zero _
  · simp at h

theorem low_scale_pos {i : Interval} (positive : 0 < i.low) (power : Int) :
    0 < (i.scale power).low := by
  cases power with
  | ofNat n => exact positive
  | negSucc k => exact Nat.mul_pos positive (Nat.pow_pos (by decide))

/-- A decimal that is found has digits. -/
theorem search_cases {i : Interval} (positive : 0 < i.low) (count more : Nat) :
    (i.search count more).digits ≠ 0 ∨ i.search count more = ⟨0, 0⟩ := by
  induction more generalizing count with
  | zero => exact .inr rfl
  | succ more ih =>
    rw [Interval.search]
    split
    · next digits found => exact .inl (nearest?_ne_zero (low_scale_pos positive _) found)
    · exact ih (count + 1)

theorem digits_stripZeros {x : Scientific} (h : x.digits ≠ 0) (more : Nat) :
    (x.stripZeros more).digits ≠ 0 := by
  induction more generalizing x with
  | zero => exact h
  | succ more ih =>
    rw [Scientific.stripZeros]
    split
    · exact ih (by simp only; omega)
    · exact h

/-- The shortest decimal has digits. If none were found, its zero would be written with an
exponent. -/
theorem shortest_cases {x : Magnitude} (h : x.mantissa ≠ 0) :
    x.shortest.digits ≠ 0 ∨ style.greatest < x.shortest.power := by
  have positive : 0 < x.interval.low := by
    rw [Magnitude.interval, Nat.shiftLeft_eq]
    refine Nat.mul_pos ?_ (Nat.pow_pos (by decide))
    split <;> omega
  rw [Magnitude.shortest]
  rcases search_cases positive 1 17 with found | missed
  · exact .inl (digits_stripZeros found 17)
  · rw [missed]
    exact .inr (by decide)

end Decimals

/-- A number is written as a text of a number, behind a sign if it is negative. -/
theorem Number.exists_render (n : Number) : ∃ (negative : Bool) (cs : List Char),
    n.render = (if negative then ['-'] else []) ++ cs ∧ NumeralText cs := by
  cases n with
  | int i =>
    cases i with
    | ofNat n => exact ⟨false, Numeral.render n, rfl, numeralText_render n⟩
    | negSucc n => exact ⟨true, Numeral.render (n + 1), rfl, numeralText_render (n + 1)⟩
  | real x =>
    refine ⟨x.negative, _, rfl, ?_⟩
    split
    · exact .mk .zero point_zero .absent
    · next some_digit => exact numeralText_scientific (shortest_cases some_digit)

end HashGateway.Json
