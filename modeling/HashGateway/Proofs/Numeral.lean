import HashGateway.Text.Numeral
import Mathlib.Data.List.Induction
import Mathlib.Tactic.IntervalCases

/-!
# Numerals there and back

What is written for a number is read as this number, and what is read is what is
written, after zeros and a sign that may stand before it. Among numerals with the same
number of digits the order of texts is the order of numbers, so names that end in
such numerals sort as their numbers do.

## Main definitions

* `Numeral.Writes` — a number is written, perhaps with a plus sign and zeros before it

## Main results

* `Numeral.unsigned?_render`, `Numeral.integer?_renderInt` — a number up to the bound and an
  integer are read back
* `Numeral.unsigned?_eq_some_iff` — what is read is what is written
* `Numeral.lt_iff_of_length_eq` — of two numerals of one length, that of the larger number
  comes later
-/

namespace HashGateway.Numeral

/-! ## Reading what was written -/

theorem digit?_digitChar {d : Nat} (h : d < 10) : digit? (Nat.digitChar d) = some d := by
  interval_cases d <;> rfl

theorem mapM_append_singleton {cs : List Char} {ds : List Nat} {c : Char} {d : Nat}
    (h : cs.mapM digit? = some ds) (h' : digit? c = some d) :
    (cs ++ [c]).mapM digit? = some (ds ++ [d]) := by
  rw [List.mapM_append, h]
  simp [h']

/-- The digits of a number make up this number. -/
theorem exists_digits_render (n : Nat) :
    ∃ ds, (render n).mapM digit? = some ds ∧ ofDigits ds = n := by
  induction n using Nat.strongRecOn with
  | ind n ih =>
    -- The last digit is the remainder; the digits before it are those of the quotient.
    by_cases small : n < 10
    · refine ⟨[n], ?_, by simp [ofDigits]⟩
      rw [render, Nat.toDigits_of_lt_base small]
      simp [digit?_digitChar small]
    · obtain ⟨ds, read, value⟩ := ih (n / 10) (by omega)
      refine ⟨ds ++ [n % 10], ?_, ?_⟩
      · rw [render, Nat.toDigits_of_base_le (by omega) (by omega)]
        exact mapM_append_singleton read (digit?_digitChar (by omega))
      · rw [ofDigits_append_singleton, value]
        omega

theorem render_ne_nil (n : Nat) : render n ≠ [] := by
  rw [render, Nat.toDigits_eq_if (by omega)]
  split <;> simp

@[simp] theorem digits?_render (n : Nat) : digits? (render n) = some n := by
  obtain ⟨ds, read, value⟩ := exists_digits_render n
  have some_digit : (render n).isEmpty = false := List.isEmpty_eq_false_iff.mpr (render_ne_nil n)
  rw [digits?, some_digit, read]
  simp [value]

theorem isDigit_of_mem_render {n : Nat} {c : Char} (h : c ∈ render n) : c.isDigit = true :=
  Nat.isDigit_of_mem_toDigits (by omega) (by omega) h

theorem unsign_render (n : Nat) : unsign (render n) = render n := by
  unfold unsign
  split
  · next cs h =>
    have plus : '+' ∈ render n := by simp [h]
    exact absurd (isDigit_of_mem_render plus) (by decide)
  · rfl

/-- A number up to the bound is read back. -/
theorem unsigned?_render {bound n : Nat} (h : n ≤ bound) : unsigned? bound (render n) = some n := by
  simp only [unsigned?, unsign_render, digits?_render, if_pos h]

theorem unsigned?_render_of_lt {bound n : Nat} (h : bound < n) :
    unsigned? bound (render n) = none := by
  simp only [unsigned?, unsign_render, digits?_render, if_neg (Nat.not_le.mpr h)]

theorem render_injective {m n : Nat} (h : render m = render n) : m = n := by
  have read := digits?_render m
  rw [h, digits?_render] at read
  exact (Option.some.inj read).symm

/-- An integer is read back. -/
theorem integer?_renderInt (i : Int) : integer? (renderInt i) = some i := by
  cases i with
  | ofNat n =>
    unfold integer?
    split
    · next cs h =>
      have minus : '-' ∈ render n := List.mem_of_mem_head? (by rw [← renderInt, h]; rfl)
      exact absurd (isDigit_of_mem_render minus) (by decide)
    · simp [renderInt, unsign_render]
  | negSucc n => simp [renderInt, integer?, Int.negSucc_eq]

theorem renderInt_injective {i j : Int} (h : renderInt i = renderInt j) : i = j := by
  have read := integer?_renderInt i
  rw [h, integer?_renderInt] at read
  exact (Option.some.inj read).symm

/-! ## What is read -/

theorem digit?_eq_some {c : Char} {d : Nat} (h : digit? c = some d) :
    d < 10 ∧ c.toNat = '0'.toNat + d := by
  simp only [digit?, Bool.and_eq_true, decide_eq_true_eq] at h
  split at h
  · next range =>
    have least : '0'.toNat ≤ c.toNat := range.1
    have greatest : c.toNat ≤ '9'.toNat := range.2
    have value := Option.some.inj h
    simp only [Char.reduceToNat] at least greatest value ⊢
    omega
  · simp at h

theorem mapM_digit?_cons {c : Char} {cs : List Char} {ds : List Nat} :
    (c :: cs).mapM digit? = some ds ↔
      ∃ d rest, digit? c = some d ∧ cs.mapM digit? = some rest ∧ ds = d :: rest := by
  simp only [List.mapM_cons, Option.bind_eq_bind, Option.bind_eq_some_iff, Option.pure_def,
    Option.some.injEq]
  constructor
  · rintro ⟨d, hd, rest, hrest, rfl⟩
    exact ⟨d, rest, hd, hrest, rfl⟩
  · rintro ⟨d, rest, hd, hrest, rfl⟩
    exact ⟨d, hd, rest, hrest, rfl⟩

theorem digitChar_of_digit? {c : Char} {d : Nat} (h : digit? c = some d) : Nat.digitChar d = c := by
  obtain ⟨small, value⟩ := digit?_eq_some h
  refine Char.toNat_inj.mp ?_
  rw [Nat.toNat_digitChar_of_lt_ten small, value]
  rfl

/-- One more digit is written behind those of a number, unless this is zero. -/
theorem render_append_digit {n d : Nat} (positive : 0 < n) (small : d < 10) :
    render (10 * n + d) = render n ++ [Nat.digitChar d] := by
  rw [render, Nat.toDigits_of_base_le (by omega) (by omega)]
  have quotient : (10 * n + d) / 10 = n := by omega
  have remainder : (10 * n + d) % 10 = d := by omega
  rw [quotient, remainder, render]

/-- Digits are those of their number, with zeros before them. -/
theorem exists_zeros {cs : List Char} {ds : List Nat} (read : cs.mapM digit? = some ds)
    (some_digit : cs ≠ []) : ∃ zeros : List Char, (∀ c ∈ zeros, c = '0') ∧
      cs = zeros ++ render (ofDigits ds) := by
  induction cs using List.reverseRecOn generalizing ds with
  | nil => exact absurd rfl some_digit
  | append_singleton cs c ih =>
    obtain ⟨ds', d, read', last, rfl⟩ : ∃ ds' d, cs.mapM digit? = some ds' ∧
        digit? c = some d ∧ ds' ++ [d] = ds := by
      simpa [List.mapM_append, Option.bind_eq_some_iff] using read
    -- The last digit is written by itself, and what stands before it writes the quotient by ten.
    obtain rfl := digitChar_of_digit? last
    have small := (digit?_eq_some last).1
    rw [ofDigits_append_singleton]
    by_cases first : cs = []
    · subst first
      obtain rfl : [] = ds' := by simpa using read'
      exact ⟨[], by simp, by simp [render, Nat.toDigits_of_lt_base small]⟩
    · obtain ⟨zeros, zero, cut⟩ := ih read' first
      rcases Nat.eq_zero_or_pos (ofDigits ds') with zero_before | positive
      · -- All digits before the last are zeros, so the last one is the number.
        refine ⟨cs, fun c mem => ?_, ?_⟩
        · rw [cut, zero_before] at mem
          rcases List.mem_append.mp mem with mem | mem
          · exact zero c mem
          · simpa [render] using mem
        · rw [zero_before, Nat.mul_zero, Nat.zero_add, render, Nat.toDigits_of_lt_base small]
      · exact ⟨zeros, zero, by rw [render_append_digit positive small, cut, List.append_assoc]⟩

/-- Characters write a number: its digits, before which zeros may stand, and before these a plus
sign. -/
def Writes (cs : List Char) (n : Nat) : Prop :=
  ∃ sign zeros, (sign = [] ∨ sign = ['+']) ∧ (∀ c ∈ zeros, c = '0') ∧
    cs = sign ++ (zeros ++ render n)

theorem digits?_eq_some_iff {cs : List Char} {n : Nat} : digits? cs = some n ↔
    ∃ zeros : List Char, (∀ c ∈ zeros, c = '0') ∧ cs = zeros ++ render n := by
  constructor
  · intro h
    simp only [digits?, Option.ite_none_left_eq_some, Option.map_eq_some_iff] at h
    obtain ⟨some_digit, ds, read, rfl⟩ := h
    exact exists_zeros read (by simpa using some_digit)
  · rintro ⟨zeros, zero, rfl⟩
    induction zeros with
    | nil => exact digits?_render n
    | cons c zeros ih =>
      obtain ⟨first, zero⟩ := List.forall_mem_cons.mp zero
      have rest := ih zero
      simp only [digits?, Option.ite_none_left_eq_some, Option.map_eq_some_iff] at rest ⊢
      obtain ⟨-, ds, read, value⟩ := rest
      refine ⟨by simp, 0 :: ds, ?_, ?_⟩
      · rw [List.cons_append, mapM_digit?_cons]
        exact ⟨0, ds, first ▸ rfl, read, rfl⟩
      · rw [← value, ofDigits, ofDigits, List.foldl_cons]

/-- A number is read up to the bound from what writes it, and from nothing else. -/
theorem unsigned?_eq_some_iff {bound n : Nat} {cs : List Char} :
    unsigned? bound cs = some n ↔ Writes cs n ∧ n ≤ bound := by
  -- The bound comes last, so the digits are read as without it.
  have within : unsigned? bound cs = some n ↔ digits? (unsign cs) = some n ∧ n ≤ bound := by
    rw [unsigned?]
    cases digits? (unsign cs) with
    | none => simp
    | some m => by_cases fits : m ≤ bound <;> grind
  rw [within, digits?_eq_some_iff]
  refine and_congr_left' ⟨?_, ?_⟩
  · rintro ⟨zeros, zero, rest⟩
    unfold unsign at rest
    split at rest
    · exact ⟨['+'], zeros, .inr rfl, zero, congrArg ('+' :: ·) rest⟩
    · exact ⟨[], zeros, .inl rfl, zero, rest⟩
  · rintro ⟨sign, zeros, rfl | rfl, zero, rfl⟩
    · refine ⟨zeros, zero, ?_⟩
      rw [List.nil_append]
      cases zeros with
      | nil => exact unsign_render n
      | cons c zeros =>
        obtain rfl := zero c List.mem_cons_self
        rfl
    · exact ⟨zeros, zero, rfl⟩

theorem unsigned?_eq_none_iff {bound : Nat} {cs : List Char} :
    unsigned? bound cs = none ↔ ∀ n ≤ bound, ¬ Writes cs n := by
  rw [Option.eq_none_iff_forall_ne_some]
  refine forall_congr' fun n => ?_
  rw [Ne, unsigned?_eq_some_iff, and_comm, not_and]

/-! ## The order of numerals of one length -/

/-- The digits that follow do not matter once a number is ahead. -/
theorem foldl_lt_of_lt {cs ds : List Char} {as bs : List Nat} (hc : cs.mapM digit? = some as)
    (hd : ds.mapM digit? = some bs) (lengths : cs.length = ds.length) {m n : Nat} (h : m < n) :
    as.foldl (fun n d => 10 * n + d) m < bs.foldl (fun n d => 10 * n + d) n := by
  induction cs generalizing ds as bs m n with
  | nil =>
    obtain rfl : ds = [] := List.eq_nil_of_length_eq_zero lengths.symm
    obtain rfl : [] = as := by simpa using hc
    obtain rfl : [] = bs := by simpa using hd
    exact h
  | cons c cs ih =>
    cases ds with
    | nil => simp at lengths
    | cons d ds =>
      obtain ⟨a, as, ha, has, rfl⟩ := mapM_digit?_cons.mp hc
      obtain ⟨b, bs, hb, hbs, rfl⟩ := mapM_digit?_cons.mp hd
      have below := (digit?_eq_some ha).1
      rw [List.foldl_cons, List.foldl_cons]
      exact ih has hbs (by simpa using lengths) (by omega)

theorem foldl_lt_of_lex {cs ds : List Char} {as bs : List Nat} (hc : cs.mapM digit? = some as)
    (hd : ds.mapM digit? = some bs) (lengths : cs.length = ds.length) (h : cs < ds) (n : Nat) :
    as.foldl (fun n d => 10 * n + d) n < bs.foldl (fun n d => 10 * n + d) n := by
  induction cs generalizing ds as bs n with
  | nil =>
    obtain rfl : ds = [] := List.eq_nil_of_length_eq_zero lengths.symm
    exact absurd h (List.lt_irrefl _)
  | cons c cs ih =>
    cases ds with
    | nil => simp at lengths
    | cons d ds =>
      obtain ⟨a, as, ha, has, rfl⟩ := mapM_digit?_cons.mp hc
      obtain ⟨b, bs, hb, hbs, rfl⟩ := mapM_digit?_cons.mp hd
      have lengths' : cs.length = ds.length := by simpa using lengths
      rw [List.foldl_cons, List.foldl_cons]
      -- Either the first digits differ, and then the others do not matter, or they are the same.
      rcases List.cons_lt_cons_iff.mp h with first | ⟨rfl, rest⟩
      · have lt : c.toNat < d.toNat := first
        have value := (digit?_eq_some ha).2
        have value' := (digit?_eq_some hb).2
        exact foldl_lt_of_lt has hbs lengths' (by omega)
      · obtain rfl : a = b := Option.some.inj (ha.symm.trans hb)
        exact ih has hbs lengths' rest _

/-- Among numerals of one length the order of texts is that of their numbers. -/
theorem lt_iff_of_length_eq {cs ds : List Char} {m n : Nat} (hc : digits? cs = some m)
    (hd : digits? ds = some n) (lengths : cs.length = ds.length) : cs < ds ↔ m < n := by
  have lt {cs ds : List Char} {m n : Nat} (hc : digits? cs = some m) (hd : digits? ds = some n)
      (lengths : cs.length = ds.length) (h : cs < ds) : m < n := by
    simp only [digits?, Option.ite_none_left_eq_some, Option.map_eq_some_iff] at hc hd
    obtain ⟨-, as, has, rfl⟩ := hc
    obtain ⟨-, bs, hbs, rfl⟩ := hd
    exact foldl_lt_of_lex has hbs lengths h 0
  refine ⟨lt hc hd lengths, fun h => ?_⟩
  rcases Std.lt_trichotomy cs ds with less | rfl | greater
  · exact less
  · obtain rfl : m = n := Option.some.inj (hc.symm.trans hd)
    exact absurd h (Nat.lt_irrefl m)
  · exact absurd (lt hd hc lengths.symm greater) (Nat.lt_asymm h)

end HashGateway.Numeral
