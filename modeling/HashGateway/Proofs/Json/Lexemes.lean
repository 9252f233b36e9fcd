import HashGateway.Json.Reader
import HashGateway.Proofs.Results
import Mathlib.Data.List.TakeWhile

/-!
# Blanks, words and numbers of a JSON text

Each of them stands at the start of some bytes, and others follow. Blanks that follow make
no difference, and what is read is made of bytes below `0x80`.

## Main definitions

* `Json.Blank` — bytes that are all blanks
* `Json.Leaves` — something is read of bytes, and others are left

## Main results

* `Json.skipBlank_of_append`, `Json.append_eq_append_blank`, `Json.Figures.read_append` — blanks
  that follow
* `Json.word_eq_ok_iff`, `Json.Figures.exists_read_append` — what is read of a word and of a
  number
-/

namespace HashGateway.Json

/-! ## Blanks -/

/-- All bytes are blanks. -/
def Blank (bs : Bytes) : Prop := ∀ b ∈ bs, isSpace b = true

theorem blank_iff_skipBlank {bs : Bytes} : Blank bs ↔ skipBlank bs = [] :=
  List.dropWhile_eq_nil_iff.symm

theorem exists_blank_append_skipBlank (bs : Bytes) : ∃ w, Blank w ∧ bs = w ++ skipBlank bs :=
  ⟨bs.takeWhile isSpace, fun _ mem => List.mem_takeWhile_imp mem,
    List.takeWhile_append_dropWhile.symm⟩

theorem isSpace_of_skipBlank {b : UInt8} {bs r : Bytes} (h : skipBlank bs = b :: r) :
    isSpace b = false := by
  have first := List.head?_dropWhile_not isSpace bs
  rw [← skipBlank, h] at first
  simpa using first

@[simp] theorem skipBlank_skipBlank (bs : Bytes) : skipBlank (skipBlank bs) = skipBlank bs := by
  cases h : skipBlank bs with
  | nil => rfl
  | cons b r => rw [skipBlank, List.dropWhile_cons_of_neg (by simp [isSpace_of_skipBlank h])]

theorem skipBlank_cons {b : UInt8} (h : isSpace b = false) (r : Bytes) :
    skipBlank (b :: r) = b :: r :=
  List.dropWhile_cons_of_neg (by simp [h])

theorem toNat_lt_of_isSpace {b : UInt8} (h : isSpace b = true) : b.toNat < 0x80 := by
  simp only [isSpace, Bool.or_eq_true, decide_eq_true_eq] at h
  rcases h with ((rfl | rfl) | rfl) | rfl <;> decide

/-- What is read before blanks is read without them. -/
theorem skipBlank_of_append {b : UInt8} {bs w m : Bytes} (blank : Blank w)
    (h : skipBlank (bs ++ w) = b :: m) : ∃ r, skipBlank bs = b :: r ∧ m = r ++ w := by
  -- If nothing but blanks came before, nothing but blanks would be there.
  cases left : skipBlank bs with
  | nil =>
    have all : Blank (bs ++ w) := fun b mem =>
      (List.mem_append.mp mem).elim (blank_iff_skipBlank.mpr left b) (blank b)
    rw [blank_iff_skipBlank.mp all] at h
    exact absurd h (by simp)
  | cons b' r =>
    obtain ⟨v, blanks, cut⟩ := exists_blank_append_skipBlank bs
    have right : skipBlank (bs ++ w) = b' :: (r ++ w) := by
      rw [cut, left, List.append_assoc, skipBlank, List.dropWhile_append_of_pos blanks,
        List.cons_append, ← skipBlank, skipBlank_cons (isSpace_of_skipBlank left)]
    rw [right] at h
    obtain ⟨rfl, rfl⟩ := List.cons.inj h
    exact ⟨r, rfl, rfl⟩

/-- Blanks at the end are no part of bytes among which there are no blanks. -/
theorem append_eq_append_blank {c r bs w : Bytes} (blank : Blank w)
    (dark : ∀ b ∈ c, isSpace b = false) (h : c ++ r = bs ++ w) :
    ∃ m, bs = c ++ m ∧ r = m ++ w := by
  rcases List.append_eq_append_iff.mp h with ⟨m, front, back⟩ | ⟨m, front, back⟩
  · exact ⟨m, front, back⟩
  -- Otherwise the first bytes reach into the blanks.
  · cases m with
    | nil => exact ⟨[], by simpa using front.symm, by simpa using back.symm⟩
    | cons b m =>
      have space := blank b (by simp [back])
      rw [dark b (by simp [front])] at space
      exact absurd space (by simp)

/-- Something is read of bytes, and others are left. -/
def Leaves (bs r : Bytes) : Prop := ∃ c, c ≠ [] ∧ bs = c ++ r

namespace Leaves

variable {bs m r : Bytes}

theorem trans (h : Leaves bs m) (h' : Leaves m r) : Leaves bs r := by
  obtain ⟨c, nonempty, rfl⟩ := h
  obtain ⟨c', -, rfl⟩ := h'
  exact ⟨c ++ c', by simp [nonempty], (List.append_assoc _ _ _).symm⟩

theorem of_skipBlank {b : UInt8} (h : skipBlank bs = b :: r) : Leaves bs r := by
  obtain ⟨w, -, cut⟩ := exists_blank_append_skipBlank bs
  exact ⟨w ++ [b], by simp, by rw [cut, h, List.append_assoc, List.singleton_append]⟩

theorem length_lt (h : Leaves bs r) : r.length < bs.length := by
  obtain ⟨c, nonempty, rfl⟩ := h
  have positive := List.length_pos_iff.mpr nonempty
  rw [List.length_append]
  omega

end Leaves

/-! ## Words and numbers -/

theorem word_eq_ok_iff {letters bs r : Bytes} : word letters bs = .ok r ↔ bs = letters ++ r := by
  induction letters generalizing bs with
  | nil => simp [word, eq_comm]
  | cons a letters ih =>
    cases bs with
    | nil => simp [word]
    | cons b bs =>
      rw [word]
      split
      · next figure => rw [ih, figure, List.cons_append, List.cons.injEq, and_iff_right rfl]
      · next other => simp [Ne.symm other]

theorem toNat_lt_of_digit? {b : UInt8} {d : Nat} (h : digit? b = some d) : b.toNat < 0x80 := by
  simp only [digit?, Option.ite_none_right_eq_some, Bool.and_eq_true, decide_eq_true_eq] at h
  omega

theorem digit?_of_isSpace {b : UInt8} (h : isSpace b = true) : digit? b = none := by
  simp only [isSpace, Bool.or_eq_true, decide_eq_true_eq] at h
  rcases h with ((rfl | rfl) | rfl) | rfl <;> rfl

/-- Digits are below `0x80`, and others follow. -/
theorem exists_digits_append (bs : Bytes) :
    ∃ c, (∀ b ∈ c, b.toNat < 0x80) ∧ c.length = (digits bs).1.length ∧ bs = c ++ (digits bs).2 := by
  induction bs with
  | nil => exact ⟨[], by simp, rfl, rfl⟩
  | cons b r ih =>
    obtain ⟨c, small, length, cut⟩ := ih
    rw [digits]
    cases digit : digit? b with
    | none => exact ⟨[], by simp, rfl, rfl⟩
    | some d =>
      refine ⟨b :: c, ?_, by simp [length], by simp [← cut]⟩
      intro b' mem
      rcases List.mem_cons.mp mem with rfl | mem
      · exact toNat_lt_of_digit? digit
      · exact small b' mem

theorem digits_append {bs w : Bytes} (blank : Blank w) :
    digits (bs ++ w) = ((digits bs).1, (digits bs).2 ++ w) := by
  induction bs with
  | nil =>
    cases w with
    | nil => rfl
    | cons b w =>
      have no_digit := digit?_of_isSpace (blank b (by simp))
      simp [digits, no_digit]
  | cons b r ih =>
    rw [List.cons_append, digits, digits]
    cases digit? b with
    | none => rfl
    | some d => simp [ih]

namespace Figures

/-- What is left after a part of a number, with blanks at the end. -/
def pad {α : Type} (w : Bytes) (x : α × Bytes) : α × Bytes := (x.1, x.2 ++ w)

theorem readFraction_append {bs w : Bytes} (blank : Blank w) :
    (readFraction (bs ++ w)).toOption = (readFraction bs).toOption.map (pad w) := by
  cases bs with
  | nil =>
    cases w with
    | nil => rfl
    | cons b w =>
      have other : b ≠ 0x2E := fun point => by simpa [point, isSpace] using blank b (by simp)
      have no_fraction : readFraction (b :: w) = .ok ([], b :: w) := by
        rw [readFraction, if_neg other]
      rw [List.nil_append, no_fraction]
      rfl
  | cons b r =>
    rw [List.cons_append, readFraction, readFraction]
    split
    · rw [digits_append blank]
      rcases digits r with ⟨_ | ⟨d, ds⟩, rest⟩ <;> rfl
    · rfl

/-- The sign of an exponent, and what follows it. -/
def sign : Bytes → Bool × Bytes
  | [] => (false, [])
  | s :: r => if s = 0x2D then (true, r) else if s = 0x2B then (false, r) else (false, s :: r)

theorem readExponent_cons (b : UInt8) (r : Bytes) : readExponent (b :: r) =
    if b = 0x65 || b = 0x45 then
      match digits (sign r).2 with
      | ([], rest) => .error (missingDigit rest)
      | (ds, rest) => .ok (some ((sign r).1, ds), rest)
    else .ok (none, b :: r) := by
  rw [readExponent.eq_def]
  cases r <;> rfl

theorem sign_append {bs w : Bytes} (blank : Blank w) : sign (bs ++ w) = pad w (sign bs) := by
  cases bs with
  | nil =>
    cases w with
    | nil => rfl
    | cons s w =>
      have blank_s := blank s (by simp)
      have minus : s ≠ 0x2D := fun begins => by simp [begins, isSpace] at blank_s
      have plus : s ≠ 0x2B := fun begins => by simp [begins, isSpace] at blank_s
      simp [sign, pad, minus, plus]
  | cons s r =>
    rw [List.cons_append, sign, sign]
    split
    · rfl
    · split <;> rfl

theorem readExponent_append {bs w : Bytes} (blank : Blank w) :
    (readExponent (bs ++ w)).toOption = (readExponent bs).toOption.map (pad w) := by
  cases bs with
  | nil =>
    cases w with
    | nil => rfl
    | cons b w =>
      have blank_b := blank b (by simp)
      have small : b ≠ 0x65 := fun exponent => by simp [exponent, isSpace] at blank_b
      have large : b ≠ 0x45 := fun exponent => by simp [exponent, isSpace] at blank_b
      have no_exponent : readExponent (b :: w) = .ok (none, b :: w) := by
        simp [readExponent, small, large]
      rw [List.nil_append, no_exponent]
      rfl
  | cons b r =>
    rw [List.cons_append, readExponent_cons, readExponent_cons, sign_append blank]
    simp only [pad]
    split
    · rw [digits_append blank]
      rcases digits (sign r).2 with ⟨_ | ⟨d, ds⟩, rest⟩ <;> rfl
    · rfl

/-- Reads what follows the whole part of a number. -/
def readTail (whole : List Nat) (bs : Bytes) : Except Fault (Figures × Bytes) := do
  let (fraction, rest) ← readFraction bs
  let (exponent, rest) ← readExponent rest
  return (⟨whole, fraction, exponent⟩, rest)

theorem readTail_append {bs w : Bytes} (blank : Blank w) (whole : List Nat) :
    (readTail whole (bs ++ w)).toOption = (readTail whole bs).toOption.map (pad w) := by
  simp only [readTail, Except.toOption_bind, readFraction_append blank]
  cases (readFraction bs).toOption with
  | none => rfl
  | some x =>
    simp only [Option.map_some, Option.bind_some, pad, readExponent_append blank]
    cases (readExponent x.2).toOption <;> rfl

theorem read_eq (bs : Bytes) : Figures.read bs =
    match digits bs with
    | ([], rest) => .error (missingDigit rest)
    | (0 :: _ :: _, _) => .error .badNumber
    | (whole, rest) => readTail whole rest := rfl

/-- A number is read in the same way if blanks follow. -/
theorem read_append {bs w : Bytes} (blank : Blank w) :
    (Figures.read (bs ++ w)).toOption = (Figures.read bs).toOption.map (pad w) := by
  -- A number begins with zero only if this is its one digit before the point.
  rw [read_eq, read_eq, digits_append blank]
  obtain ⟨whole, rest⟩ := digits bs
  cases whole with
  | nil => rfl
  | cons d ds =>
    cases d with
    | succ d => exact readTail_append blank ((d + 1) :: ds)
    | zero =>
      cases ds with
      | nil => exact readTail_append blank [0]
      | cons e ds => rfl

theorem read_of_append {bs w r : Bytes} {x : Figures} (blank : Blank w)
    (h : Figures.read (bs ++ w) = .ok (x, r)) :
    ∃ m, Figures.read bs = .ok (x, m) ∧ r = m ++ w := by
  have padded := @read_append bs w blank
  rw [h] at padded
  obtain ⟨⟨x', m⟩, read, result⟩ := Option.map_eq_some_iff.mp padded.symm
  obtain ⟨rfl, rfl⟩ := Prod.mk.inj result
  exact ⟨m, Except.toOption_eq_some.mp read, rfl⟩

/-! What is read of a number are bytes below `0x80`. -/

theorem exists_readFraction_append {bs r : Bytes} {ds : List Nat}
    (h : readFraction bs = .ok (ds, r)) : ∃ c, (∀ b ∈ c, b.toNat < 0x80) ∧ bs = c ++ r := by
  cases bs with
  | nil =>
    obtain ⟨-, rfl⟩ := Prod.mk.inj (Except.ok.inj h)
    exact ⟨[], by simp, rfl⟩
  | cons b bs =>
    rw [readFraction] at h
    split at h
    · next point =>
      obtain ⟨c, small, -, cut⟩ := exists_digits_append bs
      split at h
      · simp at h
      · next digits =>
        obtain ⟨-, rfl⟩ := Prod.mk.inj (Except.ok.inj h)
        rw [digits] at cut
        refine ⟨b :: c, ?_, by rw [List.cons_append, ← cut]⟩
        simpa [point] using small
    · obtain ⟨-, rfl⟩ := Prod.mk.inj (Except.ok.inj h)
      exact ⟨[], by simp, rfl⟩

theorem exists_sign_append (bs : Bytes) :
    ∃ c, (∀ b ∈ c, b.toNat < 0x80) ∧ bs = c ++ (sign bs).2 := by
  cases bs with
  | nil => exact ⟨[], by simp, rfl⟩
  | cons s r =>
    rw [sign]
    split
    · next minus => exact ⟨[s], by simp [minus], rfl⟩
    · split
      · next plus => exact ⟨[s], by simp [plus], rfl⟩
      · exact ⟨[], by simp, rfl⟩

theorem exists_readExponent_append {bs r : Bytes} {x : Option (Bool × List Nat)}
    (h : readExponent bs = .ok (x, r)) : ∃ c, (∀ b ∈ c, b.toNat < 0x80) ∧ bs = c ++ r := by
  cases bs with
  | nil =>
    obtain ⟨-, rfl⟩ := Prod.mk.inj (Except.ok.inj h)
    exact ⟨[], by simp, rfl⟩
  | cons b bs =>
    rw [readExponent_cons] at h
    split at h
    · next mark =>
      obtain ⟨c, small, cut⟩ := exists_sign_append bs
      obtain ⟨c', small', -, cut'⟩ := exists_digits_append (sign bs).2
      split at h
      · simp at h
      · next digits =>
        obtain ⟨-, rfl⟩ := Prod.mk.inj (Except.ok.inj h)
        rw [digits] at cut'
        refine ⟨b :: (c ++ c'), ?_, by rw [List.cons_append, List.append_assoc, ← cut', ← cut]⟩
        intro b' mem
        rcases List.mem_cons.mp mem with rfl | mem
        · simp only [Bool.or_eq_true, decide_eq_true_eq] at mark
          rcases mark with rfl | rfl <;> decide
        · exact (List.mem_append.mp mem).elim (small b') (small' b')
    · obtain ⟨-, rfl⟩ := Prod.mk.inj (Except.ok.inj h)
      exact ⟨[], by simp, rfl⟩

theorem exists_read_append {bs r : Bytes} {x : Figures} (h : Figures.read bs = .ok (x, r)) :
    ∃ c, c ≠ [] ∧ (∀ b ∈ c, b.toNat < 0x80) ∧ bs = c ++ r := by
  obtain ⟨c, small, length, cut⟩ := exists_digits_append bs
  have tail {whole : List Nat} {rest : Bytes} (h : readTail whole rest = .ok (x, r)) :
      ∃ c, (∀ b ∈ c, b.toNat < 0x80) ∧ rest = c ++ r := by
    obtain ⟨⟨fraction, rest'⟩, first, h⟩ := Except.bind_eq_ok.mp h
    obtain ⟨⟨exponent, rest''⟩, second, h⟩ := Except.bind_eq_ok.mp h
    obtain ⟨-, rfl⟩ := Prod.mk.inj (Except.ok.inj h)
    obtain ⟨c, small, rfl⟩ := exists_readFraction_append first
    obtain ⟨c', small', rfl⟩ := exists_readExponent_append second
    exact ⟨c ++ c', fun b mem => (List.mem_append.mp mem).elim (small b) (small' b),
      (List.append_assoc _ _ _).symm⟩
  rw [read_eq] at h
  generalize digits bs = split at h length cut
  obtain ⟨whole, rest⟩ := split
  cases whole with
  | nil => simp at h
  | cons d ds =>
    -- A leading zero must stand alone, and what follows the whole part is read as without it.
    have read : readTail (d :: ds) rest = .ok (x, r) := by
      cases d with
      | succ d => exact h
      | zero =>
        cases ds with
        | nil => exact h
        | cons e ds => simp at h
    obtain ⟨c', small', rfl⟩ := tail read
    refine ⟨c ++ c', ?_, fun b mem => (List.mem_append.mp mem).elim (small b) (small' b),
      by rw [cut, List.append_assoc]⟩
    rintro nothing
    obtain ⟨rfl, -⟩ := List.append_eq_nil_iff.mp nothing
    simp at length

end Figures

end HashGateway.Json
