import HashGateway.Text.Utf8

/-!
# Patterns

A pattern is compared with a text byte by byte: a star takes any number of bytes, a
question mark takes one, and every other byte takes itself.

## Main definitions

* `Glob.fits` — whether a text fits a pattern

## Main results

* `Glob.someSuffix_iff` — a test holds of what some bytes leave
* `Glob.fits_star_cons`, `Glob.fits_nil`, `Glob.fits_cons_cons` — what the first byte of a pattern
  asks of a text
-/

namespace HashGateway.Glob

/-- The byte that takes any bytes. -/
def star : UInt8 := 0x2A

/-- The byte that takes any one byte. -/
def mark : UInt8 := 0x3F

/-- Whether a test holds of a text, or of what is left of it after some bytes. -/
def someSuffix (test : Bytes → Bool) : Bytes → Bool
  | [] => test []
  | t :: text => test (t :: text) || someSuffix test text

/-- Whether a text fits a pattern. -/
def fits : (pattern text : Bytes) → Bool
  | [], text => text.isEmpty
  | p :: pattern, text =>
    if p = star then someSuffix (fits pattern) text
    else
      match text with
      | [] => false
      | t :: text => (p == mark || p == t) && fits pattern text

theorem someSuffix_iff {test : Bytes → Bool} {text : Bytes} :
    someSuffix test text = true ↔ ∃ taken rest, text = taken ++ rest ∧ test rest = true := by
  induction text with
  | nil =>
    refine ⟨fun h => ⟨[], [], rfl, h⟩, ?_⟩
    rintro ⟨taken, rest, e, h⟩
    obtain ⟨rfl, rfl⟩ := List.append_eq_nil_iff.mp e.symm
    exact h
  | cons t text ih =>
    rw [someSuffix, Bool.or_eq_true, ih]
    -- The whole text is one of the rests, and the others leave out its first byte.
    constructor
    · rintro (h | ⟨taken, rest, rfl, h⟩)
      · exact ⟨[], t :: text, rfl, h⟩
      · exact ⟨t :: taken, rest, rfl, h⟩
    · rintro ⟨taken, rest, e, h⟩
      cases taken with
      | nil => exact .inl (by simpa using e ▸ h)
      | cons u taken =>
        obtain ⟨rfl, rfl⟩ := List.cons.inj e
        exact .inr ⟨taken, rest, rfl, h⟩

/-- Behind a star, what some bytes leave fits the rest of the pattern. -/
theorem fits_star_cons (pattern text : Bytes) :
    fits (star :: pattern) text = someSuffix (fits pattern) text := by
  rw [fits.eq_def]
  exact if_pos rfl

/-- Any other byte of a pattern takes a byte. -/
theorem fits_nil {p : UInt8} (no_star : p ≠ star) (pattern : Bytes) :
    fits (p :: pattern) [] = false := by
  rw [fits, if_neg no_star]

theorem fits_cons_cons {p : UInt8} (no_star : p ≠ star) (pattern : Bytes) (t : UInt8)
    (text : Bytes) :
    fits (p :: pattern) (t :: text) = ((p == mark || p == t) && fits pattern text) := by
  rw [fits, if_neg no_star]

end HashGateway.Glob
