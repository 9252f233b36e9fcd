import HashGateway.Proofs.Utf8
import HashGateway.Store.Glob
import Mathlib.Data.List.Forall2

/-!
# What patterns take

A text fits a pattern if it can be cut into pieces, one for each byte of the pattern, so that every
byte takes its piece. A star takes any piece, so there may be many ways to cut a text, and a search
for one has to go back: a star first takes nothing, and one byte more each time that the rest does
not fit. It comes to its end since each step leaves less of the pattern or of the text.

## Main definitions

* `Glob.Takes` — the pieces that a byte of a pattern takes
* `Glob.backtrack` — the search that goes back to a star

## Main results

* `Glob.backtrack_eq_fits` — the search ends, and a text fits exactly if it finds a way
* `Glob.fits_cons_iff` — the first byte of a pattern takes a piece, and what is left fits the rest
* `Glob.fits_iff` — a text fits a pattern exactly if it can be cut into pieces
* `Glob.fits_star_iff` — a pattern that ends in a star takes what begins with the rest of it
-/

namespace HashGateway.Glob

variable {p : UInt8} {pattern text piece : Bytes}

/-! ## Pieces -/

/-- The pieces that a byte of a pattern takes. -/
inductive Takes : (p : UInt8) → (piece : Bytes) → Prop
  /-- A star takes any piece, an empty one too. -/
  | star (piece : Bytes) : Takes star piece
  /-- A question mark takes any one byte. -/
  | mark (b : UInt8) : Takes mark [b]
  /-- Every other byte takes itself. -/
  | self {b : UInt8} (no_star : b ≠ star) (no_mark : b ≠ mark) : Takes b [b]

theorem takes_iff_of_ne_star (no_star : p ≠ star) :
    Takes p piece ↔ ∃ b, piece = [b] ∧ (p = mark ∨ p = b) := by
  constructor
  · intro takes
    cases takes with
    | star => exact absurd rfl no_star
    | mark b => exact ⟨b, rfl, .inl rfl⟩
    | self => exact ⟨p, rfl, .inr rfl⟩
  · rintro ⟨b, rfl, rfl | rfl⟩
    · exact .mark b
    · by_cases marked : p = mark
      · exact marked ▸ .mark _
      · exact .self no_star marked

/-- The first byte of a pattern takes a piece, and what is left fits the rest of the pattern. -/
theorem fits_cons_iff : fits (p :: pattern) text = true ↔
    ∃ piece rest, text = piece ++ rest ∧ Takes p piece ∧ fits pattern rest = true := by
  -- A star leaves any rest of the text; all other bytes take one byte.
  by_cases starred : p = star
  · subst starred
    rw [fits_star_cons, someSuffix_iff]
    simp only [Takes.star, true_and]
  · simp only [takes_iff_of_ne_star starred]
    cases text with
    | nil =>
      rw [fits_nil starred]
      refine iff_of_false Bool.false_ne_true ?_
      rintro ⟨_, rest, cut, ⟨b, rfl, -⟩, -⟩
      exact nomatch cut
    | cons t text =>
      rw [fits_cons_cons starred, Bool.and_eq_true, Bool.or_eq_true, beq_iff_eq, beq_iff_eq]
      constructor
      · rintro ⟨first, later⟩
        exact ⟨[t], text, rfl, ⟨t, rfl, first⟩, later⟩
      · rintro ⟨_, rest, cut, ⟨b, rfl, first⟩, later⟩
        obtain ⟨rfl, rfl⟩ := List.cons.inj cut
        exact ⟨first, later⟩

/-- A text fits a pattern exactly if it can be cut into pieces that the bytes of the pattern take,
each its own and in their order. -/
theorem fits_iff : fits pattern text = true ↔
    ∃ pieces, List.Forall₂ Takes pattern pieces ∧ pieces.flatten = text := by
  induction pattern generalizing text with
  | nil =>
    rw [fits, List.isEmpty_iff]
    constructor
    · rintro rfl
      exact ⟨[], .nil, rfl⟩
    · rintro ⟨_, ⟨⟩, rfl⟩
      rfl
  | cons p pattern ih =>
    rw [fits_cons_iff]
    constructor
    · rintro ⟨piece, rest, rfl, takes, later⟩
      obtain ⟨pieces, all_take, rfl⟩ := ih.mp later
      exact ⟨piece :: pieces, .cons takes all_take, rfl⟩
    · rintro ⟨_, _ | ⟨takes, all_take⟩, rfl⟩
      exact ⟨_, _, rfl, takes, ih.mpr ⟨_, all_take, rfl⟩⟩

/-! ## The search -/

/-- Whether a search finds a way to cut a text. A star first takes nothing, and one byte more each
time that the rest does not fit. -/
def backtrack : (pattern text : Bytes) → Bool
  | [], text => text.isEmpty
  | p :: pattern, [] => p == star && backtrack pattern []
  | p :: pattern, t :: text =>
    if p = star then backtrack pattern (t :: text) || backtrack (p :: pattern) text
    else (p == mark || p == t) && backtrack pattern text
termination_by pattern text => pattern.length + text.length

/-- The search ends, and it finds a way exactly if the text fits. -/
theorem backtrack_eq_fits (pattern text : Bytes) : backtrack pattern text = fits pattern text := by
  fun_induction backtrack pattern text with
  | case1 text => rw [fits]
  | case2 p pattern ih =>
    by_cases starred : p = star
    · rw [starred, fits_star_cons, someSuffix, ih, beq_self_eq_true, Bool.true_and]
    · rw [fits_nil starred, beq_false_of_ne starred, Bool.false_and]
  | case3 pattern t text here further =>
    rw [here, further, fits_star_cons, fits_star_cons, someSuffix]
  | case4 p pattern t text no_star later => rw [later, fits_cons_cons no_star]

/-! ## A star at the end -/

/-- A star takes what is left. -/
theorem fits_star (text : Bytes) : fits [star] text = true :=
  fits_iff.mpr ⟨[text], .cons (.star text) .nil, by simp⟩

/-- A pattern of bytes that take themselves, with a star behind them, takes what begins with
them. -/
theorem fits_star_iff {p text : Bytes} (plain : ∀ b ∈ p, b ≠ star ∧ b ≠ mark) :
    fits (p ++ [star]) text = true ↔ p <+: text := by
  induction p generalizing text with
  | nil => simp [fits_star]
  | cons b p ih =>
    obtain ⟨no_star, no_mark⟩ := plain b (by simp)
    have rest : ∀ b ∈ p, b ≠ star ∧ b ≠ mark := fun b mem => plain b (List.mem_cons_of_mem _ mem)
    cases text with
    | nil => simp [fits_nil no_star]
    | cons t text => simp [fits_cons_cons no_star, no_mark, ih rest, List.cons_prefix_cons]

theorem bytes_trace : Utf8.bytes "trace:" = [0x74, 0x72, 0x61, 0x63, 0x65, 0x3A] := by decide

/-- The fields of trace entries are those that begin like them. -/
theorem fits_trace_iff :
    fits (Utf8.bytes "trace:*") text = true ↔ Utf8.bytes "trace:" <+: text := by
  have pattern : Utf8.bytes "trace:*" = Utf8.bytes "trace:" ++ [star] := by decide
  have plain : ∀ b ∈ Utf8.bytes "trace:", b ≠ star ∧ b ≠ mark := by
    rw [bytes_trace]
    simp [star, mark]
  rw [pattern, fits_star_iff plain]

theorem fits_trace_bytes_iff {field : String} :
    fits (Utf8.bytes "trace:*") (Utf8.bytes field) = true ↔ "trace:".toList <+: field.toList := by
  have small : ∀ b ∈ Utf8.bytes "trace:", b.toNat < 0x80 := by
    rw [bytes_trace]
    simp
  rw [fits_trace_iff]
  exact Utf8.encode_prefix_iff small

/-- A text fits a pattern exactly if it can be cut into pieces that the bytes of the pattern take,
and the search for such pieces ends, whatever pattern and text are. So the fields of trace entries
are told from others by how they begin. -/
theorem patterns_take_pieces (pattern text : Bytes) :
    backtrack pattern text = fits pattern text ∧
    (fits pattern text = true ↔
      ∃ pieces, List.Forall₂ Takes pattern pieces ∧ pieces.flatten = text) ∧
    (fits (Utf8.bytes "trace:*") text = true ↔ Utf8.bytes "trace:" <+: text) ∧
    ∀ field : String,
      fits (Utf8.bytes "trace:*") (Utf8.bytes field) = true ↔ "trace:".toList <+: field.toList :=
  ⟨backtrack_eq_fits pattern text, fits_iff, fits_trace_iff, fun _ => fits_trace_bytes_iff⟩

/-- Stars that follow each other share what is left, and may take nothing. -/
example : fits (Utf8.bytes "t?**") (Utf8.bytes "tr") = true := by decide

end HashGateway.Glob
