/-!
# Blank characters

The characters with the Unicode property `White_Space`, and what is done with
them: a text is cut into words at them, and they are removed from its ends.

## Main definitions

* `isBlank` — the 25 characters of `White_Space`
* `words` — the maximal runs of other characters
* `trim` — a text without the blanks at its ends

## Main results

* `eq_false_of_mem_splitOnP` — no piece between separators holds one
* `trim_eq_self` — a text with no blank at its ends is its own trim
* `exists_blanks_append_trim` — a text is its trim with blanks around it
* `trim_trim` — trimming twice is trimming once
-/

namespace HashGateway.Text

/-- The characters with the Unicode property `White_Space`. -/
def isBlank (c : Char) : Bool :=
  let n := c.toNat
  (9 ≤ n && n ≤ 13) || n == 0x20 || n == 0x85 || n == 0xA0 || n == 0x1680 ||
    (0x2000 ≤ n && n ≤ 0x200A) || n == 0x2028 || n == 0x2029 || n == 0x202F ||
    n == 0x205F || n == 0x3000

/-- The words of a text: the non-empty pieces between blanks. -/
def words (cs : List Char) : List (List Char) :=
  (cs.splitOnP isBlank).filter (fun piece => !piece.isEmpty)

/-- A text without the blanks at its start. -/
def trimStart (cs : List Char) : List Char := cs.dropWhile isBlank

/-- A text without the blanks at its end. -/
def trimEnd (cs : List Char) : List Char := (cs.reverse.dropWhile isBlank).reverse

/-- A text without the blanks at its two ends. -/
def trim (cs : List Char) : List Char := trimEnd (trimStart cs)

/-- No piece between separators holds one. -/
theorem eq_false_of_mem_splitOnP {α : Type} {cut : α → Bool} {as piece : List α}
    (mem : piece ∈ as.splitOnP cut) {a : α} (here : a ∈ piece) : cut a = false := by
  induction as generalizing piece with
  | nil =>
    rw [List.splitOnP_nil, List.mem_singleton] at mem
    simp [mem] at here
  | cons b as ih =>
    rw [List.splitOnP_cons_eq_if_modifyHead] at mem
    split at mem
    · rcases List.mem_cons.mp mem with rfl | mem
      · simp at here
      · exact ih mem here
    · next kept =>
      obtain ⟨first, rest, split⟩ := List.exists_cons_of_ne_nil (List.splitOnP_ne_nil cut as)
      rw [split] at ih mem
      rw [List.modifyHead_cons] at mem
      rcases List.mem_cons.mp mem with rfl | mem
      · rcases List.mem_cons.mp here with rfl | here
        · simpa using kept
        · exact ih List.mem_cons_self here
      · exact ih (List.mem_cons_of_mem _ mem) here

theorem trim_eq_self {cs : List Char} (first : ∀ c ∈ cs.head?, isBlank c = false)
    (last : ∀ c ∈ cs.getLast?, isBlank c = false) : trim cs = cs := by
  have start : trimStart cs = cs := by
    cases cs with
    | nil => rfl
    | cons c cs => simp [trimStart, List.dropWhile, first c rfl]
  rw [trim, start, trimEnd]
  have stop : cs.reverse.dropWhile isBlank = cs.reverse := by
    rw [List.getLast?_eq_head?_reverse] at last
    cases h : cs.reverse with
    | nil => rfl
    | cons c rest =>
      rw [h] at last
      simp [List.dropWhile, last c rfl]
  rw [stop, List.reverse_reverse]

private theorem head?_dropWhile_isBlank (cs : List Char) :
    ∀ c ∈ (cs.dropWhile isBlank).head?, isBlank c = false := by
  induction cs with
  | nil => simp
  | cons c cs ih =>
    cases h : isBlank c with
    | true => simpa [List.dropWhile, h] using ih
    | false => simp [List.dropWhile, h]

private theorem getLast?_trimEnd (cs : List Char) :
    ∀ c ∈ (trimEnd cs).getLast?, isBlank c = false := by
  rw [trimEnd, List.getLast?_reverse]
  exact head?_dropWhile_isBlank cs.reverse

theorem exists_trimEnd_append (cs : List Char) :
    ∃ blanks, cs = trimEnd cs ++ blanks ∧ ∀ c ∈ blanks, isBlank c = true := by
  refine ⟨(cs.reverse.takeWhile isBlank).reverse, ?_, fun c mem => ?_⟩
  · rw [trimEnd, ← List.reverse_append, List.takeWhile_append_dropWhile, List.reverse_reverse]
  · exact List.all_eq_true.mp List.all_takeWhile c (List.mem_reverse.mp mem)

private theorem head?_trim (cs : List Char) : ∀ c ∈ (trim cs).head?, isBlank c = false := by
  obtain ⟨blanks, h, -⟩ := exists_trimEnd_append (trimStart cs)
  intro c hc
  have first := head?_dropWhile_isBlank cs
  rw [← trimStart, h] at first
  apply first c
  change (trimEnd (trimStart cs)).head? = some c at hc
  simp [List.head?_append, hc]

/-- A text is its own trim with blanks around it, and the trim has no blank at its ends. -/
theorem exists_blanks_append_trim (cs : List Char) : ∃ before after,
    cs = before ++ (trim cs ++ after) ∧ (∀ c ∈ before, isBlank c = true) ∧
      (∀ c ∈ after, isBlank c = true) ∧ (∀ c ∈ (trim cs).head?, isBlank c = false) ∧
      ∀ c ∈ (trim cs).getLast?, isBlank c = false := by
  obtain ⟨after, stop, blank⟩ := exists_trimEnd_append (trimStart cs)
  refine ⟨cs.takeWhile isBlank, after, ?_, ?_, blank, head?_trim cs, getLast?_trimEnd _⟩
  · rw [trim, ← stop, trimStart, List.takeWhile_append_dropWhile]
  · exact List.all_eq_true.mp List.all_takeWhile

theorem trim_trim (cs : List Char) : trim (trim cs) = trim cs :=
  trim_eq_self (head?_trim cs) (getLast?_trimEnd (trimStart cs))

end HashGateway.Text
