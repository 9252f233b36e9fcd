import HashGateway.Proofs.CommandTable
import Mathlib.Data.List.Infix

/-!
# Templates that are filled

A template is cut into words, and what stands between the holes of a word are pieces without
a hole. To fill a word is to put a text after each piece but the last, and to change nothing
else; the texts are taken in order through all words. A template is filled whenever it has as
many holes as there are texts, whatever these texts are, and only then.

## Main definitions

* `Template.hole` — two braces with nothing between them
* `Template.FilledWord`, `Template.Filled` — words with texts in the places of their holes

## Main results

* `Template.holes_eq_countP` — the holes are the places at which a hole begins
* `Template.sum_holes_words` — no hole is cut when a template is cut into words
* `Template.fill_eq_some_iff` — words are filled with as many texts as they take
* `Template.format_fills_holes` — a template is filled exactly if its holes and the texts are as
  many
-/

namespace HashGateway.Template

/-- Two braces with nothing between them. -/
def hole : List Char := ['\x7b', '\x7d']

/-- A word with texts in the places of its holes. It is cut at its holes into pieces that have
none, and these stay as they are. -/
inductive FilledWord : (word : List Char) → (texts : List (List Char)) → (out : List Char) → Prop
  | last {piece : List Char} (whole : ¬ hole <:+: piece) : FilledWord piece [] piece
  | hole {piece rest text out : List Char} {texts : List (List Char)} (whole : ¬ hole <:+: piece)
      (later : FilledWord rest texts out) :
      FilledWord (piece ++ (hole ++ rest)) (text :: texts) (piece ++ (text ++ out))

/-- Words with texts in the places of their holes. Each word takes the next ones, as many as it
has holes. -/
inductive Filled : (words texts outs : List (List Char)) → Prop
  | nil : Filled [] [] []
  | cons {word out : List Char} {words taken texts outs : List (List Char)}
      (first : FilledWord word taken out) (rest : Filled words texts outs) :
      Filled (word :: words) (taken ++ texts) (out :: outs)

variable {word piece rest out : List Char} {texts words outs left taken : List (List Char)}
  {c : Char}

/-! ## Holes -/

theorem hole_prefix_cons_iff :
    hole <+: c :: word ↔ c = '\x7b' ∧ ∃ rest, word = '\x7d' :: rest := by
  constructor
  · rintro ⟨rest, cut⟩
    obtain ⟨rfl, rfl⟩ := List.cons.inj cut
    exact ⟨rfl, rest, rfl⟩
  · rintro ⟨rfl, rest, rfl⟩
    exact ⟨rest, rfl⟩

/-- A piece begins with no hole if what comes after its first character has none. -/
theorem not_hole_infix_cons (whole : ¬ hole <:+: piece)
    (other : ∀ rest, c = '\x7b' → piece = '\x7d' :: rest → False) : ¬ hole <:+: c :: piece := by
  rw [List.infix_cons_iff, hole_prefix_cons_iff]
  rintro (⟨brace, rest, next⟩ | inside)
  · exact other rest brace next
  · exact whole inside

/-- Holes do not overlap, so they are all the places at which one begins. -/
theorem holes_eq_countP (cs : List Char) : holes cs = cs.tails.countP (hole <+: ·) := by
  fun_induction holes cs with
  | case1 rest ih =>
    -- No other hole begins inside of this one.
    have first : hole <+: '\x7b' :: '\x7d' :: rest := ⟨rest, rfl⟩
    have second : ¬ hole <+: '\x7d' :: rest := by simp [hole_prefix_cons_iff]
    rw [List.tails, List.tails, List.countP_cons_of_pos (by simpa using first),
      List.countP_cons_of_neg (by simpa using second), ih]
  | case2 c rest other ih =>
    have no_hole : ¬ hole <+: c :: rest := by
      rw [hole_prefix_cons_iff]
      rintro ⟨brace, rest', next⟩
      exact other rest' brace next
    rw [List.tails, List.countP_cons_of_neg (by simpa using no_hole), ih]
  | case3 => rfl

/-- The first piece of a text begins as the text does, unless this begins with a blank. -/
theorem exists_pieces_cons (dark : Text.isBlank c = false) (cs : List Char) :
    ∃ piece rest, (c :: cs).splitOnP Text.isBlank = (c :: piece) :: rest ∧
      cs.splitOnP Text.isBlank = piece :: rest := by
  obtain ⟨piece, rest, cut⟩ :=
    List.exists_cons_of_ne_nil (List.splitOnP_ne_nil Text.isBlank cs)
  refine ⟨piece, rest, ?_, cut⟩
  rw [List.splitOnP_cons_eq_if_modifyHead, if_neg (by simp [dark]), cut, List.modifyHead_cons]

theorem head_of_pieces {cs : List Char} {others : List (List Char)}
    (cut : cs.splitOnP Text.isBlank = (c :: piece) :: others) : ∃ rest, cs = c :: rest := by
  cases cs with
  | nil => simp at cut
  | cons d rest =>
    cases blank : Text.isBlank d with
    | true => simp [List.splitOnP_cons_eq_if_modifyHead, blank] at cut
    | false =>
      obtain ⟨_, _, cut', -⟩ := exists_pieces_cons blank rest
      obtain ⟨first, -⟩ := List.cons.inj (cut'.symm.trans cut)
      exact ⟨rest, by rw [(List.cons.inj first).1]⟩

/-- A hole has no blank in it, so each hole is a hole of one piece. -/
theorem sum_holes_pieces (cs : List Char) :
    ((cs.splitOnP Text.isBlank).map holes).sum = holes cs := by
  fun_induction holes cs with
  | case1 rest ih =>
    -- Both braces are put before the first piece of the rest.
    have open_dark : Text.isBlank '\x7b' = false := by decide
    have close_dark : Text.isBlank '\x7d' = false := by decide
    obtain ⟨piece, others, cut, cut'⟩ := exists_pieces_cons open_dark ('\x7d' :: rest)
    obtain ⟨piece', others', cut'', last⟩ := exists_pieces_cons close_dark rest
    obtain ⟨rfl, rfl⟩ := List.cons.inj (cut'.symm.trans cut'')
    rw [last] at ih
    rw [cut, List.map_cons, List.sum_cons, holes, ← ih, List.map_cons, List.sum_cons]
    omega
  | case2 c rest other ih =>
    cases blank : Text.isBlank c with
    | true =>
      rw [List.splitOnP_cons_eq_if_modifyHead, if_pos blank, List.map_cons, List.sum_cons, ih]
      simp [holes]
    | false =>
      obtain ⟨piece, others, cut, cut'⟩ := exists_pieces_cons blank rest
      -- A hole of the piece would be one of the text, as both go on alike.
      have apart : ∀ rest', c = '\x7b' → piece = '\x7d' :: rest' → False := by
        rintro rest' brace rfl
        obtain ⟨rest'', next⟩ := head_of_pieces cut'
        exact other rest'' brace next
      rw [cut'] at ih
      rw [cut, List.map_cons, List.sum_cons, holes.eq_2 c piece apart, ← ih, List.map_cons,
        List.sum_cons]
  | case3 => rfl

/-- No hole is cut when a template is cut into words. -/
theorem sum_holes_words (cs : List Char) : ((Text.words cs).map holes).sum = holes cs := by
  rw [← sum_holes_pieces, Text.words]
  induction cs.splitOnP Text.isBlank with
  | nil => rfl
  | cons piece pieces ih =>
    cases piece with
    | nil => simpa [holes] using ih
    | cons c piece => simp [ih]

/-! ## One word -/

theorem FilledWord.cons (other : ∀ rest, c = '\x7b' → word = '\x7d' :: rest → False)
    (h : FilledWord word taken out) : FilledWord (c :: word) taken (c :: out) := by
  cases h with
  | last whole => exact .last (not_hole_infix_cons whole other)
  | @hole piece rest text out texts whole later =>
    refine @FilledWord.hole (c :: piece) _ _ _ _ (not_hole_infix_cons whole ?_) later
    rintro rest' brace rfl
    exact other _ brace rfl

/-- A piece without a hole stays as it is, if what follows begins with a hole or is nothing. -/
theorem fillWord_append (whole : ¬ hole <:+: piece) (apart : ∀ c ∈ rest.head?, c = '\x7b')
    (filling : fillWord rest texts = some (out, left)) :
    fillWord (piece ++ rest) texts = some (piece ++ out, left) := by
  induction piece with
  | nil => exact filling
  | cons c piece ih =>
    have later : ¬ hole <:+: piece := fun inside => whole (List.infix_cons inside)
    refine (fillWord_char fun rest' brace next => ?_).mpr ⟨_, ih later, rfl⟩
    -- A hole that begins here ends inside the piece, or with the first character of the rest.
    cases piece with
    | nil =>
      change rest = '\x7d' :: rest' at next
      exact absurd (apart '\x7d' (by simp [next])) (by decide)
    | cons d piece =>
      obtain ⟨rfl, -⟩ := List.cons.inj next
      exact whole (List.infix_cons_iff.mpr (.inl (hole_prefix_cons_iff.mpr ⟨brace, piece, rfl⟩)))

theorem FilledWord.fillWord_eq (h : FilledWord word taken out) (left : List (List Char)) :
    fillWord word (taken ++ left) = some (out, left) := by
  induction h with
  | last whole =>
    have ended : fillWord [] left = some ([], left) := rfl
    simpa using fillWord_append whole (by simp) ended
  | hole whole later ih =>
    exact fillWord_append whole (by simp [Template.hole])
      (fillWord_hole.mpr ⟨_, _, _, rfl, ih, rfl⟩)

/-- A word is filled with the first of some texts, as many as it takes. -/
theorem fillWord_eq_some_iff : fillWord word texts = some (out, left) ↔
    ∃ taken, texts = taken ++ left ∧ FilledWord word taken out := by
  constructor
  · intro h
    fun_induction holes word generalizing out texts with
    | case1 rest ih =>
      obtain ⟨text, later, filled, rfl, filling, rfl⟩ := fillWord_hole.mp h
      obtain ⟨taken, rfl, word⟩ := ih filling
      exact ⟨text :: taken, rfl, @FilledWord.hole [] _ _ _ _ (by simp [hole]) word⟩
    | case2 c rest other ih =>
      obtain ⟨filled, filling, rfl⟩ := (fillWord_char other).mp h
      obtain ⟨taken, rfl, word⟩ := ih filling
      exact ⟨taken, rfl, word.cons other⟩
    | case3 =>
      obtain ⟨rfl, rfl⟩ := fillWord_nil.mp h
      exact ⟨[], rfl, .last (by simp [hole])⟩
  · rintro ⟨taken, rfl, filled⟩
    exact filled.fillWord_eq left

/-- A word is filled if the texts suffice for its holes. -/
theorem exists_fillWord (enough : holes word ≤ texts.length) :
    ∃ out left, fillWord word texts = some (out, left) := by
  fun_induction holes word generalizing texts with
  | case1 rest ih =>
    cases texts with
    | nil => simp at enough
    | cons text texts =>
      obtain ⟨out, left, filling⟩ := ih (by simpa using enough)
      exact ⟨_, _, fillWord_hole.mpr ⟨_, _, _, rfl, filling, rfl⟩⟩
  | case2 c rest other ih =>
    obtain ⟨out, left, filling⟩ := ih enough
    exact ⟨_, _, (fillWord_char other).mpr ⟨_, filling, rfl⟩⟩
  | case3 => exact ⟨_, _, fillWord_nil.mpr ⟨rfl, rfl⟩⟩

/-! ## Several words -/

/-- Words are filled with the first of some texts, as many as they take. -/
theorem fill_eq_some_iff : fill words texts = some (outs, left) ↔
    ∃ taken, texts = taken ++ left ∧ Filled words taken outs := by
  induction words generalizing texts outs with
  | nil =>
    rw [fill_nil]
    constructor
    · rintro ⟨rfl, rfl⟩
      exact ⟨[], rfl, .nil⟩
    · rintro ⟨taken, rfl, filled⟩
      cases filled
      exact ⟨rfl, rfl⟩
  | cons word words ih =>
    simp only [fill_cons, fillWord_eq_some_iff, ih]
    constructor
    · rintro ⟨out, _, rest, ⟨taken, rfl, first⟩, ⟨taken', rfl, others⟩, rfl⟩
      exact ⟨taken ++ taken', (List.append_assoc _ _ _).symm, .cons first others⟩
    · rintro ⟨_, rfl, filled⟩
      cases filled with
      | cons first rest =>
        exact ⟨_, _, _, ⟨_, List.append_assoc _ _ _, first⟩, ⟨_, rfl, rest⟩, rfl⟩

/-- Words are filled if the texts suffice for their holes. -/
theorem exists_fill (enough : (words.map holes).sum ≤ texts.length) :
    ∃ outs left, fill words texts = some (outs, left) := by
  induction words generalizing texts with
  | nil => exact ⟨_, _, fill_nil.mpr ⟨rfl, rfl⟩⟩
  | cons word words ih =>
    rw [List.map_cons, List.sum_cons] at enough
    obtain ⟨out, later, filling⟩ := exists_fillWord (show holes word ≤ texts.length by omega)
    have length := length_of_fillWord filling
    obtain ⟨outs, left, others⟩ := ih (show (words.map holes).sum ≤ later.length by omega)
    exact ⟨_, _, fill_cons.mpr ⟨_, _, _, filling, others, rfl⟩⟩

/-- Words are not filled exactly if the texts do not suffice. -/
theorem fill_eq_none_iff : fill words texts = none ↔ texts.length < (words.map holes).sum := by
  constructor
  · intro unfilled
    by_contra enough
    obtain ⟨outs, left, filled⟩ := exists_fill (Nat.not_lt.mp enough)
    exact Option.some_ne_none _ (filled.symm.trans unfilled)
  · intro few
    refine Option.eq_none_iff_forall_ne_some.mpr fun ⟨outs, left⟩ filled => ?_
    have length := length_of_fill filled
    omega

theorem Filled.length_eq (h : Filled words texts outs) : outs.length = words.length := by
  induction h with
  | nil => rfl
  | cons _ _ ih => simp [ih]

/-! ## Templates -/

section Format

variable {template : String} {arguments : List Argument}

theorem format_of_lt (few : arguments.length < holes template.toList) :
    format template arguments = .error (.tooFew template arguments.length) := by
  have unfilled : fill (Text.words template.toList) (arguments.map Argument.render) = none := by
    rwa [fill_eq_none_iff, sum_holes_words, List.length_map]
  rw [format, unfilled]

/-- The words of a template leave as many texts as there are more texts than holes. -/
theorem exists_fill_words (enough : holes template.toList ≤ arguments.length) :
    ∃ outs left, fill (Text.words template.toList) (arguments.map Argument.render) =
      some (outs, left) ∧ arguments.length = holes template.toList + left.length := by
  rw [← sum_holes_words, ← List.length_map Argument.render] at enough
  obtain ⟨outs, left, filled⟩ := exists_fill enough
  have count := length_of_fill filled
  rw [sum_holes_words, List.length_map] at count
  exact ⟨outs, left, filled, count⟩

theorem format_of_gt (many : holes template.toList < arguments.length) :
    format template arguments = .error (.tooMany template arguments.length) := by
  obtain ⟨outs, left, filled, count⟩ := exists_fill_words (Nat.le_of_lt many)
  cases left with
  | nil => exact absurd count (Nat.ne_of_gt many)
  | cons text left => rw [format, filled]

theorem exists_format (arity : arguments.length = holes template.toList) :
    ∃ command, format template arguments = .ok command := by
  obtain ⟨outs, left, filled, count⟩ := exists_fill_words (Nat.le_of_eq arity.symm)
  obtain rfl : left = [] := List.length_eq_zero_iff.mp (by omega)
  exact ⟨_, format_eq_ok_iff.mpr ⟨outs, filled, rfl⟩⟩

theorem format_eq_ok_iff_filled {command : Command} : format template arguments = .ok command ↔
    Filled (Text.words template.toList) (arguments.map Argument.render)
      (command.map String.toList) := by
  rw [format_eq_ok_iff]
  constructor
  · rintro ⟨outs, filled, rfl⟩
    obtain ⟨taken, allTaken, filled⟩ := fill_eq_some_iff.mp filled
    rw [List.append_nil] at allTaken
    simpa [allTaken] using filled
  · intro filled
    exact ⟨_, fill_eq_some_iff.mpr ⟨_, (List.append_nil _).symm, filled⟩, by simp⟩

end Format

/-- A template is filled exactly if it has as many holes as there are arguments, and then with
their texts: each of its words becomes one word of the command. With fewer or with more arguments
there is an error that tells which. -/
theorem format_fills_holes (template : String) (arguments : List Argument) :
    let places := template.toList.tails.countP (hole <+: ·)
    places = holes template.toList ∧
    ((∃ command, format template arguments = .ok command) ↔ arguments.length = places) ∧
    (∀ command, format template arguments = .ok command ↔
      command.length = (Text.words template.toList).length ∧
      Filled (Text.words template.toList) (arguments.map Argument.render)
        (command.map String.toList)) ∧
    (format template arguments = .error (.tooFew template arguments.length) ↔
      arguments.length < places) ∧
    (format template arguments = .error (.tooMany template arguments.length) ↔
      places < arguments.length) := by
  intro places
  have count : places = holes template.toList := (holes_eq_countP template.toList).symm
  -- A command that is filled word by word has as many words as the template.
  have filled (command : Command) : format template arguments = .ok command ↔
      command.length = (Text.words template.toList).length ∧
      Filled (Text.words template.toList) (arguments.map Argument.render)
        (command.map String.toList) := by
    rw [format_eq_ok_iff_filled]
    exact ⟨fun filled => ⟨by simpa using filled.length_eq, filled⟩, And.right⟩
  refine ⟨count, ?_, filled, ?_⟩
  · rcases Nat.lt_trichotomy arguments.length (holes template.toList) with few | equal | many
    · simp [format_of_lt few, count, Nat.ne_of_lt few]
    · exact iff_of_true (exists_format equal) (equal.trans count.symm)
    · simp [format_of_gt many, count, Nat.ne_of_gt many]
  · rcases Nat.lt_trichotomy arguments.length (holes template.toList) with few | equal | many
    · simp [format_of_lt few, count, few, Nat.le_of_lt few]
    · obtain ⟨command, formatted⟩ := exists_format equal
      simp [formatted, count, equal]
    · simp [format_of_gt many, count, many, Nat.le_of_lt many]

/-- A blank, a hole and nothing at all are put in as they are. -/
example : format "SET  \x7b\x7d:\x7b\x7d x\x7b\x7d" [.text "a b", .text "\x7b\x7d", .text ""] =
    .ok ["SET", "a b:\x7b\x7d", "x"] := rfl

end HashGateway.Template
