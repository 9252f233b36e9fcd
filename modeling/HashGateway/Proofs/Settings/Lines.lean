import HashGateway.Proofs.Results
import HashGateway.Settings.Parse
import Mathlib.Data.List.TakeWhile

/-!
# The lines of settings

Settings are read line by line, and a refused line ends the reading. The settings that were made
before are passed along, but no line is read in their light: whether a line is refused, and why, is
decided by the line alone. So a text is accepted when each of its lines would be accepted as a text
of its own, and else the first line that would not be is reported.

## Main definitions

* `Text.lines` — the lines of a text, whichever way they end
* `Settings.ofLine` — the change that a line of a text asks for
* `Settings.changes` — the changes that some lines ask for

## Main results

* `Settings.parse_eq_ok_iff`, `Settings.parse_eq_error_iff` — when a text is accepted, and which
  line of it is refused
* `Settings.first_refused_line_reported` — what is refused is the first line that is refused alone
-/

namespace HashGateway

/-! ## Lines -/

namespace Text

/-- Blanks at the end of a text do not stay. -/
theorem trim_append_of_blank {after : List Char} (blank : ∀ c ∈ after, isBlank c = true)
    (cs : List Char) : trim (cs ++ after) = trim cs := by
  have stop (cs : List Char) : trimEnd (cs ++ after) = trimEnd cs := by
    rw [trimEnd, List.reverse_append, List.dropWhile_append_of_pos (by simpa using blank), trimEnd]
  rw [trim, trimStart, List.dropWhile_append]
  split
  · -- A text of blanks only is trimmed away, with what follows it.
    next nothing =>
    have nothing' : cs.dropWhile isBlank = [] := List.isEmpty_iff.mp nothing
    rw [trim, trimStart, nothing', List.dropWhile_eq_nil_iff.mpr blank]
  · rw [stop, trim, trimStart]

/-- A line without the carriage return that belongs to its end. -/
def withoutReturn (line : List Char) : List Char :=
  if line.getLast? = some '\r' then line.dropLast else line

theorem trim_withoutReturn (line : List Char) : trim (withoutReturn line) = trim line := by
  rw [withoutReturn]
  split
  · next returned =>
    obtain ⟨before, rfl⟩ := List.getLast?_eq_some_iff.mp returned
    rw [List.dropLast_concat, trim_append_of_blank (List.forall_mem_singleton.mpr rfl)]
  · rfl

/-- The lines that pieces between line feeds make. Nothing after the last line feed is no line. -/
def endedLines : List (List Char) → List (List Char)
  | [] => []
  | [last] => if last.isEmpty then [] else [last]
  | piece :: next :: rest => withoutReturn piece :: endedLines (next :: rest)

/-- The lines of a text. A line ends with a line feed, before which a carriage return may stand; the
last line may be without an end. -/
def lines (text : List Char) : List (List Char) := endedLines (text.splitOn '\n')

theorem lines_of_not_mem {line : List Char} (whole : '\n' ∉ line) :
    lines line = if line.isEmpty then [] else [line] := by
  rw [lines, List.splitOn_eq_singleton whole]
  rfl

theorem not_mem_of_mem_endedLines {ps : List (List Char)} (whole : ∀ p ∈ ps, '\n' ∉ p) :
    ∀ line ∈ endedLines ps, '\n' ∉ line := by
  fun_induction endedLines ps with
  | case1 => simp
  | case2 last empty => simp
  | case3 last nonempty => simpa using whole
  | case4 piece next rest ih =>
    intro line mem
    rcases List.mem_cons.mp mem with rfl | mem
    · have here := whole piece List.mem_cons_self
      rw [withoutReturn]
      split
      · exact fun mem => here (List.dropLast_subset _ mem)
      · exact here
    · exact ih (fun p mem => whole p (List.mem_cons_of_mem _ mem)) line mem

/-- No line holds a line feed. -/
theorem not_mem_of_mem_lines {text line : List Char} (mem : line ∈ lines text) : '\n' ∉ line := by
  refine not_mem_of_mem_endedLines (fun p mem feed => ?_) line mem
  rw [List.splitOn_eq_splitOnP] at mem
  exact nomatch eq_false_of_mem_splitOnP mem feed

end Text

namespace Settings

variable {tree : Host.FileTree} {text : List Char} {s : Settings}

/-! ## What a line asks for -/

/-- The change that a line of a text asks for, if any. -/
def ofLine (tree : Host.FileTree) (line : List Char) : Except Fault (Option Directive) :=
  readLine tree (Text.trim line)

/-- The changes that some lines ask for. -/
def changes (tree : Host.FileTree) (lines : List (List Char)) : List Directive :=
  lines.filterMap fun line => (ofLine tree line).toOption.join

/-- A line that is accepted changes the settings, and the reading goes on. -/
theorem apply_of_ofLine_eq_ok {line : List Char} {change : Option Directive}
    (asked : ofLine tree line = .ok change) (number : Nat) (s : Settings)
    (rest : List (List Char)) :
    apply tree number s (Text.trim line :: rest) =
      apply tree (number + 1) (change.toList.foldl set s) rest := by
  rw [ofLine] at asked
  rw [apply, asked]
  cases change <;> rfl

/-- A line that is refused ends the reading. -/
theorem apply_of_ofLine_eq_error {line : List Char} {fault : Fault}
    (asked : ofLine tree line = .error fault) (number : Nat) (s : Settings)
    (rest : List (List Char)) :
    apply tree number s (Text.trim line :: rest) =
      .error (.config number (String.ofList (Text.trim line)) fault) := by
  rw [ofLine] at asked
  rw [apply, asked]

theorem changes_cons {line : List Char} {change : Option Directive}
    (asked : ofLine tree line = .ok change) (lines : List (List Char)) :
    changes tree (line :: lines) = change.toList ++ changes tree lines := by
  rw [changes, List.filterMap_cons, asked]
  cases change <;> rfl

/-- What lines ask for is what a name and a value ask for. -/
theorem exists_parse_of_mem_changes {lines : List (List Char)} {d : Directive}
    (mem : d ∈ changes tree lines) : ∃ name value, Directive.parse tree name value = .ok d := by
  obtain ⟨line, -, asked⟩ := List.mem_filterMap.mp mem
  obtain ⟨_, read, rfl⟩ : ∃ change, ofLine tree line = .ok change ∧ change = some d := by
    rw [Option.join_eq_some_iff] at asked
    exact ⟨_, Except.toOption_eq_some.mp asked, rfl⟩
  rw [ofLine, readLine] at read
  split at read
  · exact nomatch read
  · split at read
    · exact nomatch read
    · exact nomatch read
    · obtain ⟨d', parsed, result⟩ := Except.map_eq_ok.mp read
      obtain rfl := Option.some.inj result
      exact ⟨_, _, parsed⟩
    · exact nomatch read

theorem apply_eq_ok_iff {number : Nat} {s t : Settings} {lines : List (List Char)} :
    apply tree number s (lines.map Text.trim) = .ok t ↔
      (∀ line ∈ lines, ∃ change, ofLine tree line = .ok change) ∧
        (changes tree lines).foldl set s = t := by
  induction lines generalizing number s with
  | nil => simp [apply, changes]
  | cons line lines ih =>
    rw [List.map_cons, List.forall_mem_cons]
    cases asked : ofLine tree line with
    | error fault => simp [apply_of_ofLine_eq_error asked]
    | ok change =>
      rw [apply_of_ofLine_eq_ok asked, ih, changes_cons asked, List.foldl_append]
      simp

theorem apply_eq_error_iff {number : Nat} {s : Settings} {lines : List (List Char)} {e : Error} :
    apply tree number s (lines.map Text.trim) = .error e ↔
      ∃ earlier line later fault, lines = earlier ++ line :: later ∧
        (∀ l ∈ earlier, ∃ change, ofLine tree l = .ok change) ∧
        ofLine tree line = .error fault ∧
        e = .config (number + earlier.length) (String.ofList (Text.trim line)) fault := by
  induction lines generalizing number s with
  | nil => simp [apply]
  | cons first lines ih =>
    rw [List.map_cons]
    -- Either the first line is the one that is refused, or it stands before that.
    cases asked : ofLine tree first with
    | error fault =>
      rw [apply_of_ofLine_eq_error asked]
      constructor
      · intro h
        exact ⟨[], first, lines, fault, rfl, by simp, asked, (Except.error.inj h).symm⟩
      · rintro ⟨earlier, line, later, fault', split, accepted, refused, rfl⟩
        cases earlier with
        | nil =>
          obtain ⟨rfl, rfl⟩ := List.cons.inj split
          obtain rfl := Except.error.inj (asked.symm.trans refused)
          rfl
        | cons _ earlier =>
          obtain ⟨rfl, -⟩ := List.cons.inj split
          obtain ⟨change, asked'⟩ := accepted first List.mem_cons_self
          exact nomatch asked.symm.trans asked'
    | ok change =>
      rw [apply_of_ofLine_eq_ok asked, ih]
      constructor
      · rintro ⟨earlier, line, later, fault, rfl, accepted, refused, rfl⟩
        refine ⟨first :: earlier, line, later, fault, rfl,
          List.forall_mem_cons.mpr ⟨⟨change, asked⟩, accepted⟩, refused, ?_⟩
        rw [List.length_cons, Nat.add_right_comm, Nat.add_assoc]
      · rintro ⟨earlier, line, later, fault, split, accepted, refused, rfl⟩
        cases earlier with
        | nil =>
          obtain ⟨rfl, -⟩ := List.cons.inj split
          exact nomatch asked.symm.trans refused
        | cons _ earlier =>
          obtain ⟨rfl, rfl⟩ := List.cons.inj split
          refine ⟨earlier, line, later, fault, rfl, (List.forall_mem_cons.mp accepted).2, refused,
            ?_⟩
          rw [List.length_cons, Nat.add_right_comm, Nat.add_assoc]

/-! ## What a text asks for -/

/-- What pieces between line feeds ask for is what the lines ask for that they make. -/
theorem apply_endedLines (number : Nat) (s : Settings) (ps : List (List Char)) :
    apply tree number s (ps.map Text.trim) =
      apply tree number s ((Text.endedLines ps).map Text.trim) := by
  fun_induction Text.endedLines ps generalizing number s with
  | case1 => rfl
  | case2 last empty =>
    obtain rfl := List.isEmpty_iff.mp empty
    rfl
  | case3 last nonempty => rfl
  | case4 piece next rest ih =>
    rw [List.map_cons, List.map_cons (l := Text.endedLines _), Text.trim_withoutReturn]
    rw [apply, apply]
    split
    · exact ih _ _
    · exact ih _ _
    · rfl

theorem parse_eq_apply (tree : Host.FileTree) (text : List Char) :
    parse tree text = apply tree 1 default ((Text.lines text).map Text.trim) :=
  apply_endedLines 1 default _

/-- A text is accepted when each of its lines is. -/
theorem parse_eq_ok_iff : parse tree text = .ok s ↔
    (∀ line ∈ Text.lines text, ∃ change, ofLine tree line = .ok change) ∧
      (changes tree (Text.lines text)).foldl set default = s := by
  rw [parse_eq_apply, apply_eq_ok_iff]

/-- A text is refused at the first of its lines that is. -/
theorem parse_eq_error_iff {e : Error} : parse tree text = .error e ↔
    ∃ earlier line later fault, Text.lines text = earlier ++ line :: later ∧
      (∀ l ∈ earlier, ∃ change, ofLine tree l = .ok change) ∧
      ofLine tree line = .error fault ∧
      e = .config (earlier.length + 1) (String.ofList (Text.trim line)) fault := by
  rw [parse_eq_apply, apply_eq_error_iff]
  simp only [Nat.add_comm 1]

/-! ## What a file asks for -/

theorem load_eq_ok_iff {file : String} : load tree file = .ok s ↔
    ∃ text, tree.readText file = .ok text ∧ parse tree text = .ok s := by
  unfold load
  split <;> simp [*]

/-- A file is refused if it cannot be read as a text, and if its text is refused. -/
theorem load_eq_error_iff {file : String} {e : Error} : load tree file = .error e ↔
    (∃ fault, tree.readText file = .error fault ∧ e = .io fault) ∨
      ∃ text, tree.readText file = .ok text ∧ parse tree text = .error e := by
  unfold load
  split <;> simp [*, eq_comm]

/-! ## What a line asks for alone -/

/-- A line alone asks for its own change. -/
theorem parse_line {line : List Char} (whole : '\n' ∉ line) :
    parse tree line =
      match ofLine tree line with
      | .ok change => .ok (change.toList.foldl set default)
      | .error fault => .error (.config 1 (String.ofList (Text.trim line)) fault) := by
  rw [parse_eq_apply, Text.lines_of_not_mem whole]
  split
  · next empty =>
    obtain rfl := List.isEmpty_iff.mp empty
    rfl
  · rw [List.map_singleton]
    cases asked : ofLine tree line with
    | ok change => rw [apply_of_ofLine_eq_ok asked, apply]
    | error fault => rw [apply_of_ofLine_eq_error asked]

theorem exists_parse_line_eq_ok_iff {line : List Char} (whole : '\n' ∉ line) :
    (∃ s, parse tree line = .ok s) ↔ ∃ change, ofLine tree line = .ok change := by
  rw [parse_line whole]
  cases ofLine tree line <;> simp

theorem parse_line_eq_error_iff {line : List Char} (whole : '\n' ∉ line) {fault : Fault} :
    parse tree line = .error (.config 1 (String.ofList (Text.trim line)) fault) ↔
      ofLine tree line = .error fault := by
  rw [parse_line whole]
  cases ofLine tree line <;> simp

/-- What is reported is the first line that is refused alone, for the reason for which it is. -/
theorem parse_eq_error_iff_alone {e : Error} : parse tree text = .error e ↔
    ∃ earlier line later fault, Text.lines text = earlier ++ line :: later ∧
      (∀ l ∈ earlier, ∃ s, parse tree l = .ok s) ∧
      parse tree line = .error (.config 1 (String.ofList (Text.trim line)) fault) ∧
      e = .config (earlier.length + 1) (String.ofList (Text.trim line)) fault := by
  rw [parse_eq_error_iff]
  refine exists₄_congr fun earlier line later fault => and_congr_right fun split => ?_
  -- As no line holds a line feed, each is the only line of its own text.
  have whole : ∀ l ∈ earlier ++ line :: later, '\n' ∉ l := fun l mem =>
    Text.not_mem_of_mem_lines (split ▸ mem)
  rw [parse_line_eq_error_iff (whole line (by simp))]
  refine and_congr_left' (forall₂_congr fun l mem => ?_)
  exact (exists_parse_line_eq_ok_iff (whole l (by simp [mem]))).symm

/-- A text is refused exactly if a line of it is refused as a text of its own. What is reported is
the first such line, by its number among all lines and without the blanks at its ends, for the
reason for which it is refused alone; the lines around it have no part in that. -/
theorem first_refused_line_reported (tree : Host.FileTree) (text : List Char) :
    ((∃ e, parse tree text = .error e) ↔
      ∃ line ∈ Text.lines text, ∃ e, parse tree line = .error e) ∧
    ∀ e, parse tree text = .error e ↔ ∃ earlier line later fault,
      Text.lines text = earlier ++ line :: later ∧
      (∀ l ∈ earlier, ∃ s, parse tree l = .ok s) ∧
      parse tree line = .error (.config 1 (String.ofList (Text.trim line)) fault) ∧
      e = .config (earlier.length + 1) (String.ofList (Text.trim line)) fault := by
  refine ⟨⟨?_, ?_⟩, fun e => parse_eq_error_iff_alone⟩
  · rintro ⟨e, refused⟩
    obtain ⟨earlier, line, later, fault, split, -, alone, -⟩ := parse_eq_error_iff_alone.mp refused
    exact ⟨line, by simp [split], _, alone⟩
  · rintro ⟨line, mem, e, refused⟩
    cases result : parse tree text with
    | error e' => exact ⟨e', rfl⟩
    | ok s =>
      have accepted := (parse_eq_ok_iff.mp result).1 line mem
      obtain ⟨s', alone⟩ :=
        (exists_parse_line_eq_ok_iff (Text.not_mem_of_mem_lines mem)).mpr accepted
      exact nomatch refused.symm.trans alone

end Settings

end HashGateway
