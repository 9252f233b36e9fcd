import HashGateway.Proofs.Operation
import Mathlib.Data.List.Forall2

/-!
# Commands tell their operations

Names and documents are opaque texts that fill the holes of templates, so a text may look like
a word of another command, or hold a hole of its own. It does not help: a command can be made
in one way only. Where the words of two templates differ before their first holes no texts
make them equal, and a word with a single hole shows what it is filled with.

Nothing here depends on which operations there are, but for the three properties of the table
that are decided by looking at it.

## Main definitions

* `Template.stem` — the text of a word before its first hole
* `Template.Compatible` — words that may become equal when they are filled
* `Operation.address?` — the hash that an operation is about, and the fields that it names

## Main results

* `Template.eq_of_fill` — words with single holes show what they are filled with
* `Operation.eq_of_compatible` — different operations have incompatible templates
* `Operation.commands_tell_operations` — a command is made by one operation from one list of
  texts, and reaches the hash and the fields that they name
-/

namespace HashGateway

namespace Template

variable {word out : List Char} {texts texts' words words' outs left left' : List (List Char)}

/-! ## One word -/

theorem fillWord_hole {rest : List Char} :
    fillWord ('\x7b' :: '\x7d' :: rest) texts = some (out, left) ↔
      ∃ text later filled, texts = text :: later ∧ fillWord rest later = some (filled, left) ∧
        out = text ++ filled := by
  cases texts with
  | nil => simp [fillWord]
  | cons text later => simp [fillWord, eq_comm, and_assoc]

theorem fillWord_char {c : Char} {rest : List Char}
    (other : ∀ rest', c = '\x7b' → rest = '\x7d' :: rest' → False) :
    fillWord (c :: rest) texts = some (out, left) ↔
      ∃ filled, fillWord rest texts = some (filled, left) ∧ out = c :: filled := by
  rw [fillWord]
  · simp [eq_comm]
  · exact other

theorem fillWord_nil : fillWord [] texts = some (out, left) ↔ out = [] ∧ left = texts := by
  simp [fillWord, eq_comm]

theorem eq_of_holes_eq_zero (full : holes word = 0)
    (h : fillWord word texts = some (out, left)) : out = word ∧ left = texts := by
  fun_induction holes word generalizing out with
  | case1 rest ih => simp at full
  | case2 c rest other ih =>
    obtain ⟨filled, later, rfl⟩ := (fillWord_char other).mp h
    obtain ⟨rfl, rfl⟩ := ih full later
    exact ⟨rfl, rfl⟩
  | case3 => exact fillWord_nil.mp h

/-- A word takes as many texts as it has holes. -/
theorem length_of_fillWord (h : fillWord word texts = some (out, left)) :
    texts.length = holes word + left.length := by
  fun_induction holes word generalizing out texts with
  | case1 rest ih =>
    obtain ⟨text, later, filled, rfl, filling, -⟩ := fillWord_hole.mp h
    rw [List.length_cons, ih filling]
    omega
  | case2 c rest other ih =>
    obtain ⟨filled, filling, -⟩ := (fillWord_char other).mp h
    exact ih filling
  | case3 =>
    obtain ⟨-, rfl⟩ := fillWord_nil.mp h
    simp

/-- A word with a single hole shows what it is filled with. -/
theorem exists_taken (single : holes word ≤ 1) (h : fillWord word texts = some (out, left))
    (h' : fillWord word texts' = some (out, left')) :
    ∃ taken, texts = taken ++ left ∧ texts' = taken ++ left' := by
  fun_induction holes word generalizing out with
  | case1 rest ih =>
    -- After its only hole the word is as it was, so what stands before that is the text.
    have full : holes rest = 0 := by omega
    obtain ⟨text, later, filled, rfl, filling, rfl⟩ := fillWord_hole.mp h
    obtain ⟨text', later', filled', rfl, filling', cut⟩ := fillWord_hole.mp h'
    obtain ⟨rfl, rfl⟩ := eq_of_holes_eq_zero full filling
    obtain ⟨rfl, rfl⟩ := eq_of_holes_eq_zero full filling'
    obtain rfl := List.append_cancel_right cut
    exact ⟨[text], rfl, rfl⟩
  | case2 c rest other ih =>
    obtain ⟨filled, filling, rfl⟩ := (fillWord_char other).mp h
    obtain ⟨filled', filling', cut⟩ := (fillWord_char other).mp h'
    obtain rfl : filled = filled' := List.tail_eq_of_cons_eq cut
    exact ih single filling filling'
  | case3 =>
    obtain ⟨-, rfl⟩ := fillWord_nil.mp h
    obtain ⟨-, rfl⟩ := fillWord_nil.mp h'
    exact ⟨[], rfl, rfl⟩

/-- The text of a word before its first hole. -/
def stem : List Char → List Char
  | '\x7b' :: '\x7d' :: _ => []
  | c :: rest => c :: stem rest
  | [] => []

theorem stem_prefix_of_fillWord (h : fillWord word texts = some (out, left)) :
    stem word <+: out := by
  fun_induction stem word generalizing out with
  | case1 rest => exact List.nil_prefix
  | case2 c rest other ih =>
    obtain ⟨filled, filling, rfl⟩ := (fillWord_char other).mp h
    exact List.cons_prefix_cons.mpr ⟨rfl, ih filling⟩
  | case3 => exact List.nil_prefix

/-! ## Several words -/

theorem fill_cons : fill (word :: words) texts = some (outs, left) ↔
    ∃ out later rest, fillWord word texts = some (out, later) ∧
      fill words later = some (rest, left) ∧ outs = out :: rest := by
  rw [fill]
  cases fillWord word texts with
  | none => simp
  | some filled =>
    obtain ⟨out, later⟩ := filled
    simp [eq_comm]

theorem fill_nil : fill [] texts = some (outs, left) ↔ outs = [] ∧ left = texts := by
  simp [fill, eq_comm]

/-- Words take as many texts as they have holes. -/
theorem length_of_fill (h : fill words texts = some (outs, left)) :
    texts.length = (words.map holes).sum + left.length := by
  induction words generalizing texts outs with
  | nil =>
    obtain ⟨-, rfl⟩ := fill_nil.mp h
    simp
  | cons word words ih =>
    obtain ⟨out, later, rest, filling, filling_rest, -⟩ := fill_cons.mp h
    rw [length_of_fillWord filling, ih filling_rest, List.map_cons, List.sum_cons]
    omega

/-- Words with single holes show what they are filled with. -/
theorem eq_of_fill (single : ∀ word ∈ words, holes word ≤ 1)
    (h : fill words texts = some (outs, left)) (h' : fill words texts' = some (outs, left)) :
    texts = texts' := by
  induction words generalizing texts texts' outs with
  | nil =>
    obtain ⟨-, rfl⟩ := fill_nil.mp h
    exact (fill_nil.mp h').2
  | cons word words ih =>
    obtain ⟨out, later, rest, filling, filling_rest, rfl⟩ := fill_cons.mp h
    obtain ⟨out', later', rest', filling', filling_rest', outs_eq⟩ := fill_cons.mp h'
    obtain ⟨rfl, rfl⟩ := List.cons.inj outs_eq
    obtain ⟨taken, rfl, rfl⟩ := exists_taken (single word List.mem_cons_self) filling filling'
    rw [ih (fun word mem => single word (List.mem_cons_of_mem _ mem)) filling_rest filling_rest']

/-- Two lists of words may become equal when they are filled: there are as many of them, and up to
their first holes no two words differ. -/
def Compatible (words words' : List (List Char)) : Prop :=
  List.Forall₂ (fun word word' => stem word <+: stem word' ∨ stem word' <+: stem word) words words'

instance (words words' : List (List Char)) : Decidable (Compatible words words') :=
  inferInstanceAs (Decidable (List.Forall₂ _ _ _))

theorem compatible_of_fill (h : fill words texts = some (outs, left))
    (h' : fill words' texts' = some (outs, left')) : Compatible words words' := by
  induction words generalizing words' texts texts' outs with
  | nil =>
    obtain ⟨rfl, -⟩ := fill_nil.mp h
    cases words' with
    | nil => exact .nil
    | cons word' words' =>
      obtain ⟨_, _, _, -, -, outs_eq⟩ := fill_cons.mp h'
      exact nomatch outs_eq
  | cons word words ih =>
    obtain ⟨out, later, rest, filling, filling_rest, rfl⟩ := fill_cons.mp h
    cases words' with
    | nil => exact nomatch (fill_nil.mp h').1
    | cons word' words' =>
      obtain ⟨out', later', rest', filling', filling_rest', outs_eq⟩ := fill_cons.mp h'
      obtain ⟨rfl, rfl⟩ := List.cons.inj outs_eq
      exact .cons (List.prefix_or_prefix_of_prefix (stem_prefix_of_fillWord filling)
        (stem_prefix_of_fillWord filling')) (ih filling_rest filling_rest')

theorem format_eq_ok_iff {template : String} {arguments : List Argument} {command : Command} :
    format template arguments = .ok command ↔
      ∃ outs, fill (Text.words template.toList) (arguments.map Argument.render) =
        some (outs, []) ∧ command = outs.map String.ofList := by
  unfold format
  split
  · next failed => simp [failed]
  · next outs filled => simp [filled, eq_comm]
  · next outs text texts filled => simp [filled]

end Template

/-- The text of an argument, as it stands in a command. -/
def Argument.asString (argument : Argument) : String := String.ofList argument.render

@[simp] theorem Argument.asString_text (s : String) : (text s).asString = s := String.ofList_toList

@[simp] theorem Argument.render_text_asString (argument : Argument) :
    (text argument.asString).render = argument.render := String.toList_ofList

theorem Argument.map_asString_inj {arguments arguments' : List Argument} :
    arguments.map asString = arguments'.map asString ↔
      arguments.map render = arguments'.map render := by
  have composed : asString = String.ofList ∘ render := rfl
  rw [composed, ← List.map_map, ← List.map_map]
  exact (List.map_injective_iff.mpr fun _ _ => String.ofList_inj.mp).eq_iff

/-! ## What a command reaches -/

namespace HashCommand

/-- The key of the hash that a command is about. -/
def key : HashCommand → String
  | set key _ _ => key
  | get key _ => key
  | getAll key => key
  | scan key _ => key

/-- The fields that a command names. -/
def fields : HashCommand → List String
  | set _ pairs _ => pairs.map Prod.fst
  | get _ field => [field]
  | getAll _ => []
  | scan _ _ => []

end HashCommand

namespace Operation

variable {operation operation' : Operation} {arguments arguments' : List Argument}
  {words words' : Command}

/-- The hash that an operation is about, and the fields of it that it names. -/
def address? : Operation → List String → Option (HashKey × List String)
  | registerUser, [machine, _, _] => some (.user machine, ["machine", "username"])
  | getUser, [machine] => some (.user machine, [])
  | setFile, [uuid, field, _] => some (.file uuid, [field])
  | indexFile, [machine, field, _] => some (.files machine, [field])
  | getFile, [uuid, field] => some (.file uuid, [field])
  | listFiles, [machine, _, _] => some (.files machine, [])
  | addTrace, [uuid, field, _] => some (.file uuid, [field])
  | listTraces, [uuid, _, _] => some (.file uuid, [])
  | _, _ => none

/-- Whether an argument is a text or a number is not seen in a command. -/
theorem format_asString (template : String) (arguments : List Argument) :
    Template.format template (arguments.map fun a => .text a.asString) =
      Template.format template arguments :=
  Template.format_congr (by simp [Function.comp_def])

/-- An operation takes as many arguments as its template has holes. -/
theorem length_of_format (h : Template.format operation.template arguments = .ok words) :
    arguments.length = ((Text.words operation.template.toList).map Template.holes).sum := by
  obtain ⟨outs, filled, -⟩ := Template.format_eq_ok_iff.mp h
  simpa using Template.length_of_fill filled

theorem eq_of_means {command command' : HashCommand} (means : operation.Means arguments command)
    (h : Template.format operation.template arguments = .ok words)
    (parsed : HashCommand.parse words = .ok command') : command' = command := by
  obtain ⟨words', formatted, parsed'⟩ := means
  obtain rfl := Except.ok.inj (h.symm.trans formatted)
  exact Except.ok.inj (parsed.symm.trans parsed')

theorem exists_scan_of_parse {key : String} {rest : List String} {command : HashCommand}
    (parsed : HashCommand.parse ("HSCAN" :: key :: rest) = .ok command) :
    ∃ scan, command = .scan key scan := by
  rw [parse_scan] at parsed
  split at parsed
  · next scan _ => exact ⟨scan, (Except.ok.inj parsed).symm⟩
  · simp at parsed

/-- The command of an operation reaches the hash and the fields that its texts name. -/
theorem address?_of_parse (h : Template.format operation.template arguments = .ok words)
    {command : HashCommand} (parsed : HashCommand.parse words = .ok command) :
    ∃ key, operation.address? (arguments.map Argument.asString) = some (key, command.fields) ∧
      command.key = key.text := by
  have count := length_of_format h
  have texts := (format_asString _ _).trans h
  -- The number of texts is that of the holes, and then the words mean one command only.
  cases operation with
  | registerUser =>
    obtain ⟨machine, name, user, rfl⟩ := List.length_eq_three.mp count
    obtain rfl := eq_of_means (means_registerUser _ _ _) texts parsed
    exact ⟨_, rfl, rfl⟩
  | getUser =>
    obtain ⟨machine, rfl⟩ := List.length_eq_one_iff.mp count
    obtain rfl := eq_of_means (means_getUser _) texts parsed
    exact ⟨_, rfl, rfl⟩
  | setFile =>
    obtain ⟨uuid, field, data, rfl⟩ := List.length_eq_three.mp count
    obtain rfl := eq_of_means (means_setFile _ _ _) texts parsed
    exact ⟨_, rfl, rfl⟩
  | indexFile =>
    obtain ⟨machine, field, data, rfl⟩ := List.length_eq_three.mp count
    obtain rfl := eq_of_means (means_indexFile _ _ _) texts parsed
    exact ⟨_, rfl, rfl⟩
  | getFile =>
    obtain ⟨uuid, field, rfl⟩ := List.length_eq_two.mp count
    obtain rfl := eq_of_means (means_getFile _ _) texts parsed
    exact ⟨_, rfl, rfl⟩
  | listFiles =>
    obtain ⟨machine, cursor, size, rfl⟩ := List.length_eq_three.mp count
    obtain rfl := Except.ok.inj (texts.symm.trans (format_page_of_files _ _ _))
    obtain ⟨scan, rfl⟩ := exists_scan_of_parse parsed
    exact ⟨_, rfl, rfl⟩
  | addTrace =>
    obtain ⟨uuid, field, data, rfl⟩ := List.length_eq_three.mp count
    obtain rfl := eq_of_means (means_addTrace _ _ _) texts parsed
    exact ⟨_, rfl, rfl⟩
  | listTraces =>
    obtain ⟨uuid, cursor, size, rfl⟩ := List.length_eq_three.mp count
    obtain rfl := Except.ok.inj (texts.symm.trans (format_page_of_traces _ _ _))
    obtain ⟨scan, rfl⟩ := exists_scan_of_parse parsed
    exact ⟨_, rfl, rfl⟩

/-! ## The table -/

/-- No word of the table has more than one hole. -/
theorem holes_le_one (operation : Operation) :
    ∀ word ∈ Text.words operation.template.toList, Template.holes word ≤ 1 := by
  have table : ∀ operation ∈ all, ∀ word ∈ Text.words operation.template.toList,
      Template.holes word ≤ 1 := by decide
  exact table operation (mem_all operation)

/-- Up to the first holes of their words the templates of the table differ. -/
theorem eq_of_compatible (h : Template.Compatible (Text.words operation.template.toList)
    (Text.words operation'.template.toList)) : operation = operation' := by
  have table : ∀ operation ∈ all, ∀ operation' ∈ all,
      Template.Compatible (Text.words operation.template.toList)
        (Text.words operation'.template.toList) → operation = operation' := by decide
  exact table operation (mem_all operation) operation' (mem_all operation') h

/-- A command is made by one operation from one list of texts, whatever these texts are. When it is
a command that a store takes, it reaches the hash and the fields that the texts name, and no other
hash. -/
theorem commands_tell_operations
    (h : Template.format operation.template arguments = .ok words)
    (h' : Template.format operation'.template arguments' = .ok words') :
    (words = words' ↔ operation = operation' ∧
      arguments.map Argument.asString = arguments'.map Argument.asString) ∧
    ∀ command, HashCommand.parse words = .ok command → ∃ key : HashKey,
      operation.address? (arguments.map Argument.asString) = some (key, command.fields) ∧
      ∀ other : HashKey, command.key = other.text ↔ other = key := by
  refine ⟨⟨?_, ?_⟩, fun command parsed => ?_⟩
  · rintro rfl
    obtain ⟨outs, filled, rfl⟩ := Template.format_eq_ok_iff.mp h
    obtain ⟨outs', filled', commands_eq⟩ := Template.format_eq_ok_iff.mp h'
    obtain rfl := List.map_injective_iff.mpr (fun _ _ => String.ofList_inj.mp) commands_eq
    -- The words up to their first holes tell the operation, and what fills the holes the texts.
    obtain rfl := eq_of_compatible (Template.compatible_of_fill filled filled')
    exact ⟨rfl, Argument.map_asString_inj.mpr
      (Template.eq_of_fill (holes_le_one operation) filled filled')⟩
  · rintro ⟨rfl, rendered⟩
    rw [Template.format_congr (Argument.map_asString_inj.mp rendered), h'] at h
    exact (Except.ok.inj h).symm
  · obtain ⟨key, addressed, reached⟩ := address?_of_parse h parsed
    exact ⟨key, addressed, fun other => by rw [reached, HashKey.text_inj, eq_comm]⟩

/-- A file whose name looks like the rest of a command is no entry of an index, and is stored under
its own name. -/
theorem commands_tell_operations_braces :
    let uuid := "u machine:\x7b\x7d \x7b\x7d"
    let stored : Command := ["HMSET", "filekey:" ++ uuid, uuid, "\x7b\x7d"]
    let indexed : Command := ["HMSET", "machine:" ++ uuid, uuid, "\x7b\x7d"]
    Template.format setFile.template [.text uuid, .text uuid, .text "\x7b\x7d"] = .ok stored ∧
    Template.format indexFile.template [.text uuid, .text uuid, .text "\x7b\x7d"] =
      .ok indexed ∧
    stored ≠ indexed ∧ ∃ command, HashCommand.parse stored = .ok command ∧
      command.fields = [uuid] ∧
      ∀ other : HashKey, command.key = other.text ↔ other = .file uuid := by
  intro uuid stored indexed
  have h := format_setFile uuid uuid "\x7b\x7d"
  have h' := format_indexFile uuid uuid "\x7b\x7d"
  obtain ⟨tells, reaches⟩ := commands_tell_operations h h'
  have parsed : HashCommand.parse stored =
      .ok (.set ("filekey:" ++ uuid) [(uuid, "\x7b\x7d")] false) :=
    HashCommand.parse_upper _ (by decide)
  obtain ⟨key, addressed, only⟩ := reaches _ parsed
  simp only [List.map_cons, List.map_nil, Argument.asString_text, address?, Option.some.injEq,
    Prod.mk.injEq] at addressed
  obtain ⟨rfl, named⟩ := addressed
  exact ⟨h, h', fun equal => absurd (tells.mp equal).1 (by decide), _, parsed, named.symm, only⟩

end Operation

end HashGateway
