import HashGateway.Engine
import HashGateway.Proofs.Numeral
import Mathlib.Tactic.SplitIfs

/-!
# Operations as commands on hashes

Each operation, with its arguments, stands for one command on one hash. The keys of
the three kinds of hashes have different beginnings, so hashes of different kinds, or
of different names, are different hashes whatever the names are.

## Main definitions

* `HashKey` — the hashes by what they hold
* `Operation.Means`, `Operation.IsRefused` — an operation with its arguments stands for a
  command, or for none

## Main results

* `HashKey.text_injective` — different hashes have different keys
* `Exchange.run_perform` — an operation does to a store in memory what its command does
-/

namespace HashGateway

/-- The hashes of the gateway, by what they hold. -/
inductive HashKey
  /-- The registration of a machine. -/
  | user (machine : String)
  /-- The index of the files of a machine. -/
  | files (machine : String)
  /-- A file and its trace entries. -/
  | file (uuid : String)
  deriving DecidableEq, Repr

namespace HashKey

/-- The key of a hash. -/
def text : HashKey → String
  | user machine => "userkey:" ++ machine
  | files machine => "machine:" ++ machine
  | file uuid => "filekey:" ++ uuid

theorem text_injective {a b : HashKey} (h : a.text = b.text) : a = b := by
  have chars := congrArg String.toList h
  cases a <;> cases b <;> simp [text] at chars
  all_goals exact congrArg _ (String.toList_inj.mp chars)

@[simp] theorem text_inj {a b : HashKey} : a.text = b.text ↔ a = b :=
  ⟨text_injective, congrArg text⟩

end HashKey

theorem map_toUpper_eq {text text' : String}
    (upper : text.toList.map Char.toUpper = text'.toList) : text.map Char.toUpper = text' := by
  rw [← String.toList_inj, String.toList_map, upper]

/-- A name in upper case is the name of its command. -/
theorem HashCommand.parse_upper {name : String} (arguments : List String)
    (upper : name.toList.map Char.toUpper = name.toList) :
    parse (name :: arguments) =
      match ofName name arguments with
      | .ok command => .ok command
      | .error rejection => .error (.command rejection) := by
  cases result : ofName name arguments with
  | ok command => simp only [parse, map_toUpper_eq upper, result]
  | error rejection => simp only [parse, map_toUpper_eq upper, result]

/-- Arguments with the same texts make the same command. -/
theorem Template.format_congr {template : String} {arguments arguments' : List Argument}
    (rendered : arguments.map Argument.render = arguments'.map Argument.render) :
    format template arguments = format template arguments' := by
  have count : arguments.length = arguments'.length := by simpa using congrArg List.length rendered
  simp only [format, rendered, count]

namespace Operation

/-- An operation with its arguments stands for a command on a hash. -/
def Means (operation : Operation) (arguments : List Argument) (command : HashCommand) : Prop :=
  ∃ words, Template.format operation.template arguments = .ok words ∧
    HashCommand.parse words = .ok command

/-! ### Writes -/

theorem format_registerUser (machine name user : String) :
    Template.format registerUser.template [.text machine, .text name, .text user] =
      .ok ["HMSET", (HashKey.user machine).text, "machine", name, "username", user] := by
  have words : Text.words registerUser.template.toList =
      ["HMSET".toList, "userkey:\x7b\x7d".toList, "machine".toList, "\x7b\x7d".toList,
        "username".toList, "\x7b\x7d".toList] := by decide
  rw [Template.format, words]
  simp [Template.fill, Template.fillWord, Argument.render, HashKey.text, ← String.toList_inj]

theorem format_setFile (uuid field data : String) :
    Template.format setFile.template [.text uuid, .text field, .text data] =
      .ok ["HMSET", (HashKey.file uuid).text, field, data] := by
  have words : Text.words setFile.template.toList =
      ["HMSET".toList, "filekey:\x7b\x7d".toList, "\x7b\x7d".toList, "\x7b\x7d".toList] := by
    decide
  rw [Template.format, words]
  simp [Template.fill, Template.fillWord, Argument.render, HashKey.text, ← String.toList_inj]

theorem format_indexFile (machine field data : String) :
    Template.format indexFile.template [.text machine, .text field, .text data] =
      .ok ["HMSET", (HashKey.files machine).text, field, data] := by
  have words : Text.words indexFile.template.toList =
      ["HMSET".toList, "machine:\x7b\x7d".toList, "\x7b\x7d".toList, "\x7b\x7d".toList] := by
    decide
  rw [Template.format, words]
  simp [Template.fill, Template.fillWord, Argument.render, HashKey.text, ← String.toList_inj]

theorem format_addTrace (uuid field data : String) :
    Template.format addTrace.template [.text uuid, .text field, .text data] =
      .ok ["HSET", (HashKey.file uuid).text, field, data] := by
  have words : Text.words addTrace.template.toList =
      ["HSET".toList, "filekey:\x7b\x7d".toList, "\x7b\x7d".toList, "\x7b\x7d".toList] := by
    decide
  rw [Template.format, words]
  simp [Template.fill, Template.fillWord, Argument.render, HashKey.text, ← String.toList_inj]

theorem means_registerUser (machine name user : String) :
    Means .registerUser [.text machine, .text name, .text user]
      (.set (HashKey.user machine).text [("machine", name), ("username", user)] false) :=
  ⟨_, format_registerUser machine name user, HashCommand.parse_upper _ (by decide)⟩

theorem means_setFile (uuid field data : String) :
    Means .setFile [.text uuid, .text field, .text data]
      (.set (HashKey.file uuid).text [(field, data)] false) :=
  ⟨_, format_setFile uuid field data, HashCommand.parse_upper _ (by decide)⟩

theorem means_indexFile (machine field data : String) :
    Means .indexFile [.text machine, .text field, .text data]
      (.set (HashKey.files machine).text [(field, data)] false) :=
  ⟨_, format_indexFile machine field data, HashCommand.parse_upper _ (by decide)⟩

/-- Unlike the other writes this one asks how many fields are new. -/
theorem means_addTrace (uuid field data : String) :
    Means .addTrace [.text uuid, .text field, .text data]
      (.set (HashKey.file uuid).text [(field, data)] true) :=
  ⟨_, format_addTrace uuid field data, HashCommand.parse_upper _ (by decide)⟩

/-! ### Reads -/

theorem format_getUser (machine : String) :
    Template.format getUser.template [.text machine] =
      .ok ["HGETALL", (HashKey.user machine).text] := by
  have words : Text.words getUser.template.toList =
      ["HGETALL".toList, "userkey:\x7b\x7d".toList] := by decide
  rw [Template.format, words]
  simp [Template.fill, Template.fillWord, Argument.render, HashKey.text, ← String.toList_inj]

theorem format_getFile (uuid field : String) :
    Template.format getFile.template [.text uuid, .text field] =
      .ok ["HGET", (HashKey.file uuid).text, field] := by
  have words : Text.words getFile.template.toList =
      ["HGET".toList, "filekey:\x7b\x7d".toList, "\x7b\x7d".toList] := by decide
  rw [Template.format, words]
  simp [Template.fill, Template.fillWord, Argument.render, HashKey.text, ← String.toList_inj]

theorem means_getUser (machine : String) :
    Means .getUser [.text machine] (.getAll (HashKey.user machine).text) :=
  ⟨_, format_getUser machine, HashCommand.parse_upper _ (by decide)⟩

theorem means_getFile (uuid field : String) :
    Means .getFile [.text uuid, .text field] (.get (HashKey.file uuid).text field) :=
  ⟨_, format_getFile uuid field, HashCommand.parse_upper _ (by decide)⟩

/-! ### Pages

A page can be asked for only if its cursor and its size fit into 64 bits and the size is not
zero; else the store refuses the command. -/

/-- A cursor and a page size that a store takes. -/
def Askable (cursor count : Nat) : Prop :=
  cursor ≤ Numeral.max64 ∧ 0 < count ∧ count ≤ Numeral.max64

instance (cursor count : Nat) : Decidable (Askable cursor count) :=
  inferInstanceAs (Decidable (_ ∧ _))

/-- An operation with its arguments makes a command that the store refuses. -/
def IsRefused (operation : Operation) (arguments : List Argument) : Prop :=
  ∃ words rejection, Template.format operation.template arguments = .ok words ∧
    HashCommand.parse words = .error (.command rejection)

theorem options_count (scan : Scan) (count : Nat) :
    scan.options ["COUNT", String.ofList (Numeral.render count)] =
      if 0 < count ∧ count ≤ Numeral.max64 then .ok { scan with count := count }
      else .error .badCount := by
  have name : "COUNT".map Char.toUpper = "COUNT" := map_toUpper_eq (by decide)
  simp only [Scan.options, name, String.toList_ofList]
  cases count with
  | zero => simp [Numeral.unsigned?_render (Nat.zero_le Numeral.max64)]
  | succ n =>
    by_cases h : n + 1 ≤ Numeral.max64
    · simp [Numeral.unsigned?_render h, h]
    · have too_large : Numeral.max64 < n + 1 := by omega
      simp [Numeral.unsigned?_render_of_lt too_large, h]

theorem options_match (scan : Scan) (pattern : String) (rest : List String) :
    scan.options ("MATCH" :: pattern :: rest) =
      Scan.options { scan with pattern := some pattern } rest := by
  have name : "MATCH".map Char.toUpper = "MATCH" := map_toUpper_eq (by decide)
  simp [Scan.options, name]

theorem ofArguments_render (cursor : Nat) (options : List String) :
    Scan.ofArguments (String.ofList (Numeral.render cursor) :: options) =
      if cursor ≤ Numeral.max64 then Scan.options ⟨cursor, none, Scan.defaultCount⟩ options
      else .error .badCursor := by
  rw [Scan.ofArguments, String.toList_ofList]
  split_ifs with h
  · rw [Numeral.unsigned?_render h]
  · rw [Numeral.unsigned?_render_of_lt (by omega)]

theorem parse_scan (key : String) (arguments : List String) :
    HashCommand.parse ("HSCAN" :: key :: arguments) =
      match Scan.ofArguments arguments with
      | .ok scan => .ok (.scan key scan)
      | .error rejection => .error (.command rejection) := by
  rw [HashCommand.parse_upper _ (by decide)]
  cases h : Scan.ofArguments arguments <;> simp [HashCommand.ofName, h, Except.map]

section Pages

variable {cursor count : Nat}

theorem format_page_of_files (machine cursor count : String) :
    Template.format listFiles.template [.text machine, .text cursor, .text count] =
      .ok ["HSCAN", (HashKey.files machine).text, cursor, "COUNT", count] := by
  have words : Text.words listFiles.template.toList =
      ["HSCAN".toList, "machine:\x7b\x7d".toList, "\x7b\x7d".toList, "COUNT".toList,
        "\x7b\x7d".toList] := by decide
  rw [Template.format, words]
  simp [Template.fill, Template.fillWord, Argument.render, HashKey.text, ← String.toList_inj]

theorem format_page_of_traces (uuid cursor count : String) :
    Template.format listTraces.template [.text uuid, .text cursor, .text count] =
      .ok ["HSCAN", (HashKey.file uuid).text, cursor, "MATCH", "trace:*", "COUNT", count] := by
  have words : Text.words listTraces.template.toList =
      ["HSCAN".toList, "filekey:\x7b\x7d".toList, "\x7b\x7d".toList, "MATCH".toList,
        "trace:*".toList, "COUNT".toList, "\x7b\x7d".toList] := by decide
  rw [Template.format, words]
  simp [Template.fill, Template.fillWord, Argument.render, HashKey.text, ← String.toList_inj]

theorem format_listFiles (machine : String) :
    Template.format listFiles.template [.text machine, .number cursor, .number count] =
      .ok ["HSCAN", (HashKey.files machine).text, String.ofList (Numeral.render cursor), "COUNT",
        String.ofList (Numeral.render count)] :=
  (Template.format_congr (by simp [Argument.render])).trans (format_page_of_files machine _ _)

theorem format_listTraces (uuid : String) :
    Template.format listTraces.template [.text uuid, .number cursor, .number count] =
      .ok ["HSCAN", (HashKey.file uuid).text, String.ofList (Numeral.render cursor), "MATCH",
        "trace:*", "COUNT", String.ofList (Numeral.render count)] :=
  (Template.format_congr (by simp [Argument.render])).trans (format_page_of_traces uuid _ _)

theorem means_listFiles (machine : String) (h : Askable cursor count) :
    Means .listFiles [.text machine, .number cursor, .number count]
      (.scan (HashKey.files machine).text ⟨cursor, none, count⟩) := by
  refine ⟨_, format_listFiles machine, ?_⟩
  rw [parse_scan, ofArguments_render, if_pos h.1, options_count, if_pos h.2]

theorem means_listTraces (uuid : String) (h : Askable cursor count) :
    Means .listTraces [.text uuid, .number cursor, .number count]
      (.scan (HashKey.file uuid).text ⟨cursor, some "trace:*", count⟩) := by
  refine ⟨_, format_listTraces uuid, ?_⟩
  rw [parse_scan, ofArguments_render, if_pos h.1, options_match, options_count, if_pos h.2]

theorem isRefused_listFiles (machine : String) (h : ¬ Askable cursor count) :
    IsRefused .listFiles [.text machine, .number cursor, .number count] := by
  by_cases fits : cursor ≤ Numeral.max64
  · refine ⟨_, .badCount, format_listFiles machine, ?_⟩
    rw [parse_scan, ofArguments_render, if_pos fits, options_count, if_neg fun h' => h ⟨fits, h'⟩]
  · refine ⟨_, .badCursor, format_listFiles machine, ?_⟩
    rw [parse_scan, ofArguments_render, if_neg fits]

theorem isRefused_listTraces (uuid : String) (h : ¬ Askable cursor count) :
    IsRefused .listTraces [.text uuid, .number cursor, .number count] := by
  by_cases fits : cursor ≤ Numeral.max64
  · refine ⟨_, .badCount, format_listTraces uuid, ?_⟩
    rw [parse_scan, ofArguments_render, if_pos fits, options_match, options_count,
      if_neg fun h' => h ⟨fits, h'⟩]
  · refine ⟨_, .badCursor, format_listTraces uuid, ?_⟩
    rw [parse_scan, ofArguments_render, if_neg fits]

end Pages

end Operation

namespace Exchange

variable {operation : Operation} {arguments : List Argument} {command : HashCommand}

/-- An operation does to a store in memory what its command does, and its outcome is the meaning
of the reply. -/
theorem run_perform (h : operation.Means arguments command) (store : Store) :
    (perform operation arguments).run Engine.memory store =
      (.ok (operation.decode (store.apply command).1), (store.apply command).2) := by
  obtain ⟨words, formatted, parsed⟩ := h
  simp only [perform, formatted, run, Engine.memory, Store.execute, parsed, meaning]

/-- A refused command is a failure and leaves the store alone. -/
theorem run_perform_of_isRefused (h : operation.IsRefused arguments) (store : Store) :
    (perform operation arguments).run Engine.memory store = (.ok .failure, store) := by
  obtain ⟨words, rejection, formatted, parsed⟩ := h
  simp only [perform, formatted, run, Engine.memory, Store.execute, parsed, meaning]

/-- What comes after a result. -/
theorem run_andThen {σ α β : Type} {engine : Engine σ} {x : Exchange (Except Error α)}
    {f : α → Exchange (Except Error β)} {s s' : σ} {a : α} (h : x.run engine s = (.ok a, s')) :
    (x.andThen f).run engine s = (f a).run engine s' := by
  rw [andThen, run_bind, h]

end Exchange

end HashGateway
