import HashGateway.Proofs.Host.Walks
import HashGateway.Proofs.Settings.Usable

/-!
# Opening the log file

A log file is looked at when its line is read, but it is made only when all settings are known to be
good. The two do not always agree: a path that ends in a slash or in a dot is accepted as one that
could be made in the folder before it, but it is the path of a folder and cannot be written, and a
path may hold a character that no path of a file can. Such a command line ends when the log is set
up. Every other log file that is accepted is opened.

## Main results

* `Launch.checkAppend_of_configure` — the log file of accepted settings has been looked at
* `Launch.log_opened_iff` — which of the log files that are accepted can be opened
-/

namespace HashGateway

open HashGateway.Host

/-! ## The log file of accepted settings -/

variable {tree : FileTree} {file : String} {s : Settings}

theorem Directive.checkAppend_of_logFileOf {value : String}
    (h : logFileOf tree value = .ok (some file)) : tree.checkAppend file = .ok () := by
  unfold logFileOf at h
  split at h
  · exact nomatch h
  · split at h
    · next accepted =>
      obtain rfl := Option.some.inj (Except.ok.inj h)
      exact accepted
    · exact nomatch h

/-- A directive for a log file is accepted if the file is. -/
theorem Directive.checkAppend_of_parse {name value : String}
    (h : parse tree name value = .ok (.logFile (some file))) : tree.checkAppend file = .ok () := by
  unfold parse at h
  split at h
  -- Every other name is that of another directive.
  all_goals first
    | cases h
    | (obtain ⟨_, read, result⟩ := Except.map_eq_ok.mp h
       cases result
       try exact checkAppend_of_logFileOf read)

namespace Settings

theorem logFile_foldl {directives : List Directive}
    (logs : (directives.foldl set s).logFile = some file) :
    s.logFile = some file ∨ .logFile (some file) ∈ directives := by
  induction directives generalizing s with
  | nil => exact .inl logs
  | cons d directives ih =>
    rcases ih logs with own | later
    · -- Only a directive for the log file changes it.
      cases d with
      | logFile given => exact .inr (by rw [← show given = some file from own]; simp)
      | _ => exact .inl own
    · exact .inr (List.mem_cons_of_mem d later)

theorem checkAppend_of_parse {text : List Char} (h : parse tree text = .ok s)
    (logs : s.logFile = some file) : tree.checkAppend file = .ok () := by
  obtain ⟨-, rfl⟩ := parse_eq_ok_iff.mp h
  rcases logFile_foldl logs with own | mem
  · exact nomatch own
  · obtain ⟨name, value, asked⟩ := exists_parse_of_mem_changes mem
    exact Directive.checkAppend_of_parse asked

end Settings

namespace Launch

variable {given : Arguments} {base : Settings}

theorem checkAppend_of_loaded (h : loaded tree given = .ok base) (logs : base.logFile = some file) :
    tree.checkAppend file = .ok () := by
  rcases loaded_eq_ok_iff.mp h with ⟨-, rfl⟩ | ⟨name, -, read⟩
  · exact nomatch logs
  · obtain ⟨text, -, parsed⟩ := Settings.load_eq_ok_iff.mp read
    exact Settings.checkAppend_of_parse parsed logs

/-- The log file of accepted settings has been looked at, since no option changes it. -/
theorem checkAppend_of_configure (configured : configure tree given = .ok s)
    (logs : s.logFile = some file) : tree.checkAppend file = .ok () := by
  rw [configure_eq] at configured
  obtain ⟨base, found, h⟩ := Except.bind_eq_ok.mp configured
  have kept : s.get .logFile = base.get .logFile :=
    keeps_of_changed h .logFile fun name own => by cases name <;> exact nomatch own
  have logFile_eq : s.logFile = base.logFile := Setting.Value.given.inj kept
  exact checkAppend_of_loaded found (logFile_eq ▸ logs)

/-! ## Setting up the log -/

/-- A log file that is accepted can be opened exactly if its path ends in a name and holds no
character that ends names, in every tree of files without limits. So an accepted command line ends
with a log that could not be set up exactly if its log file is another one, and it changes nothing
then. -/
theorem log_opened_iff (surroundings : Surroundings) (unlimited : tree.limits = none) :
    (∀ text, tree.checkAppend text = .ok () →
      ((∃ place, tree.openForWriting text = .ok place) ↔
        '\x00' ∉ text.toList ∧ (Path.ofText text).EndsInName)) ∧
    ∀ arguments given s file, Arguments.parse arguments = .ok given →
      configure tree given = .ok s → s.logFile = some file →
      ((∃ tree', openLog tree s = .ok tree') ↔
        '\x00' ∉ file.toList ∧ (Path.ofText file).EndsInName) ∧
      (¬ ('\x00' ∉ file.toList ∧ (Path.ofText file).EndsInName) → ∃ fault : Fault,
        run surroundings tree arguments =
          (.stopped 1 "" [s!"could not set up logging: {fault.message}"], tree)) := by
  refine ⟨fun text => FileTree.exists_openForWriting_iff unlimited,
    fun arguments given s file accepted configured logs => ?_⟩
  -- An accepted log file was checked before, and for such a file the first part decides.
  have opened : (∃ tree', openLog tree s = .ok tree') ↔
      '\x00' ∉ file.toList ∧ (Path.ofText file).EndsInName := by
    rw [← FileTree.exists_openForWriting_iff unlimited (checkAppend_of_configure configured logs),
      openLog, logs]
    simp only [Except.map_eq_ok]
    exact ⟨fun ⟨_, place, opens, _⟩ => ⟨place, opens⟩, fun ⟨place, opens⟩ => ⟨_, place, opens, rfl⟩⟩
  refine ⟨opened, fun other => ?_⟩
  cases fails : openLog tree s with
  | ok tree' => exact absurd (opened.mp ⟨tree', fails⟩) other
  | error fault =>
    refine ⟨fault, ?_⟩
    rw [run_of_configure_eq_ok accepted configured, prepare, fails]
    rfl

/-- A log file in a folder, by a path with a dot and an empty part. -/
theorem log_opened_iff_dots :
    let content := Utf8.bytes "logfile d/.//x"
    let tree : FileTree := ⟨.folder [("d", .folder []), ("k", .file content)], [], none⟩
    let given : Arguments := [(.config, some "k")]
    let s : Settings := { Settings.default with logFile := some "d/.//x" }
    tree.checkAppend "d/.//x" = .ok () ∧ Arguments.parse ["-c", "k"] = .ok given ∧
      configure tree given = .ok s ∧ (∃ place, tree.openForWriting "d/.//x" = .ok place) ∧
      ((∃ tree', openLog tree s = .ok tree') ↔
        '\x00' ∉ "d/.//x".toList ∧ (Path.ofText "d/.//x").EndsInName) := by
  intro content tree given s
  have accepted : tree.checkAppend "d/.//x" = .ok () := by decide +kernel
  have parsed : Arguments.parse ["-c", "k"] = .ok given :=
    Except.toOption_eq_some.mp (by decide +kernel)
  have configured : configure tree given = .ok s := Except.toOption_eq_some.mp (by decide +kernel)
  obtain ⟨opens, logs⟩ := log_opened_iff ⟨1, fun _ => false⟩ (show tree.limits = none from rfl)
  have named : '\x00' ∉ "d/.//x".toList ∧ (Path.ofText "d/.//x").EndsInName :=
    ⟨by decide, ["d", ".", ""], "x", by decide +kernel, by decide +kernel⟩
  exact ⟨accepted, parsed, configured, (opens _ accepted).mpr named,
    (logs _ _ _ _ parsed configured rfl).1⟩

/-- A path that ends in a slash is accepted in an empty folder, and cannot be opened. -/
theorem slash_accepted_not_opened :
    let surroundings : Surroundings := ⟨1, fun _ => false⟩
    let tree : FileTree := ⟨.folder [("k", .file (Utf8.bytes "logfile x/"))], [], none⟩
    tree.checkAppend "x/" = .ok () ∧ tree.openForWriting "x/" = .error .isDirectory ∧
      run surroundings tree ["-c", "k"] =
        (.stopped 1 "" ["could not set up logging: Is a directory (os error 21)"], tree) := by
  intro surroundings tree
  have accepted : tree.checkAppend "x/" = .ok () := by decide +kernel
  have fails : tree.openForWriting "x/" = .error .isDirectory := by decide +kernel
  have parsed : Arguments.parse ["-c", "k"] = .ok [(.config, some "k")] :=
    Except.toOption_eq_some.mp (by decide +kernel)
  have configured : configure tree [(.config, some "k")] =
      .ok { Settings.default with logFile := some "x/" } :=
    Except.toOption_eq_some.mp (by decide +kernel)
  refine ⟨accepted, fails, ?_⟩
  rw [run_of_configure_eq_ok parsed configured]
  simp only [prepare, openLog, fails, Except.map_error]
  rfl

end Launch

end HashGateway
