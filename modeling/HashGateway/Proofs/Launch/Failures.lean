import HashGateway.Proofs.Numeral
import HashGateway.Proofs.Settings.Usable

/-!
# Command lines that fail before anything is started

Before a server is started its arguments are read, then the file of its settings, then the options
that change them. Each of these can be refused, and nothing is written before all of them are
accepted: a log file or a process id that an accepted line asks for is made later. So a command
line that is refused leaves the files as they are, and prints nothing but an error. What is wrong
with the file is reported before anything that is wrong with an option.

## Main definitions

* `Launch.IsReadable`, `Launch.HasAddress` — the file of the settings, and the address, are accepted
* `Launch.Refused` — what is wrong with a command line, and the error that is reported for it

## Main results

* `Launch.Arguments.mem_choices` — where there is a choice of values, an accepted value is one
* `Launch.configure_eq_error_iff` — what is reported is what is wrong, and nothing else is
* `Launch.failures_leave_no_trace` — a command line that is refused changes no file
-/

namespace HashGateway.Launch

open HashGateway.Host
open HashGateway.Settings (ofLine)

variable {tree : FileTree} {arguments : List String} {given : Arguments} {name : OptionName}
  {value : String} {base s : Settings} {e : Error}

/-! ## Accepted arguments -/

namespace Arguments

theorem checkOption_of_forM {names : List OptionName}
    (accepted : names.forM (checkOption given) = .ok ()) (mem : name ∈ names) :
    checkOption given name = .ok () := by
  induction names with
  | nil => exact absurd mem List.not_mem_nil
  | cons first names ih =>
    obtain ⟨⟨⟩, here, later⟩ := Except.bind_eq_ok.mp accepted
    rcases List.mem_cons.mp mem with rfl | mem
    · exact here
    · exact ih later mem

/-- Every option of an accepted command line has been checked. -/
theorem checkOption_of_parse (accepted : parse arguments = .ok given) (name : OptionName) :
    checkOption given name = .ok () := by
  obtain ⟨⟨given', pending⟩, -, accepted⟩ := Except.bind_eq_ok.mp accepted
  obtain ⟨⟨⟩, checked, accepted⟩ := Except.bind_eq_ok.mp accepted
  obtain rfl := Except.ok.inj accepted
  unfold check at checked
  split at checked
  · exact nomatch checked
  · exact checkOption_of_forM checked (by cases name <;> decide)

/-- Where there is a choice of values, an accepted value is one of them. -/
theorem mem_choices (accepted : parse arguments = .ok given) {choices : List String}
    (choice : name.choices = some choices) (named : given.value? name = some value) :
    value ∈ choices := by
  have mem : value ∈ given.values name := List.mem_of_mem_head? named
  -- An option that has a value has been given.
  have counted : given.count name ≠ 0 := by
    intro absent
    obtain ⟨⟨n, v⟩, here, result⟩ := List.mem_filterMap.mp mem
    rw [count, List.length_eq_zero_iff, List.filter_eq_nil_iff] at absent
    have other : n ≠ name := by simpa using absent _ here
    simp [other] at result
  have checked := checkOption_of_parse accepted name
  unfold checkOption at checked
  rw [if_neg counted, if_neg (by simpa using List.ne_nil_of_mem mem), choice] at checked
  split at checked
  · exact nomatch checked
  · next all => simpa using List.find?_eq_none.mp all value mem

end Arguments

/-! ## Options -/

theorem override_eq_error_iff {change : Settings → String → Except Error Settings} :
    override given name change s = .error e ↔
      ∃ value, given.value? name = some value ∧ change s value = .error e := by
  unfold override
  split
  · next value here => simp [here]
  · next absent => simp [absent]

theorem setAddress_eq_error_iff : setAddress s value = .error e ↔
    SocketAddress.parse? value = none ∧ e = .start (.address value) := by
  unfold setAddress
  split
  · next address read => simp [read]
  · next bad => simp [bad, eq_comm]

theorem setThreads_eq_error_iff : setThreads s value = .error e ↔
    (Numeral.Writes value.toList 0 ∧ e = .start .noThreads) ∨
      (∀ n ≤ Numeral.max32, ¬ Numeral.Writes value.toList n) ∧ e = .start (.number value) := by
  have zero : Numeral.unsigned? Numeral.max32 value.toList = some 0 ↔
      Numeral.Writes value.toList 0 :=
    Numeral.unsigned?_eq_some_iff.trans (and_iff_left (Nat.zero_le _))
  rw [← zero, ← Numeral.unsigned?_eq_none_iff]
  unfold setThreads
  split
  · next read => simp [read, eq_comm]
  · next n positive read =>
    have positive : n ≠ 0 := positive
    simp [read, positive]
  · next bad => simp [bad, eq_comm]

section Choices

variable {change : Settings → String → Except Error Settings} {choices : List String}

/-- An option with a choice of values cannot fail, if each of them is understood. -/
theorem exists_override (accepted : Arguments.parse arguments = .ok given)
    (choice : name.choices = some choices)
    (understood : ∀ value ∈ choices, ∀ s, ∃ t, change s value = .ok t) (s : Settings) :
    ∃ t, override given name change s = .ok t := by
  unfold override
  split
  · next value named => exact understood value (Arguments.mem_choices accepted choice named) s
  · exact ⟨s, rfl⟩

theorem setEngine_understood : ∀ value ∈ ["redis", "memory"], ∀ s, ∃ t,
    setEngine s value = .ok t := by
  have parsed : ∀ value ∈ ["redis", "memory"], (EngineKind.parse value).toOption.isSome := by
    decide +kernel
  intro value mem s
  obtain ⟨kind, read⟩ := Option.isSome_iff_exists.mp (parsed value mem)
  exact ⟨_, by rw [setEngine, Except.toOption_eq_some.mp read]⟩

theorem setPool_understood : ∀ value ∈ ["naive", "shared", "rayon"], ∀ s, ∃ t,
    setPool s value = .ok t := by
  have parsed : ∀ value ∈ ["naive", "shared", "rayon"], (PoolKind.parse value).toOption.isSome := by
    decide +kernel
  intro value mem s
  obtain ⟨kind, read⟩ := Option.isSome_iff_exists.mp (parsed value mem)
  exact ⟨_, by rw [setPool, Except.toOption_eq_some.mp read]⟩

end Choices

/-! ## What is wrong -/

/-- The file of the settings, if there is one, is a text whose lines are accepted. -/
def IsReadable (tree : FileTree) (given : Arguments) : Prop :=
  ∀ file, given.value? .config = some file → ∃ text, tree.readText file = .ok text ∧
    ∀ line ∈ Text.lines text, ∃ change, ofLine tree line = .ok change

/-- The address to listen on, if it is given, is one. -/
def HasAddress (given : Arguments) : Prop :=
  ∀ value, given.value? .address = some value →
    ∃ address, SocketAddress.parse? value = some address

/-- What is wrong with the file or with the options of an accepted command line, and the error that
is reported for it. The file is looked at before the options, and the address before the number of
threads. -/
inductive Refused (tree : FileTree) (given : Arguments) : Error → Prop
  | unreadable {file : String} {fault : Host.Fault} (named : given.value? .config = some file)
      (fails : tree.readText file = .error fault) : Refused tree given (.io fault)
  | line {file : String} {text line : List Char} {earlier later : List (List Char)}
      {fault : Settings.Fault} (named : given.value? .config = some file)
      (read : tree.readText file = .ok text) (split : Text.lines text = earlier ++ line :: later)
      (before : ∀ l ∈ earlier, ∃ change, ofLine tree l = .ok change)
      (refused : ofLine tree line = .error fault) :
      Refused tree given (.config (earlier.length + 1) (String.ofList (Text.trim line)) fault)
  | address {value : String} (readable : IsReadable tree given)
      (named : given.value? .address = some value) (bad : SocketAddress.parse? value = none) :
      Refused tree given (.start (.address value))
  | noThreads {value : String} (readable : IsReadable tree given) (address : HasAddress given)
      (named : given.value? .threads = some value) (zero : Numeral.Writes value.toList 0) :
      Refused tree given (.start .noThreads)
  | threads {value : String} (readable : IsReadable tree given) (address : HasAddress given)
      (named : given.value? .threads = some value)
      (bad : ∀ n ≤ Numeral.max32, ¬ Numeral.Writes value.toList n) :
      Refused tree given (.start (.number value))

theorem exists_loaded_iff : (∃ base, loaded tree given = .ok base) ↔ IsReadable tree given := by
  simp only [loaded_eq_ok_iff, IsReadable, Settings.load_eq_ok_iff, Settings.parse_eq_ok_iff]
  cases given.value? .config with
  | none => simp
  | some file => simp

/-- What is wrong with a file that is refused. -/
theorem Refused.of_loaded (fails : loaded tree given = .error e) : Refused tree given e := by
  obtain ⟨file, named, fails⟩ := loaded_eq_error_iff.mp fails
  rcases Settings.load_eq_error_iff.mp fails with ⟨fault, unread, rfl⟩ | ⟨text, read, fails⟩
  · exact .unreadable named unread
  · obtain ⟨earlier, line, later, fault, split, before, refused, rfl⟩ :=
      Settings.parse_eq_error_iff.mp fails
    exact .line named read split before refused

theorem exists_override_setAddress_iff :
    (∃ t, override given .address setAddress s = .ok t) ↔ HasAddress given := by
  unfold override HasAddress
  split
  · next value named =>
    simp only [named, Option.some.injEq, forall_eq']
    unfold setAddress
    split <;> simp [*]
  · next absent => simp [absent]

/-- What is wrong with the options of accepted arguments. -/
theorem changed_eq_error_iff (accepted : Arguments.parse arguments = .ok given) :
    changed given base = .error e ↔
      (∃ value, given.value? .address = some value ∧ SocketAddress.parse? value = none ∧
        e = .start (.address value)) ∨
      HasAddress given ∧ ∃ value, given.value? .threads = some value ∧
        ((Numeral.Writes value.toList 0 ∧ e = .start .noThreads) ∨
          (∀ n ≤ Numeral.max32, ¬ Numeral.Writes value.toList n) ∧ e = .start (.number value)) := by
  -- Between the address and the threads nothing can fail.
  have others (s : Settings) : (do
      let s ← override given .engine setEngine s
      let s ← override given .pool setPool s
      override given .threads setThreads s) = .error e ↔
      ∃ value, given.value? .threads = some value ∧
        ((Numeral.Writes value.toList 0 ∧ e = .start .noThreads) ∨
          (∀ n ≤ Numeral.max32, ¬ Numeral.Writes value.toList n) ∧
            e = .start (.number value)) := by
    obtain ⟨t, engine⟩ : ∃ t, override given .engine setEngine s = .ok t :=
      exists_override accepted rfl setEngine_understood s
    obtain ⟨u, pool⟩ : ∃ u, override given .pool setPool t = .ok u :=
      exists_override accepted rfl setPool_understood t
    have threads : override given .threads setThreads u = .error e ↔ _ := override_eq_error_iff
    simp only [setThreads_eq_error_iff] at threads
    rw [← threads, engine]
    change (override given .pool setPool t >>= _) = _ ↔ _
    rw [pool]
    rfl
  rw [changed, Except.bind_eq_error, override_eq_error_iff]
  simp only [setAddress_eq_error_iff, others, exists_and_right, exists_override_setAddress_iff]

/-- What is reported is what is wrong, and nothing is reported otherwise. -/
theorem configure_eq_error_iff (accepted : Arguments.parse arguments = .ok given) :
    configure tree given = .error e ↔ Refused tree given e := by
  rw [configure_eq, Except.bind_eq_error]
  simp only [changed_eq_error_iff accepted, exists_and_right, exists_loaded_iff]
  -- Every fault is one constructor of `Refused`, so both directions go through them in turn.
  constructor
  · rintro (fails | ⟨readable, ⟨value, named, bad, rfl⟩ | ⟨address, value, named, bad⟩⟩)
    · exact .of_loaded fails
    · exact .address readable named bad
    · rcases bad with ⟨zero, rfl⟩ | ⟨bad, rfl⟩
      · exact .noThreads readable address named zero
      · exact .threads readable address named bad
  · intro refused
    cases refused with
    | unreadable named fails =>
      have unread := Settings.load_eq_error_iff.mpr (.inl ⟨_, fails, rfl⟩)
      exact .inl (loaded_eq_error_iff.mpr ⟨_, named, unread⟩)
    | line named read split before refused =>
      have fails := Settings.parse_eq_error_iff.mpr ⟨_, _, _, _, split, before, refused, rfl⟩
      have rejected := Settings.load_eq_error_iff.mpr (.inr ⟨_, read, fails⟩)
      exact .inl (loaded_eq_error_iff.mpr ⟨_, named, rejected⟩)
    | address readable named bad => exact .inr ⟨readable, .inl ⟨_, named, bad, rfl⟩⟩
    | noThreads readable address named zero =>
      exact .inr ⟨readable, .inr ⟨address, _, named, .inl ⟨zero, rfl⟩⟩⟩
    | threads readable address named bad =>
      exact .inr ⟨readable, .inr ⟨address, _, named, .inr ⟨bad, rfl⟩⟩⟩

/-! ## Nothing is left behind -/

/-- A command line that is refused before a start ends with status 1, prints nothing but an error
and leaves every file as it was, whatever the settings before the refused line ask for. This is so
if its arguments are refused, other than by asking for help or for the version, and if its file, its
address or its number of threads is; with everything else accepted arguments lead to settings. What
is wrong with the file is reported whatever the options are, so every accepted command line that
names this file ends in the same way. -/
theorem failures_leave_no_trace (surroundings : Surroundings) (tree : FileTree)
    (arguments : List String) :
    (∀ stop, Arguments.parse arguments = .error stop → stop ≠ .help → stop ≠ .version →
      run surroundings tree arguments = (.stopped 1 "" [stop.message], tree)) ∧
    ∀ given, Arguments.parse arguments = .ok given →
      (∀ e, configure tree given = .error e ↔ Refused tree given e) ∧
      (∀ e, Refused tree given e →
        run surroundings tree arguments = (.stopped 1 "" (errorLines e), tree)) ∧
      ∀ file e, given.value? .config = some file → Settings.load tree file = .error e →
        Refused tree given e ∧
        ∀ arguments' given', Arguments.parse arguments' = .ok given' →
          given'.value? .config = some file →
          run surroundings tree arguments' = (.stopped 1 "" (errorLines e), tree) := by
  -- Both for these arguments and for others with the same file.
  have reported {arguments : List String} {given : Arguments} {e : Error}
      (accepted : Arguments.parse arguments = .ok given) (refused : Refused tree given e) :
      run surroundings tree arguments = (.stopped 1 "" (errorLines e), tree) :=
    run_of_configure_eq_error accepted ((configure_eq_error_iff accepted).mpr refused)
  refine ⟨fun stop refused no_help no_version => ?_, fun given accepted =>
    ⟨fun e => configure_eq_error_iff accepted, fun e => reported accepted,
      fun file e named fails => ?_⟩⟩
  · rw [run, refused]
    cases stop with
    | help => exact absurd rfl no_help
    | version => exact absurd rfl no_version
    | unknown _ | noValue _ | badValue _ _ | repeated _ => rfl
  · have refused {given : Arguments} (named : given.value? .config = some file) :
        Refused tree given e := .of_loaded (loaded_eq_error_iff.mpr ⟨file, named, fails⟩)
    exact ⟨refused named, fun arguments' given' accepted' named' =>
      reported accepted' (refused named')⟩

/-- A file whose last line is refused, after it asked for a log file and for a process id, and two
options that are wrong as well. -/
theorem failures_leave_no_trace_last_line :
    let surroundings : Surroundings := ⟨1, fun _ => false⟩
    let content := Utf8.bytes "logfile l\npidfile p\nport x"
    let tree : FileTree := ⟨.folder [("k", .file content)], [], none⟩
    let arguments := ["-c", "k", "--addr", "nowhere", "--threads=0"]
    run surroundings tree arguments =
      (.stopped 1 "" ["", "*** FATAL CONFIG FILE ERROR ***",
        "Reading the configuration file, at line 3", ">>> 'port x'", "Invalid port"], tree) := by
  intro surroundings content tree arguments
  have accepted : Arguments.parse arguments =
      .ok [(.config, some "k"), (.address, some "nowhere"), (.threads, some "0")] :=
    Except.toOption_eq_some.mp (by decide +kernel)
  have read : tree.readText "k" = .ok "logfile l\npidfile p\nport x".toList :=
    Except.toOption_eq_some.mp (by decide +kernel)
  have asks : ∀ l ∈ ["logfile l".toList, "pidfile p".toList], ∃ change,
      ofLine tree l = .ok change := by
    rw [List.forall_mem_cons, List.forall_mem_singleton]
    exact ⟨⟨some (.logFile (some "l")), by decide +kernel⟩,
      ⟨some (.pidFile (some "p")), by decide +kernel⟩⟩
  have refused : ofLine tree "port x".toList = .error .port := by decide +kernel
  have text : "port x" = String.ofList (Text.trim "port x".toList) := by decide +kernel
  have fails : Settings.load tree "k" = .error (.config 3 "port x" .port) :=
    Settings.load_eq_error_iff.mpr <| .inr ⟨_, read, Settings.parse_eq_error_iff.mpr
      ⟨_, _, [], .port, by decide +kernel, asks, refused, congrArg (Error.config 3 · .port) text⟩⟩
  exact (((failures_leave_no_trace surroundings tree arguments).2 _ accepted).2.2 "k" _ rfl
    fails).2 arguments _ accepted rfl

end HashGateway.Launch
