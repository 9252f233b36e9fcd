import HashGateway.Launch.Start
import HashGateway.Proofs.Envelopes
import HashGateway.Proofs.Paging
import HashGateway.Proofs.Record.Lengths
import HashGateway.Proofs.Settings.Independence

/-!
# Settings that can be worked with

What a directive asks for is checked when its line is read, and what an option of the command line
asks for is checked when it is applied. So whatever a server starts with has at least one thread,
asks for pages of at least one field, and names no file by an empty text. For the pages this is
all that a store in memory needs: it is never asked for a page that it refuses, however far
on a client asks for it to begin.

## Main definitions

* `Directive.IsUsable`, `Settings.IsUsable` — what a server can work with
* `Launch.loaded`, `Launch.changed` — the settings before the options change them, and after
* `Launch.Keeps` — settings that differ only where an option for a setting is given

## Main results

* `Settings.isUsable_of_parse` — an accepted text describes usable settings
* `Launch.exists_configure_of_run` — what a server starts with is what its command line asks for
* `Settings.IsUsable.askable` — with usable settings no page is asked for that a store refuses
* `Launch.configured_server_shows_pages` — what a command line asks for is usable, differs from its
  file only where an option for a setting is given, and lets every page be shown
-/

namespace HashGateway

/-! ## Usable directives -/

namespace Directive

open HashGateway.Settings (Fault)

/-- What a directive asks for can be used. -/
def IsUsable : Directive → Prop
  | pageSize n => 0 < n ∧ n ≤ Numeral.max64
  | threads n => 0 < n
  | pidFile s => s ≠ some ""
  | logFile s => s ≠ some ""
  | certificate s => s ≠ some ""
  | privateKey s => s ≠ some ""
  | authorities s => s ≠ some ""
  | protocolVersion s => s ≠ some ""
  | ciphers s => s ≠ some ""
  | domain s => s ≠ some ""
  | domainCheck s => s ≠ some ""
  | _ => True

theorem given_ne (value : String) : given value ≠ some "" := by
  rw [given]
  split
  · simp
  · next notEmpty =>
    intro empty
    rw [Option.some.inj empty] at notEmpty
    exact notEmpty rfl

theorem of_pageSizeOf {value : String} {n : Nat} (h : pageSizeOf value = .ok n) :
    0 < n ∧ n ≤ Numeral.max64 := by
  unfold pageSizeOf at h
  split at h
  · next n read =>
    obtain rfl := Except.ok.inj h
    exact ⟨Nat.succ_pos n, Numeral.le_of_unsigned? read⟩
  · simp at h

theorem pos_of_threadsOf {value : String} {n : Nat} (h : threadsOf value = .ok n) : 0 < n := by
  obtain ⟨m, -, h⟩ := Except.bind_eq_ok.mp h
  split at h
  · simp [throw, throwThe, MonadExceptOf.throw] at h
  · next nonzero =>
    obtain rfl := Except.ok.inj h
    exact Nat.pos_of_ne_zero nonzero

theorem ne_of_logFileOf {tree : Host.FileTree} {value : String} {s : Option String}
    (h : logFileOf tree value = .ok s) : s ≠ some "" := by
  unfold logFileOf at h
  split at h
  · obtain rfl := Except.ok.inj h
    simp
  · next file given =>
    split at h
    · obtain rfl := Except.ok.inj h
      exact given ▸ given_ne value
    · simp at h

/-- What can be read can be used. -/
theorem isUsable_of_parse {tree : Host.FileTree} {name value : String} {d : Directive}
    (h : parse tree name value = .ok d) : d.IsUsable := by
  unfold parse at h
  split at h
  -- What a name asks for is the value as it is, or something that is read and checked first.
  all_goals first
    | (obtain rfl := Except.ok.inj h; first | exact trivial | exact given_ne value)
    | (obtain ⟨n, read, rfl⟩ := Except.map_eq_ok.mp h
       first
        | exact trivial
        | exact of_pageSizeOf read
        | exact pos_of_threadsOf read
        | exact ne_of_logFileOf read)
    | exact nomatch h

/-- A directive that can be used leaves no empty text. -/
theorem IsUsable.change_ne {d : Directive} (usable : d.IsUsable) {value : Setting.Value}
    (other : value ≠ .given (some "")) : d.change value ≠ .given (some "") := by
  cases d with
  | pidFile _ | logFile _ | certificate _ | privateKey _ | authorities _ | protocolVersion _
  | ciphers _ | domain _ | domainCheck _ =>
    exact fun empty => usable (Setting.Value.given.inj empty)
  | port n =>
    cases value with
    | address a => exact nofun
    | _ => exact other
  | _ => exact nofun

end Directive

/-! ## Usable settings -/

namespace Settings

variable {s : Settings} {tree : Host.FileTree}

/-- Settings that a server can work with: it has threads, pages have fields, and what need not be
given is either not given or no empty text. -/
structure IsUsable (s : Settings) : Prop where
  pageSize : 0 < s.pageSize
  pageSize_fits : s.pageSize ≤ Numeral.max64
  threads : 0 < s.threads
  given : ∀ k, s.get k ≠ .given (some "")

theorem isUsable_default : default.IsUsable where
  pageSize := by decide
  pageSize_fits := by decide
  threads := by decide
  given k := by cases k <;> decide

theorem IsUsable.set (h : s.IsUsable) {d : Directive} (usable : d.IsUsable) :
    (s.set d).IsUsable where
  pageSize := by
    cases d with
    | pageSize n => exact usable.1
    | _ => exact h.pageSize
  pageSize_fits := by
    cases d with
    | pageSize n => exact usable.2
    | _ => exact h.pageSize_fits
  threads := by
    cases d with
    | threads n => exact usable
    | _ => exact h.threads
  given k := by
    rw [get_set]
    split
    · exact usable.change_ne (h.given k)
    · exact h.given k

theorem IsUsable.foldl (h : s.IsUsable) {directives : List Directive}
    (usable : ∀ d ∈ directives, d.IsUsable) : (directives.foldl Settings.set s).IsUsable := by
  induction directives generalizing s with
  | nil => exact h
  | cons d directives ih =>
    refine ih (h.set (usable d List.mem_cons_self)) fun d' mem => ?_
    exact usable d' (List.mem_cons_of_mem _ mem)

/-- The settings of an accepted text can be used. -/
theorem isUsable_of_parse {text : List Char} (h : parse tree text = .ok s) : s.IsUsable := by
  obtain ⟨-, rfl⟩ := parse_eq_ok_iff.mp h
  refine isUsable_default.foldl fun d mem => ?_
  obtain ⟨name, value, asked⟩ := exists_parse_of_mem_changes mem
  exact Directive.isUsable_of_parse asked

/-- The settings of a file can be used. -/
theorem isUsable_of_load {file : String} (h : load tree file = .ok s) : s.IsUsable := by
  obtain ⟨text, -, parsed⟩ := load_eq_ok_iff.mp h
  exact isUsable_of_parse parsed

end Settings

/-! ## Options of the command line -/

namespace Launch

/-- The setting that an option changes. The file is no setting. -/
def OptionName.setting? : OptionName → Option Setting
  | .config => none
  | .address => some .address
  | .engine => some .engine
  | .pool => some .pool
  | .threads => some .threads

variable {tree : Host.FileTree} {given : Arguments} {base s t u : Settings} {value : String}
  {k : Setting}

/-- A change of one setting that leaves settings usable. -/
structure Changes (k : Setting) (s t : Settings) : Prop where
  kept : ∀ k', k' ≠ k → t.get k' = s.get k'
  usable : s.IsUsable → t.IsUsable

theorem changes_set {d : Directive} (usable : d.IsUsable) (s : Settings) :
    Changes d.setting s (s.set d) :=
  ⟨fun _ other => Settings.get_set_of_ne other.symm s, fun h => h.set usable⟩

/-- An address is set as a whole, which no directive does. -/
theorem changes_of_setAddress (h : setAddress s value = .ok t) : Changes .address s t := by
  unfold setAddress at h
  split at h
  · next address _ =>
    have kept (k : Setting) (other : k ≠ .address) :
        { s with address := address }.get k = s.get k := by
      cases k <;> first | rfl | exact absurd rfl other
    obtain rfl := Except.ok.inj h
    refine ⟨kept, fun usable =>
      ⟨usable.pageSize, usable.pageSize_fits, usable.threads, fun k => ?_⟩⟩
    by_cases is_address : k = .address
    · subst is_address
      exact nofun
    · exact kept k is_address ▸ usable.given k
  · simp at h

theorem changes_of_setEngine (h : setEngine s value = .ok t) : Changes .engine s t := by
  unfold setEngine at h
  split at h
  · next kind _ =>
    obtain rfl := Except.ok.inj h
    exact changes_set (d := .engine kind) trivial s
  · simp at h

theorem changes_of_setPool (h : setPool s value = .ok t) : Changes .pool s t := by
  unfold setPool at h
  split at h
  · next kind _ =>
    obtain rfl := Except.ok.inj h
    exact changes_set (d := .pool kind) trivial s
  · simp at h

theorem changes_of_setThreads (h : setThreads s value = .ok t) : Changes .threads s t := by
  unfold setThreads at h
  split at h
  · simp at h
  · next n positive _ =>
    obtain rfl := Except.ok.inj h
    exact changes_set (d := .threads n) (Nat.pos_of_ne_zero positive) s
  · simp at h

/-- Settings keep the values of others, except those that an option is given for. -/
def Keeps (given : Arguments) (s t : Settings) : Prop :=
  ∀ k, (∀ name : OptionName, name.setting? = some k → given.value? name = none) → t.get k = s.get k

theorem Keeps.trans (h : Keeps given s t) (h' : Keeps given t u) : Keeps given s u :=
  fun k absent => (h' k absent).trans (h k absent)

section Override

variable {name : OptionName} {change : Settings → String → Except Error Settings}

/-- An option that is not given changes nothing. -/
theorem override_eq_ok (h : override given name change s = .ok t) :
    (given.value? name = none ∧ t = s) ∨
      ∃ value, given.value? name = some value ∧ change s value = .ok t := by
  unfold override at h
  split at h
  · next value here => exact .inr ⟨value, here, h⟩
  · next absent => exact .inl ⟨absent, (Except.ok.inj h).symm⟩

variable (changes : ∀ {value}, change s value = .ok t → Changes k s t)
include changes

theorem keeps_of_override (own : name.setting? = some k)
    (h : override given name change s = .ok t) : Keeps given s t := by
  rcases override_eq_ok h with ⟨-, rfl⟩ | ⟨value, here, changed⟩
  · exact fun _ _ => rfl
  · -- The option is given, so its own setting is none of those that have to stay.
    intro k' absent
    refine (changes changed).kept k' fun changed_eq => ?_
    rw [absent name (changed_eq ▸ own)] at here
    exact Option.some_ne_none value here.symm

theorem isUsable_of_override (h : override given name change s = .ok t) (usable : s.IsUsable) :
    t.IsUsable := by
  rcases override_eq_ok h with ⟨-, rfl⟩ | ⟨value, -, changed⟩
  · exact usable
  · exact (changes changed).usable usable

end Override

/-- The settings before any option changes them: those of the file, if there is one. -/
def loaded (tree : Host.FileTree) (given : Arguments) : Except Error Settings :=
  match given.value? .config with
  | some file => Settings.load tree file
  | none => .ok Settings.default

/-- Settings changed by the options. -/
def changed (given : Arguments) (base : Settings) : Except Error Settings := do
  let s ← override given .address setAddress base
  let s ← override given .engine setEngine s
  let s ← override given .pool setPool s
  override given .threads setThreads s

theorem configure_eq (tree : Host.FileTree) (given : Arguments) :
    configure tree given = loaded tree given >>= changed given := by
  rw [configure, loaded]
  cases given.value? .config <;> rfl

theorem loaded_eq_ok_iff : loaded tree given = .ok base ↔
    (given.value? .config = none ∧ base = Settings.default) ∨
      ∃ file, given.value? .config = some file ∧ Settings.load tree file = .ok base := by
  unfold loaded
  split <;> simp [*, eq_comm]

theorem loaded_eq_error_iff {e : Error} : loaded tree given = .error e ↔
    ∃ file, given.value? .config = some file ∧ Settings.load tree file = .error e := by
  unfold loaded
  split <;> simp [*]

theorem isUsable_of_loaded (h : loaded tree given = .ok base) : base.IsUsable := by
  rcases loaded_eq_ok_iff.mp h with ⟨-, rfl⟩ | ⟨file, -, read⟩
  · exact Settings.isUsable_default
  · exact Settings.isUsable_of_load read

theorem keeps_of_changed (h : changed given base = .ok s) : Keeps given base s := by
  obtain ⟨s₁, address, h⟩ := Except.bind_eq_ok.mp h
  obtain ⟨s₂, engine, h⟩ := Except.bind_eq_ok.mp h
  obtain ⟨s₃, pool, threads⟩ := Except.bind_eq_ok.mp h
  have keeps₁ := keeps_of_override changes_of_setAddress rfl address
  have keeps₂ := keeps_of_override changes_of_setEngine rfl engine
  have keeps₃ := keeps_of_override changes_of_setPool rfl pool
  exact ((keeps₁.trans keeps₂).trans keeps₃).trans
    (keeps_of_override changes_of_setThreads rfl threads)

theorem isUsable_of_changed (h : changed given base = .ok s) (usable : base.IsUsable) :
    s.IsUsable := by
  obtain ⟨s₁, address, h⟩ := Except.bind_eq_ok.mp h
  obtain ⟨s₂, engine, h⟩ := Except.bind_eq_ok.mp h
  obtain ⟨s₃, pool, threads⟩ := Except.bind_eq_ok.mp h
  have usable₁ := isUsable_of_override changes_of_setAddress address usable
  have usable₂ := isUsable_of_override changes_of_setEngine engine usable₁
  have usable₃ := isUsable_of_override changes_of_setPool pool usable₂
  exact isUsable_of_override changes_of_setThreads threads usable₃

end Launch

/-! ## Pages -/

/-- What is asked for at the two endpoints that list is a page. -/
theorem Endpoint.exists_page {endpoint : Endpoint} {stamp : Int} {body : Bytes} {demand : Demand}
    (lists : endpoint = .listFiles ∨ endpoint = .listTraces)
    (held : endpoint.demand stamp body = .ok demand) :
    ∃ listing cursor, demand = .page listing cursor := by
  rcases lists with rfl | rfl
  · obtain ⟨q, -, rfl⟩ := Except.map_eq_ok.mp held
    exact ⟨_, _, rfl⟩
  · obtain ⟨q, -, rfl⟩ := Except.map_eq_ok.mp held
    exact ⟨_, _, rfl⟩

/-- A page that an accepted request asks for, with the size that usable settings have, is one that a
store in memory can be asked for. -/
theorem Settings.IsUsable.askable {s : Settings} (usable : s.IsUsable) {request : Request}
    {listing : Listing} {cursor : Nat}
    (accepted : request.demand? = some (.page listing cursor)) :
    Operation.Askable cursor s.pageSize :=
  ⟨(Request.fits_of_demand? accepted).2 listing cursor rfl, usable.pageSize, usable.pageSize_fits⟩

namespace Launch

section Run

variable {surroundings : Surroundings} {arguments : List String}
  (accepted : Arguments.parse arguments = .ok given)
include accepted

theorem run_of_configure_eq_ok (configured : configure tree given = .ok s) :
    run surroundings tree arguments = prepare surroundings tree s := by
  rw [run, accepted]
  simp only [configured]

theorem run_of_configure_eq_error {e : Error} (refused : configure tree given = .error e) :
    run surroundings tree arguments = (.failed (errorLines e), tree) := by
  rw [run, accepted]
  simp only [refused]

end Run

theorem eq_of_prepare {surroundings : Surroundings} {tree' : Host.FileTree}
    (serves : prepare surroundings tree t = (.serving s, tree')) : t = s := by
  unfold prepare at serves
  split at serves
  · simp [Ending.failed] at serves
  · split at serves
    · simp [Ending.failed] at serves
    · split at serves
      · simp [Ending.failed] at serves
      · simp [Ending.failed] at serves
      · exact Ending.serving.inj (Prod.mk.inj serves).1

/-- What a server starts with is what its command line asks for. -/
theorem exists_configure_of_run {surroundings : Surroundings} {arguments : List String}
    {tree' : Host.FileTree} (serves : run surroundings tree arguments = (.serving s, tree')) :
    ∃ given, Arguments.parse arguments = .ok given ∧ configure tree given = .ok s := by
  unfold run at serves
  split at serves
  · simp at serves
  · simp at serves
  · simp [Ending.failed] at serves
  · next given parsed =>
    split at serves
    · simp [Ending.failed] at serves
    · next s' configured => exact ⟨given, parsed, eq_of_prepare serves ▸ configured⟩

/-- The settings that a command line asks for are usable. Except where an option for a setting is
given they are those of the file, or those without a file. A gateway in front of a store in memory
that has this page size shows every page that is asked for. -/
theorem configured_server_shows_pages (configured : configure tree given = .ok s) :
    s.IsUsable ∧ (∃ base, loaded tree given = .ok base ∧ Keeps given base s) ∧
      ∀ (store : Store) (request : Request) (endpoint : Endpoint) (demand : Demand),
        request.endpoint? = some endpoint → (endpoint = .listFiles ∨ endpoint = .listTraces) →
        request.demand? = some demand →
        ∃ listing cursor, demand = .page listing cursor ∧
          ((Gateway.dispatch s.pageSize request).run Engine.memory store).1 =
            ⟨200, (store.page listing cursor s.pageSize).text listing.name⟩ ∧
          (store.page listing cursor s.pageSize).text listing.name ≠ Envelope.fail.text := by
  rw [configure_eq] at configured
  obtain ⟨base, found, h⟩ := Except.bind_eq_ok.mp configured
  have usable := isUsable_of_changed h (isUsable_of_loaded found)
  refine ⟨usable, ⟨base, found, keeps_of_changed h⟩,
    fun store request endpoint demand leads lists accepted => ?_⟩
  -- Only the endpoints that list demand pages, and a usable page size can be asked for.
  have held : endpoint.demand request.stamp request.body = .ok demand := by
    rw [Request.demand?, leads, Option.bind_some] at accepted
    exact Except.toOption_eq_some.mp accepted
  obtain ⟨listing, cursor, rfl⟩ := Endpoint.exists_page lists held
  refine ⟨listing, cursor, rfl, ?_, store.isPayload_page listing cursor s.pageSize .fail⟩
  rw [Gateway.run_page accepted (usable.askable accepted)]

/-- A file with a short page and an empty name, an option for threads, and the last cursor that a
request may name. -/
theorem configured_server_shows_pages_last :
    let tree : Host.FileTree :=
      ⟨.folder [("c", .file (Utf8.bytes "redis-page 5\npidfile \"\""))], [], none⟩
    let given : Arguments := [(.config, some "c"), (.threads, some "3")]
    let s : Settings := { Settings.default with pageSize := 5, threads := 3 }
    let body := Utf8.bytes "\x7b\"machine\":\"m\",\"page\":18446744073709551615\x7d"
    let request : Request := ⟨"POST", "/filegetall", body, 0⟩
    configure tree given = .ok s ∧ s.IsUsable ∧
      request.demand? = some (.page (.files "m") Numeral.max64) ∧
      ((Gateway.dispatch 5 request).run Engine.memory OrderedMap.empty).1 =
        ⟨200, (Store.page OrderedMap.empty (.files "m") Numeral.max64 5).text "files"⟩ := by
  intro tree given s body request
  have configured : configure tree given = .ok s := Except.toOption_eq_some.mp (by decide +kernel)
  have accepted : request.demand? = some (.page (.files "m") Numeral.max64) :=
    Request.demand?_posted .listFiles 0 (by decide +kernel) (by decide +kernel)
  obtain ⟨usable, -, shows⟩ := configured_server_shows_pages configured
  obtain ⟨listing, cursor, demands, shown, -⟩ :=
    shows OrderedMap.empty request .listFiles _ (by decide +kernel) (.inl rfl) accepted
  obtain ⟨rfl, rfl⟩ := Demand.page.inj demands
  exact ⟨configured, usable, accepted, shown⟩

end Launch

end HashGateway
