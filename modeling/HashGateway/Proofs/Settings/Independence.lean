import HashGateway.Proofs.Results
import HashGateway.Proofs.Settings.Lines
import Mathlib.Data.List.Induction

/-!
# Settings are independent of each other

Every directive changes a setting of its own, and of several directives for one setting the last
counts. Only the port is part of something larger, the address, and even it is replaced as a
whole by a later one. So the settings that a text describes can be read off the last line for
each setting: the order of the others, the lines before the last one, blank lines and
comments have no part in them.

## Main definitions

* `Setting`, `Settings.get` — the settings one by one, and their values
* `Directive.setting`, `Directive.change` — the setting that a directive changes, and how
* `Settings.nameOf?` — the name of the directive of a line
* `Settings.lastNamed?` — the last line for a setting
* `Settings.lastOfEach` — some lines with only the last one for each name

## Main results

* `Settings.get_set` — a directive changes its own setting only
* `Settings.get_foldl` — of several directives for a setting the last counts
* `Settings.directives_are_independent` — a text means what its last lines mean
-/

namespace HashGateway

open HashGateway.Settings (Fault)

/-- What is set by a directive of its own. -/
inductive Setting
  | storeHost
  | storePort
  | pageSize
  | address
  | timeout
  | daemonize
  | pidFile
  | logFile
  | certificate
  | privateKey
  | authorities
  | protocolVersion
  | ciphers
  | domain
  | domainCheck
  | threads
  | startedThreads
  | backlog
  | queue
  | pool
  | engine
  deriving DecidableEq, Repr

namespace Setting

/-- The name of the directive of a setting. -/
def name : Setting → String
  | storeHost => "redis-ip"
  | storePort => "redis-port"
  | pageSize => "redis-page"
  | address => "port"
  | timeout => "request_timeout_ms"
  | daemonize => "daemonize"
  | pidFile => "pidfile"
  | logFile => "logfile"
  | certificate => "ssl_certificate"
  | privateKey => "ssl_private_key"
  | authorities => "ssl_ca_file"
  | protocolVersion => "ssl_protocol_version"
  | ciphers => "ssl_cipher_list"
  | domain => "auth_domain"
  | domainCheck => "auth_domain_check"
  | threads => "num_threads"
  | startedThreads => "prespawn_threads"
  | backlog => "listen_backlog"
  | queue => "connection_queue"
  | pool => "worker-pool"
  | engine => "engine"

/-- All settings. -/
def all : List Setting :=
  [storeHost, storePort, pageSize, address, timeout, daemonize, pidFile, logFile, certificate,
    privateKey, authorities, protocolVersion, ciphers, domain, domainCheck, threads,
    startedThreads, backlog, queue, pool, engine]

theorem mem_all (setting : Setting) : setting ∈ all := by
  cases setting <;> decide

theorem name_injective {a b : Setting} (h : a.name = b.name) : a = b := by
  have table : ∀ a ∈ all, ∀ b ∈ all, a.name = b.name → a = b := by decide +kernel
  exact table a (mem_all a) b (mem_all b) h

/-- A value of a setting. -/
inductive Value
  | text (s : String)
  | given (s : Option String)
  | number (n : Nat)
  | limit (n : Option Nat)
  | flag (b : Bool)
  | address (a : Host.SocketAddress)
  | pool (kind : PoolKind)
  | engine (kind : EngineKind)
  deriving DecidableEq, Repr

end Setting

namespace Directive

/-- The setting that a directive changes. -/
def setting : Directive → Setting
  | storeHost _ => .storeHost
  | storePort _ => .storePort
  | pageSize _ => .pageSize
  | port _ => .address
  | timeout _ => .timeout
  | daemonize _ => .daemonize
  | pidFile _ => .pidFile
  | logFile _ => .logFile
  | certificate _ => .certificate
  | privateKey _ => .privateKey
  | authorities _ => .authorities
  | protocolVersion _ => .protocolVersion
  | ciphers _ => .ciphers
  | domain _ => .domain
  | domainCheck _ => .domainCheck
  | threads _ => .threads
  | startedThreads _ => .startedThreads
  | backlog _ => .backlog
  | queue _ => .queue
  | pool _ => .pool
  | engine _ => .engine

/-- What becomes of the value of a setting. Only of an address something stays. -/
def change : Directive → Setting.Value → Setting.Value
  | storeHost host, _ => .text host
  | storePort n, _ => .number n
  | pageSize n, _ => .number n
  | port n, .address a => .address (a.withPort n)
  | port _, value => value
  | timeout n, _ => .number n
  | daemonize b, _ => .flag b
  | pidFile s, _ => .given s
  | logFile s, _ => .given s
  | certificate s, _ => .given s
  | privateKey s, _ => .given s
  | authorities s, _ => .given s
  | protocolVersion s, _ => .given s
  | ciphers s, _ => .given s
  | domain s, _ => .given s
  | domainCheck s, _ => .given s
  | threads n, _ => .number n
  | startedThreads n, _ => .limit (some n)
  | backlog n, _ => .limit (some n)
  | queue n, _ => .limit (some n)
  | pool kind, _ => .pool kind
  | engine kind, _ => .engine kind

/-- Of two directives for one setting the second counts. -/
theorem change_change {d d' : Directive} (sameSetting : d.setting = d'.setting)
    (value : Setting.Value) : d'.change (d.change value) = d'.change value := by
  cases d' with
  | port n =>
    cases d with
    | port _ =>
      cases value with
      | address a => cases a <;> rfl
      | _ => rfl
    | _ => exact nomatch sameSetting
  | _ => rfl

/-- A directive has the name of the setting that it changes. -/
theorem name_of_parse {tree : Host.FileTree} {name value : String} {d : Directive}
    (h : parse tree name value = .ok d) : d.setting.name = name := by
  unfold parse at h
  split at h
  all_goals first
    | (obtain rfl := Except.ok.inj h; rfl)
    | (obtain ⟨_, -, rfl⟩ := Except.map_eq_ok.mp h; rfl)
    | exact nomatch h

end Directive

attribute [ext] Settings Encryption

namespace Settings

/-- The value of a setting. -/
def get (s : Settings) : Setting → Setting.Value
  | .storeHost => .text s.storeHost
  | .storePort => .number s.storePort
  | .pageSize => .number s.pageSize
  | .address => .address s.address
  | .timeout => .number s.timeout
  | .daemonize => .flag s.daemonize
  | .pidFile => .given s.pidFile
  | .logFile => .given s.logFile
  | .certificate => .given s.encryption.certificate
  | .privateKey => .given s.encryption.privateKey
  | .authorities => .given s.encryption.authorities
  | .protocolVersion => .given s.encryption.protocolVersion
  | .ciphers => .given s.encryption.ciphers
  | .domain => .given s.domain
  | .domainCheck => .given s.domainCheck
  | .threads => .number s.threads
  | .startedThreads => .limit s.startedThreads
  | .backlog => .limit s.backlog
  | .queue => .limit s.queue
  | .pool => .pool s.pool
  | .engine => .engine s.engine

variable {s t : Settings} {d : Directive} {k : Setting}

open Setting.Value in
/-- There is nothing to settings but their values. -/
theorem ext_get (h : ∀ k, s.get k = t.get k) : s = t :=
  Settings.ext (text.inj (h .storeHost)) (number.inj (h .storePort)) (number.inj (h .pageSize))
    (address.inj (h .address)) (number.inj (h .timeout)) (flag.inj (h .daemonize))
    (given.inj (h .pidFile)) (given.inj (h .logFile))
    (Encryption.ext (given.inj (h .certificate)) (given.inj (h .privateKey))
      (given.inj (h .authorities)) (given.inj (h .protocolVersion)) (given.inj (h .ciphers)))
    (given.inj (h .domain)) (given.inj (h .domainCheck)) (number.inj (h .threads))
    (limit.inj (h .startedThreads)) (limit.inj (h .backlog)) (limit.inj (h .queue))
    (pool.inj (h .pool)) (engine.inj (h .engine))

theorem get_set_self (s : Settings) (d : Directive) :
    (s.set d).get d.setting = d.change (s.get d.setting) := by
  cases d <;> rfl

theorem get_set_of_ne (other : d.setting ≠ k) (s : Settings) : (s.set d).get k = s.get k := by
  cases d <;> cases k <;> first | rfl | exact absurd rfl other

/-- A directive changes its own setting only. -/
theorem get_set (s : Settings) (d : Directive) (k : Setting) :
    (s.set d).get k = if d.setting = k then d.change (s.get k) else s.get k := by
  split
  · next own =>
    subst own
    exact get_set_self s d
  · next other => exact get_set_of_ne other s

/-- Of several directives for a setting the last counts. -/
theorem get_foldl (s : Settings) (directives : List Directive) (k : Setting) :
    (directives.foldl set s).get k =
      match (directives.filter (·.setting = k)).getLast? with
      | some d => d.change (s.get k)
      | none => s.get k := by
  induction directives using List.reverseRecOn with
  | nil => rfl
  | append_singleton directives d ih =>
    rw [List.foldl_append, List.foldl_cons, List.foldl_nil, get_set, List.filter_append]
    by_cases own : d.setting = k
    · rw [if_pos own, List.filter_cons_of_pos (by simpa using own), List.filter_nil,
        List.getLast?_concat, ih]
      split
      · next d' last =>
        -- The value that the last one found was made by another one for the same setting.
        have mem := List.mem_of_getLast? last
        have own' : d'.setting = k := by simpa using (List.mem_filter.mp mem).2
        exact Directive.change_change (own'.trans own.symm) _
      · rfl
    · rw [if_neg own, List.filter_cons_of_neg (by simpa using own), List.filter_nil,
        List.append_nil, ih]

/-! ## Lines and their settings -/

variable {tree : Host.FileTree} {text text' line : List Char}

/-- A line that asks for nothing: a blank line or a comment. -/
def isIdle (line : List Char) : Bool :=
  (Text.trim line).isEmpty || (Text.trim line).head? = some '#'

/-- The name of the directive of a line, in lower case; blank lines and comments have none. -/
def nameOf? (line : List Char) : Option String :=
  if isIdle line then none
  else
    match arguments? (Text.trim line) with
    | some (name :: _) => some ((String.ofList name).map Char.toLower)
    | _ => none

/-- Whether the directive of a line has a name. -/
def isNamed (name : String) (line : List Char) : Bool := nameOf? line = some name

theorem ofLine_of_isIdle (idle : isIdle line = true) : ofLine tree line = .ok none := by
  rw [ofLine, readLine, if_pos (by simpa [isIdle] using idle)]

theorem isIdle_eq_false_of_isNamed {name : String} (named : isNamed name line = true) :
    isIdle line = false := by
  rw [isNamed, decide_eq_true_eq, nameOf?] at named
  split at named
  · simp at named
  · next busy => simpa using busy

/-- The name of a line is that of the setting that it changes. -/
theorem nameOf?_of_ofLine {change : Option Directive} (asked : ofLine tree line = .ok change) :
    nameOf? line = change.map fun d => d.setting.name := by
  rw [ofLine, readLine] at asked
  rw [nameOf?, isIdle]
  -- An accepted line is idle, or its first word names the setting of its directive.
  split at asked
  · next idle =>
    obtain rfl := Except.ok.inj asked
    rw [if_pos (by simpa using idle), Option.map_none]
  · next busy =>
    rw [if_neg (by simpa using busy)]
    split at asked
    · simp at asked
    · next split =>
      obtain rfl := Except.ok.inj asked
      rw [split]
      rfl
    · next name value split =>
      obtain ⟨d, parsed, rfl⟩ := Except.map_eq_ok.mp asked
      rw [split, Option.map_some, Directive.name_of_parse parsed]
    · simp at asked

theorem isNamed_iff_of_ofLine {change : Option Directive} (asked : ofLine tree line = .ok change)
    (k : Setting) : isNamed k.name line = true ↔ ∃ d, change = some d ∧ d.setting = k := by
  rw [isNamed, decide_eq_true_eq, nameOf?_of_ofLine asked, Option.map_eq_some_iff]
  refine exists_congr fun d => and_congr_right fun _ => ?_
  exact ⟨Setting.name_injective, fun equal => equal ▸ rfl⟩

/-- The last line for a setting. -/
def lastNamed? (k : Setting) (lines : List (List Char)) : Option (List Char) :=
  (lines.filter (isNamed k.name)).getLast?

theorem lastNamed?_append_singleton (k : Setting) (lines : List (List Char)) (line : List Char) :
    lastNamed? k (lines ++ [line]) =
      if isNamed k.name line then some line else lastNamed? k lines := by
  rw [lastNamed?, List.filter_append]
  split
  · next named => rw [List.filter_cons_of_pos named, List.filter_nil, List.getLast?_concat]
  · next other =>
    rw [List.filter_cons_of_neg other, List.filter_nil, List.append_nil, lastNamed?]

theorem lastNamed?_cons (k : Setting) (line : List Char) (rest : List (List Char)) :
    lastNamed? k (line :: rest) =
      (lastNamed? k rest).or (if isNamed k.name line then some line else none) := by
  rw [lastNamed?, List.filter_cons]
  split
  · rw [List.getLast?_cons, lastNamed?]
    cases (rest.filter (isNamed k.name)).getLast? <;> rfl
  · rw [Option.or_none, lastNamed?]

/-- The last change of a setting is asked for by the last line for it. -/
theorem getLast?_changes {lines : List (List Char)}
    (accepted : ∀ line ∈ lines, ∃ change, ofLine tree line = .ok change) (k : Setting) :
    ((changes tree lines).filter (·.setting = k)).getLast? =
      (lastNamed? k lines).bind fun line => (ofLine tree line).toOption.join := by
  induction lines using List.reverseRecOn with
  | nil => rfl
  | append_singleton lines line ih =>
    obtain ⟨change, asked⟩ := accepted line (by simp)
    have earlier := ih fun l mem => accepted l (by simp [mem])
    have all : changes tree (lines ++ [line]) = changes tree lines ++ change.toList := by
      rw [changes, List.filterMap_append, ← changes, ← changes, changes_cons asked]
      simp [changes]
    rw [all, lastNamed?_append_singleton, List.filter_append]
    have named := isNamed_iff_of_ofLine asked k
    -- The line in the end is the last one for the setting, or has no part in it.
    by_cases own : ∃ d, change = some d ∧ d.setting = k
    · rw [if_pos (named.mpr own)]
      obtain ⟨d, rfl, belongs⟩ := own
      rw [Option.toList_some, List.filter_cons_of_pos (by simpa using belongs), List.filter_nil,
        List.getLast?_concat, Option.bind_some, asked]
      rfl
    · rw [if_neg fun here => own (named.mp here), ← earlier]
      have nothing : change.toList.filter (·.setting = k) = [] := by
        simpa [List.filter_eq_nil_iff] using fun d here belongs => own ⟨d, here, belongs⟩
      rw [nothing, List.append_nil]

/-- A setting has the value that the last line for it gives alone, or else the value that it has
unless a line changes it. -/
theorem get_of_parse (accepted : parse tree text = .ok s) (k : Setting) :
    match lastNamed? k (Text.lines text) with
    | some line => ∃ alone, parse tree line = .ok alone ∧ s.get k = alone.get k
    | none => s.get k = default.get k := by
  obtain ⟨each, rfl⟩ := parse_eq_ok_iff.mp accepted
  rw [get_foldl, getLast?_changes each]
  cases last : lastNamed? k (Text.lines text) with
  | none => rfl
  | some line =>
    have found := List.mem_filter.mp (List.mem_of_getLast? last)
    obtain ⟨change, asked⟩ := each line found.1
    obtain ⟨d, rfl, rfl⟩ := (isNamed_iff_of_ofLine asked k).mp found.2
    refine ⟨default.set d, ?_, ?_⟩
    · rw [parse_line (Text.not_mem_of_mem_lines found.1), asked]
      rfl
    · rw [Option.bind_some, asked]
      exact (get_set_self default d).symm

/-- Texts mean the same when their last lines for each setting are the same. -/
theorem parse_eq_of_lastNamed? (accepted : parse tree text = .ok s)
    (accepted' : ∀ line ∈ Text.lines text', ∃ change, ofLine tree line = .ok change)
    (lastLines : ∀ k, lastNamed? k (Text.lines text') = lastNamed? k (Text.lines text)) :
    parse tree text' = .ok s := by
  obtain ⟨s', result⟩ : ∃ s', parse tree text' = .ok s' := ⟨_, parse_eq_ok_iff.mpr ⟨accepted', rfl⟩⟩
  have equal : s' = s := by
    refine ext_get fun k => ?_
    have value := get_of_parse accepted k
    have value' := get_of_parse result k
    rw [lastLines] at value'
    cases last : lastNamed? k (Text.lines text) with
    | none =>
      rw [last] at value value'
      exact value'.trans value.symm
    | some line =>
      rw [last] at value value'
      obtain ⟨alone, read, value⟩ := value
      obtain ⟨alone', read', value'⟩ := value'
      obtain rfl := Except.ok.inj (read.symm.trans read')
      exact value'.trans value.symm
  rw [result, equal]

/-! ## Other texts of the same meaning -/

/-- Some lines with only the last one for each name. -/
def lastOfEach : List (List Char) → List (List Char)
  | [] => []
  | line :: rest =>
    match nameOf? line with
    | some name => if rest.any (isNamed name) then lastOfEach rest else line :: lastOfEach rest
    | none => lastOfEach rest

theorem mem_of_mem_lastOfEach {lines : List (List Char)} :
    ∀ line ∈ lastOfEach lines, line ∈ lines := by
  fun_induction lastOfEach lines with
  | case1 => simp
  | case2 first rest name named later ih =>
    exact fun line mem => List.mem_cons_of_mem _ (ih line mem)
  | case3 first rest name named last ih =>
    intro line mem
    rcases List.mem_cons.mp mem with rfl | mem
    · exact List.mem_cons_self
    · exact List.mem_cons_of_mem _ (ih line mem)
  | case4 first rest idle ih => exact fun line mem => List.mem_cons_of_mem _ (ih line mem)

theorem lastNamed?_lastOfEach (k : Setting) (lines : List (List Char)) :
    lastNamed? k (lastOfEach lines) = lastNamed? k lines := by
  fun_induction lastOfEach lines with
  | case1 => rfl
  | case2 first rest name named later ih =>
    rw [ih, lastNamed?_cons]
    split
    · next own =>
      -- The line that is left out is not the last one of its name.
      obtain rfl : name = k.name := by
        rw [isNamed, decide_eq_true_eq, named] at own
        exact Option.some.inj own
      cases last : lastNamed? k rest with
      | some line => rfl
      | none =>
        rw [lastNamed?, List.getLast?_eq_none_iff, List.filter_eq_nil_iff] at last
        obtain ⟨line, mem, here⟩ := List.any_eq_true.mp later
        exact absurd here (last line mem)
    · rw [Option.or_none]
  | case3 first rest name named last ih => rw [lastNamed?_cons, lastNamed?_cons, ih]
  | case4 first rest idle ih =>
    have other : isNamed k.name first = false := by simp [isNamed, idle]
    rw [ih, lastNamed?_cons, other, if_neg (by simp), Option.or_none]

/-- The last line for a setting is not idle, so idle lines do not matter. -/
theorem lastNamed?_filter (k : Setting) (lines : List (List Char)) :
    lastNamed? k (lines.filter fun line => !isIdle line) = lastNamed? k lines := by
  rw [lastNamed?, List.filter_filter, lastNamed?]
  congr 1
  refine List.filter_congr fun line _ => ?_
  cases named : isNamed k.name line with
  | false => rfl
  | true => simp [isIdle_eq_false_of_isNamed named]

/-- A text that is accepted means the same as any text with the same lines in another order, as long
as lines of the same name keep theirs; as any text that has other blank lines and comments; and as
any text that has, apart from those, only the last line of each name. Each setting has the value
that the last line of its own name gives alone, or else the value that it has unless a line changes
it. -/
theorem directives_are_independent (accepted : parse tree text = .ok s) :
    (∀ text', (Text.lines text').Perm (Text.lines text) →
      (∀ name, (Text.lines text').filter (isNamed name) =
        (Text.lines text).filter (isNamed name)) →
      parse tree text' = .ok s) ∧
    (∀ text', ((Text.lines text').filter fun line => !isIdle line) =
        (Text.lines text).filter (fun line => !isIdle line) →
      parse tree text' = .ok s) ∧
    (∀ text', ((Text.lines text').filter fun line => !isIdle line) =
        lastOfEach (Text.lines text) →
      parse tree text' = .ok s) ∧
    ∀ k : Setting,
      match lastNamed? k (Text.lines text) with
      | some line => ∃ alone, parse tree line = .ok alone ∧ s.get k = alone.get k
      | none => s.get k = default.get k := by
  have each := (parse_eq_ok_iff.mp accepted).1
  -- Lines that are not idle stand in the text, so they are accepted.
  have each_of_busy {text' : List Char}
      (busy : ∀ line ∈ (Text.lines text').filter (fun line => !isIdle line),
        line ∈ Text.lines text) :
      ∀ line ∈ Text.lines text', ∃ change, ofLine tree line = .ok change := by
    intro line mem
    cases idle : isIdle line with
    | true => exact ⟨none, ofLine_of_isIdle idle⟩
    | false => exact each line (busy line (by simp [mem, idle]))
  refine ⟨fun text' perm order => ?_, fun text' busy => ?_, fun text' busy => ?_,
    get_of_parse accepted⟩
  · refine parse_eq_of_lastNamed? accepted (fun line mem => each line (perm.mem_iff.mp mem))
      fun k => ?_
    rw [lastNamed?, order, lastNamed?]
  · refine parse_eq_of_lastNamed? accepted (each_of_busy fun line mem => ?_) fun k => ?_
    · exact (List.mem_filter.mp (busy ▸ mem)).1
    · rw [← lastNamed?_filter, busy, lastNamed?_filter]
  · refine parse_eq_of_lastNamed? accepted (each_of_busy fun line mem => ?_) fun k => ?_
    · exact mem_of_mem_lastOfEach line (busy ▸ mem)
    · rw [← lastNamed?_filter, busy, lastNamed?_lastOfEach]

/-- A port that is set twice, among lines that end differently. -/
theorem directives_are_independent_port :
    let tree : Host.FileTree := ⟨.folder [], [], none⟩
    let text := "Port 1\nengine memory\r\npidfile \"\"\nport 2".toList
    let text' := "\r\nengine memory\n# the port\npidfile \"\"\r\n\nport 2\r\n".toList
    let s : Settings := { default with address := .v4 [0, 0, 0, 0] 2, engine := .memory }
    parse tree text = .ok s ∧ text ≠ text' ∧ parse tree text' = .ok s := by
  intro tree text text' s
  have accepted : parse tree text = .ok s :=
    Except.toOption_eq_some.mp (by decide +kernel)
  obtain ⟨-, -, last, -⟩ := directives_are_independent accepted
  exact ⟨accepted, by decide, last text' (by decide +kernel)⟩

end Settings

end HashGateway
