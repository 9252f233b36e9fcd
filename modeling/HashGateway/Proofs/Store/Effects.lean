import HashGateway.Proofs.Store.Scans

/-!
# What commands do to a store

Whether a command is refused, and how, is decided by the command alone: by its name, by how many
arguments it has and, for a scan, by its cursor and by the first of its options that cannot be
taken. A command that is refused leaves every hash as it is, and does not even make an empty one.
Of the others only writes change anything, and they change the fields that they name in the hash
that they name.

## Main definitions

* `Scan.Refuses`, `HashCommand.IsRefused`, `Command.IsRefused` — the commands that are refused, and
  how
* `Store.AgreesOutside` — two stores are the same but for some fields
* `Command.DecidesFailure` — a command alone decides whether it fails

## Main results

* `Command.parse_eq_error_iff` — which commands are refused
* `Store.agreesOutside_insert` — a write changes the fields that it names
* `Command.decidesFailure` — every command alone decides whether it fails, and changes nothing then
-/

namespace HashGateway

/-! ## Refused commands -/

/-- The options of a scan are refused: the last one has no value, or one is neither a pattern nor a
count, or a count is no number that can be taken. The first fault is the one that is told. -/
inductive Scan.RefusesOptions : List String → Rejection → Prop
  | valueless (name : String) : RefusesOptions [name] .badOption
  | unknown {name : String} (value : String) (rest : List String)
      (other : name.map Char.toUpper ≠ "MATCH") (other' : name.map Char.toUpper ≠ "COUNT") :
      RefusesOptions (name :: value :: rest) .badOption
  | count {name value : String} (rest : List String) (named : name.map Char.toUpper = "COUNT")
      (bad : Scan.count? value = none) : RefusesOptions (name :: value :: rest) .badCount
  | later {name value : String} {rest : List String} {rejection : Rejection}
      (taken : Scan.IsOption (name, value)) (refused : RefusesOptions rest rejection) :
      RefusesOptions (name :: value :: rest) rejection

/-- The arguments of a scan after its key are refused. -/
inductive Scan.Refuses : List String → Rejection → Prop
  | cursorless : Refuses [] (.arity "hscan")
  | cursor {text : String} (options : List String)
      (bad : Numeral.unsigned? Numeral.max64 text.toList = none) :
      Refuses (text :: options) .badCursor
  | options {text : String} {cursor : Nat} {options : List String} {rejection : Rejection}
      (read : Numeral.unsigned? Numeral.max64 text.toList = some cursor)
      (refused : RefusesOptions options rejection) : Refuses (text :: options) rejection

/-- The names of the commands on hashes. -/
def HashCommand.names : List String := ["HSET", "HMSET", "HGET", "HGETALL", "HSCAN"]

/-- Whether a command may have a number of arguments at all. Every command has a key; an HGET has a
field besides, and an HGETALL has nothing else. -/
def HashCommand.takes : String → Nat → Bool
  | "HGET", n => n = 2
  | "HGETALL", n => n = 1
  | _, n => 0 < n

/-- A command with a name in upper case is refused. -/
inductive HashCommand.IsRefused (name : String) : List String → Rejection → Prop
  | unknown (arguments : List String) (other : name ∉ names) :
      IsRefused name arguments (.unknownCommand name)
  | arity {arguments : List String} (known : name ∈ names)
      (wrong : takes name arguments.length = false) :
      IsRefused name arguments (.arity (name.map Char.toLower))
  /-- At least one field is written, and each with its value. -/
  | pairs {arguments : List String} (key : String) (named : name = "HSET" ∨ name = "HMSET")
      (count : arguments = [] ∨ arguments.length % 2 = 1) :
      IsRefused name (key :: arguments) (.arity "hset")
  | scan {arguments : List String} {rejection : Rejection} (key : String) (named : name = "HSCAN")
      (refused : Scan.Refuses arguments rejection) : IsRefused name (key :: arguments) rejection

/-- A command is refused with an error. Its name is read in any case of letters. -/
inductive Command.IsRefused : Command → Error → Prop
  | empty : IsRefused [] (.format .noCommand)
  | refused {name : String} {arguments : List String} {rejection : Rejection}
      (refused : HashCommand.IsRefused (name.map Char.toUpper) arguments rejection) :
      IsRefused (name :: arguments) (.command rejection)

namespace Scan

variable {scan : Scan} {arguments : List String} {rejection : Rejection}

theorem not_isOption_of_ne {name : String} (value : String)
    (other : name.map Char.toUpper ≠ "MATCH") (other' : name.map Char.toUpper ≠ "COUNT") :
    ¬ IsOption (name, value) := by
  rintro (named | ⟨named, -⟩)
  · exact other named
  · exact other' named

theorem not_isOption_of_count {name value : String} (named : name.map Char.toUpper = "COUNT")
    (bad : count? value = none) : ¬ IsOption (name, value) := by
  rintro (other | ⟨-, good⟩)
  · exact absurd (named.symm.trans other) (by decide)
  · simp only [bad, Option.isSome_none, Bool.false_eq_true] at good

/-- What scans take is not what options are refused for. -/
theorem refusesOptions_cons_iff {name value : String} {rest : List String}
    (taken : IsOption (name, value)) :
    RefusesOptions (name :: value :: rest) rejection ↔ RefusesOptions rest rejection := by
  refine ⟨fun refused => ?_, .later taken⟩
  cases refused with
  | unknown _ _ other other' => exact absurd taken (not_isOption_of_ne value other other')
  | count _ named bad => exact absurd taken (not_isOption_of_count named bad)
  | later _ refused => exact refused

/-- Options are refused for the first fault in them. -/
theorem options_eq_error_iff :
    scan.options arguments = .error rejection ↔ RefusesOptions arguments rejection := by
  -- The cases follow the order of the checks, so that the first fault is the one that is told.
  fun_induction Scan.options scan arguments with
  | case1 scan => exact iff_of_false (by simp) nofun
  | case2 scan name =>
    refine Except.error_eq_error_iff (.valueless name) fun refused => ?_
    cases refused
    rfl
  | case3 scan name value rest _ named ih =>
    exact ih.trans (refusesOptions_cons_iff (.inl named)).symm
  | case4 scan name value rest _ _ named count read ih =>
    have good : (count? value).isSome = true :=
      Option.isSome_of_eq_some (count?_eq_some_iff.mpr ⟨read, count.succ_pos⟩)
    exact ih.trans (refusesOptions_cons_iff (.inr ⟨named, good⟩)).symm
  | case5 scan name value rest _ _ named bad =>
    have bad : count? value = none := by
      by_contra good
      obtain ⟨n, good⟩ := Option.ne_none_iff_exists'.mp good
      obtain ⟨read, positive⟩ := count?_eq_some_iff.mp good
      obtain ⟨m, rfl⟩ := Nat.exists_eq_succ_of_ne_zero (Nat.ne_of_gt positive)
      exact bad m read
    refine Except.error_eq_error_iff (.count rest named bad) fun refused => ?_
    cases refused with
    | unknown _ _ _ other => exact absurd named other
    | count => rfl
    | later taken _ => exact absurd taken (not_isOption_of_count named bad)
  | case6 scan name value rest _ other other' =>
    refine Except.error_eq_error_iff (.unknown value rest other other') fun refused => ?_
    cases refused with
    | unknown => rfl
    | count _ named _ => exact absurd named other'
    | later taken _ => exact absurd taken (not_isOption_of_ne value other other')

theorem ofArguments_eq_error_iff :
    ofArguments arguments = .error rejection ↔ Refuses arguments rejection := by
  cases arguments with
  | nil =>
    refine Except.error_eq_error_iff .cursorless fun refused => ?_
    cases refused
    rfl
  | cons text options =>
    cases read : Numeral.unsigned? Numeral.max64 text.toList with
    | none =>
      simp only [ofArguments, read]
      refine Except.error_eq_error_iff (.cursor options read) fun refused => ?_
      cases refused with
      | cursor => rfl
      | options read' => simp [read] at read'
    | some cursor =>
      simp only [ofArguments, read, options_eq_error_iff]
      refine ⟨.options read, fun refused => ?_⟩
      cases refused with
      | cursor _ bad => simp [read] at bad
      | options _ refused => exact refused

end Scan

namespace HashCommand

variable {name key : String} {arguments : List String} {rejection : Rejection}

theorem pairs?_eq_none_iff : pairs? arguments = none ↔ arguments.length % 2 = 1 := by
  fun_induction pairs? arguments with
  | case1 | case2 => simp
  | case3 field value rest ih =>
    rw [Option.map_eq_none_iff, ih, List.length_cons, List.length_cons]
    omega

theorem setOf_eq_error_iff {counted : Bool} : setOf key arguments counted = .error rejection ↔
    rejection = .arity "hset" ∧ (arguments = [] ∨ arguments.length % 2 = 1) := by
  have fails : arguments = [] ∨ arguments.length % 2 = 1 ↔
      pairs? arguments = some [] ∨ pairs? arguments = none := by
    rw [pairs?_eq_some_iff, pairs?_eq_none_iff]
    rfl
  rw [fails, setOf]
  cases read : pairs? arguments with
  | none => simp [eq_comm]
  | some pairs => cases pairs <;> simp [eq_comm]

theorem isRefused_set_iff (named : name = "HSET" ∨ name = "HMSET") :
    IsRefused name (key :: arguments) rejection ↔
      rejection = .arity "hset" ∧ (arguments = [] ∨ arguments.length % 2 = 1) := by
  constructor
  · intro refused
    cases refused with
    | unknown _ other => rcases named with rfl | rfl <;> simp [names] at other
    | arity _ wrong => rcases named with rfl | rfl <;> simp [takes] at wrong
    | pairs _ _ count => exact ⟨rfl, count⟩
    | scan _ named' => rcases named with rfl | rfl <;> simp at named'
  · rintro ⟨rfl, count⟩
    exact .pairs key named count

theorem isRefused_scan_iff :
    IsRefused "HSCAN" (key :: arguments) rejection ↔ Scan.Refuses arguments rejection := by
  refine ⟨fun refused => ?_, .scan key rfl⟩
  cases refused with
  | unknown _ other => simp [names] at other
  | arity _ wrong => simp [takes] at wrong
  | pairs _ named => simp at named
  | scan _ _ refused => exact refused

theorem isRefused_arity_iff (known : name ∈ names) (wrong : takes name arguments.length = false) :
    IsRefused name arguments rejection ↔ rejection = .arity (name.map Char.toLower) := by
  refine ⟨fun refused => ?_, ?_⟩
  · cases refused with
    | unknown _ other => exact absurd known other
    | arity => rfl
    | pairs _ named => rcases named with rfl | rfl <;> simp [takes] at wrong
    | scan _ named => subst named; simp [takes] at wrong
  · rintro rfl
    exact .arity known wrong

theorem not_isRefused_read (h : name = "HGET" ∧ arguments.length = 2 ∨
    name = "HGETALL" ∧ arguments.length = 1) : ¬ IsRefused name arguments rejection := by
  intro refused
  cases refused with
  | unknown _ other => rcases h with ⟨rfl, -⟩ | ⟨rfl, -⟩ <;> simp [names] at other
  | arity _ wrong => rcases h with ⟨rfl, count⟩ | ⟨rfl, count⟩ <;> simp [takes, count] at wrong
  | pairs _ named => rcases h with ⟨rfl, -⟩ | ⟨rfl, -⟩ <;> simp at named
  | scan _ named => rcases h with ⟨rfl, -⟩ | ⟨rfl, -⟩ <;> simp at named

/-- A command of a name in upper case is refused exactly for these causes. -/
theorem ofName_eq_error_iff :
    ofName name arguments = .error rejection ↔ IsRefused name arguments rejection := by
  -- Names are told apart first, then the number of arguments, and then what they hold.
  fun_cases ofName name arguments with
  | case1 key rest => rw [setOf_eq_error_iff, isRefused_set_iff (.inl rfl)]
  | case2 key rest => rw [setOf_eq_error_iff, isRefused_set_iff (.inr rfl)]
  | case3 key field => exact iff_of_false (by simp) (not_isRefused_read (.inl ⟨rfl, rfl⟩))
  | case4 key => exact iff_of_false (by simp) (not_isRefused_read (.inr ⟨rfl, rfl⟩))
  | case5 key rest =>
    rw [isRefused_scan_iff, ← Scan.ofArguments_eq_error_iff]
    cases Scan.ofArguments rest <;> simp [Except.map]
  | case6 _ keyless | case7 _ keyless | case10 _ keyless =>
    obtain rfl : arguments = [] := List.eq_nil_iff_forall_not_mem.mpr fun argument mem => by
      obtain ⟨key, rest, rfl⟩ := List.exists_cons_of_ne_nil (List.ne_nil_of_mem mem)
      exact keyless _ _ rfl
    rw [isRefused_arity_iff (by simp [names]) rfl]
    simp [eq_comm]
  | case8 _ others =>
    have wrong : arguments.length ≠ 2 := fun count => by
      obtain ⟨key, field, rfl⟩ := List.length_eq_two.mp count
      exact others _ _ rfl
    rw [isRefused_arity_iff (by simp [names]) (by simp [takes, wrong])]
    simp [eq_comm]
  | case9 _ others =>
    have wrong : arguments.length ≠ 1 := fun count => by
      obtain ⟨key, rfl⟩ := List.length_eq_one_iff.mp count
      exact others _ rfl
    rw [isRefused_arity_iff (by simp [names]) (by simp [takes, wrong])]
    simp [eq_comm]
  | case11 _ _ hset hmset hget hgetall hscan =>
    have other : name ∉ names := by
      simp only [names, List.mem_cons, List.not_mem_nil, or_false, not_or]
      exact ⟨hset, hmset, hget, hgetall, hscan⟩
    refine Except.error_eq_error_iff (.unknown arguments other) fun refused => ?_
    cases refused with
    | unknown => rfl
    | arity known => exact absurd known other
    | pairs _ named => rcases named with named | named <;> simp [names, named] at other
    | scan _ named => simp [names, named] at other

end HashCommand

/-- A command is refused exactly for these causes, and with the error of its cause. -/
theorem Command.parse_eq_error_iff {command : Command} {e : Error} :
    HashCommand.parse command = .error e ↔ command.IsRefused e := by
  cases command with
  | nil =>
    refine Except.error_eq_error_iff .empty fun refused => ?_
    cases refused
    rfl
  | cons name arguments =>
    rw [HashCommand.parse]
    cases read : HashCommand.ofName (name.map Char.toUpper) arguments with
    | ok command =>
      refine iff_of_false (by simp) fun refused => ?_
      cases refused with
      | refused refused => simp [HashCommand.ofName_eq_error_iff.mpr refused] at read
    | error rejection =>
      have told : Command.IsRefused (name :: arguments) (.command rejection) :=
        .refused (HashCommand.ofName_eq_error_iff.mp read)
      refine Except.error_eq_error_iff told fun refused => ?_
      cases refused with
      | refused refused =>
        have causes := read.symm.trans (HashCommand.ofName_eq_error_iff.mpr refused)
        rw [Except.error.inj causes]

/-! ## Changed fields -/

namespace Store

variable {changed changed' : String → String → Prop} {store store' store'' : Store}

/-- Two stores are the same but for some fields, each of the hash at a key: all other fields have
the values that they had, and a key with no such field has the hash that it had, or none. -/
structure AgreesOutside (changed : String → String → Prop) (store store' : Store) : Prop where
  fields : ∀ key field, ¬ changed key field → store'.field? key field = store.field? key field
  keys : ∀ key, (∀ field, ¬ changed key field) → store'.find? key = store.find? key

namespace AgreesOutside

theorem refl (changed : String → String → Prop) (store : Store) :
    store.AgreesOutside changed store := ⟨fun _ _ _ => rfl, fun _ _ => rfl⟩

theorem trans (h : store.AgreesOutside changed store')
    (h' : store'.AgreesOutside changed store'') : store.AgreesOutside changed store'' where
  fields key field kept := (h'.fields key field kept).trans (h.fields key field kept)
  keys key kept := (h'.keys key kept).trans (h.keys key kept)

theorem mono (more : ∀ key field, changed key field → changed' key field)
    (h : store.AgreesOutside changed store') : store.AgreesOutside changed' store' where
  fields key field kept := h.fields key field fun c => kept (more key field c)
  keys key kept := h.keys key fun field c => kept field (more key field c)

end AgreesOutside

/-- A write changes fields that it names in the hash that it names. -/
theorem agreesOutside_insert (store : Store) (key : String) {pairs : List (String × String)}
    (nonempty : pairs ≠ []) :
    store.AgreesOutside (fun key' field => key' = key ∧ field ∈ pairs.map Prod.fst)
      (OrderedMap.insert store key ((store.hash key).write pairs)) where
  fields key' field kept := by
    rw [field?, hash_insert]
    split
    · next own =>
      have unnamed : field ∉ pairs.map Prod.fst := fun mem => kept ⟨own, mem⟩
      rw [Hash.find?_write, lookup_reverse_eq_none_iff.mpr unnamed, Option.none_or, field?, own]
    · rfl
  keys key' kept := by
    obtain ⟨pair, rest, rfl⟩ := List.exists_cons_of_ne_nil nonempty
    have other : key' ≠ key := fun own => kept pair.1 ⟨own, List.mem_cons_self⟩
    exact OrderedMap.find?_insert_of_ne store other _

end Store

/-! ## Commands on any store -/

namespace Command

/-- What comes of a command, whatever the store. -/
structure DecidesFailure (command : Command) : Prop where
  /-- It is refused with the error of its cause. -/
  refused : ∀ (store : Store) (e : Error),
    (store.execute command).1 = .error e ↔ command.IsRefused e
  /-- Any two stores refuse it with the same error, or both reply to it. -/
  alike : ∀ store store' : Store,
    (∃ e, (store.execute command).1 = .error e ∧ (store'.execute command).1 = .error e) ∨
      ∃ reply reply', (store.execute command).1 = .ok reply ∧
        (store'.execute command).1 = .ok reply'
  /-- A store that refuses it stays as it is. -/
  kept : ∀ (store : Store) (e : Error), (store.execute command).1 = .error e →
    (store.execute command).2 = store
  /-- A store that replies to it stays as it is too, unless it is a write. A write changes only
  fields that it names in the hash that it names. -/
  written : ∀ (store : Store) (reply : Reply), (store.execute command).1 = .ok reply →
    (store.execute command).2 = store ∨ ∃ key pairs, command.Writes key pairs ∧
      store.AgreesOutside (fun key' field => key' = key ∧ field ∈ pairs.map Prod.fst)
        (store.execute command).2

/-- Every command alone decides whether it fails, and changes nothing then. -/
theorem decidesFailure (command : Command) : command.DecidesFailure := by
  -- A command is read without the store, and one that is read never fails.
  cases parsed : HashCommand.parse command with
  | error e =>
    have executed (store : Store) : store.execute command = (.error e, store) := by
      rw [Store.execute, parsed]
    constructor
    · intro store e'
      rw [executed, ← parse_eq_error_iff, parsed, Except.error.injEq, Except.error.injEq]
    · intro store store'
      exact .inl ⟨e, congrArg Prod.fst (executed store), congrArg Prod.fst (executed store')⟩
    · intro store _ _
      rw [executed]
    · intro store reply replied
      simp [executed] at replied
  | ok meant =>
    have executed (store : Store) :
        store.execute command = (.ok (store.apply meant).1, (store.apply meant).2) := by
      rw [Store.execute, parsed]
    constructor
    · intro store e
      rw [executed, ← parse_eq_error_iff, parsed]
      simp
    · intro store store'
      exact .inr ⟨_, _, congrArg Prod.fst (executed store), congrArg Prod.fst (executed store')⟩
    · intro store e failed
      simp [executed] at failed
    · intro store reply _
      rw [executed]
      cases meant with
      | set key pairs counted =>
        have writes : command.Writes key pairs := writes_iff.mpr ⟨counted, parsed⟩
        exact .inr ⟨key, pairs, writes, store.agreesOutside_insert key writes.1⟩
      | get | getAll | scan => exact .inl rfl

/-- A write with a field that has no value is refused, and makes no hash. -/
theorem decidesFailure_odd :
    let store : Store := OrderedMap.empty
    store.execute ["hmset", "k", "f"] = (.error (.command (.arity "hset")), store) := by
  intro store
  have named : "hmset".map Char.toUpper = "HMSET" := map_toUpper_eq (by decide)
  have refused : IsRefused ["hmset", "k", "f"] (.command (.arity "hset")) :=
    .refused (.pairs "k" (.inr named) (.inr rfl))
  have failed := ((decidesFailure ["hmset", "k", "f"]).refused store _).mpr refused
  exact Prod.ext failed ((decidesFailure _).kept store _ failed)

end Command

end HashGateway
