import HashGateway.Proofs.Operation
import HashGateway.Proofs.Utf8
import Mathlib.Data.Finset.Card
import Mathlib.Data.List.Induction

/-!
# Histories of commands

A store in memory is what the writes of its history make of it. A command of any form may stand in
a history, but only an HSET or an HMSET with a key and with whole pairs is a write; any other
command leaves every hash alone. So a field has the value of the last pair for it in the latest
write that names it, and a hash has exactly the fields that writes have named.

## Main definitions

* `Command.Writes` — a command that writes pairs of fields and values into a hash
* `Store.ofHistory` — the store after a history
* `Command.LastWritten` — the value that was written last for a field
* `Store.Reflects` — a store answers what its history says

## Main results

* `HashCommand.parse_eq_set_iff` — the writes are the commands that are read as writes
* `Store.find?_ofHistory_iff` — the value of a field is the one that was written last
* `Hash.added_eq_card` — a write counts the distinct fields that are new
* `Store.reflects_ofHistory` — the store after a history answers what the history says
-/

namespace HashGateway

/-- Fields and their values, in turn. -/
def Hash.inTurn (pairs : List (String × String)) : List String :=
  pairs.flatMap fun (field, value) => [field, value]

namespace Command

/-- A command writes some pairs into the hash of a key: it is named HSET or HMSET in any case of
letters, and after the key it has at least one field, each with its value. -/
def Writes (command : Command) (key : String) (pairs : List (String × String)) : Prop :=
  pairs ≠ [] ∧ ∃ name : String,
    (name.map Char.toUpper = "HSET" ∨ name.map Char.toUpper = "HMSET") ∧
      command = name :: key :: Hash.inTurn pairs

/-- The value of the last pair for a field in the latest write of a hash that names the field. -/
def LastWritten (history : List Command) (key field value : String) : Prop :=
  ∃ earlier command later pairs, history = earlier ++ command :: later ∧
    command.Writes key pairs ∧
    (∃ before after, pairs = before ++ (field, value) :: after ∧ field ∉ after.map Prod.fst) ∧
    ∀ other ∈ later, ∀ pairs', other.Writes key pairs' → field ∉ pairs'.map Prod.fst

end Command

/-! ## Reading commands -/

namespace HashCommand

theorem pairs?_eq_some_iff {arguments : List String} {pairs : List (String × String)} :
    pairs? arguments = some pairs ↔ arguments = Hash.inTurn pairs := by
  fun_induction pairs? arguments generalizing pairs with
  | case1 => cases pairs <;> simp [Hash.inTurn]
  | case2 lone => cases pairs <;> simp [Hash.inTurn]
  | case3 field value rest ih =>
    rw [Option.map_eq_some_iff]
    cases pairs with
    | nil => simp [Hash.inTurn]
    | cons pair pairs =>
      obtain ⟨field', value'⟩ := pair
      simp [ih, Hash.inTurn, and_assoc, and_comm]

theorem setOf_eq_ok_iff {key : String} {arguments : List String} {counted : Bool}
    {command : HashCommand} : setOf key arguments counted = .ok command ↔
      ∃ pairs, pairs ≠ [] ∧ arguments = Hash.inTurn pairs ∧ command = .set key pairs counted := by
  simp only [← pairs?_eq_some_iff]
  unfold setOf
  split
  · next pair pairs read => simp [read, eq_comm]
  · next unpaired =>
    simp only [reduceCtorEq, false_iff, not_exists, not_and]
    intro pairs nonempty read
    obtain ⟨pair, pairs, rfl⟩ := List.exists_cons_of_ne_nil nonempty
    exact absurd read (unpaired pair pairs)

/-- The writes among the commands in upper case. -/
theorem ofName_eq_set_iff {name key : String} {arguments : List String}
    {pairs : List (String × String)} {counted : Bool} :
    ofName name arguments = .ok (.set key pairs counted) ↔
      name = (if counted then "HSET" else "HMSET") ∧ pairs ≠ [] ∧
        arguments = key :: Hash.inTurn pairs := by
  fun_cases ofName name arguments with
  | case1 key' rest | case2 key' rest =>
    cases counted <;> simp [setOf_eq_ok_iff]
    grind
  | case3 | case4 | case8 | case9 | case10 => cases counted <;> simp
  | case5 key' rest => cases Scan.ofArguments rest <;> cases counted <;> simp [Except.map]
  -- A write needs a key.
  | case6 | case7 =>
    simp only [reduceCtorEq, false_iff, not_and]
    rename_i keyless
    exact fun _ _ => keyless _ _
  | case11 other other' => cases counted <;> simp_all

theorem eq_set_of_parse {name : String} {arguments : List String} {command : HashCommand}
    (named : name.map Char.toUpper = "HSET" ∨ name.map Char.toUpper = "HMSET")
    (parsed : parse (name :: arguments) = .ok command) :
    ∃ key pairs counted, command = .set key pairs counted := by
  simp only [parse] at parsed
  rcases named with named | named
  all_goals
    rw [named] at parsed
    cases arguments with
    | nil => simp [ofName] at parsed
    | cons key rest =>
      simp only [ofName] at parsed
      split at parsed
      · next written =>
        obtain ⟨pairs, -, -, rfl⟩ := setOf_eq_ok_iff.mp written
        obtain rfl := Except.ok.inj parsed
        exact ⟨key, pairs, _, rfl⟩
      · simp at parsed

/-- A command is read as a write exactly if it is one. -/
theorem parse_eq_set_iff {command : Command} {key : String} {pairs : List (String × String)}
    {counted : Bool} : parse command = .ok (.set key pairs counted) ↔
      pairs ≠ [] ∧ ∃ name : String,
        name.map Char.toUpper = (if counted then "HSET" else "HMSET") ∧
          command = name :: key :: Hash.inTurn pairs := by
  cases command with
  | nil => simp [parse]
  | cons name arguments =>
    have read : parse (name :: arguments) = .ok (.set key pairs counted) ↔
        ofName (name.map Char.toUpper) arguments = .ok (.set key pairs counted) := by
      rw [parse]
      split <;> simp [*]
    rw [read, ofName_eq_set_iff]
    constructor
    · rintro ⟨named, nonempty, worded⟩
      exact ⟨nonempty, name, named, by rw [worded]⟩
    · rintro ⟨nonempty, name', named, worded⟩
      obtain ⟨rfl, rfl⟩ := List.cons.inj worded
      exact ⟨named, nonempty, rfl⟩

end HashCommand

namespace Command

variable {command : Command} {key field value : String} {pairs pairs' : List (String × String)}

theorem writes_iff : command.Writes key pairs ↔
    ∃ counted, HashCommand.parse command = .ok (.set key pairs counted) := by
  simp only [HashCommand.parse_eq_set_iff, Bool.exists_bool, Writes]
  constructor
  · rintro ⟨nonempty, name, named | named, worded⟩
    · exact .inr ⟨nonempty, name, named, worded⟩
    · exact .inl ⟨nonempty, name, named, worded⟩
  · rintro (⟨nonempty, name, named, worded⟩ | ⟨nonempty, name, named, worded⟩)
    · exact ⟨nonempty, name, .inr named, worded⟩
    · exact ⟨nonempty, name, .inl named, worded⟩

/-- A command writes at most one list of pairs. -/
theorem Writes.unique (h : command.Writes key pairs) (h' : command.Writes key pairs') :
    pairs = pairs' := by
  obtain ⟨counted, parsed⟩ := writes_iff.mp h
  obtain ⟨counted', parsed'⟩ := writes_iff.mp h'
  have commands := Except.ok.inj (parsed.symm.trans parsed')
  simp only [HashCommand.set.injEq] at commands
  exact commands.2.1

theorem Writes.exists_iff (h : command.Writes key pairs) {p : List (String × String) → Prop} :
    (∃ pairs, command.Writes key pairs ∧ p pairs) ↔ p pairs :=
  ⟨fun ⟨_, h', holds⟩ => h'.unique h ▸ holds, fun holds => ⟨pairs, h, holds⟩⟩

theorem Writes.forall_iff (h : command.Writes key pairs) {p : List (String × String) → Prop} :
    (∀ pairs, command.Writes key pairs → p pairs) ↔ p pairs :=
  ⟨fun all => all pairs h, fun holds _ h' => h.unique h' ▸ holds⟩

end Command

/-! ## One command -/

namespace Store

variable {command : Command} {key : String} {pairs : List (String × String)}

/-- A write changes the hash of its key only. -/
theorem hash_execute_of_writes (store : Store) (h : command.Writes key pairs) :
    (store.execute command).2.hash key = (store.hash key).write pairs := by
  obtain ⟨counted, parsed⟩ := Command.writes_iff.mp h
  simp only [execute, parsed, apply, hash_insert, if_true]

theorem hash_execute_of_not_writes (store : Store) (h : ∀ pairs, ¬ command.Writes key pairs) :
    (store.execute command).2.hash key = store.hash key := by
  unfold execute
  split
  · next meant parsed =>
    cases meant with
    | set key' pairs counted =>
      have other : key ≠ key' := by
        rintro rfl
        exact h pairs (Command.writes_iff.mpr ⟨counted, parsed⟩)
      simp only [apply, hash_insert, if_neg other]
    | get key' field => rfl
    | getAll key' => rfl
    | scan key' scan => rfl
  · rfl

end Store

/-! ## Histories -/

/-- The store in memory after a history of commands. -/
def Store.ofHistory (history : List Command) : Store :=
  history.foldl (fun store command => (store.execute command).2) OrderedMap.empty

theorem Store.ofHistory_append_singleton (history : List Command) (command : Command) :
    ofHistory (history ++ [command]) = ((ofHistory history).execute command).2 := by
  rw [ofHistory, List.foldl_append]
  rfl

/-- What is found first from the end is the value of the last pair. -/
theorem lookup_reverse_eq_some_iff {pairs : List (String × String)} {field value : String} :
    pairs.reverse.lookup field = some value ↔
      ∃ before after, pairs = before ++ (field, value) :: after ∧
        field ∉ after.map Prod.fst := by
  rw [List.lookup_eq_some_iff]
  constructor
  · rintro ⟨after, before, split, other⟩
    refine ⟨before.reverse, after.reverse, ?_, ?_⟩
    · rw [← List.reverse_reverse pairs, split]
      simp
    · simp only [List.map_reverse, List.mem_reverse, List.mem_map, not_exists, not_and]
      intro pair mem own
      exact absurd own.symm (by simpa using other pair mem)
  · rintro ⟨before, after, rfl, other⟩
    refine ⟨after.reverse, before.reverse, by simp, fun pair mem => ?_⟩
    rw [bne_iff_ne]
    rintro rfl
    exact other (List.mem_map_of_mem (List.mem_reverse.mp mem))

theorem lookup_reverse_eq_none_iff {pairs : List (String × String)} {field : String} :
    pairs.reverse.lookup field = none ↔ field ∉ pairs.map Prod.fst := by
  rw [List.lookup_eq_none_iff]
  simp only [List.mem_reverse, bne_iff_ne, List.mem_map, not_exists, not_and]
  exact ⟨fun h pair mem own => h pair mem own.symm, fun h pair mem own => h pair mem own.symm⟩

namespace Command

variable {history : List Command} {command : Command} {key field value : String}
  {pairs : List (String × String)}

theorem not_lastWritten_nil : ¬ LastWritten [] key field value := by
  rintro ⟨earlier, command, later, pairs, split, -⟩
  simp at split

/-- What was written last is in the last command, unless this does not name the field. -/
theorem lastWritten_append_iff : LastWritten (history ++ [command]) key field value ↔
    (∃ pairs, command.Writes key pairs ∧ pairs.reverse.lookup field = some value) ∨
      LastWritten history key field value ∧
        ∀ pairs, command.Writes key pairs → field ∉ pairs.map Prod.fst := by
  constructor
  · rintro ⟨earlier, last, later, pairs, split, writes, ends, unnamed⟩
    -- The last write is the last command, or stands before it.
    rcases List.eq_nil_or_concat later with rfl | ⟨later, final, rfl⟩
    · obtain ⟨-, lasts⟩ := List.append_inj' split rfl
      obtain rfl : command = last := by simpa using lasts
      exact .inl ⟨pairs, writes, lookup_reverse_eq_some_iff.mpr ends⟩
    · rw [List.concat_eq_append, ← List.cons_append, ← List.append_assoc] at split
      obtain ⟨before, lasts⟩ := List.append_inj' split rfl
      obtain rfl : command = final := by simpa using lasts
      exact .inr ⟨⟨earlier, last, later, pairs, before, writes, ends, fun other mem =>
        unnamed other (by simp [mem])⟩, unnamed command (by simp)⟩
  · rintro (⟨pairs, writes, ends⟩ | ⟨⟨earlier, last, later, pairs, rfl, writes, ends, unnamed⟩, h⟩)
    · exact ⟨history, command, [], pairs, rfl, writes, lookup_reverse_eq_some_iff.mp ends,
        by simp⟩
    · refine ⟨earlier, last, later ++ [command], pairs, by simp, writes, ends, ?_⟩
      intro other mem
      rcases List.mem_append.mp mem with mem | mem
      · exact unnamed other mem
      · obtain rfl := List.mem_singleton.mp mem
        exact h

/-- A field has a last value exactly if a write has named it. -/
theorem exists_lastWritten_iff : (∃ value, LastWritten history key field value) ↔
    ∃ command ∈ history, ∃ pairs, command.Writes key pairs ∧ field ∈ pairs.map Prod.fst := by
  induction history using List.reverseRecOn with
  | nil => simp [not_lastWritten_nil]
  | append_singleton history command ih =>
    simp only [lastWritten_append_iff, List.mem_append, List.mem_singleton, or_and_right,
      exists_or, exists_eq_left, ← ih]
    by_cases named : ∃ pairs, command.Writes key pairs ∧ field ∈ pairs.map Prod.fst
    · obtain ⟨pairs, writes, mem⟩ := named
      obtain ⟨value, last⟩ := Option.ne_none_iff_exists'.mp
        fun unwritten => lookup_reverse_eq_none_iff.mp unwritten mem
      exact iff_of_true (.inl ⟨value, pairs, writes, last⟩) (.inr ⟨pairs, writes, mem⟩)
    · have unnamed : ∀ pairs, command.Writes key pairs → field ∉ pairs.map Prod.fst :=
        fun pairs writes mem => named ⟨pairs, writes, mem⟩
      have undecided : ∀ value pairs, ¬ (command.Writes key pairs ∧
          pairs.reverse.lookup field = some value) := fun value pairs ⟨writes, last⟩ => by
        simp [lookup_reverse_eq_none_iff.mpr (unnamed pairs writes)] at last
      simp only [undecided, exists_false, false_or, named, or_false, exists_and_right]
      exact and_iff_left unnamed

end Command

namespace Store

variable {history : List Command} {key field value : String}

/-- The value of a field is the one that was written last. -/
theorem find?_ofHistory_iff :
    ((ofHistory history).hash key).find? field = some value ↔
      Command.LastWritten history key field value := by
  -- Induction from the end: the last command decides, unless it does not name the field.
  induction history using List.reverseRecOn with
  | nil => exact iff_of_false (by simp [ofHistory, hash]) Command.not_lastWritten_nil
  | append_singleton history command ih =>
    rw [ofHistory_append_singleton, Command.lastWritten_append_iff]
    by_cases writes : ∃ pairs, command.Writes key pairs
    · obtain ⟨pairs, writes⟩ := writes
      rw [hash_execute_of_writes _ writes, Hash.find?_write]
      rw [writes.exists_iff, writes.forall_iff, ← lookup_reverse_eq_none_iff, ← ih]
      cases pairs.reverse.lookup field <;> simp
    · rw [not_exists] at writes
      rw [hash_execute_of_not_writes _ writes, ih]
      simp [writes]

/-- A hash has fields exactly if it was written. -/
theorem entries_ofHistory_eq_nil_iff : ((ofHistory history).hash key).entries = [] ↔
    ∀ command ∈ history, ∀ pairs, ¬ command.Writes key pairs := by
  constructor
  · intro empty command mem pairs writes
    obtain ⟨⟨field, value⟩, rest, rfl⟩ := List.exists_cons_of_ne_nil writes.1
    obtain ⟨value, last⟩ := Command.exists_lastWritten_iff.mpr
      ⟨command, mem, _, writes, List.mem_cons_self⟩
    have found := find?_ofHistory_iff.mpr last
    simp [OrderedMap.find?, empty, Ordered.find?] at found
  · intro unwritten
    rw [List.eq_nil_iff_forall_not_mem]
    rintro ⟨field, value⟩ mem
    have found := (Ordered.find?_eq_some_iff (OrderedMap.ascending _)).mpr mem
    obtain ⟨command, mem, pairs, writes, -⟩ :=
      Command.exists_lastWritten_iff.mp ⟨value, find?_ofHistory_iff.mp found⟩
    exact unwritten command mem pairs writes

end Store

theorem Hash.listing_eq_nil_iff {entries : List (String × String)} :
    listing entries = [] ↔ entries = [] := by
  cases entries <;> simp [listing]

/-! ## Counting new fields -/

namespace Hash

/-- The fields of a hash. -/
def fields (hash : Hash) : Finset String := (hash.entries.map Prod.fst).toFinset

theorem mem_fields {hash : Hash} {field : String} :
    field ∈ hash.fields ↔ hash.contains field = true := by
  rw [OrderedMap.contains_iff, fields, List.mem_toFinset]

/-- No field stands twice in a hash. -/
theorem card_fields (hash : Hash) : hash.fields.card = hash.size := by
  have distinct : (hash.entries.map Prod.fst).Nodup :=
    List.Pairwise.map Prod.fst (fun a b lt equal => String.lt_irrefl b.1 (by rwa [equal] at lt))
      hash.ascending
  rw [fields, List.toFinset_card_of_nodup distinct, List.length_map]
  rfl

theorem fields_write (hash : Hash) (pairs : List (String × String)) :
    (hash.write pairs).fields = (pairs.map Prod.fst).toFinset ∪ hash.fields := by
  ext field
  rw [mem_fields, contains_write_iff, Finset.mem_union, mem_fields, List.mem_toFinset]

/-- A write counts the distinct fields that the hash does not have before it. -/
theorem added_eq_card (hash : Hash) (pairs : List (String × String)) :
    hash.added pairs = ((pairs.map Prod.fst).toFinset \ hash.fields).card := by
  -- Both sides are how much the hash grows.
  have grown := size_write hash pairs
  have union := Finset.card_sdiff_add_card (pairs.map Prod.fst).toFinset hash.fields
  rw [← fields_write, card_fields, card_fields] at union
  omega

end Hash

/-! ## What a store answers -/

namespace Store

/-- A store answers commands as its history says. -/
structure Reflects (store : Store) (history : List Command) : Prop where
  /-- The name of a command is read in any case of letters. -/
  anyCase : ∀ name name' arguments, name.map Char.toUpper = name'.map Char.toUpper →
    store.execute (name :: arguments) = store.execute (name' :: arguments)
  /-- What is named HSET or HMSET succeeds exactly if it is a write. -/
  succeeds : ∀ name arguments,
    name.map Char.toUpper = "HSET" ∨ name.map Char.toUpper = "HMSET" →
    ((∃ reply, (store.execute (name :: arguments)).1 = .ok reply) ↔
      ∃ key pairs, Command.Writes (name :: arguments) key pairs)
  /-- An HGET answers the value that was written last, or that there is none. -/
  hget : ∀ name key field, name.map Char.toUpper = "HGET" →
    (∀ value, Command.LastWritten history key field value →
      (store.execute [name, key, field]).1 = .ok (.bulk value)) ∧
    ((∀ command ∈ history, ∀ pairs, command.Writes key pairs → field ∉ pairs.map Prod.fst) →
      (store.execute [name, key, field]).1 = .ok .nil)
  /-- An HGETALL answers the fields that were written, in the order of their bytes, with these
  values, and an empty list exactly if nothing was written. -/
  hgetall : ∀ name key, name.map Char.toUpper = "HGETALL" →
    let entries := (store.hash key).entries
    (store.execute [name, key]).1 = .ok (.array (Hash.listing entries)) ∧
    entries.Pairwise (fun entry later => Utf8.bytes entry.1 < Utf8.bytes later.1) ∧
    (∀ field value, (field, value) ∈ entries ↔ Command.LastWritten history key field value) ∧
    ((store.execute [name, key]).1 = .ok (.array []) ↔
      ∀ command ∈ history, ∀ pairs, ¬ command.Writes key pairs)
  /-- An HSET answers how many distinct fields it adds to its hash. -/
  hset : ∀ name key pairs, name.map Char.toUpper = "HSET" → pairs ≠ [] →
    let command := name :: key :: Hash.inTurn pairs
    let added := ((pairs.map Prod.fst).toFinset \ (store.hash key).fields).card
    (store.execute command).1 = .ok (.int added) ∧
    ((store.execute command).2.hash key).size = (store.hash key).size + added
  /-- An HMSET does what an HSET does. -/
  hmset : ∀ arguments,
    (store.execute ("HMSET" :: arguments)).2 = (store.execute ("HSET" :: arguments)).2

variable (store : Store)

theorem execute_anyCase {name name' : String} (arguments : List String)
    (any_case : name.map Char.toUpper = name'.map Char.toUpper) :
    store.execute (name :: arguments) = store.execute (name' :: arguments) := by
  simp only [execute, HashCommand.parse, any_case]

theorem execute_hget {name : String} (named : name.map Char.toUpper = "HGET")
    (key field : String) : (store.execute [name, key, field]).1 =
      .ok (((store.hash key).find? field).elim .nil .bulk) := by
  simp only [execute, HashCommand.parse, named, HashCommand.ofName, apply, field?]
  cases (store.hash key).find? field <;> rfl

theorem execute_hgetall {name : String} (named : name.map Char.toUpper = "HGETALL")
    (key : String) : (store.execute [name, key]).1 =
      .ok (.array (Hash.listing (store.hash key).entries)) := by
  simp only [execute, HashCommand.parse, named, HashCommand.ofName, apply]

theorem execute_hset {name : String} (named : name.map Char.toUpper = "HSET") (key : String)
    {pairs : List (String × String)} (nonempty : pairs ≠ []) :
    store.execute (name :: key :: Hash.inTurn pairs) =
      (.ok (.int ((store.hash key).added pairs)),
        store.insert key ((store.hash key).write pairs)) := by
  have parsed : HashCommand.parse (name :: key :: Hash.inTurn pairs) = .ok (.set key pairs true) :=
    HashCommand.parse_eq_set_iff.mpr ⟨nonempty, name, named, rfl⟩
  simp only [execute, parsed, apply, if_true]

/-- A command named HSET or HMSET is refused unless it is a write. -/
theorem succeeds_iff {name : String} (arguments : List String)
    (named : name.map Char.toUpper = "HSET" ∨ name.map Char.toUpper = "HMSET") :
    (∃ reply, (store.execute (name :: arguments)).1 = .ok reply) ↔
      ∃ key pairs, Command.Writes (name :: arguments) key pairs := by
  constructor
  · rintro ⟨reply, answered⟩
    unfold execute at answered
    split at answered
    · next command parsed =>
      obtain ⟨key, pairs, counted, rfl⟩ := HashCommand.eq_set_of_parse named parsed
      exact ⟨key, pairs, Command.writes_iff.mpr ⟨counted, parsed⟩⟩
    · simp at answered
  · rintro ⟨key, pairs, writes⟩
    obtain ⟨counted, parsed⟩ := Command.writes_iff.mp writes
    exact ⟨_, by rw [execute, parsed]⟩

/-- Both kinds of writes do the same. -/
theorem execute_hmset (arguments : List String) :
    (store.execute ("HMSET" :: arguments)).2 = (store.execute ("HSET" :: arguments)).2 := by
  have hmset : "HMSET".map Char.toUpper = "HMSET" := map_toUpper_eq (by decide)
  have hset : "HSET".map Char.toUpper = "HSET" := map_toUpper_eq (by decide)
  simp only [execute, HashCommand.parse, hmset, hset]
  cases arguments with
  | nil => rfl
  | cons key rest =>
    simp only [HashCommand.ofName, HashCommand.setOf]
    rcases HashCommand.pairs? rest with _ | _ | ⟨pair, pairs⟩ <;> rfl

/-- After every history of commands a store answers what the history says. -/
theorem reflects_ofHistory (history : List Command) : (ofHistory history).Reflects history where
  anyCase _ _ arguments any_case := execute_anyCase _ arguments any_case
  succeeds _ arguments named := succeeds_iff _ arguments named
  hget name key field named := by
    rw [execute_hget _ named]
    refine ⟨fun value last => by rw [find?_ofHistory_iff.mpr last]; rfl, fun unwritten => ?_⟩
    -- A field that is found was written by a command of the history.
    have absent : ((ofHistory history).hash key).find? field = none := by
      by_contra found
      obtain ⟨value, found⟩ := Option.ne_none_iff_exists'.mp found
      obtain ⟨command, mem, pairs, writes, named⟩ :=
        Command.exists_lastWritten_iff.mp ⟨value, find?_ofHistory_iff.mp found⟩
      exact unwritten command mem pairs writes named
    rw [absent]
    rfl
  hgetall name key named := by
    refine ⟨execute_hgetall _ named key, ?_, fun field value => ?_, ?_⟩
    · exact ((ofHistory history).hash key).ascending.imp Utf8.bytes_lt_bytes_iff.mpr
    · rw [← find?_ofHistory_iff]
      exact (Ordered.find?_eq_some_iff (OrderedMap.ascending _)).symm
    · rw [execute_hgetall _ named, ← entries_ofHistory_eq_nil_iff, ← Hash.listing_eq_nil_iff]
      simp
  hset name key pairs named nonempty := by
    intro command added
    have counted : ((ofHistory history).hash key).added pairs = added := Hash.added_eq_card _ _
    rw [show (ofHistory history).execute command = _ from execute_hset _ named key nonempty]
    rw [counted, hash_insert, if_pos rfl, Hash.size_write, counted]
    exact ⟨rfl, rfl⟩
  hmset := execute_hmset _

end Store

end HashGateway
