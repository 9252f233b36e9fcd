import HashGateway.Proofs.Store.Histories

/-!
# Scans cut a hash into pages

The options of a scan stand in any order and in any case of letters, and of several options of one
name the last decides. Whatever they are, a scan visits the fields of a hash that stand from its
cursor on, as many as its count says, and its reply names the cursor behind them. So a client that
goes on where each reply says meets every field once, in their order, and comes to the end after as
many calls as the fields need; the pattern only leaves out fields that were visited.

A hash in memory has fewer fields than 64 bits can count, so no cursor is ever cut short.

## Main definitions

* `Scan.IsOption` — an option that scans take
* `Scan.countOf`, `Scan.admits` — how many fields a call with some options visits, and which of them
  it answers
* `Store.Scanned` — a client scans a hash from a cursor to the end
* `Store.IsCutByScans` — how calls of a scan cut a hash

## Main results

* `Scan.options_inTurn` — options are read as the scan that they ask for
* `Store.execute_scan` — the reply to a scan
* `Store.exists_pages_scanned` — what a client is answered from a cursor on
* `Store.isCutByScans` — the calls of a scan cut every hash in this way
-/

namespace HashGateway

namespace Scan

/-! ## Options -/

/-- The count that a text asks for: a number of 64 bits that is not zero. -/
def count? (text : String) : Option Nat :=
  (Numeral.unsigned? Numeral.max64 text.toList).filter (0 < ·)

/-- An option that scans take: a pattern or a count, named in any case of letters. -/
def IsOption (option : String × String) : Prop :=
  option.1.map Char.toUpper = "MATCH" ∨
    option.1.map Char.toUpper = "COUNT" ∧ (count? option.2).isSome = true

/-- The value of the last option of a name. -/
def lastOption? (name : String) (options : List (String × String)) : Option String :=
  (options.reverse.find? fun option => option.1.map Char.toUpper = name).map Prod.snd

/-- How many fields a call visits: the last count, or else ten. -/
def countOf (options : List (String × String)) : Nat :=
  ((lastOption? "COUNT" options).bind count?).getD 10

/-- Whether the field of an entry fits the last pattern, if there is one. -/
def admits (options : List (String × String)) (entry : String × String) : Bool :=
  (lastOption? "MATCH" options).all fun pattern =>
    Glob.fits (Utf8.bytes pattern) (Utf8.bytes entry.1)

variable {scan : Scan} {cursor : Nat} {options : List (String × String)}
  {name value : String} {rest : List String}

theorem count?_eq_some_iff {text : String} {n : Nat} : count? text = some n ↔
    Numeral.unsigned? Numeral.max64 text.toList = some n ∧ 0 < n := by
  simp [count?, Option.filter_eq_some_iff]

theorem lastOption?_cons (name : String) (option : String × String)
    (options : List (String × String)) : lastOption? name (option :: options) =
      (lastOption? name options).or
        (if option.1.map Char.toUpper = name then some option.2 else none) := by
  rw [lastOption?, List.reverse_cons, List.find?_append, Option.map_or]
  by_cases named : option.1.map Char.toUpper = name <;> simp [named, lastOption?]

/-- What is asked for as a count is one. -/
theorem isSome_count?_of_lastOption? (taken : ∀ option ∈ options, IsOption option)
    (last : lastOption? "COUNT" options = some value) : (count? value).isSome = true := by
  obtain ⟨option, found, rfl⟩ := Option.map_eq_some_iff.mp last
  have named : option.1.map Char.toUpper = "COUNT" := by simpa using List.find?_some found
  have mem : option ∈ options := List.mem_reverse.mp (List.mem_of_find?_eq_some found)
  rcases taken option mem with other | ⟨-, count⟩
  · exact absurd (named.symm.trans other) (by decide)
  · exact count

theorem options_of_match (named : name.map Char.toUpper = "MATCH") (scan : Scan) (value : String)
    (rest : List String) : scan.options (name :: value :: rest) =
      Scan.options { scan with pattern := some value } rest := by
  simp only [Scan.options, named, if_true]

theorem options_of_count (named : name.map Char.toUpper = "COUNT") {n : Nat}
    (count : count? value = some n) (scan : Scan) (rest : List String) :
    scan.options (name :: value :: rest) = Scan.options { scan with count := n } rest := by
  obtain ⟨read, positive⟩ := count?_eq_some_iff.mp count
  obtain ⟨m, rfl⟩ := Nat.exists_eq_succ_of_ne_zero (Nat.ne_of_gt positive)
  have other : ("COUNT" : String) ≠ "MATCH" := by decide
  simp only [Scan.options, named, other, if_false, if_true, read]

/-- Options are read as the scan that they ask for; what they leave open stays as it is. -/
theorem options_inTurn (taken : ∀ option ∈ options, IsOption option) (scan : Scan) :
    scan.options (Hash.inTurn options) =
      .ok ⟨scan.cursor, (lastOption? "MATCH" options).or scan.pattern,
        ((lastOption? "COUNT" options).bind count?).getD scan.count⟩ := by
  -- The options are read in turn, so the scan is not fixed in the induction.
  induction options generalizing scan with
  | nil => rfl
  | cons option options ih =>
    obtain ⟨name, value⟩ := option
    have ⟨first, others⟩ := List.forall_mem_cons.mp taken
    have inTurn : Hash.inTurn ((name, value) :: options) =
        name :: value :: Hash.inTurn options := rfl
    rw [inTurn, lastOption?_cons, lastOption?_cons]
    rcases first with named | ⟨named, count⟩
    · have other : ("MATCH" : String) ≠ "COUNT" := by decide
      rw [options_of_match named, ih others]
      simp [named, other]
    · obtain ⟨n, count⟩ := Option.isSome_iff_exists.mp count
      have other : ("COUNT" : String) ≠ "MATCH" := by decide
      rw [options_of_count named count, ih others]
      cases last : lastOption? "COUNT" options with
      | none => simp [named, other, count]
      | some text =>
        obtain ⟨m, later⟩ := Option.isSome_iff_exists.mp (isSome_count?_of_lastOption? others last)
        simp [named, other, later]

/-- A call visits at least one field. -/
theorem countOf_pos (options : List (String × String)) : 0 < countOf options := by
  rw [countOf]
  cases asked : (lastOption? "COUNT" options).bind count? with
  | none => simp
  | some n =>
    obtain ⟨text, -, count⟩ := Option.bind_eq_some_iff.mp asked
    exact (count?_eq_some_iff.mp count).2

theorem ofArguments_inTurn (taken : ∀ option ∈ options, IsOption option) {text : String}
    (read : Numeral.unsigned? Numeral.max64 text.toList = some cursor) :
    ofArguments (text :: Hash.inTurn options) =
      .ok ⟨cursor, lastOption? "MATCH" options, countOf options⟩ := by
  rw [ofArguments, read]
  simp only [options_inTurn taken, Option.or_none]
  rfl

theorem items_eq (cursor : Nat) (options : List (String × String)) (hash : Hash) :
    items ⟨cursor, lastOption? "MATCH" options, countOf options⟩ hash =
      ((hash.entries.drop cursor).take (countOf options)).filter (admits options) := by
  refine List.filter_congr fun entry _ => ?_
  simp only [selects, admits]
  cases lastOption? "MATCH" options <;> rfl

/-! ## Pages -/

/-- As long as 64 bits can count the fields of a hash, a page that is not the last goes on behind
its last field; nothing is cut short. -/
theorem next_eq {hash : Hash} (small : hash.size ≤ Numeral.max64) (scan : Scan) :
    scan.next hash = if hash.size ≤ scan.cursor + scan.count then 0
      else scan.cursor + scan.count := by
  rw [next]
  by_cases reached : hash.size ≤ scan.cursor + scan.count
  · rw [if_pos reached, if_pos (Nat.le_min.mpr ⟨reached, small⟩)]
  · rw [if_neg reached, Nat.min_eq_left (by omega), if_neg reached]

/-- One page shows all that is left, if it suffices. -/
theorem count_of_le {count : Nat} (positive : 0 < count) {n : Nat} (h : n ≤ count) :
    max 1 ((n + count - 1) / count) = 1 := by
  have one : (n + count - 1) / count < 2 := Nat.div_lt_of_lt_mul (by omega)
  omega

/-- More than a page shows needs one page more than what is left after it. -/
theorem count_of_lt {count : Nat} (positive : 0 < count) {n : Nat} (h : count < n) :
    max 1 ((n + count - 1) / count) = max 1 ((n - count + count - 1) / count) + 1 := by
  have one : 1 ≤ (n - 1) / count := (Nat.one_le_div_iff positive).mpr (by omega)
  have less : n - count + count - 1 = n - 1 := by omega
  have more : n + count - 1 = n - 1 + count := by omega
  rw [less, more, Nat.add_div_right _ positive]
  omega

end Scan

/-! ## Calls -/

theorem Reply.bulk_injective {s t : String} (h : bulk s = bulk t) : s = t := by
  have read := congrArg Utf8.decode? (Reply.bytes.inj h)
  simpa using read

namespace Store

/-- A client scans a hash. It calls with a cursor and goes on with the cursor of the reply; it stops
when that is zero. The lists are the fields and values of the replies. Nothing else is served
meanwhile. -/
inductive Scanned (name key : String) (options : List (String × String)) :
    Store → String → List (List Reply) → Prop
  | last {store store' : Store} {cursor : String} {items : List Reply}
      (answered : store.execute (name :: key :: cursor :: Hash.inTurn options) =
        (.ok (.array [.bulk "0", .array items]), store')) :
      Scanned name key options store cursor [items]
  | more {store store' : Store} {cursor next : String} {items : List Reply}
      {pages : List (List Reply)}
      (answered : store.execute (name :: key :: cursor :: Hash.inTurn options) =
        (.ok (.array [.bulk next, .array items]), store'))
      (ne : next ≠ "0") (rest : Scanned name key options store' next pages) :
      Scanned name key options store cursor (items :: pages)

section Calls

variable {store : Store} {name key text : String} {options : List (String × String)}
  {entries : List (String × String)} {cursor next : Nat} {items : List Reply}

/-- The reply to a call has the fields from the cursor on, as many as are asked for, without those
that do not fit; its cursor is the place behind them, or zero at the end of the hash. -/
theorem execute_scan (named : name.map Char.toUpper = "HSCAN")
    (taken : ∀ option ∈ options, Scan.IsOption option)
    (held : (store.hash key).entries = entries) (small : entries.length ≤ Numeral.max64)
    (read : Numeral.unsigned? Numeral.max64 text.toList = some cursor) :
    store.execute (name :: key :: text :: Hash.inTurn options) =
      (.ok (.array
        [.bulk (String.ofList (Numeral.render
          (if entries.length ≤ cursor + Scan.countOf options then 0
            else cursor + Scan.countOf options))),
        .array (Hash.listing (((entries.drop cursor).take (Scan.countOf options)).filter
          (Scan.admits options)))]), store) := by
  subst held
  have asked := Scan.ofArguments_inTurn taken read
  simp only [execute, HashCommand.parse, named, HashCommand.ofName, asked, Except.map_ok, apply]
  rw [Scan.reply, Scan.items_eq, Scan.next_eq small]
  rfl

theorem ofList_render_eq_zero_iff : String.ofList (Numeral.render next) = "0" ↔ next = 0 := by
  have zero : "0" = String.ofList (Numeral.render 0) := by decide
  rw [zero]
  exact ⟨fun texts => Numeral.render_injective (String.ofList_injective texts), fun h => by rw [h]⟩

/-- The first reply is that of the first call, and the others are those of a client that begins
where this one says. -/
theorem scanned_iff (answered : store.execute (name :: key :: text :: Hash.inTurn options) =
      (.ok (.array [.bulk (String.ofList (Numeral.render next)), .array items]), store))
    (replies : List (List Reply)) :
    Scanned name key options store text replies ↔ ∃ rest, replies = items :: rest ∧
      (next = 0 ∧ rest = [] ∨
        next ≠ 0 ∧ Scanned name key options store (String.ofList (Numeral.render next)) rest) := by
  -- The store answers a call in one way only, so this is the first reply of any scan.
  constructor
  · intro scanned
    cases scanned with
    | last answered' =>
      obtain ⟨result, rfl⟩ := Prod.mk.inj (answered.symm.trans answered')
      simp only [Except.ok.injEq, Reply.array.injEq, List.cons.injEq, and_true] at result
      obtain ⟨cursors, rfl⟩ := result
      exact ⟨[], rfl, .inl ⟨ofList_render_eq_zero_iff.mp (Reply.bulk_injective cursors), rfl⟩⟩
    | more answered' ne rest =>
      obtain ⟨result, rfl⟩ := Prod.mk.inj (answered.symm.trans answered')
      simp only [Except.ok.injEq, Reply.array.injEq, List.cons.injEq, and_true] at result
      obtain ⟨cursors, rfl⟩ := result
      obtain rfl := Reply.bulk_injective cursors
      exact ⟨_, rfl, .inr ⟨fun ends => ne (ofList_render_eq_zero_iff.mpr ends), rest⟩⟩
  · rintro ⟨rest, rfl, ⟨ends, rfl⟩ | ⟨goes_on, scanned⟩⟩
    · rw [ofList_render_eq_zero_iff.mpr ends] at answered
      exact .last answered
    · exact .more answered (fun ends => goes_on (ofList_render_eq_zero_iff.mp ends)) scanned

/-- A client that begins at any cursor is answered page by page up to the end. -/
theorem exists_pages_scanned (named : name.map Char.toUpper = "HSCAN")
    (taken : ∀ option ∈ options, Scan.IsOption option)
    (held : (store.hash key).entries = entries) (small : entries.length ≤ Numeral.max64)
    (read : Numeral.unsigned? Numeral.max64 text.toList = some cursor) :
    ∃ pages : List (List (String × String)),
      (∀ replies, Scanned name key options store text replies ↔
        replies = pages.map Hash.listing) ∧
      pages.length = max 1
        ((entries.length - cursor + Scan.countOf options - 1) / Scan.countOf options) ∧
      pages.flatten = (entries.drop cursor).filter (Scan.admits options) := by
  have positive := Scan.countOf_pos options
  -- What is left of the hash becomes less from call to call.
  induction left : entries.length - cursor using Nat.strong_induction_on
    generalizing cursor text with
  | h left ih =>
    have answered := execute_scan named taken held small read
    by_cases last : entries.length ≤ cursor + Scan.countOf options
    · have all : (entries.drop cursor).take (Scan.countOf options) = entries.drop cursor := by
        apply List.take_of_length_le
        rw [List.length_drop]
        omega
      rw [if_pos last, all] at answered
      refine ⟨[(entries.drop cursor).filter (Scan.admits options)], fun replies => ?_, ?_, by simp⟩
      · rw [scanned_iff answered]
        simp
      · rw [Scan.count_of_le positive (by omega), List.length_singleton]
    · rw [if_neg last] at answered
      have fits : cursor + Scan.countOf options ≤ Numeral.max64 := by omega
      have read' : Numeral.unsigned? Numeral.max64
          (String.ofList (Numeral.render (cursor + Scan.countOf options))).toList =
            some (cursor + Scan.countOf options) := by
        rw [String.toList_ofList, Numeral.unsigned?_render fits]
      obtain ⟨pages, chain, count, flatten⟩ := ih _ (by omega) read' rfl
      refine ⟨((entries.drop cursor).take (Scan.countOf options)).filter (Scan.admits options) ::
        pages, fun replies => ?_, ?_, ?_⟩
      · rw [scanned_iff answered]
        constructor
        · rintro ⟨rest, rfl, ⟨zero, -⟩ | ⟨-, scanned⟩⟩
          · exact absurd zero (by omega)
          · rw [(chain rest).mp scanned, List.map_cons]
        · rintro rfl
          exact ⟨_, rfl, .inr ⟨by omega, (chain _).mpr rfl⟩⟩
      · rw [List.length_cons, count, ← left,
          Scan.count_of_lt (n := entries.length - cursor) positive (by omega), Nat.sub_sub]
      · rw [List.flatten_cons, flatten, ← List.filter_append, ← List.drop_drop,
          List.take_append_drop]

end Calls

/-- How the calls of a scan with some options cut the hash of a key. -/
structure IsCutByScans (store : Store) (name key : String) (options : List (String × String)) :
    Prop where
  /-- A call answers, of the fields from its cursor on and as many as it counts, those that fit. It
  changes nothing, and its reply names the place behind these fields: this is past the cursor,
  unless it is zero at the end of the hash, and 64 bits hold it. -/
  call : ∀ cursor text, Numeral.unsigned? Numeral.max64 text.toList = some cursor →
    let entries := (store.hash key).entries
    let next := if entries.length ≤ cursor + Scan.countOf options then 0
      else cursor + Scan.countOf options
    let items := ((entries.drop cursor).take (Scan.countOf options)).filter (Scan.admits options)
    store.execute (name :: key :: text :: Hash.inTurn options) =
      (.ok (.array [.bulk (String.ofList (Numeral.render next)), .array (Hash.listing items)]),
        store) ∧
    (next = 0 ∨ cursor < next) ∧ next ≤ Numeral.max64
  /-- A client that begins at any cursor comes to the end of the hash. -/
  walk : ∀ cursor text, Numeral.unsigned? Numeral.max64 text.toList = some cursor →
    ∃ pages : List (List (String × String)),
      (∀ replies, Scanned name key options store text replies ↔
        replies = pages.map Hash.listing) ∧
      pages.flatten = ((store.hash key).entries.drop cursor).filter (Scan.admits options)
  /-- A client that begins at zero is answered all fields that fit, after as many calls as all
  fields of the hash need, and at least one. -/
  whole : ∃ pages : List (List (String × String)),
    (∀ replies, Scanned name key options store "0" replies ↔ replies = pages.map Hash.listing) ∧
    pages.length = max 1
      (((store.hash key).size + Scan.countOf options - 1) / Scan.countOf options) ∧
    pages.flatten = (store.hash key).entries.filter (Scan.admits options)
  /-- The fields of the hash are those of an HGETALL, each once and in the order of their bytes. -/
  fields : ∀ name', name'.map Char.toUpper = "HGETALL" →
    (store.execute [name', key]).1 = .ok (.array (Hash.listing (store.hash key).entries)) ∧
    (store.hash key).entries.Pairwise fun entry later => Utf8.bytes entry.1 < Utf8.bytes later.1
  /-- A key without a hash is at its end with any call. -/
  missing : store.find? key = none → ∀ cursor text,
    Numeral.unsigned? Numeral.max64 text.toList = some cursor →
    (store.execute (name :: key :: text :: Hash.inTurn options)).1 =
      .ok (.array [.bulk "0", .array []])

/-- The calls of a scan cut every hash with as many fields as 64 bits can count: they visit the
fields from a cursor on in their order, as many as the last count says or else ten, and answer those
that fit the last pattern, in whatever order and case of letters the options stand. -/
theorem isCutByScans {store : Store} {name key : String} {options : List (String × String)}
    (named : name.map Char.toUpper = "HSCAN") (taken : ∀ option ∈ options, Scan.IsOption option)
    (small : (store.hash key).size ≤ Numeral.max64) : store.IsCutByScans name key options where
  call cursor text read := by
    intro entries next items
    -- The cursor would not move on with a count of zero, but there is none.
    have positive := Scan.countOf_pos options
    have small : entries.length ≤ Numeral.max64 := small
    refine ⟨execute_scan named taken rfl small read, ?_⟩
    by_cases last : entries.length ≤ cursor + Scan.countOf options
    · have ends : next = 0 := if_pos last
      exact ⟨.inl ends, by omega⟩
    · have goes_on : next = cursor + Scan.countOf options := if_neg last
      omega
  walk cursor text read := by
    obtain ⟨pages, chain, -, flatten⟩ := exists_pages_scanned named taken rfl small read
    exact ⟨pages, chain, flatten⟩
  whole := by
    have read : Numeral.unsigned? Numeral.max64 "0".toList = some 0 := by decide
    exact exists_pages_scanned named taken rfl small read
  fields name' named' := by
    refine ⟨execute_hgetall _ named' key, ?_⟩
    exact (store.hash key).ascending.imp Utf8.bytes_lt_bytes_iff.mpr
  missing absent cursor text read := by
    have held : (store.hash key).entries = [] := by rw [hash, absent]; rfl
    rw [execute_scan named taken held (Nat.zero_le _) read, List.length_nil, if_pos (Nat.zero_le _),
      List.drop_nil, List.take_nil, List.filter_nil]
    rfl

/-- Of three fields the two that fit come on the first of two pages; the count that stands last is
the one that is read. -/
theorem isCutByScans_mixed :
    let store : Store := OrderedMap.insert OrderedMap.empty "h"
      (Hash.write OrderedMap.empty [("x", "1"), ("f2", "2"), ("f1", "3")])
    let options := [("Count", "1"), ("match", "f?"), ("COUNT", "+2")]
    "hscan".map Char.toUpper = "HSCAN" ∧ (∀ option ∈ options, Scan.IsOption option) ∧
      (store.hash "h").size ≤ Numeral.max64 ∧ ∃ pages : List (List (String × String)),
      (∀ replies, Scanned "hscan" "h" options store "0" replies ↔
        replies = pages.map Hash.listing) ∧
      pages.length = 2 ∧ pages.flatten = [("f1", "3"), ("f2", "2")] := by
  intro store options
  have named : "hscan".map Char.toUpper = "HSCAN" := map_toUpper_eq (by decide)
  have taken : ∀ option ∈ options, Scan.IsOption option := by
    simp only [options, List.forall_mem_cons, List.not_mem_nil, false_implies, implies_true,
      and_true]
    exact ⟨.inr ⟨map_toUpper_eq (by decide), by decide⟩, .inl (map_toUpper_eq (by decide)),
      .inr ⟨map_toUpper_eq (by decide), by decide⟩⟩
  have small : (store.hash "h").size ≤ Numeral.max64 := by decide
  obtain ⟨pages, chain, count, flatten⟩ := (isCutByScans named taken small).whole
  exact ⟨named, taken, small, pages, chain, count.trans (by decide +kernel),
    flatten.trans (by decide +kernel)⟩

end Store

end HashGateway
