import HashGateway.Proofs.Settings.Lines
import Mathlib.Algebra.Ring.Parity

/-!
# The arguments of a line

Whether a character of a line stands between quotes is told by the number of quotes before it. A
blank outside quotes separates, and the arguments are what stands between such blanks, without the
quotes. This is said here with places of the line alone: an argument is a maximal run of places that
do not separate. The reader goes through the line once and keeps where the argument has begun that
is open; so at every place the arguments that are left are the runs that begin there or later.

## Main definitions

* `Settings.IsSeparator` — a place of a line separates arguments
* `Settings.IsRun`, `Settings.RunsFrom` — maximal runs of other places, and all of them in order
* `Settings.ReadTo` — what has been read of a line before a place
* `Settings.quoteAll` — texts between quotes, each with what stands before it

## Main results

* `ReadTo.separate`, `ReadTo.next` — one more character is read
* `ReadTo.exists_runs` — from any state of the reading on, the arguments are the runs that are left
* `Settings.arguments?_quoteAll` — texts between quotes are read as they are
* `Settings.arguments_are_runs` — a line has arguments exactly if its quotes are even in number, and
  then they are its runs
-/

namespace HashGateway

theorem Text.trim_eq_nil_iff {cs : List Char} : trim cs = [] ↔ ∀ c ∈ cs, isBlank c = true := by
  constructor
  · intro nothing
    obtain ⟨before, after, split, blank, blank', -⟩ := exists_blanks_append_trim cs
    rw [nothing, List.nil_append] at split
    rw [split]
    exact List.forall_mem_append.mpr ⟨blank, blank'⟩
  · exact fun blank => trim_append_of_blank blank []

namespace Settings

open HashGateway.Text

/-- Places of a line that follow each other, from `start` on and before `stop`. -/
@[ext]
structure Span where
  start : Nat
  stop : Nat

/-- The characters of a span, without the quotes among them. -/
def Span.unquoted (chars : List Char) (span : Span) : List Char :=
  (chars.extract span.start span.stop).filter (· != '"')

/-- A blank with an even number of quotes before it separates arguments. -/
def IsSeparator (chars : List Char) (i : Nat) : Prop :=
  (∃ c ∈ chars[i]?, isBlank c = true) ∧ Even ((chars.take i).count '"')

/-- A maximal run of places that do not separate. -/
structure IsRun (chars : List Char) (run : Span) : Prop where
  start_lt_stop : run.start < run.stop
  stop_le : run.stop ≤ chars.length
  whole : ∀ i, run.start ≤ i → i < run.stop → ¬ IsSeparator chars i
  begins : run.start = 0 ∨ IsSeparator chars (run.start - 1)
  ends : run.stop = chars.length ∨ IsSeparator chars run.stop

/-- All runs of a line that begin at a place or later, in their order. -/
structure RunsFrom (chars : List Char) (start : Nat) (runs : List Span) : Prop where
  ordered : runs.Pairwise fun run later => run.start < later.start
  mem_iff (run : Span) : run ∈ runs ↔ start ≤ run.start ∧ IsRun chars run

variable {chars rest : List Char} {start stop n : Nat} {run run' : Span} {runs runs' : List Span}
  {c : Char} {quoted : Bool} {current : Option (List Char)}

/-! ## Runs -/

theorem IsSeparator.lt_length (cut : IsSeparator chars n) : n < chars.length := by
  obtain ⟨⟨c, here, -⟩, -⟩ := cut
  exact (List.getElem?_eq_some_iff.mp here).1

/-- Where no place separates, a run begins only at the first one. -/
theorem IsRun.start_eq (is_run : IsRun chars run)
    (whole : ∀ i, start ≤ i → i < n → ¬ IsSeparator chars i) (after : start ≤ run.start)
    (before : run.start < n) : run.start = start := by
  rcases is_run.begins with first | cut
  · omega
  · by_contra other
    exact whole (run.start - 1) (by omega) (by omega) cut

/-- No run begins at a separator, and none at the end of the line. -/
theorem IsRun.start_ne (is_run : IsRun chars run)
    (stops : n = chars.length ∨ IsSeparator chars n) : run.start ≠ n := by
  rintro rfl
  have nonempty := is_run.start_lt_stop
  rcases stops with last | cut
  · exact Nat.not_le.mpr nonempty (last ▸ is_run.stop_le)
  · exact is_run.whole run.start (Nat.le_refl _) nonempty cut

theorem IsRun.stop_le_stop (is_run : IsRun chars run) (is_run' : IsRun chars run')
    (starts : run.start = run'.start) : run.stop ≤ run'.stop := by
  have within := is_run.stop_le
  have nonempty := is_run'.start_lt_stop
  by_contra longer
  rcases is_run'.ends with last | cut
  · omega
  · exact is_run.whole run'.stop (by omega) (by omega) cut

/-- A run is told by where it begins. -/
theorem IsRun.eq_of_start_eq (is_run : IsRun chars run) (is_run' : IsRun chars run')
    (starts : run.start = run'.start) : run = run' := by
  have stops : run.stop = run'.stop :=
    Nat.le_antisymm (is_run.stop_le_stop is_run' starts) (is_run'.stop_le_stop is_run starts.symm)
  exact Span.ext starts stops

theorem runsFrom_nil (ended : chars.length ≤ start) : RunsFrom chars start [] where
  ordered := .nil
  mem_iff run := by
    refine iff_of_false List.not_mem_nil fun ⟨after, is_run⟩ => ?_
    have nonempty := is_run.start_lt_stop
    have within := is_run.stop_le
    omega

theorem RunsFrom.skip (later : RunsFrom chars (n + 1) runs)
    (stops : n = chars.length ∨ IsSeparator chars n) : RunsFrom chars n runs where
  ordered := later.ordered
  mem_iff run := by
    rw [later.mem_iff]
    refine and_congr_left fun is_run => ⟨Nat.le_of_succ_le, fun after => ?_⟩
    exact Nat.lt_of_le_of_ne after (is_run.start_ne stops).symm

theorem RunsFrom.cons (later : RunsFrom chars (stop + 1) runs)
    (is_run : IsRun chars ⟨start, stop⟩) : RunsFrom chars start (⟨start, stop⟩ :: runs) where
  ordered := by
    refine List.pairwise_cons.mpr ⟨fun run mem => ?_, later.ordered⟩
    have nonempty : start < stop := is_run.start_lt_stop
    have behind := ((later.mem_iff run).mp mem).1
    exact Nat.lt_trans nonempty behind
  mem_iff run := by
    have nonempty : start < stop := is_run.start_lt_stop
    rw [List.mem_cons, later.mem_iff]
    constructor
    · rintro (rfl | ⟨behind, is_run'⟩)
      · exact ⟨Nat.le_refl _, is_run⟩
      · exact ⟨by omega, is_run'⟩
    · rintro ⟨after, is_run'⟩
      -- A run that begins before the stop is this one, and at the stop none begins.
      rcases Nat.lt_trichotomy run.start stop with before | at_stop | behind
      · have starts := is_run'.start_eq is_run.whole after before
        exact .inl (is_run'.eq_of_start_eq is_run starts)
      · exact absurd at_stop (is_run'.start_ne is_run.ends)
      · exact .inr ⟨behind, is_run'⟩

/-- There is one list of the runs. -/
theorem RunsFrom.unique (h : RunsFrom chars start runs) (h' : RunsFrom chars start runs') :
    runs = runs' := by
  have nodup {runs : List Span} (h : RunsFrom chars start runs) : runs.Nodup :=
    h.ordered.imp fun before equal => Nat.ne_of_lt before (congrArg Span.start equal)
  have perm : runs.Perm runs' := (List.perm_ext_iff_of_nodup (nodup h) (nodup h')).mpr
    fun run => (h.mem_iff run).trans (h'.mem_iff run).symm
  exact perm.eq_of_pairwise (fun _ _ _ _ before after => absurd before after.asymm) h.ordered
    h'.ordered

/-! ## Reading a character -/

theorem ne_quote_of_isBlank (blank : isBlank c = true) : c ≠ '"' := by
  rintro rfl
  exact nomatch blank

/-- A blank outside quotes ends the argument that is open. -/
theorem argumentsFrom_of_blank (blank : isBlank c = true) (current : Option (List Char))
    (rest : List Char) :
    argumentsFrom false current (c :: rest) =
      (argumentsFrom false none rest).map (current.toList ++ ·) := by
  have other := ne_quote_of_isBlank blank
  cases current <;> simp [argumentsFrom, other, blank]

/-- Any other character belongs to an argument, in which a quote leaves nothing behind. -/
theorem argumentsFrom_of_not_blank (inside : ¬ (isBlank c = true ∧ quoted = false)) :
    argumentsFrom quoted current (c :: rest) =
      argumentsFrom (if c = '"' then !quoted else quoted)
        (some (current.getD [] ++ if c = '"' then [] else [c])) rest := by
  by_cases quote : c = '"'
  · simp [argumentsFrom, quote]
  · have kept : ¬ (isBlank c && !quoted) = true := by simpa using inside
    simp only [argumentsFrom, if_neg quote, if_neg kept]

theorem count_take_succ (here : chars[n]? = some c) :
    (chars.take (n + 1)).count '"' = (chars.take n).count '"' + if c = '"' then 1 else 0 := by
  rw [List.take_add_one, here, Option.toList_some, List.count_append, List.count_singleton]
  simp

theorem Span.unquoted_succ (here : chars[n]? = some c) (le : start ≤ n) :
    unquoted chars ⟨start, n + 1⟩ = unquoted chars ⟨start, n⟩ ++ if c = '"' then [] else [c] := by
  have further : chars.extract start (n + 1) = chars.extract start n ++ [c] := by
    have here' : (chars.drop start)[n - start]? = some c := by
      rw [List.getElem?_drop, Nat.add_sub_cancel' le, here]
    rw [List.extract_eq_take_drop, List.extract_eq_take_drop, Nat.sub_add_comm le,
      List.take_add_one, here', Option.toList_some]
  simp only [unquoted, further, List.filter_append]
  by_cases quote : c = '"' <;> simp [quote]

/-! ## Reading a line -/

/-- The characters before `n` have been read. If `start` lies before `n`, an argument is open that
begins there; else none is open, and the next one begins at `n` at the earliest. -/
structure ReadTo (chars : List Char) (start n : Nat) (quoted : Bool)
    (current : Option (List Char)) : Prop where
  start_le : start ≤ n
  le_length : n ≤ chars.length
  begins : start = 0 ∨ IsSeparator chars (start - 1)
  whole : ∀ i, start ≤ i → i < n → ¬ IsSeparator chars i
  quoted_iff : quoted = true ↔ Odd ((chars.take n).count '"')
  current_eq : current = if start = n then none else some (Span.unquoted chars ⟨start, n⟩)

namespace ReadTo

theorem zero (chars : List Char) : ReadTo chars 0 0 false none where
  start_le := Nat.le_refl 0
  le_length := Nat.zero_le _
  begins := .inl rfl
  whole i _ before := absurd before (Nat.not_lt_zero i)
  quoted_iff := by simp
  current_eq := rfl

theorem isSeparator_iff (read : ReadTo chars start n quoted current) (here : chars[n]? = some c) :
    IsSeparator chars n ↔ isBlank c = true ∧ quoted = false := by
  rw [IsSeparator, here, ← Nat.not_odd_iff_even, ← read.quoted_iff]
  simp

theorem getD_current (read : ReadTo chars start n quoted current) :
    current.getD [] = Span.unquoted chars ⟨start, n⟩ := by
  rw [read.current_eq]
  split
  · next unopened =>
    subst unopened
    simp [Span.unquoted]
  · rfl

/-- Behind a separator no argument is open. -/
theorem separate (cut : IsSeparator chars n) : ReadTo chars (n + 1) (n + 1) false none where
  start_le := Nat.le_refl _
  le_length := cut.lt_length
  begins := .inr cut
  whole i after before := absurd before (Nat.not_lt.mpr after)
  quoted_iff := by
    obtain ⟨⟨c, here, blank⟩, even⟩ := cut
    rw [count_take_succ here, if_neg (ne_quote_of_isBlank blank), Nat.add_zero,
      ← Nat.not_even_iff_odd]
    simp [even]
  current_eq := (if_pos rfl).symm

/-- Behind any other character an argument is open, and it has begun where it had. -/
theorem next (read : ReadTo chars start n quoted current) (here : chars[n]? = some c)
    (inside : ¬ IsSeparator chars n) :
    ReadTo chars start (n + 1) (if c = '"' then !quoted else quoted)
      (some (current.getD [] ++ if c = '"' then [] else [c])) where
  start_le := Nat.le_succ_of_le read.start_le
  le_length := (List.getElem?_eq_some_iff.mp here).1
  begins := read.begins
  whole i after before := by
    rcases Nat.lt_succ_iff_lt_or_eq.mp before with before | rfl
    · exact read.whole i after before
    · exact inside
  quoted_iff := by
    rw [count_take_succ here]
    split
    · rw [Nat.odd_add_one, ← read.quoted_iff]
      simp
    · exact read.quoted_iff
  current_eq := by
    have started : start ≠ n + 1 := Nat.ne_of_lt (Nat.lt_succ_of_le read.start_le)
    rw [if_neg started, Span.unquoted_succ here read.start_le, read.getD_current]

/-- Where the line ends or is separated, the argument that is open is a run. -/
theorem close (read : ReadTo chars start n quoted current)
    (stops : n = chars.length ∨ IsSeparator chars n) (later : RunsFrom chars (n + 1) runs) :
    ∃ runs', RunsFrom chars start runs' ∧
      runs'.map (Span.unquoted chars) = current.toList ++ runs.map (Span.unquoted chars) := by
  rw [read.current_eq]
  rcases Nat.eq_or_lt_of_le read.start_le with rfl | before
  · exact ⟨runs, later.skip stops, by simp⟩
  · have is_run : IsRun chars ⟨start, n⟩ := ⟨before, read.le_length, read.whole, read.begins, stops⟩
    exact ⟨_, later.cons is_run, by simp [Nat.ne_of_lt before]⟩

/-- From any state of the reading on, the arguments are the runs that are left. The one that is
open is the first of them. -/
theorem exists_runs (read : ReadTo chars start n quoted current) :
    ∃ runs, RunsFrom chars start runs ∧
      argumentsFrom quoted current (chars.drop n) =
        if Even (chars.count '"') then some (runs.map (Span.unquoted chars)) else none := by
  -- The induction is on the characters that are left, and `ReadTo` is what it carries along.
  induction left : chars.drop n generalizing start n quoted current with
  | nil =>
    -- The line ends, and its quotes are those that were read.
    have ended : n = chars.length :=
      Nat.le_antisymm read.le_length (List.drop_eq_nil_iff.mp left)
    obtain ⟨runs, are_runs, texts⟩ := read.close (.inl ended) (runsFrom_nil (by omega))
    have odd_iff := read.quoted_iff
    rw [ended, List.take_length, ← Nat.not_even_iff_odd] at odd_iff
    refine ⟨runs, are_runs, ?_⟩
    rw [argumentsFrom, texts]
    by_cases even : Even (chars.count '"') <;> simp_all
  | cons c cs ih =>
    have here : chars[n]? = some c := by rw [← List.head?_drop, left, List.head?_cons]
    have left' : chars.drop (n + 1) = cs := by rw [← List.tail_drop, left, List.tail_cons]
    by_cases cut : IsSeparator chars n
    · -- The argument that is open is a run, and those that follow begin behind the separator.
      obtain ⟨blank, rfl⟩ := (read.isSeparator_iff here).mp cut
      obtain ⟨runs, later, result⟩ := ih (separate cut) left'
      obtain ⟨runs', are_runs, texts⟩ := read.close (.inr cut) later
      refine ⟨runs', are_runs, ?_⟩
      rw [argumentsFrom_of_blank blank, result, texts]
      split <;> rfl
    · obtain ⟨runs, are_runs, result⟩ := ih (read.next here cut) left'
      rw [read.isSeparator_iff here] at cut
      exact ⟨runs, are_runs, (argumentsFrom_of_not_blank cut).trans result⟩

end ReadTo

theorem exists_runs_arguments? (chars : List Char) :
    ∃ runs, RunsFrom chars 0 runs ∧
      arguments? chars =
        if Even (chars.count '"') then some (runs.map (Span.unquoted chars)) else none :=
  (ReadTo.zero chars).exists_runs

theorem arguments?_eq_none_iff : arguments? chars = none ↔ Odd (chars.count '"') := by
  obtain ⟨runs, -, result⟩ := exists_runs_arguments? chars
  rw [result, ← Nat.not_even_iff_odd]
  simp

theorem arguments?_eq_some_iff {args : List (List Char)} :
    arguments? chars = some args ↔ Even (chars.count '"') ∧
      ∃ runs, RunsFrom chars 0 runs ∧ runs.map (Span.unquoted chars) = args := by
  obtain ⟨runs, are_runs, result⟩ := exists_runs_arguments? chars
  rw [result, Option.ite_none_right_eq_some, Option.some_inj]
  refine and_congr_right fun _ => ⟨fun texts => ⟨runs, are_runs, texts⟩, ?_⟩
  rintro ⟨runs', are_runs', texts⟩
  rwa [are_runs.unique are_runs']

/-! ## Lines of blanks -/

/-- An argument that has begun is not lost. -/
theorem argumentsFrom_some_ne (quoted : Bool) (argument rest : List Char) :
    argumentsFrom quoted (some argument) rest ≠ some [] := by
  induction rest generalizing quoted argument with
  | nil => cases quoted <;> simp [argumentsFrom]
  | cons c rest ih =>
    by_cases blank : isBlank c = true ∧ quoted = false
    · obtain ⟨blank, rfl⟩ := blank
      rw [argumentsFrom_of_blank blank]
      simp
    · rw [argumentsFrom_of_not_blank blank]
      exact ih _ _

theorem argumentsFrom_blanks {gap : List Char} (blank : ∀ c ∈ gap, isBlank c = true)
    (rest : List Char) :
    argumentsFrom false none (gap ++ rest) = argumentsFrom false none rest := by
  induction gap with
  | nil => rfl
  | cons c gap ih =>
    obtain ⟨here, blank⟩ := List.forall_mem_cons.mp blank
    rw [List.cons_append, argumentsFrom_of_blank here, ih blank, Option.toList_none]
    simp

theorem arguments?_eq_some_nil_iff : arguments? chars = some [] ↔ trim chars = [] := by
  rw [trim_eq_nil_iff]
  constructor
  · intro no_argument
    induction chars with
    | nil => simp
    | cons c rest ih =>
      by_cases blank : isBlank c = true
      · rw [arguments?, argumentsFrom_of_blank blank] at no_argument
        exact List.forall_mem_cons.mpr ⟨blank, ih (by simpa [arguments?] using no_argument)⟩
      · rw [arguments?, argumentsFrom_of_not_blank fun both => blank both.1] at no_argument
        exact absurd no_argument (argumentsFrom_some_ne _ _ _)
  · intro blank
    have no_argument := argumentsFrom_blanks blank []
    rwa [List.append_nil] at no_argument

/-! ## Arguments between quotes -/

/-- Texts between quotes, each with what stands before it. -/
def quoteAll (parts : List (List Char × List Char)) : List Char :=
  parts.flatMap fun (gap, argument) => gap ++ '"' :: argument ++ ['"']

section quoteAll

variable {parts : List (List Char × List Char)} {argument after : List Char}

/-- Between quotes a text is read up to the next one. -/
theorem argumentsFrom_quoted (plain : '"' ∉ argument) (read rest : List Char) :
    argumentsFrom true (some read) (argument ++ '"' :: rest) =
      argumentsFrom false (some (read ++ argument)) rest := by
  induction argument generalizing read with
  | nil => simp [argumentsFrom]
  | cons c argument ih =>
    have other : c ≠ '"' := fun quote => plain (by simp [quote])
    have plain : '"' ∉ argument := fun mem => plain (List.mem_cons_of_mem _ mem)
    rw [List.cons_append, argumentsFrom_of_not_blank (by simp)]
    simp only [if_neg other, Option.getD_some]
    rw [ih plain, List.append_assoc, List.singleton_append]

/-- An argument ends at a blank and at the end of the line. -/
theorem argumentsFrom_ended (stops : ∀ c ∈ rest.head?, isBlank c = true) (argument : List Char) :
    argumentsFrom false (some argument) rest =
      (argumentsFrom false none rest).map (argument :: ·) := by
  cases rest with
  | nil => rfl
  | cons c rest =>
    have blank := stops c rfl
    rw [argumentsFrom_of_blank blank, argumentsFrom_of_blank blank, Option.map_map]
    rfl

theorem isBlank_of_mem_head?_quoteAll (blank : ∀ part ∈ parts, ∀ c ∈ part.1, isBlank c = true)
    (apart : ∀ part ∈ parts.head?, part.1 ≠ []) (blank_after : ∀ c ∈ after, isBlank c = true) :
    ∀ c ∈ (quoteAll parts ++ after).head?, isBlank c = true := by
  intro c first
  cases parts with
  | nil => exact blank_after c (List.mem_of_mem_head? first)
  | cons part parts =>
    obtain ⟨gap, argument⟩ := part
    obtain ⟨b, gap, rfl⟩ := List.exists_cons_of_ne_nil (apart (gap, argument) rfl)
    obtain rfl : b = c := by simpa [quoteAll] using first
    exact blank _ List.mem_cons_self b List.mem_cons_self

/-- Texts between quotes, with blanks around them, are read as they are. -/
theorem arguments?_quoteAll (blank : ∀ part ∈ parts, ∀ c ∈ part.1, isBlank c = true)
    (apart : ∀ part ∈ parts.tail, part.1 ≠ []) (plain : ∀ part ∈ parts, '"' ∉ part.2)
    (blank_after : ∀ c ∈ after, isBlank c = true) :
    arguments? (quoteAll parts ++ after) = some (parts.map Prod.snd) := by
  induction parts with
  | nil => exact arguments?_eq_some_nil_iff.mpr (trim_eq_nil_iff.mpr blank_after)
  | cons part parts ih =>
    obtain ⟨gap, argument⟩ := part
    obtain ⟨gap_blank, blank⟩ := List.forall_mem_cons.mp blank
    obtain ⟨argument_plain, plain⟩ := List.forall_mem_cons.mp plain
    -- Behind the quote that ends it an argument is ended by a blank or by the end of the text.
    have stops := isBlank_of_mem_head?_quoteAll blank
      (fun part first => apart part (List.mem_of_mem_head? first)) blank_after
    have later : arguments? (quoteAll parts ++ after) = some (parts.map Prod.snd) :=
      ih blank (fun part mem => apart part (List.mem_of_mem_tail mem)) plain
    calc arguments? (quoteAll ((gap, argument) :: parts) ++ after)
        = argumentsFrom false none
            (gap ++ '"' :: (argument ++ '"' :: (quoteAll parts ++ after))) := by
          simp [arguments?, quoteAll]
      _ = argumentsFrom true (some []) (argument ++ '"' :: (quoteAll parts ++ after)) := by
          rw [argumentsFrom_blanks gap_blank]
          rfl
      _ = argumentsFrom false (some argument) (quoteAll parts ++ after) :=
          argumentsFrom_quoted argument_plain [] _
      _ = (arguments? (quoteAll parts ++ after)).map (argument :: ·) :=
          argumentsFrom_ended stops argument
      _ = some (((gap, argument) :: parts).map Prod.snd) := by
          rw [later]
          rfl

end quoteAll

/-! ## What a line is read as -/

/-- A line has no arguments to give exactly if its quotes are odd in number, for then one is left
open. Else its arguments are its runs between separators, in order and without their quotes. So
texts without quotes that are written between quotes, with blanks between them, are read as they
are, and only a line of blanks is read as no argument at all. -/
theorem arguments_are_runs (chars : List Char) :
    (arguments? chars = none ↔ Odd (chars.count '"')) ∧
    (∀ args, arguments? chars = some args ↔ Even (chars.count '"') ∧
      ∃ runs, RunsFrom chars 0 runs ∧ runs.map (Span.unquoted chars) = args) ∧
    (∀ parts after, chars = quoteAll parts ++ after →
      (∀ part ∈ parts, ∀ c ∈ part.1, isBlank c = true) → (∀ part ∈ parts.tail, part.1 ≠ []) →
      (∀ part ∈ parts, '"' ∉ part.2) → (∀ c ∈ after, isBlank c = true) →
      arguments? chars = some (parts.map Prod.snd)) ∧
    (arguments? chars = some [] ↔ trim chars = []) := by
  refine ⟨arguments?_eq_none_iff, fun args => arguments?_eq_some_iff, ?_,
    arguments?_eq_some_nil_iff⟩
  rintro parts after rfl blank apart plain blank_after
  exact arguments?_quoteAll blank apart plain blank_after

/-- Nothing at all, a blank and a number sign are kept between quotes. -/
theorem arguments_are_runs_kept :
    let parts := [([], []), ([' ', '\t'], ['a', ' ', 'b']), ([' '], ['#'])]
    let chars := "\"\" \t\"a b\" \"#\" ".toList
    chars = quoteAll parts ++ [' '] ∧ (∀ part ∈ parts, ∀ c ∈ part.1, isBlank c = true) ∧
      (∀ part ∈ parts.tail, part.1 ≠ []) ∧ (∀ part ∈ parts, '"' ∉ part.2) ∧
      (∀ c ∈ [' '], isBlank c = true) ∧ ¬ Odd (chars.count '"') ∧ trim chars ≠ [] ∧
      arguments? chars = some [[], ['a', ' ', 'b'], ['#']] := by
  intro parts chars
  have split : chars = quoteAll parts ++ [' '] := by decide
  have blank : ∀ part ∈ parts, ∀ c ∈ part.1, isBlank c = true := by
    simp only [parts, List.forall_mem_cons, List.not_mem_nil, false_implies, implies_true]
    decide
  have apart : ∀ part ∈ parts.tail, part.1 ≠ [] := by decide
  have plain : ∀ part ∈ parts, '"' ∉ part.2 := by decide
  have blank_after : ∀ c ∈ [' '], isBlank c = true := List.forall_mem_singleton.mpr rfl
  obtain ⟨open_iff, -, quoted, nothing_iff⟩ := arguments_are_runs chars
  have read := quoted parts [' '] split blank apart plain blank_after
  refine ⟨split, blank, apart, plain, blank_after, fun odd => ?_, fun nothing => ?_, read⟩
  · exact nomatch read.symm.trans (open_iff.mpr odd)
  · exact nomatch read.symm.trans (nothing_iff.mpr nothing)

/-- Quotes may stand anywhere in an argument. -/
example : arguments? "a\"b c\"d e".toList = some ["ab cd".toList, "e".toList] := by decide

end Settings

end HashGateway
