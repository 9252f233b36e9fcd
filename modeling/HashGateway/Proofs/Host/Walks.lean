import HashGateway.Host.FileTree
import HashGateway.Proofs.Results
import HashGateway.Text.Blank
import Mathlib.Data.List.DropRight

/-!
# Walks through a tree of files

Whether a file could be made is looked up along one path, the one of the folder that should hold it,
and the file is made along another one, its own. The first is written as a text and read again, and
what stands at its end and leads nowhere is left out. Both walks lead to the same folder, so what is
accepted can be made whenever its path ends in a name.

## Main definitions

* `Path.IsProper` — what holds of a path that is read from a text
* `Path.EndsInName` — the last part of a path is a name, and not empty or a dot
* `FileTree.IsFolder` — a folder stands at a place

## Main results

* `Path.ofText_text` — a path is read from its own text
* `FileTree.walk_append` — a walk along several parts is one after the other
* `FileTree.checkAppend_eq_ok_iff`, `FileTree.openForWriting_eq_ok_iff` — what is accepted, and what
  is opened
* `FileTree.exists_openForWriting_iff` — which paths that are accepted can be opened
-/

namespace HashGateway.Host

/-! ## Paths as texts -/

namespace Path

variable {path : Path} {parts before : List String} {name : String}

/-- What holds of a path that is read from a text: a slash stands in none of its parts, and only at
the root a path begins with an empty one. -/
structure IsProper (path : Path) : Prop where
  apart : ∀ part ∈ path.parts, '/' ∉ part.toList
  relative : path.absolute = false → path.parts.head? ≠ some ""

/-- The last part of a path is a name, and not empty or a dot. -/
def EndsInName (path : Path) : Prop :=
  ∃ before name, path.parts = before ++ [name] ∧ stays name = false

theorem ofText_of_absolute {text : String}
    (cut : text.toList.splitOn '/' = [] :: parts.map String.toList) (other : parts ≠ []) :
    ofText text = ⟨true, parts⟩ := by
  have whole : ([] :: parts.map String.toList).map String.ofList = "" :: parts := by
    simp [Function.comp_def]
  rw [ofText, cut, whole]
  exact if_neg (by simpa using other)

theorem ofText_of_relative {text : String}
    (cut : text.toList.splitOn '/' = parts.map String.toList)
    (first : parts.head? ≠ some "") : ofText text = ⟨false, parts⟩ := by
  have whole : (parts.map String.toList).map String.ofList = parts := by
    simp [Function.comp_def]
  rw [ofText, cut, whole]
  cases parts with
  | nil => rfl
  | cons part parts =>
    have other : part ≠ "" := fun empty => first (congrArg some empty)
    split
    · next begins => exact absurd (List.cons.inj begins).1 other
    · rfl

theorem isProper_ofText (text : String) : (ofText text).IsProper := by
  have apart : ∀ part ∈ (text.toList.splitOn '/').map String.ofList,
      '/' ∉ part.toList := by
    rintro _ mem slash
    obtain ⟨piece, cut, rfl⟩ := List.mem_map.mp mem
    rw [String.toList_ofList] at slash
    rw [List.splitOn_eq_splitOnP] at cut
    exact nomatch Text.eq_false_of_mem_splitOnP cut slash
  unfold ofText
  simp only
  -- A path from the root begins with an empty piece, which is no part of it.
  split
  · next rest begins =>
    rw [begins] at apart
    split
    · exact ⟨by simp, by simp⟩
    · exact ⟨(List.forall_mem_cons.mp apart).2, by simp⟩
  · next parts other =>
    refine ⟨apart, fun _ first => ?_⟩
    obtain ⟨rest, cut⟩ := List.head?_eq_some_iff.mp first
    exact other rest cut

/-- A path without its last parts is one that a text could write. -/
theorem IsProper.of_isPrefix (proper : path.IsProper) (before : parts <+: path.parts) :
    IsProper ⟨path.absolute, parts⟩ where
  apart part mem := proper.apart part (before.mem mem)
  relative relative first := by
    obtain ⟨rest, rfl⟩ := List.head?_eq_some_iff.mp first
    obtain ⟨after, cut⟩ := before
    exact proper.relative relative (by rw [← cut]; rfl)

/-- A path is read from its own text, if it has parts. -/
theorem ofText_text (proper : path.IsProper) (parted : path.parts ≠ []) :
    ofText path.text = path := by
  obtain ⟨absolute, parts⟩ := path
  have joined : ("/".intercalate parts).toList.splitOn '/' = parts.map String.toList := by
    rw [String.toList_intercalate]
    refine List.splitOn_intercalate '/' (fun piece mem => ?_) (by simpa using parted)
    obtain ⟨part, own, rfl⟩ := List.mem_map.mp mem
    exact proper.apart part own
  -- The slash of the root makes one more piece, before the parts.
  cases absolute with
  | true =>
    refine ofText_of_absolute ?_ parted
    rw [text, if_pos rfl, String.toList_append]
    exact (List.splitOn_cons_eq_if_modifyHead '/' _).trans
      ((if_pos (beq_self_eq_true '/')).trans (congrArg _ joined))
  | false =>
    refine ofText_of_relative ?_ (proper.relative rfl)
    rw [text, if_neg Bool.false_ne_true, if_neg (by simpa using parted)]
    exact joined

theorem trimmed_isPrefix (parts : List String) : trimmed parts <+: parts :=
  ⟨_, List.rdropWhile_append_rtakeWhile⟩

theorem parent_of_endsInName (ends : path.parts = before ++ [name]) (leads : stays name = false) :
    path.parent = ⟨path.absolute, trimmed before⟩ := by
  have whole : trimmed (before ++ [name]) = before ++ [name] :=
    List.rdropWhile_concat_neg _ _ _ (by simp [leads])
  rw [parent, ends, whole, List.dropLast_concat]

end Path

/-! ## Nodes -/

theorem Node.at?_append (node : Node) (p q : Place) :
    node.at? (p ++ q) = (node.at? p).bind (·.at? q) := by
  induction p generalizing node with
  | nil => simp [at?]
  | cons name p ih =>
    cases node with
    | file content => simp [at?]
    | folder entries =>
      rw [List.cons_append, at?, at?]
      cases Ordered.find? name entries with
      | none => rfl
      | some child => exact ih child

namespace FileTree

variable {tree : FileTree} {place goal : Place} {part name text : String} {parts : List String}

/-- A folder stands at a place. -/
def IsFolder (tree : FileTree) (place : Place) : Prop :=
  ∃ entries, tree.node? place = some (.folder entries)

theorem node?_concat {entries : List (String × Node)}
    (folder : tree.node? place = some (.folder entries)) (name : String) :
    tree.node? (place ++ [name]) = Ordered.find? name entries := by
  rw [node?] at folder
  rw [node?, Node.at?_append, folder, Option.bind_some, Node.at?]
  cases Ordered.find? name entries <;> simp [Node.at?]

/-- What a folder stands in is a folder. -/
theorem IsFolder.dropLast (folder : tree.IsFolder place) : tree.IsFolder place.dropLast := by
  rcases List.eq_nil_or_concat place with rfl | ⟨above, name, rfl⟩
  · exact folder
  · obtain ⟨entries, here⟩ := folder
    rw [node?, List.concat_eq_append, Node.at?_append, Option.bind_eq_some_iff] at here
    obtain ⟨node, found, below⟩ := here
    rw [List.concat_eq_append, List.dropLast_concat]
    cases node with
    | file content => exact nomatch below
    | folder entries => exact ⟨entries, found⟩

/-! ## Steps -/

theorem isFolder_of_step (steps : tree.step place part = .ok goal) : tree.IsFolder place := by
  unfold step at steps
  split at steps
  · next entries here => exact ⟨entries, here⟩
  · exact nomatch steps
  · exact nomatch steps

theorem step_of_stays (folder : tree.IsFolder place) (stays : Path.stays part = true) :
    tree.step place part = .ok place := by
  obtain ⟨entries, here⟩ := folder
  rw [step, here]
  exact if_pos stays

theorem step_dots (folder : tree.IsFolder place) :
    tree.step place ".." = .ok place.dropLast := by
  obtain ⟨entries, here⟩ := folder
  rw [step, here]
  rfl

/-- Where names are not limited, a name leads to the entry of a folder that has it. -/
theorem step_name_eq_ok_iff (unlimited : tree.limits = none) (leads : Path.stays name = false)
    (down : name ≠ "..") :
    tree.step place name = .ok goal ↔ ∃ entries child,
      tree.node? place = some (.folder entries) ∧ Ordered.find? name entries = some child ∧
        goal = place ++ [name] := by
  have short : tree.nameTooLong name = false := by simp [nameTooLong, unlimited]
  have down {entries : List (String × Node)} (here : tree.node? place = some (.folder entries)) :
      tree.step place name =
        if (Ordered.find? name entries).isSome then .ok (place ++ [name])
        else .error .notFound := by
    rw [step, here]
    simp [leads, down, short]
  constructor
  · intro steps
    obtain ⟨entries, here⟩ := isFolder_of_step steps
    rw [down here] at steps
    split at steps
    · next present =>
      obtain ⟨child, found⟩ := Option.isSome_iff_exists.mp present
      exact ⟨entries, child, here, found, (Except.ok.inj steps).symm⟩
    · exact nomatch steps
  · rintro ⟨entries, child, here, found, rfl⟩
    rw [down here, if_pos (Option.isSome_of_eq_some found)]

/-! ## Walks -/

theorem walk_append (tree : FileTree) (place : Place) (parts later : List String) :
    tree.walk place (parts ++ later) = tree.walk place parts >>= fun p => tree.walk p later := by
  induction parts generalizing place with
  | nil => rfl
  | cons part parts ih =>
    rw [List.cons_append, walk, walk]
    cases tree.step place part with
    | ok place => exact ih place
    | error fault => rfl

theorem walk_concat_eq_ok_iff : tree.walk place (parts ++ [part]) = .ok goal ↔
    ∃ p, tree.walk place parts = .ok p ∧ tree.step p part = .ok goal := by
  rw [walk_append, Except.bind_eq_ok]
  refine exists_congr fun p => and_congr_right fun _ => ?_
  rw [walk]
  cases tree.step p part <;> simp [walk]

/-- Empty parts and single dots lead from a folder to itself. -/
theorem walk_of_stays (folder : tree.IsFolder place) (stays : ∀ p ∈ parts, Path.stays p = true) :
    tree.walk place parts = .ok place := by
  induction parts with
  | nil => rfl
  | cons part parts ih =>
    obtain ⟨here, later⟩ := List.forall_mem_cons.mp stays
    rw [walk, step_of_stays folder here]
    exact ih later

/-- A walk to a folder goes on with what leads nowhere at the end of a path. -/
theorem walk_of_trimmed (folder : tree.IsFolder goal)
    (walked : tree.walk place (Path.trimmed parts) = .ok goal) :
    tree.walk place parts = .ok goal := by
  have cut : Path.trimmed parts ++ parts.rtakeWhile Path.stays = parts :=
    List.rdropWhile_append_rtakeWhile
  rw [← cut, walk_append]
  exact Except.bind_eq_ok.mpr
    ⟨goal, walked, walk_of_stays folder fun part mem => List.mem_rtakeWhile_imp mem⟩

/-! ## Opening files -/

theorem checkText_eq_ok_iff (unlimited : tree.limits = none) :
    tree.checkText text = .ok () ↔ '\x00' ∉ text.toList ∧ text ≠ "" := by
  have short : tree.pathTooLong text = false := by simp [pathTooLong, unlimited]
  rw [checkText]
  split
  · next nul => simp [by simpa using nul]
  · next clean =>
    split
    · next empty => simp [by simpa using empty]
    · next notEmpty => simp [short, by simpa using clean, by simpa using notEmpty]

theorem resolve_eq_ok_iff (unlimited : tree.limits = none) :
    tree.resolve text = .ok place ↔ ('\x00' ∉ text.toList ∧ text ≠ "") ∧
      tree.walk (tree.start (Path.ofText text)) (Path.ofText text).parts = .ok place := by
  rw [resolve, Except.bind_eq_ok, ← checkText_eq_ok_iff unlimited]
  exact ⟨fun ⟨⟨⟩, checked, walked⟩ => ⟨checked, walked⟩,
    fun ⟨checked, walked⟩ => ⟨(), checked, walked⟩⟩

/-- The text of a path leads where its parts lead. -/
theorem walk_of_resolve_text {path : Path} (proper : path.IsProper)
    (resolved : tree.resolve path.text = .ok place) :
    tree.walk (tree.start path) path.parts = .ok place := by
  obtain ⟨⟨⟩, -, walked⟩ := Except.bind_eq_ok.mp resolved
  by_cases partless : path.parts = []
  · -- The text of a path without parts has one, which leads nowhere.
    obtain ⟨absolute, parts⟩ := path
    obtain rfl : parts = [] := partless
    have dot : ∃ part, Path.stays part = true ∧
        Path.ofText (Path.text ⟨absolute, []⟩) = ⟨absolute, [part]⟩ := by
      cases absolute with
      | true => exact ⟨"", by decide, by decide⟩
      | false => exact ⟨".", by decide, by decide⟩
    obtain ⟨part, stays, dotted⟩ := dot
    rw [dotted] at walked
    obtain ⟨p, here, steps⟩ := walk_concat_eq_ok_iff.mp (List.nil_append [part] ▸ walked)
    rw [step_of_stays (isFolder_of_step steps) stays] at steps
    exact here.trans steps
  · rwa [Path.ofText_text proper partless] at walked

theorem checkAppend_eq_ok_iff : tree.checkAppend text = .ok () ↔
    (∃ place, tree.resolve text = .ok place ∧ ¬ tree.IsFolder place) ∨
      (∀ place, tree.resolve text ≠ .ok place) ∧
        ∃ folder, tree.resolve (Path.ofText text).parent.text = .ok folder ∧
          tree.IsFolder folder := by
  -- What is there must be no folder; where nothing is, its folder must be there.
  unfold checkAppend
  split
  · next place resolved =>
    simp only [resolved, Except.ok.injEq, exists_eq_left', ne_eq, forall_eq', false_and,
      or_false]
    split
    · next entries here => simp [IsFolder, here]
    · next other =>
      exact iff_of_true rfl fun ⟨entries, here⟩ => other entries here
  · next fault failed =>
    simp only [failed, reduceCtorEq, false_and, exists_false, false_or, ne_eq, not_false_eq_true,
      implies_true, true_and]
    rw [Except.bind_eq_ok]
    refine exists_congr fun folder => and_congr_right fun _ => ?_
    split
    · next entries here => exact iff_of_true rfl ⟨entries, here⟩
    · next content here => simp [IsFolder, here, throw, throwThe, MonadExceptOf.throw]
    · next nothing => simp [IsFolder, nothing, throw, throwThe, MonadExceptOf.throw]

/-- What can be opened ends in a name. -/
theorem exists_name_of_openForWriting (opened : tree.openForWriting text = .ok place) :
    ∃ before name, (Path.ofText text).parts = before ++ [name] ∧ Path.stays name = false ∧
      name ≠ ".." := by
  obtain ⟨⟨⟩, -, opened⟩ := Except.bind_eq_ok.mp opened
  obtain ⟨folder, -, opened⟩ := Except.bind_eq_ok.mp opened
  split at opened
  · exact nomatch opened
  · exact nomatch opened
  · dsimp only at opened
    split at opened
    · exact nomatch opened
    · next other =>
      simp only [Bool.or_eq_true, decide_eq_true_eq, not_or, Bool.not_eq_true, Nat.not_lt] at other
      -- No slash has been left out, so the last part is the name.
      obtain ⟨⟨long, leads⟩, down⟩ := other
      have shorter : withoutSlashes (Path.ofText text).parts <+: (Path.ofText text).parts :=
        ⟨_, List.rdropWhile_append_rtakeWhile⟩
      have whole := shorter.eq_of_length_le long
      rw [whole] at leads down
      have parted : (Path.ofText text).parts ≠ [] := by
        intro partless
        rw [partless] at leads
        exact nomatch leads
      rw [List.getLastD_eq_getLast?, List.getLast?_eq_some_getLast parted] at leads down
      exact ⟨_, _, (List.dropLast_concat_getLast parted).symm, leads, down⟩

/-- What ends in a name is opened in the folder before it, where the name is that of no folder. -/
theorem openForWriting_eq_ok_iff (unlimited : tree.limits = none) {before : List String}
    (ends : (Path.ofText text).parts = before ++ [name]) (leads : Path.stays name = false)
    (down : name ≠ "..") :
    tree.openForWriting text = .ok place ↔ ('\x00' ∉ text.toList ∧ text ≠ "") ∧
      ∃ folder entries, tree.walk (tree.start (Path.ofText text)) before = .ok folder ∧
        tree.node? folder = some (.folder entries) ∧
        (∀ below, Ordered.find? name entries ≠ some (.folder below)) ∧
        place = folder ++ [name] := by
  have short : tree.nameTooLong name = false := by simp [nameTooLong, unlimited]
  have last : ¬ (name == "") = true := fun empty => by simp [Path.stays, empty] at leads
  have whole : withoutSlashes (Path.ofText text).parts = before ++ [name] :=
    (congrArg withoutSlashes ends).trans (List.rdropWhile_concat_neg _ _ _ last)
  have stays : ¬ (decide ((before ++ [name]).length < (before ++ [name]).length) ||
      Path.stays name || decide (name = "..")) = true := by
    simp [leads, down]
  rw [openForWriting, Except.bind_eq_ok, ← checkText_eq_ok_iff unlimited]
  dsimp only
  rw [whole, ends, List.dropLast_concat, List.getLastD_concat]
  simp only [if_neg stays, short, Bool.false_eq_true, if_false]
  -- A file that is there is opened and another one is made; only a folder is refused.
  constructor
  · rintro ⟨⟨⟩, checked, opened⟩
    obtain ⟨folder, walked, opened⟩ := Except.bind_eq_ok.mp opened
    split at opened
    · exact nomatch opened
    · exact nomatch opened
    · next entries here =>
      split at opened
      · exact nomatch opened
      · next free =>
        exact ⟨checked, folder, entries, walked, here, free, (Except.ok.inj opened).symm⟩
  · rintro ⟨checked, folder, entries, walked, here, free, rfl⟩
    refine ⟨(), checked, Except.bind_eq_ok.mpr ⟨folder, walked, ?_⟩⟩
    rw [here]
    dsimp only
    split
    · next below found => exact absurd found (free below)
    · rfl

/-! ## What is accepted -/

/-- Before the name of an accepted file stands a folder that exists, and the name leads to no folder
in it. -/
theorem exists_folder_of_checkAppend (unlimited : tree.limits = none) {before : List String}
    (accepted : tree.checkAppend text = .ok ()) (clean : '\x00' ∉ text.toList ∧ text ≠ "")
    (ends : (Path.ofText text).parts = before ++ [name]) (leads : Path.stays name = false) :
    ∃ folder, tree.walk (tree.start (Path.ofText text)) before = .ok folder ∧
      tree.IsFolder folder ∧ ∀ goal, tree.step folder name = .ok goal → ¬ tree.IsFolder goal := by
  rcases checkAppend_eq_ok_iff.mp accepted with
    ⟨place, resolved, file⟩ | ⟨unresolved, folder, resolved, here⟩
  · -- The file exists: its folder is on the way to it.
    obtain ⟨-, walked⟩ := (resolve_eq_ok_iff unlimited).mp resolved
    rw [ends] at walked
    obtain ⟨folder, walked, steps⟩ := walk_concat_eq_ok_iff.mp walked
    refine ⟨folder, walked, isFolder_of_step steps, fun goal steps' => ?_⟩
    obtain rfl := Except.ok.inj (steps.symm.trans steps')
    exact file
  · -- The file does not exist: what was looked up is the folder itself, and the name leads nowhere.
    have proper : Path.IsProper ⟨(Path.ofText text).absolute, Path.trimmed before⟩ :=
      (Path.isProper_ofText text).of_isPrefix
        (ends ▸ (Path.trimmed_isPrefix before).trans (List.prefix_append _ _))
    rw [Path.parent_of_endsInName ends leads] at resolved
    have walked : tree.walk (tree.start (Path.ofText text)) before = .ok folder :=
      walk_of_trimmed here (walk_of_resolve_text proper resolved)
    refine ⟨folder, walked, here, fun goal steps => absurd ?_ (unresolved goal)⟩
    rw [resolve_eq_ok_iff unlimited, ends]
    exact ⟨clean, walk_concat_eq_ok_iff.mpr ⟨folder, walked, steps⟩⟩

/-- What is accepted as a file that could be opened can be opened exactly if its text ends in a
name. What ends in a slash or in a dot names a folder even where there is none, and no text that
names a file holds the character that ends names. -/
theorem exists_openForWriting_iff (unlimited : tree.limits = none)
    (accepted : tree.checkAppend text = .ok ()) :
    (∃ place, tree.openForWriting text = .ok place) ↔
      '\x00' ∉ text.toList ∧ (Path.ofText text).EndsInName := by
  constructor
  · rintro ⟨place, opened⟩
    obtain ⟨before, name, parts, leads, down⟩ := exists_name_of_openForWriting opened
    obtain ⟨⟨clean, -⟩, -⟩ := (openForWriting_eq_ok_iff unlimited parts leads down).mp opened
    exact ⟨clean, before, name, parts, leads⟩
  · rintro ⟨clean, before, name, parts, leads⟩
    have nonempty : text ≠ "" := by
      rintro rfl
      have partless : (Path.ofText "").parts = [] := by decide
      simp [partless] at parts
    obtain ⟨folder, walked, here, free⟩ :=
      exists_folder_of_checkAppend unlimited accepted ⟨clean, nonempty⟩ parts leads
    -- Two dots would lead to a folder.
    have down : name ≠ ".." := by
      rintro rfl
      exact free _ (step_dots here) here.dropLast
    obtain ⟨entries, here⟩ := here
    refine ⟨folder ++ [name], (openForWriting_eq_ok_iff unlimited parts leads down).mpr
      ⟨⟨clean, nonempty⟩, folder, entries, walked, here, fun below found => ?_, rfl⟩⟩
    have steps := (step_name_eq_ok_iff unlimited leads down).mpr ⟨entries, _, here, found, rfl⟩
    exact free _ steps ⟨below, (node?_concat here name).trans found⟩

end FileTree

end HashGateway.Host
