import HashGateway.Proofs.Json.Strings
import Mathlib.Tactic.Tauto

/-!
# The grammar of JSON

What makes bytes a document, whatever its parts mean. A document has a tree, and the tree
keeps all that the bytes say: the digits of its numbers, the pieces of its strings, its
members in their order. Whether a tree has a value, and which one, is a question of the
tree alone.

## Main definitions

* `Json.Tree`, `Json.Begins` — trees, and the bytes that begin with one
* `Json.Document` — the bytes that have a tree and nothing else
* `Json.Tree.within` — the value of a tree whose nesting is limited
* `Json.Tree.Sound` — a tree has limited nesting, numbers within range and paired surrogates

## Main results

* `Json.Begins.of_append` — blanks that follow do not matter
* `Json.Begins.ends` — a list or an object ends with a bracket or a brace
* `Json.Tree.isSome_within_iff` — the sound trees are those with a value
-/

namespace HashGateway.Json

/-! ## Trees -/

/-- The tree of a document. -/
inductive Tree
  | null
  | bool (b : Bool)
  | number (negative : Bool) (figures : Figures)
  | string (pieces : List Piece)
  | array (items : List Tree)
  | object (members : List (List Piece × Tree))

mutual

/-- The value of a tree with at most `depth` lists and objects inside each other. There is none
if a number is out of range or a string has no text. -/
def Tree.within (depth : Nat) : Tree → Option Value
  | .null => some .null
  | .bool b => some (.bool b)
  | .number negative figures => (figures.number? negative).map .number
  | .string ps => (text? ps).map .string
  | .array ts =>
    match depth with
    | 0 => none
    | depth + 1 => (itemsWithin depth ts).map .array
  | .object ms =>
    match depth with
    | 0 => none
    | depth + 1 => (membersWithin depth [] ms).map .object

/-- The values of the items of a list. -/
def itemsWithin (depth : Nat) : List Tree → Option (List Value)
  | [] => some []
  | t :: ts => (t.within depth).bind fun v => (itemsWithin depth ts).map (v :: ·)

/-- The values of the members of an object, put to those of earlier ones. -/
def membersWithin (depth : Nat) (members : List (String × Value)) :
    List (List Piece × Tree) → Option (List (String × Value))
  | [] => some members
  | (ps, t) :: ms => (text? ps).bind fun name => (t.within depth).bind fun v =>
    membersWithin depth (Ordered.insert name v members) ms

end

mutual

/-- How many lists and objects stand inside each other. -/
def Tree.depth : Tree → Nat
  | .array ts => itemsDepth ts + 1
  | .object ms => membersDepth ms + 1
  | _ => 0

/-- The largest depth of the items of a list. -/
def itemsDepth : List Tree → Nat
  | [] => 0
  | t :: ts => max t.depth (itemsDepth ts)

/-- The largest depth of the members of an object. -/
def membersDepth : List (List Piece × Tree) → Nat
  | [] => 0
  | (_, t) :: ms => max t.depth (membersDepth ms)

end

mutual

/-- The numbers of a tree, with their signs. -/
def Tree.numbers : Tree → List (Bool × Figures)
  | .number negative figures => [(negative, figures)]
  | .array ts => itemsNumbers ts
  | .object ms => membersNumbers ms
  | _ => []

/-- The numbers of the items of a list. -/
def itemsNumbers : List Tree → List (Bool × Figures)
  | [] => []
  | t :: ts => t.numbers ++ itemsNumbers ts

/-- The numbers of the members of an object. -/
def membersNumbers : List (List Piece × Tree) → List (Bool × Figures)
  | [] => []
  | (_, t) :: ms => t.numbers ++ membersNumbers ms

end

mutual

/-- The strings of a tree, names of members among them. -/
def Tree.strings : Tree → List (List Piece)
  | .string ps => [ps]
  | .array ts => itemsStrings ts
  | .object ms => membersStrings ms
  | _ => []

/-- The strings of the items of a list. -/
def itemsStrings : List Tree → List (List Piece)
  | [] => []
  | t :: ts => t.strings ++ itemsStrings ts

/-- The strings of the members of an object, with their names. -/
def membersStrings : List (List Piece × Tree) → List (List Piece)
  | [] => []
  | (ps, t) :: ms => ps :: (t.strings ++ membersStrings ms)

end

/-! ## Bytes -/

/-- A part of a document: a value, or what is left of a list or of an object. -/
inductive Part
  | value (t : Tree)
  | items (first : Bool) (ts : List Tree)
  | members (first : Bool) (ms : List (List Piece × Tree))

/-- The strings of a part of a document. -/
def Part.strings : Part → List (List Piece)
  | .value t => t.strings
  | .items _ ts => itemsStrings ts
  | .members _ ms => membersStrings ms

/-- The bytes after the comma before an item or a member; the first one has none. -/
def Separated (first : Bool) (bs r : Bytes) : Prop :=
  if first then bs = r else skipBlank bs = 0x2C :: r

/-- Bytes begin with a part of a document, and others follow. -/
inductive Begins : Part → Bytes → Bytes → Prop
  | null {bs r : Bytes} (h : skipBlank bs = 0x6E :: (nullRest ++ r)) : Begins (.value .null) bs r
  | isTrue {bs r : Bytes} (h : skipBlank bs = 0x74 :: (trueRest ++ r)) :
      Begins (.value (.bool true)) bs r
  | isFalse {bs r : Bytes} (h : skipBlank bs = 0x66 :: (falseRest ++ r)) :
      Begins (.value (.bool false)) bs r
  | minus {bs m r : Bytes} {figures : Figures} (h : skipBlank bs = 0x2D :: m)
      (read : Figures.read m = .ok (figures, r)) : Begins (.value (.number true figures)) bs r
  | number {b : UInt8} {bs m r : Bytes} {figures : Figures} (h : skipBlank bs = b :: m)
      (digit : (digit? b).isSome = true) (read : Figures.read (b :: m) = .ok (figures, r)) :
      Begins (.value (.number false figures)) bs r
  | string {bs m r : Bytes} {ps : List Piece} (h : skipBlank bs = 0x22 :: m)
      (quoted : Quoted m ps r) : Begins (.value (.string ps)) bs r
  | array {bs m r : Bytes} {ts : List Tree} (h : skipBlank bs = 0x5B :: m)
      (items : Begins (.items true ts) m r) : Begins (.value (.array ts)) bs r
  | object {bs m r : Bytes} {ms : List (List Piece × Tree)} (h : skipBlank bs = 0x7B :: m)
      (members : Begins (.members true ms) m r) : Begins (.value (.object ms)) bs r
  | noItem {first : Bool} {bs r : Bytes} (h : skipBlank bs = 0x5D :: r) :
      Begins (.items first []) bs r
  | item {first : Bool} {bs m m' r : Bytes} {t : Tree} {ts : List Tree}
      (separated : Separated first bs m) (value : Begins (.value t) m m')
      (rest : Begins (.items false ts) m' r) : Begins (.items first (t :: ts)) bs r
  | noMember {first : Bool} {bs r : Bytes} (h : skipBlank bs = 0x7D :: r) :
      Begins (.members first []) bs r
  | member {first : Bool} {bs m q c v m' r : Bytes} {ps : List Piece} {t : Tree}
      {ms : List (List Piece × Tree)} (separated : Separated first bs m)
      (name : skipBlank m = 0x22 :: q) (quoted : Quoted q ps c)
      (colon : skipBlank c = 0x3A :: v) (value : Begins (.value t) v m')
      (rest : Begins (.members false ms) m' r) : Begins (.members first ((ps, t) :: ms)) bs r

/-- Bytes are a document with this tree: nothing but blanks follows it. -/
def Document (t : Tree) (bs : Bytes) : Prop :=
  ∃ r, Begins (.value t) bs r ∧ skipBlank r = []

/-! ## What is read and what is left -/

theorem isText_of_skipBlank {b : UInt8} {bs r : Bytes} (h : skipBlank bs = b :: r)
    (small : b.toNat < 0x80) (text : Utf8.IsText bs) : Utf8.IsText r := by
  obtain ⟨w, blank, cut⟩ := exists_blank_append_skipBlank bs
  rw [cut, h] at text
  exact (text.split small).2

namespace Separated

variable {first : Bool} {bs r w : Bytes}

theorem leaves_trans (h : Separated first bs r) {m : Bytes} (h' : Leaves r m) : Leaves bs m := by
  cases first with
  | true =>
    obtain rfl : bs = r := h
    exact h'
  | false => exact (Leaves.of_skipBlank (b := 0x2C) h).trans h'

theorem of_append (blank : Blank w) (h : Separated first (bs ++ w) r) :
    ∃ m, r = m ++ w ∧ Separated first bs m := by
  cases first with
  | true => exact ⟨bs, Eq.symm h, rfl⟩
  | false =>
    obtain ⟨m, read, left⟩ := skipBlank_of_append (b := 0x2C) blank h
    exact ⟨m, left, read⟩

theorem isText (h : Separated first bs r) (text : Utf8.IsText bs) : Utf8.IsText r := by
  cases first with
  | true =>
    obtain rfl : bs = r := h
    exact text
  | false => exact isText_of_skipBlank (b := 0x2C) h (by decide) text

end Separated

namespace Begins

variable {part : Part} {t : Tree} {bs r w : Bytes}

theorem leaves (h : Begins part bs r) : Leaves bs r := by
  -- Every part is read off the front of what it is read from, and takes a byte at least.
  induction h with
  | null h => exact (Leaves.of_skipBlank h).trans ⟨_, by decide, rfl⟩
  | isTrue h => exact (Leaves.of_skipBlank h).trans ⟨_, by decide, rfl⟩
  | isFalse h => exact (Leaves.of_skipBlank h).trans ⟨_, by decide, rfl⟩
  | minus h read =>
    obtain ⟨c, nonempty, -, cut⟩ := Figures.exists_read_append read
    exact (Leaves.of_skipBlank h).trans ⟨c, nonempty, cut⟩
  | @number _ bs _ _ _ h _ read =>
    obtain ⟨c, nonempty, -, cut⟩ := Figures.exists_read_append read
    obtain ⟨w, -, front⟩ := exists_blank_append_skipBlank bs
    exact ⟨w ++ c, by simp [nonempty], by rw [front, h, cut, List.append_assoc]⟩
  | string h quoted => exact (Leaves.of_skipBlank h).trans quoted.leaves
  | array h _ ih => exact (Leaves.of_skipBlank h).trans ih
  | object h _ ih => exact (Leaves.of_skipBlank h).trans ih
  | noItem h => exact Leaves.of_skipBlank h
  | item separated _ _ ih ih' => exact separated.leaves_trans (ih.trans ih')
  | noMember h => exact Leaves.of_skipBlank h
  | member separated name quoted colon _ _ ih ih' =>
    refine separated.leaves_trans ((Leaves.of_skipBlank name).trans (quoted.leaves.trans ?_))
    exact (Leaves.of_skipBlank colon).trans (ih.trans ih')

/-- Blanks that follow make no difference. -/
theorem of_append (blank : Blank w) (h : Begins part (bs ++ w) r) :
    ∃ m, r = m ++ w ∧ Begins part bs m := by
  -- Each part takes bytes from the front, and the blanks at the end are never taken.
  generalize whole : bs ++ w = x at h
  induction h generalizing bs with
  | null h =>
    subst whole
    obtain ⟨m, read, left⟩ := skipBlank_of_append blank h
    obtain ⟨m', rfl, after⟩ := append_eq_append_blank blank (by simp [nullRest, isSpace]) left
    exact ⟨m', after, .null read⟩
  | isTrue h =>
    subst whole
    obtain ⟨m, read, left⟩ := skipBlank_of_append blank h
    obtain ⟨m', rfl, after⟩ := append_eq_append_blank blank (by simp [trueRest, isSpace]) left
    exact ⟨m', after, .isTrue read⟩
  | isFalse h =>
    subst whole
    obtain ⟨m, read, left⟩ := skipBlank_of_append blank h
    obtain ⟨m', rfl, after⟩ := append_eq_append_blank blank (by simp [falseRest, isSpace]) left
    exact ⟨m', after, .isFalse read⟩
  | minus h read =>
    subst whole
    obtain ⟨m, first, rfl⟩ := skipBlank_of_append blank h
    obtain ⟨m', read, left⟩ := Figures.read_of_append blank read
    exact ⟨m', left, .minus first read⟩
  | number h digit read =>
    subst whole
    obtain ⟨m, first, rfl⟩ := skipBlank_of_append blank h
    obtain ⟨m', read, left⟩ := Figures.read_of_append blank (List.cons_append ▸ read)
    exact ⟨m', left, .number first digit read⟩
  | string h quoted =>
    subst whole
    obtain ⟨m, read, rfl⟩ := skipBlank_of_append blank h
    obtain ⟨m', left, quoted⟩ := quoted.of_append blank
    exact ⟨m', left, .string read quoted⟩
  | array h _ ih =>
    subst whole
    obtain ⟨m, read, rfl⟩ := skipBlank_of_append blank h
    obtain ⟨m', left, items⟩ := ih rfl
    exact ⟨m', left, .array read items⟩
  | object h _ ih =>
    subst whole
    obtain ⟨m, read, rfl⟩ := skipBlank_of_append blank h
    obtain ⟨m', left, members⟩ := ih rfl
    exact ⟨m', left, .object read members⟩
  | noItem h =>
    subst whole
    obtain ⟨m, read, left⟩ := skipBlank_of_append blank h
    exact ⟨m, left, .noItem read⟩
  | item separated _ _ ih ih' =>
    subst whole
    obtain ⟨m, rfl, apart⟩ := separated.of_append blank
    obtain ⟨m', rfl, value⟩ := ih rfl
    obtain ⟨m'', left, rest⟩ := ih' rfl
    exact ⟨m'', left, .item apart value rest⟩
  | noMember h =>
    subst whole
    obtain ⟨m, read, left⟩ := skipBlank_of_append blank h
    exact ⟨m, left, .noMember read⟩
  | member separated name quoted colon _ _ ih ih' =>
    subst whole
    obtain ⟨m, rfl, apart⟩ := separated.of_append blank
    obtain ⟨q, name', rfl⟩ := skipBlank_of_append blank name
    obtain ⟨c, rfl, quoted'⟩ := quoted.of_append blank
    obtain ⟨v, colon', rfl⟩ := skipBlank_of_append blank colon
    obtain ⟨m', rfl, value⟩ := ih rfl
    obtain ⟨m'', left, rest⟩ := ih' rfl
    exact ⟨m'', left, .member apart name' quoted' colon' value rest⟩

/-- A list and an object end with a bracket and a brace. -/
theorem ends (h : Begins part bs r) :
    match part with
    | .value _ => True
    | .items _ _ => ∃ c, bs = c ++ 0x5D :: r
    | .members _ _ => ∃ c, bs = c ++ 0x7D :: r := by
  induction h with
  | @noItem _ bs _ h =>
    obtain ⟨w, -, cut⟩ := exists_blank_append_skipBlank bs
    exact ⟨w, by rw [cut, h]⟩
  | item separated value _ _ ih =>
    obtain ⟨c, rfl⟩ := ih
    obtain ⟨c', -, rfl⟩ := separated.leaves_trans value.leaves
    exact ⟨c' ++ c, (List.append_assoc _ _ _).symm⟩
  | @noMember _ bs _ h =>
    obtain ⟨w, -, cut⟩ := exists_blank_append_skipBlank bs
    exact ⟨w, by rw [cut, h]⟩
  | member separated name quoted colon value _ _ ih =>
    obtain ⟨c, rfl⟩ := ih
    have read := quoted.leaves.trans ((Leaves.of_skipBlank colon).trans value.leaves)
    obtain ⟨c', -, rfl⟩ := separated.leaves_trans ((Leaves.of_skipBlank name).trans read)
    exact ⟨c' ++ c, (List.append_assoc _ _ _).symm⟩
  | _ => trivial

/-- The strings of a text denote texts, and what follows is a text. -/
theorem isText (h : Begins part bs r) (text : Utf8.IsText bs) :
    Utf8.IsText r ∧ ∀ ps ∈ part.strings, ∀ t, denote ps = some t → Utf8.IsText t := by
  have number {m r : Bytes} {x : Figures} (read : Figures.read m = .ok (x, r))
      (text : Utf8.IsText m) : Utf8.IsText r := by
    obtain ⟨c, -, small, rfl⟩ := Figures.exists_read_append read
    exact (Utf8.isText_append_iff small).mp text
  have string {m r : Bytes} {ps : List Piece} (quoted : Quoted m ps r) (text : Utf8.IsText m) :
      ∀ t, denote ps = some t → Utf8.IsText t := fun t denoted => by
    simpa using quoted.isText (p := []) text denoted
  -- Only strings may hold bytes above `0x7F`; what else is read is cut off at smaller ones.
  induction h with
  | null h =>
    have rest := isText_of_skipBlank h (by decide) text
    exact ⟨(Utf8.isText_append_iff (by simp [nullRest])).mp rest,
      by simp [Part.strings, Tree.strings]⟩
  | isTrue h =>
    have rest := isText_of_skipBlank h (by decide) text
    exact ⟨(Utf8.isText_append_iff (by simp [trueRest])).mp rest,
      by simp [Part.strings, Tree.strings]⟩
  | isFalse h =>
    have rest := isText_of_skipBlank h (by decide) text
    exact ⟨(Utf8.isText_append_iff (by simp [falseRest])).mp rest,
      by simp [Part.strings, Tree.strings]⟩
  | minus h read =>
    have rest := isText_of_skipBlank h (by decide) text
    exact ⟨number read rest, by simp [Part.strings, Tree.strings]⟩
  | number h digit read =>
    obtain ⟨d, digit⟩ := Option.isSome_iff_exists.mp digit
    have small := toNat_lt_of_digit? digit
    have rest := isText_of_skipBlank h small text
    exact ⟨number read ((Utf8.isText_cons_iff small).mpr rest),
      by simp [Part.strings, Tree.strings]⟩
  | string h quoted =>
    have rest := isText_of_skipBlank h (by decide) text
    refine ⟨quoted.isText_rest (p := []) rest, ?_⟩
    simpa [Part.strings, Tree.strings] using string quoted rest
  | array h _ ih => exact ih (isText_of_skipBlank h (by decide) text)
  | object h _ ih => exact ih (isText_of_skipBlank h (by decide) text)
  | noItem h =>
    exact ⟨isText_of_skipBlank h (by decide) text, by simp [Part.strings, itemsStrings]⟩
  | item separated _ _ ih ih' =>
    obtain ⟨after, inside⟩ := ih (separated.isText text)
    obtain ⟨rest, others⟩ := ih' after
    refine ⟨rest, fun ps mem => ?_⟩
    exact (List.mem_append.mp mem).elim (inside ps) (others ps)
  | noMember h =>
    exact ⟨isText_of_skipBlank h (by decide) text, by simp [Part.strings, membersStrings]⟩
  | member separated name quoted colon _ _ ih ih' =>
    have opened := isText_of_skipBlank name (by decide) (separated.isText text)
    have named := quoted.isText_rest (p := []) opened
    obtain ⟨after, inside⟩ := ih (isText_of_skipBlank colon (by decide) named)
    obtain ⟨rest, others⟩ := ih' after
    refine ⟨rest, fun ps mem => ?_⟩
    rcases List.mem_cons.mp mem with rfl | mem
    · exact string quoted opened
    · exact (List.mem_append.mp mem).elim (inside ps) (others ps)

/-- Blanks that come first make no difference. -/
theorem of_skipBlank (h : Begins (.value t) (skipBlank bs) r) : Begins (.value t) bs r := by
  have again := skipBlank_skipBlank bs
  cases h with
  | null h => exact .null (again ▸ h)
  | isTrue h => exact .isTrue (again ▸ h)
  | isFalse h => exact .isFalse (again ▸ h)
  | minus h read => exact .minus (again ▸ h) read
  | number h digit read => exact .number (again ▸ h) digit read
  | string h quoted => exact .string (again ▸ h) quoted
  | array h items => exact .array (again ▸ h) items
  | object h members => exact .object (again ▸ h) members

end Begins

/-! ## Trees with a value -/

/-- Nesting, numbers and strings that a value may have. -/
def Admits (limit depth : Nat) (numbers : List (Bool × Figures)) (strings : List (List Piece)) :
    Prop :=
  depth ≤ limit ∧ (∀ x ∈ numbers, (x.2.number? x.1).isSome = true) ∧
    ∀ ps ∈ strings, (text? ps).isSome = true

theorem admits_append_iff {limit depth depth' : Nat} {numbers numbers' : List (Bool × Figures)}
    {strings strings' : List (List Piece)} :
    Admits limit (max depth depth') (numbers ++ numbers') (strings ++ strings') ↔
      Admits limit depth numbers strings ∧ Admits limit depth' numbers' strings' := by
  simp only [Admits, Nat.max_le, List.mem_append, or_imp, forall_and]
  tauto

theorem admits_cons_iff {limit depth : Nat} {numbers : List (Bool × Figures)} {ps : List Piece}
    {strings : List (List Piece)} : Admits limit depth numbers (ps :: strings) ↔
      (text? ps).isSome = true ∧ Admits limit depth numbers strings := by
  simp only [Admits, List.forall_mem_cons]
  tauto

theorem isSome_bind {α β : Type} (x : Option α) (f : α → Option β) :
    (x.bind f).isSome = true ↔ ∃ a, x = some a ∧ (f a).isSome = true := by
  cases x <;> simp

mutual

/-- The trees with a value are those with limited nesting, numbers within range and strings that
are texts. -/
theorem Tree.isSome_within_iff (limit : Nat) : (t : Tree) →
    ((t.within limit).isSome = true ↔ Admits limit t.depth t.numbers t.strings)
  | .null => by simp [Tree.within, Admits, Tree.depth, Tree.numbers, Tree.strings]
  | .bool _ => by simp [Tree.within, Admits, Tree.depth, Tree.numbers, Tree.strings]
  | .number _ _ => by simp [Tree.within, Admits, Tree.depth, Tree.numbers, Tree.strings]
  | .string _ => by simp [Tree.within, Admits, Tree.depth, Tree.numbers, Tree.strings]
  | .array ts => by
    -- A list takes one level of nesting and leaves the others to its items.
    cases limit with
    | zero => simp [Tree.within, Admits, Tree.depth]
    | succ limit =>
      have items := isSome_itemsWithin_iff limit ts
      simp only [Tree.within, Option.isSome_map, items, Admits, Tree.depth, Tree.numbers,
        Tree.strings, Nat.add_le_add_iff_right]
  | .object ms => by
    cases limit with
    | zero => simp [Tree.within, Admits, Tree.depth]
    | succ limit =>
      have members := isSome_membersWithin_iff limit [] ms
      simp only [Tree.within, Option.isSome_map, members, Admits, Tree.depth, Tree.numbers,
        Tree.strings, Nat.add_le_add_iff_right]

theorem isSome_itemsWithin_iff (limit : Nat) : (ts : List Tree) →
    ((itemsWithin limit ts).isSome = true ↔
      Admits limit (itemsDepth ts) (itemsNumbers ts) (itemsStrings ts))
  | [] => by simp [itemsWithin, Admits, itemsDepth, itemsNumbers, itemsStrings]
  | t :: ts => by
    have first := Tree.isSome_within_iff limit t
    have rest := isSome_itemsWithin_iff limit ts
    rw [itemsDepth, itemsNumbers, itemsStrings, admits_append_iff, ← first, ← rest, itemsWithin,
      isSome_bind]
    simp [Option.isSome_iff_exists]

theorem isSome_membersWithin_iff (limit : Nat) (members : List (String × Value)) :
    (ms : List (List Piece × Tree)) → ((membersWithin limit members ms).isSome = true ↔
      Admits limit (membersDepth ms) (membersNumbers ms) (membersStrings ms))
  | [] => by simp [membersWithin, Admits, membersDepth, membersNumbers, membersStrings]
  | (ps, t) :: ms => by
    have first := Tree.isSome_within_iff limit t
    have rest := fun members => isSome_membersWithin_iff limit members ms
    rw [membersDepth, membersNumbers, membersStrings, admits_cons_iff, admits_append_iff, ← first,
      membersWithin, isSome_bind]
    simp only [isSome_bind, rest]
    simp [Option.isSome_iff_exists]

end

/-- A tree has limited nesting, its numbers are within range, and its surrogates have partners. -/
def Tree.Sound (t : Tree) : Prop :=
  t.depth ≤ maxDepth ∧ (∀ x ∈ t.numbers, (x.2.number? x.1).isSome = true) ∧
    ∀ ps ∈ t.strings, (denote ps).isSome = true

/-- The trees of texts that have a value are the sound ones. -/
theorem Begins.isSome_within_iff {t : Tree} {bs r : Bytes} (h : Begins (.value t) bs r)
    (text : Utf8.IsText bs) : (t.within maxDepth).isSome = true ↔ t.Sound := by
  have strings : ∀ ps ∈ t.strings, ((text? ps).isSome = true ↔ (denote ps).isSome = true) := by
    intro ps mem
    have denoted := (h.isText text).2 ps mem
    cases bytes : denote ps with
    | none => simp [text?, bytes]
    | some b => simp [text?, bytes, Utf8.isText_iff_decode?.mp (denoted b bytes)]
  rw [Tree.isSome_within_iff, Admits, Tree.Sound, forall₂_congr strings]

end HashGateway.Json
