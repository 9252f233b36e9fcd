import HashGateway.Proofs.Json.Readers
import HashGateway.Proofs.Json.Rendering
import Mathlib.Data.List.Forall2

/-!
# Values that are read as they were written

A floating point number need not be read as the number that was written, and a member of an object
may be hidden by a later one of the same name. Apart from that nothing is lost: a value of integers,
with its members in order, is read back from its own text, unless it nests too deep for the reader.
Every value that has been read has its members in order.

## Main definitions

* `Json.Value.parts`, `Json.Value.depth` — the values inside a value, and how deep they nest
* `Json.Value.IsWhole`, `Json.Value.IsOrdered` — all numbers are integers, all members in order
* `Json.Tree.Mirrors` — a tree that is written for a value and read as it

## Main results

* `Json.exists_mirrors` — values of integers with their members in order have such a tree
* `Json.parseText_text` — they are read from their own text
* `Json.isOrdered_of_parse` — what is read has its members in order
-/

namespace HashGateway.Json

/-! ## The parts of a value -/

mutual

/-- The values inside a value, itself among them. -/
def Value.parts : Value → List Value
  | .array vs => .array vs :: itemsParts vs
  | .object ps => .object ps :: membersParts ps
  | v => [v]

/-- The values inside the items of a list. -/
def itemsParts : List Value → List Value
  | [] => []
  | v :: vs => v.parts ++ itemsParts vs

/-- The values inside the members of an object. -/
def membersParts : List (String × Value) → List Value
  | [] => []
  | (_, v) :: ps => v.parts ++ membersParts ps

end

mutual

/-- How many lists and objects stand inside each other. -/
def Value.depth : Value → Nat
  | .array vs => valuesDepth vs + 1
  | .object ps => entriesDepth ps + 1
  | _ => 0

/-- The largest depth of the items of a list. -/
def valuesDepth : List Value → Nat
  | [] => 0
  | v :: vs => max v.depth (valuesDepth vs)

/-- The largest depth of the members of an object. -/
def entriesDepth : List (String × Value) → Nat
  | [] => 0
  | (_, v) :: ps => max v.depth (entriesDepth ps)

end

/-- A number is an integer of 64 bits, with or without a sign. -/
def Number.IsWhole (n : Number) : Prop :=
  ∃ i : Int, n = .int i ∧ -(Numeral.half64 : Int) ≤ i ∧ i ≤ Numeral.max64

/-- All numbers inside a value are integers of 64 bits. -/
def Value.IsWhole (v : Value) : Prop := ∀ n, .number n ∈ v.parts → n.IsWhole

/-- All objects inside a value have their members in ascending order, each name once. -/
def Value.IsOrdered (v : Value) : Prop := ∀ ps, .object ps ∈ v.parts → Ordered.Ascending ps

theorem mem_itemsParts {u : Value} {vs : List Value} :
    u ∈ itemsParts vs ↔ ∃ v ∈ vs, u ∈ v.parts := by
  induction vs with
  | nil => simp [itemsParts]
  | cons v vs ih => simp [itemsParts, ih]

theorem mem_membersParts {u : Value} {ps : List (String × Value)} :
    u ∈ membersParts ps ↔ ∃ p ∈ ps, u ∈ p.2.parts := by
  induction ps with
  | nil => simp [membersParts]
  | cons p ps ih => simp [membersParts, ih]

theorem valuesDepth_le_iff {vs : List Value} {depth : Nat} :
    valuesDepth vs ≤ depth ↔ ∀ v ∈ vs, v.depth ≤ depth := by
  induction vs with
  | nil => simp [valuesDepth]
  | cons v vs ih => simp [valuesDepth, ih]

theorem entriesDepth_le_iff {ps : List (String × Value)} {depth : Nat} :
    entriesDepth ps ≤ depth ↔ ∀ p ∈ ps, p.2.depth ≤ depth := by
  induction ps with
  | nil => simp [entriesDepth]
  | cons p ps ih => simp [entriesDepth, ih]

namespace Value

variable {vs : List Value} {ps : List (String × Value)}

theorem isWhole_number {n : Number} : (Value.number n).IsWhole ↔ n.IsWhole := by
  simp [IsWhole, parts]

theorem isWhole_string (s : String) : (Value.string s).IsWhole := by simp [IsWhole, parts]

theorem isWhole_array : (Value.array vs).IsWhole ↔ ∀ v ∈ vs, v.IsWhole := by
  simp only [IsWhole, parts, List.mem_cons, reduceCtorEq, false_or, mem_itemsParts]
  exact ⟨fun h v mem n inside => h n ⟨v, mem, inside⟩, fun h n ⟨v, mem, inside⟩ => h v mem n inside⟩

theorem isWhole_object : (Value.object ps).IsWhole ↔ ∀ p ∈ ps, p.2.IsWhole := by
  simp only [IsWhole, parts, List.mem_cons, reduceCtorEq, false_or, mem_membersParts]
  exact ⟨fun h p mem n inside => h n ⟨p, mem, inside⟩, fun h n ⟨p, mem, inside⟩ => h p mem n inside⟩

theorem isOrdered_number (n : Number) : (Value.number n).IsOrdered := by simp [IsOrdered, parts]

theorem isOrdered_string (s : String) : (Value.string s).IsOrdered := by simp [IsOrdered, parts]

theorem isOrdered_array : (Value.array vs).IsOrdered ↔ ∀ v ∈ vs, v.IsOrdered := by
  simp only [IsOrdered, parts, List.mem_cons, reduceCtorEq, false_or, mem_itemsParts]
  exact ⟨fun h v mem n inside => h n ⟨v, mem, inside⟩, fun h n ⟨v, mem, inside⟩ => h v mem n inside⟩

theorem isOrdered_object :
    (Value.object ps).IsOrdered ↔ Ordered.Ascending ps ∧ ∀ p ∈ ps, p.2.IsOrdered := by
  simp only [IsOrdered, parts, List.mem_cons, Value.object.injEq, mem_membersParts]
  constructor
  · exact fun h => ⟨h ps (.inl rfl), fun p mem qs inside => h qs (.inr ⟨p, mem, inside⟩)⟩
  · rintro ⟨ascending, inside⟩ qs (rfl | ⟨p, mem, part⟩)
    · exact ascending
    · exact inside p mem qs part

end Value

/-! ## Trees that are written and read -/

/-- A tree is written for a value, and is this value as long as that does not nest too deep. -/
structure Tree.Mirrors (t : Tree) (v : Value) : Prop where
  writes : t.Writes v
  within : ∀ depth, v.depth ≤ depth → t.within depth = some v

/-- A name and a tree mirror a member of an object. -/
structure MirrorsMember (m : List Piece × Tree) (p : String × Value) : Prop where
  name : Spells m.1 p.1
  value : m.2.Mirrors p.2

theorem itemsWithin_of_mirrors {ts : List Tree} {vs : List Value} {depth : Nat}
    (h : List.Forall₂ Tree.Mirrors ts vs) (shallow : ∀ v ∈ vs, v.depth ≤ depth) :
    itemsWithin depth ts = some vs := by
  induction h with
  | nil => rfl
  | cons first _ ih =>
    rw [List.forall_mem_cons] at shallow
    rw [itemsWithin, first.within depth shallow.1, ih shallow.2]
    rfl

/-- Members in ascending order are put one behind the other. -/
theorem membersWithin_of_mirrors {ms : List (List Piece × Tree)} {before ps : List (String × Value)}
    {depth : Nat} (h : List.Forall₂ MirrorsMember ms ps)
    (ascending : Ordered.Ascending (before ++ ps)) (shallow : ∀ p ∈ ps, p.2.depth ≤ depth) :
    membersWithin depth before ms = some (before ++ ps) := by
  induction h generalizing before with
  | nil => rw [membersWithin, List.append_nil]
  | @cons m p ms ps first _ ih =>
    rw [List.forall_mem_cons] at shallow
    -- The names that have been read are all below this one.
    have below : ∀ other ∈ before, other.1 < p.1 := fun other mem =>
      (List.pairwise_append.mp ascending).2.2 other mem p (by simp)
    have moved : before ++ p :: ps = (before ++ [(p.1, p.2)]) ++ ps := by simp
    rw [moved] at ascending ⊢
    rw [membersWithin, first.name.text, first.value.within depth shallow.1]
    simp only [Option.bind_some]
    rw [Ordered.insert_of_forall_lt below]
    exact ih ascending shallow.2

theorem exists_mirrors_number {n : Number} (whole : n.IsWhole) :
    ∃ t : Tree, t.Mirrors (.number n) := by
  obtain ⟨i, rfl, least, greatest⟩ := whole
  cases i with
  | ofNat n =>
    obtain ⟨x, value, writes⟩ := exists_writes_natural (Int.ofNat_le.mp greatest)
    exact ⟨_, writes, fun depth _ => by rw [Tree.within, value]; rfl⟩
  | negSucc n =>
    -- A sign and the digits of the opposite.
    have fits : n + 1 ≤ Numeral.half64 := by omega
    obtain ⟨digits, value, read⟩ := exists_read_whole (n + 1)
    rw [← value] at fits
    refine ⟨.number true ⟨digits, [], none⟩, fun r stops => ?_, fun depth _ => ?_⟩
    · exact .minus (skipBlank_cons (by decide) _) (read r stops)
    · rw [Tree.within, number?_opposite (by omega) fits, value]
      rfl

namespace Tree.Mirrors

theorem string {ps : List Piece} {s : String} (spells : Spells ps s) :
    (Tree.string ps).Mirrors (.string s) where
  writes := .string spells
  within _ _ := by rw [Tree.within, spells.text, Option.map_some]

theorem array {ts : List Tree} {vs : List Value} (h : List.Forall₂ Tree.Mirrors ts vs) :
    (Tree.array ts).Mirrors (.array vs) where
  writes := .array (h.imp fun _ _ => Tree.Mirrors.writes)
  within depth shallow := by
    cases depth with
    | zero => simp [Value.depth] at shallow
    | succ depth =>
      have items := valuesDepth_le_iff.mp (Nat.le_of_succ_le_succ shallow)
      rw [Tree.within, itemsWithin_of_mirrors h items, Option.map_some]

theorem object {ms : List (List Piece × Tree)} {ps : List (String × Value)}
    (h : List.Forall₂ MirrorsMember ms ps) (ascending : Ordered.Ascending ps) :
    (Tree.object ms).Mirrors (.object ps) where
  writes := .object (h.imp fun _ _ member => ⟨member.name, member.value.writes⟩)
  within depth shallow := by
    cases depth with
    | zero => simp [Value.depth] at shallow
    | succ depth =>
      have members := entriesDepth_le_iff.mp (Nat.le_of_succ_le_succ shallow)
      have read : membersWithin depth [] ms = some ([] ++ ps) :=
        membersWithin_of_mirrors h ascending members
      rw [Tree.within, read, Option.map_some, List.nil_append]

end Tree.Mirrors

mutual

/-- A value of integers with its members in order has a tree that is written and read. -/
theorem exists_mirrors : (v : Value) → v.IsWhole → v.IsOrdered → ∃ t : Tree, t.Mirrors v
  | .null, _, _ =>
    ⟨.null, fun _ _ => .null (skipBlank_cons (by decide) _), fun _ _ => by rw [Tree.within]⟩
  | .bool true, _, _ =>
    ⟨.bool true, fun _ _ => .isTrue (skipBlank_cons (by decide) _),
      fun _ _ => by rw [Tree.within]⟩
  | .bool false, _, _ =>
    ⟨.bool false, fun _ _ => .isFalse (skipBlank_cons (by decide) _),
      fun _ _ => by rw [Tree.within]⟩
  | .number _, whole, _ => exists_mirrors_number (Value.isWhole_number.mp whole)
  | .string s, _, _ =>
    have ⟨_, spells⟩ := exists_spells s
    ⟨_, .string spells⟩
  | .array vs, whole, ordered =>
    have ⟨_, items⟩ :=
      exists_mirrors_items vs (Value.isWhole_array.mp whole) (Value.isOrdered_array.mp ordered)
    ⟨_, .array items⟩
  | .object ps, whole, ordered =>
    have ⟨ascending, ordered⟩ := Value.isOrdered_object.mp ordered
    have ⟨_, members⟩ := exists_mirrors_members ps (Value.isWhole_object.mp whole) ordered
    ⟨_, .object members ascending⟩

theorem exists_mirrors_items : (vs : List Value) → (∀ v ∈ vs, v.IsWhole) →
    (∀ v ∈ vs, v.IsOrdered) → ∃ ts, List.Forall₂ Tree.Mirrors ts vs
  | [], _, _ => ⟨[], .nil⟩
  | v :: vs, whole, ordered =>
    have ⟨whole, wholes⟩ := List.forall_mem_cons.mp whole
    have ⟨ordered, ordereds⟩ := List.forall_mem_cons.mp ordered
    have ⟨_, first⟩ := exists_mirrors v whole ordered
    have ⟨_, rest⟩ := exists_mirrors_items vs wholes ordereds
    ⟨_, .cons first rest⟩

theorem exists_mirrors_members : (ps : List (String × Value)) → (∀ p ∈ ps, p.2.IsWhole) →
    (∀ p ∈ ps, p.2.IsOrdered) → ∃ ms, List.Forall₂ MirrorsMember ms ps
  | [], _, _ => ⟨[], .nil⟩
  | (name, v) :: ps, whole, ordered =>
    have ⟨whole, wholes⟩ := List.forall_mem_cons.mp whole
    have ⟨ordered, ordereds⟩ := List.forall_mem_cons.mp ordered
    have ⟨_, spells⟩ := exists_spells name
    have ⟨_, first⟩ := exists_mirrors v whole ordered
    have ⟨_, rest⟩ := exists_mirrors_members ps wholes ordereds
    ⟨(_, _) :: _, .cons ⟨spells, first⟩ rest⟩

end

/-- A value of integers with its members in order is read from its own text. -/
theorem parseText_text {v : Value} (whole : v.IsWhole) (ordered : v.IsOrdered)
    (shallow : v.depth ≤ maxDepth) : parseText v.text = .ok v := by
  obtain ⟨t, mirrors⟩ := exists_mirrors v whole ordered
  have read := mirrors.writes.document.toOption_parse
  rw [mirrors.within maxDepth shallow] at read
  exact Except.toOption_eq_some.mp read

/-! ## What is read has its members in order -/

mutual

theorem isOrdered_of_within : (t : Tree) → ∀ {depth : Nat} {v : Value},
    t.within depth = some v → v.IsOrdered
  | .null, _, _, h => by
    obtain rfl := by simpa [Tree.within] using h
    simp [Value.IsOrdered, Value.parts]
  | .bool b, _, _, h => by
    obtain rfl := by simpa [Tree.within] using h
    simp [Value.IsOrdered, Value.parts]
  | .number _ _, _, _, h => by
    rw [Tree.within] at h
    obtain ⟨n, -, rfl⟩ := Option.map_eq_some_iff.mp h
    exact Value.isOrdered_number n
  | .string ps, _, _, h => by
    rw [Tree.within] at h
    obtain ⟨s, -, rfl⟩ := Option.map_eq_some_iff.mp h
    exact Value.isOrdered_string s
  | .array ts, 0, _, h => by simp [Tree.within] at h
  | .array ts, depth + 1, _, h => by
    rw [Tree.within] at h
    obtain ⟨vs, items, rfl⟩ := Option.map_eq_some_iff.mp h
    exact Value.isOrdered_array.mpr (isOrdered_of_itemsWithin ts items)
  | .object ms, 0, _, h => by simp [Tree.within] at h
  | .object ms, depth + 1, _, h => by
    rw [Tree.within] at h
    obtain ⟨ps, members, rfl⟩ := Option.map_eq_some_iff.mp h
    have empty : (Value.object []).IsOrdered :=
      Value.isOrdered_object.mpr ⟨Ordered.ascending_nil, by simp⟩
    exact isOrdered_of_membersWithin ms empty members

theorem isOrdered_of_itemsWithin : (ts : List Tree) → ∀ {depth : Nat} {vs : List Value},
    itemsWithin depth ts = some vs → ∀ v ∈ vs, v.IsOrdered
  | [], _, _, h => by
    obtain rfl := Option.some.inj h
    simp
  | t :: ts, _, _, h => by
    rw [itemsWithin] at h
    obtain ⟨v, first, h⟩ := Option.bind_eq_some_iff.mp h
    obtain ⟨vs, rest, rfl⟩ := Option.map_eq_some_iff.mp h
    exact List.forall_mem_cons.mpr
      ⟨isOrdered_of_within t first, isOrdered_of_itemsWithin ts rest⟩

/-- A member that joins others is put at its place. -/
theorem isOrdered_of_membersWithin : (ms : List (List Piece × Tree)) →
    ∀ {depth : Nat} {before ps : List (String × Value)}, (Value.object before).IsOrdered →
      membersWithin depth before ms = some ps → (Value.object ps).IsOrdered
  | [], _, _, _, ordered, h => Option.some.inj h ▸ ordered
  | (name, t) :: ms, _, before, _, ordered, h => by
    rw [membersWithin] at h
    obtain ⟨s, -, h⟩ := Option.bind_eq_some_iff.mp h
    obtain ⟨v, value, h⟩ := Option.bind_eq_some_iff.mp h
    refine isOrdered_of_membersWithin ms ?_ h
    obtain ⟨ascending, inside⟩ := Value.isOrdered_object.mp ordered
    refine Value.isOrdered_object.mpr ⟨Ordered.pairwise_insert s v ascending, fun p mem => ?_⟩
    rcases Ordered.mem_insert mem with rfl | mem
    · exact isOrdered_of_within t value
    · exact inside p mem

end

theorem isOrdered_of_parse {bs : Bytes} {v : Value} (h : parse bs = .ok v) : v.IsOrdered := by
  obtain ⟨t, -, value⟩ := exists_document_of_parse h
  exact isOrdered_of_within t value

end HashGateway.Json
