/-!
# Maps ordered by their keys

Pairs of a text and a value, in ascending order of the texts, each text once. The
order of texts is by code point, which is also the order of their UTF-8 bytes.
Such a list is the only one with its look-ups, so two maps are equal exactly when
they answer every key alike.

## Main definitions

* `Ordered.insert` — puts a pair at its place, over an older one of the same key
* `Ordered.find?` — the value at a key
* `OrderedMap` — a list of pairs in ascending order

## Main results

* `Ordered.find?_insert` — an insertion changes the value at its own key only
* `Ordered.pairwise_insert` — an insertion keeps the order
* `OrderedMap.ext_find?` — maps with the same look-ups are equal
-/

namespace HashGateway

namespace Ordered

variable {α : Type}

/-- Puts a pair before the first larger key, or over an equal one. -/
def insert (key : String) (a : α) : List (String × α) → List (String × α)
  | [] => [(key, a)]
  | (k, b) :: rest =>
    if key < k then (key, a) :: (k, b) :: rest
    else if key = k then (key, a) :: rest
    else (k, b) :: insert key a rest

/-- The value at a key. -/
def find? (key : String) : List (String × α) → Option α
  | [] => none
  | (k, a) :: rest => if key = k then some a else find? key rest

/-- Keys in strictly ascending order. -/
def Ascending (entries : List (String × α)) : Prop :=
  entries.Pairwise (fun a b => a.1 < b.1)

theorem ascending_nil : Ascending ([] : List (String × α)) := List.Pairwise.nil

theorem find?_insert (key key' : String) (a : α) (entries : List (String × α)) :
    find? key' (insert key a entries) = if key' = key then some a else find? key' entries := by
  induction entries with
  | nil => simp [insert, find?]
  | cons entry rest ih =>
    obtain ⟨k, b⟩ := entry
    simp only [insert]
    split
    · simp only [find?]
    · split
      · next h => subst h; simp only [find?]; split <;> rfl
      · next h =>
        simp only [find?, ih]
        by_cases h' : key' = k
        · subst h'
          simp [Ne.symm h]
        · simp [h']

theorem mem_insert {key : String} {a : α} {entry : String × α} {entries : List (String × α)}
    (h : entry ∈ insert key a entries) : entry = (key, a) ∨ entry ∈ entries := by
  induction entries with
  | nil => simpa [insert] using h
  | cons first rest ih =>
    obtain ⟨k, b⟩ := first
    simp only [insert] at h
    split at h
    · simpa using h
    · split at h
      · simp only [List.mem_cons] at h ⊢
        rcases h with h | h
        · exact .inl h
        · exact .inr (.inr h)
      · simp only [List.mem_cons] at h ⊢
        rcases h with h | h
        · exact .inr (.inl h)
        · rcases ih h with h | h
          · exact .inl h
          · exact .inr (.inr h)

private theorem lt_of_not_lt_of_ne {a b : String} (h : ¬ a < b) (ne : a ≠ b) : b < a := by
  rcases Decidable.em (b < a) with h' | h'
  · exact h'
  · exact absurd (String.le_antisymm (String.not_lt.mp h') (String.not_lt.mp h)) ne

theorem pairwise_insert (key : String) (a : α) {entries : List (String × α)}
    (h : Ascending entries) : Ascending (insert key a entries) := by
  induction entries with
  | nil => simp [insert, Ascending]
  | cons first rest ih =>
    obtain ⟨k, b⟩ := first
    have ⟨below, tail⟩ := List.pairwise_cons.mp h
    -- The pair comes before the first one, takes its place, or goes into the rest.
    simp only [insert]
    split
    · next lt =>
      refine List.pairwise_cons.mpr ⟨fun entry mem => ?_, h⟩
      rcases List.mem_cons.mp mem with rfl | mem
      · exact lt
      · exact String.lt_trans lt (below entry mem)
    · split
      · next eq => subst eq; exact List.pairwise_cons.mpr ⟨below, tail⟩
      · next ge ne =>
        refine List.pairwise_cons.mpr ⟨fun entry mem => ?_, ih tail⟩
        rcases mem_insert mem with rfl | mem
        · exact lt_of_not_lt_of_ne ge ne
        · exact below entry mem

/-- What is put after all smaller keys stands at the end. -/
theorem insert_of_forall_lt {key : String} {a : α} {entries : List (String × α)}
    (h : ∀ entry ∈ entries, entry.1 < key) : insert key a entries = entries ++ [(key, a)] := by
  induction entries with
  | nil => rfl
  | cons entry rest ih =>
    obtain ⟨k, b⟩ := entry
    have lt : k < key := h (k, b) (by simp)
    have not_lt : ¬ key < k := fun lt' => String.lt_irrefl k (String.lt_trans lt lt')
    have ne : key ≠ k := fun e => String.lt_irrefl k (e ▸ lt)
    rw [insert, if_neg not_lt, if_neg ne, ih fun entry mem => h entry (by simp [mem]),
      List.cons_append]

theorem find?_eq_none_of_lt {key : String} {entries : List (String × α)}
    (h : ∀ entry ∈ entries, key < entry.1) : find? key entries = none := by
  induction entries with
  | nil => rfl
  | cons first rest ih =>
    obtain ⟨k, b⟩ := first
    have ne : key ≠ k := fun e => String.lt_irrefl k (by simpa [e] using h (k, b) (by simp))
    rw [find?, if_neg ne]
    exact ih fun entry mem => h entry (by simp [mem])

/-- In an ascending list a key has the value of its pair. -/
theorem find?_eq_some_iff {key : String} {a : α} {entries : List (String × α)}
    (h : Ascending entries) : find? key entries = some a ↔ (key, a) ∈ entries := by
  induction entries with
  | nil => simp [find?]
  | cons first rest ih =>
    obtain ⟨k, b⟩ := first
    have ⟨below, tail⟩ := List.pairwise_cons.mp h
    by_cases e : key = k
    · subst e
      have absent : (key, a) ∉ rest := fun mem => String.lt_irrefl key (below (key, a) mem)
      simp [find?, absent, eq_comm]
    · simp [find?, e, ih tail]

/-- Ascending lists with the same look-ups are equal. -/
theorem eq_of_find?_eq {as bs : List (String × α)} (ha : Ascending as) (hb : Ascending bs)
    (h : ∀ key, find? key as = find? key bs) : as = bs := by
  induction as generalizing bs with
  | nil =>
    cases bs with
    | nil => rfl
    | cons b bs => have := h b.1; simp [find?] at this
  | cons a as ih =>
    obtain ⟨k, x⟩ := a
    cases bs with
    | nil => have := h k; simp [find?] at this
    | cons b bs =>
      obtain ⟨l, y⟩ := b
      have ⟨belowA, tailA⟩ := List.pairwise_cons.mp ha
      have ⟨belowB, tailB⟩ := List.pairwise_cons.mp hb
      have memK : (k, x) ∈ (l, y) :: bs :=
        (find?_eq_some_iff hb).mp (by rw [← h]; simp [find?])
      have memL : (l, y) ∈ (k, x) :: as :=
        (find?_eq_some_iff ha).mp (by rw [h]; simp [find?])
      -- Each head is in the other list. Were they not the same, each key would be below the other.
      have heads : k = l ∧ x = y := by
        rcases List.mem_cons.mp memK with e | mem
        · simpa using e
        · rcases List.mem_cons.mp memL with e | mem'
          · simpa [eq_comm] using e
          · exact absurd (String.lt_trans (belowB _ mem) (belowA _ mem')) (String.lt_irrefl _)
      obtain ⟨rfl, rfl⟩ := heads
      congr 1
      refine ih tailA tailB fun key => ?_
      by_cases e : key = k
      · subst e
        rw [find?_eq_none_of_lt belowA, find?_eq_none_of_lt belowB]
      · simpa [find?, e] using h key

/-- An insertion adds a pair unless the key has one. -/
theorem length_insert (key : String) (a : α) {entries : List (String × α)}
    (h : Ascending entries) : (insert key a entries).length =
      entries.length + if (find? key entries).isSome then 0 else 1 := by
  induction entries with
  | nil => rfl
  | cons first rest ih =>
    obtain ⟨k, b⟩ := first
    have ⟨below, tail⟩ := List.pairwise_cons.mp h
    simp only [insert]
    split
    · -- The key is below all others, so it has no value yet.
      next lt =>
      have absent : find? key ((k, b) :: rest) = none := by
        refine find?_eq_none_of_lt fun entry mem => ?_
        rcases List.mem_cons.mp mem with rfl | mem
        · exact lt
        · exact String.lt_trans lt (below entry mem)
      simp [absent]
    · split
      · next eq => simp [find?, eq]
      · next ne =>
        rw [List.length_cons, ih tail, find?, if_neg ne, List.length_cons]
        omega

end Ordered

/-- Pairs in ascending order of their keys. -/
structure OrderedMap (α : Type) where
  entries : List (String × α)
  ascending : Ordered.Ascending entries

namespace OrderedMap

variable {α : Type}

/-- The map without pairs. -/
def empty : OrderedMap α := ⟨[], Ordered.ascending_nil⟩

/-- The value at a key. -/
def find? (m : OrderedMap α) (key : String) : Option α := Ordered.find? key m.entries

/-- The map with a value put at a key. -/
def insert (m : OrderedMap α) (key : String) (a : α) : OrderedMap α :=
  ⟨Ordered.insert key a m.entries, Ordered.pairwise_insert key a m.ascending⟩

/-- Whether a key has a value. -/
def contains (m : OrderedMap α) (key : String) : Bool := (m.find? key).isSome

/-- The number of pairs. -/
def size (m : OrderedMap α) : Nat := m.entries.length

@[simp] theorem entries_empty : (empty : OrderedMap α).entries = [] := rfl

@[simp] theorem find?_empty (key : String) : (empty : OrderedMap α).find? key = none := rfl

theorem find?_insert (m : OrderedMap α) (key key' : String) (a : α) :
    (m.insert key a).find? key' = if key' = key then some a else m.find? key' :=
  Ordered.find?_insert key key' a m.entries

@[simp] theorem find?_insert_self (m : OrderedMap α) (key : String) (a : α) :
    (m.insert key a).find? key = some a := by
  simp [find?_insert]

theorem find?_insert_of_ne (m : OrderedMap α) {key key' : String} (h : key' ≠ key) (a : α) :
    (m.insert key a).find? key' = m.find? key' := by
  simp [find?_insert, h]

theorem size_insert (m : OrderedMap α) (key : String) (a : α) :
    (m.insert key a).size = m.size + if m.contains key then 0 else 1 :=
  Ordered.length_insert key a m.ascending

/-- The keys with a value are those of the pairs. -/
theorem contains_iff {m : OrderedMap α} {key : String} :
    m.contains key = true ↔ key ∈ m.entries.map Prod.fst := by
  rw [contains, Option.isSome_iff_exists, List.mem_map]
  constructor
  · rintro ⟨a, found⟩
    exact ⟨(key, a), (Ordered.find?_eq_some_iff m.ascending).mp found, rfl⟩
  · rintro ⟨⟨_, a⟩, mem, rfl⟩
    exact ⟨a, (Ordered.find?_eq_some_iff m.ascending).mpr mem⟩

/-- Maps with the same look-ups are equal. -/
theorem ext_find? {m n : OrderedMap α} (h : ∀ key, m.find? key = n.find? key) : m = n := by
  cases m with
  | mk as ha =>
    cases n with
    | mk bs hb =>
      have : as = bs := Ordered.eq_of_find?_eq ha hb h
      subst this
      rfl

end OrderedMap

end HashGateway
