import HashGateway.Ordered
import HashGateway.Reply

/-!
# Hashes and stores

A hash has fields with values, and a store has hashes at keys. Both keep their names
in ascending order. A hash without fields and a key without a hash are the same.

## Main definitions

* `Hash`, `Store` — the hashes, and the store of them
* `Hash.write` — a hash with some fields written
* `Hash.added` — how many of them are new
* `Store.hash`, `Store.field?` — the views of a store

## Main results

* `Hash.find?_write` — the last value that is written for a field is the one that it has
* `Hash.size_write` — a hash grows by the number of new fields
-/

namespace HashGateway

/-- A hash: its fields with their values. -/
abbrev Hash := OrderedMap String

/-- Hashes by their keys. -/
abbrev Store := OrderedMap Hash

namespace Hash

/-- A hash with some fields written one after the other. -/
def write (hash : Hash) : List (String × String) → Hash
  | [] => hash
  | (field, value) :: pairs => write (hash.insert field value) pairs

/-- How many fields are new when some are written one after the other. -/
def added (hash : Hash) : List (String × String) → Nat
  | [] => 0
  | (field, value) :: pairs =>
    (if hash.contains field then 0 else 1) + added (hash.insert field value) pairs

/-- The replies of the fields and values in turn. -/
def listing (entries : List (String × String)) : List Reply :=
  entries.flatMap fun (field, value) => [.bulk field, .bulk value]

@[simp] theorem write_nil (hash : Hash) : hash.write [] = hash := rfl

@[simp] theorem write_cons (hash : Hash) (field value : String)
    (pairs : List (String × String)) :
    hash.write ((field, value) :: pairs) = write (hash.insert field value) pairs := rfl

theorem find?_write (hash : Hash) (pairs : List (String × String)) (field : String) :
    (hash.write pairs).find? field =
      ((pairs.reverse.lookup field).or (hash.find? field)) := by
  induction pairs generalizing hash with
  | nil => rfl
  | cons pair pairs ih =>
    obtain ⟨key, value⟩ := pair
    rw [write_cons, ih, List.reverse_cons, List.lookup_append, OrderedMap.find?_insert]
    cases pairs.reverse.lookup field with
    | some v => rfl
    | none =>
      by_cases h : field = key <;> simp [List.lookup_cons, h, beq_eq_false_iff_ne.mpr]

/-- What is in a hash after a write was there before or is written. -/
theorem mem_entries_write {hash : Hash} {pairs : List (String × String)} {entry : String × String}
    (mem : entry ∈ (hash.write pairs).entries) : entry ∈ hash.entries ∨ entry ∈ pairs := by
  induction pairs generalizing hash with
  | nil => exact .inl mem
  | cons pair pairs ih =>
    obtain ⟨field, value⟩ := pair
    rcases ih mem with held | later
    · rcases Ordered.mem_insert held with rfl | held
      · exact .inr List.mem_cons_self
      · exact .inl held
    · exact .inr (List.mem_cons_of_mem _ later)

/-- A write adds the fields that it writes, and keeps all others. -/
theorem contains_write_iff {hash : Hash} {pairs : List (String × String)} {field : String} :
    (hash.write pairs).contains field = true ↔
      field ∈ pairs.map Prod.fst ∨ hash.contains field = true := by
  -- The fields are written in turn, so the hash is not fixed in the induction.
  induction pairs generalizing hash with
  | nil => simp
  | cons pair pairs ih =>
    obtain ⟨key, value⟩ := pair
    have first : (hash.insert key value).contains field = true ↔
        field = key ∨ hash.contains field = true := by
      rw [OrderedMap.contains, OrderedMap.find?_insert]
      split <;> simp [*, OrderedMap.contains]
    rw [write_cons, ih, first, List.map_cons, List.mem_cons, or_left_comm, or_assoc]

theorem size_write (hash : Hash) (pairs : List (String × String)) :
    (hash.write pairs).size = hash.size + hash.added pairs := by
  induction pairs generalizing hash with
  | nil => rfl
  | cons pair pairs ih =>
    obtain ⟨field, value⟩ := pair
    rw [write_cons, ih, added, OrderedMap.size_insert]
    omega

end Hash

namespace Store

/-- The hash at a key; a key without one has the hash without fields. -/
def hash (store : Store) (key : String) : Hash := (store.find? key).getD OrderedMap.empty

/-- The value of a field of the hash at a key. -/
def field? (store : Store) (key field : String) : Option String := (store.hash key).find? field

theorem hash_insert (store : Store) (key key' : String) (h : Hash) :
    Store.hash (OrderedMap.insert store key h) key' =
      if key' = key then h else store.hash key' := by
  simp only [hash, OrderedMap.find?_insert]
  split <;> rfl

end Store

end HashGateway
