import HashGateway.Proofs.Json.Readers

/-!
# Passing over values

Whatever has a tree is passed over, and nothing of the tree is looked at: neither its
nesting, which the length of its bytes bounds, nor the range of its numbers, nor what its
strings denote.

## Main definitions

* `Json.skipMember` — passes over a member of an object

## Main results

* `Json.Begins.depth_le` — a tree is not nested deeper than it has bytes
* `Json.Begins.skipValue_eq` — exactly the bytes of a tree are passed over
-/

namespace HashGateway.Json

theorem Quoted.skipString_eq {bs r : Bytes} {ps : List Piece} (h : Quoted bs ps r) :
    skipString bs = .ok r := by
  induction h with
  | close r =>
    rw [skipString.eq_def]
    simp
  | plain quote escape control _ ih =>
    rw [skipString.eq_def]
    simpa [quote, escape, control] using ih
  | short escape _ ih =>
    rw [skipString.eq_def]
    simpa [ne_of_shortEscape? escape, escape] using ih
  | unit digits _ ih =>
    rw [skipString.eq_def]
    simpa [digits] using ih

theorem skipNumber_of_read {bs r : Bytes} {figures : Figures}
    (read : Figures.read bs = .ok (figures, r)) : skipNumber bs = .ok r := by
  simp only [skipNumber, read]

/-! ## One value -/

/-- Passes over a member of an object. -/
def skipMember (depth : Nat) (_ : Unit) (bs : Bytes) : Except Fault (Unit × Bytes) := do
  let rest ← skipString bs
  let rest ← colon rest
  skipNested depth rest

section Skip

variable {bs m r : Bytes} {b : UInt8} {figures : Figures} {depth : Nat}

/-- The first byte behind the blanks tells what is passed over. -/
theorem skipNested_of_head (h : skipBlank bs = b :: m) (depth : Nat) : skipNested depth bs =
    if b = 0x6E then (word nullRest m).map fun rest => ((), rest)
    else if b = 0x74 then (word trueRest m).map fun rest => ((), rest)
    else if b = 0x66 then (word falseRest m).map fun rest => ((), rest)
    else if b = 0x2D then (skipNumber m).map fun rest => ((), rest)
    else if (digit? b).isSome then (skipNumber (b :: m)).map fun rest => ((), rest)
    else if b = 0x22 then (skipString m).map fun rest => ((), rest)
    else if b = 0x5B then
      match depth with
      | 0 => .error .tooDeep
      | depth + 1 =>
        (readItems .skip (skipNested depth) (m.length + 1) true m).map fun (_, rest) => ((), rest)
    else if b = 0x7B then
      match depth with
      | 0 => .error .tooDeep
      | depth + 1 => readMembers .skip (skipMember depth) (m.length + 1) true () m
    else .error .expectedValue := by
  rw [skipNested.eq_def]
  simp only [h]
  rfl

theorem skipNested_skipBlank (h : skipBlank bs = b :: m) (depth : Nat) :
    skipNested depth (skipBlank bs) = skipNested depth bs := by
  have h' : skipBlank (skipBlank bs) = b :: m := by rw [skipBlank_skipBlank, h]
  rw [skipNested_of_head h, skipNested_of_head h']

theorem skipNested_minus (h : skipBlank bs = 0x2D :: m) (read : Figures.read m = .ok (figures, r)) :
    skipNested depth bs = .ok ((), r) := by
  simp [skipNested_of_head h, skipNumber_of_read read]

theorem skipNested_number (h : skipBlank bs = b :: m) (digit : (digit? b).isSome = true)
    (read : Figures.read (b :: m) = .ok (figures, r)) : skipNested depth bs = .ok ((), r) := by
  simp [skipNested_of_head h, digit, apart_of_digit? digit, skipNumber_of_read read]

theorem skipNested_string {ps : List Piece} (h : skipBlank bs = 0x22 :: m)
    (quoted : Quoted m ps r) : skipNested depth bs = .ok ((), r) := by
  simp [skipNested_of_head h, digit?, quoted.skipString_eq]

theorem skipNested_array (h : skipBlank bs = 0x5B :: m) :
    skipNested (depth + 1) bs =
      (readItems .skip (skipNested depth) (m.length + 1) true m).map
        fun (_, rest) => ((), rest) := by
  simp [skipNested_of_head h, digit?]

theorem skipNested_object (h : skipBlank bs = 0x7B :: m) :
    skipNested (depth + 1) bs =
      readMembers .skip (skipMember depth) (m.length + 1) true () m := by
  simp [skipNested_of_head h, digit?]

end Skip

theorem skipMember_eq {q c v r : Bytes} {ps : List Piece} {depth : Nat} (quoted : Quoted q ps c)
    (colon : skipBlank c = 0x3A :: v) (value : skipNested depth v = .ok ((), r)) :
    skipMember depth () q = .ok ((), r) := by
  rw [skipMember, quoted.skipString_eq]
  simp only [bind, Except.bind, colon_eq_ok_iff.mpr colon, value]

theorem Separated.length_le {first : Bool} {bs r : Bytes} (h : Separated first bs r) :
    r.length ≤ bs.length := by
  cases first with
  | true =>
    obtain rfl : bs = r := h
    exact Nat.le_refl _
  | false => exact Nat.le_of_lt (Leaves.of_skipBlank (b := 0x2C) h).length_lt

namespace Begins

/-- A part of a document is passed over if its nesting is within the limit. -/
theorem skip {part : Part} {bs r : Bytes} (h : Begins part bs r) :
    match part with
    | .value t => ∀ depth, t.depth ≤ depth → skipNested depth bs = .ok ((), r)
    | .items first ts => ∀ depth fuel, itemsDepth ts ≤ depth → bs.length < fuel →
      ∃ us, readItems .skip (skipNested depth) fuel first bs = .ok (us, r)
    | .members first ms => ∀ depth fuel, membersDepth ms ≤ depth → bs.length < fuel →
      readMembers .skip (skipMember depth) fuel first () bs = .ok ((), r) := by
  induction h with
  | null h =>
    intro depth _
    simp [skipNested_of_head h, word_eq_ok_iff.mpr rfl]
  | isTrue h =>
    intro depth _
    simp [skipNested_of_head h, word_eq_ok_iff.mpr rfl]
  | isFalse h =>
    intro depth _
    simp [skipNested_of_head h, word_eq_ok_iff.mpr rfl]
  | minus h read => exact fun _ _ => skipNested_minus h read
  | number h digit read => exact fun _ _ => skipNested_number h digit read
  | string h quoted => exact fun _ _ => skipNested_string h quoted
  | array h _ ih =>
    intro depth deep
    rw [Tree.depth] at deep
    obtain ⟨depth, rfl⟩ := Nat.exists_eq_add_one_of_ne_zero (Nat.ne_zero_of_lt deep)
    obtain ⟨us, read⟩ := ih depth _ (Nat.le_of_succ_le_succ deep) (Nat.lt_succ_self _)
    rw [skipNested_array h, read, Except.map_ok]
  | object h _ ih =>
    intro depth deep
    rw [Tree.depth] at deep
    obtain ⟨depth, rfl⟩ := Nat.exists_eq_add_one_of_ne_zero (Nat.ne_zero_of_lt deep)
    rw [skipNested_object h]
    exact ih depth _ (Nat.le_of_succ_le_succ deep) (Nat.lt_succ_self _)
  | noItem h =>
    intro depth fuel _ enough
    obtain ⟨fuel, rfl⟩ := Nat.exists_eq_add_one_of_ne_zero (Nat.ne_zero_of_lt enough)
    rw [readItems, nextItem_of_close h]
    exact ⟨[], rfl⟩
  | item separated value rest ih ih' =>
    intro depth fuel deep enough
    rw [itemsDepth] at deep
    obtain ⟨fuel, rfl⟩ := Nat.exists_eq_add_one_of_ne_zero (Nat.ne_zero_of_lt enough)
    obtain ⟨b, m, head, other⟩ := value.head
    -- An item leaves fewer bytes, so the fuel lasts for those that follow.
    have shorter := (separated.leaves_trans value.leaves).length_lt
    obtain ⟨us, read⟩ := ih' depth fuel (by omega) (by omega)
    rw [readItems_of_separated separated head other, skipNested_skipBlank head, ih depth (by omega)]
    simp only [bind, Except.bind, read]
    exact ⟨_, rfl⟩
  | noMember h =>
    intro depth fuel _ enough
    obtain ⟨fuel, rfl⟩ := Nat.exists_eq_add_one_of_ne_zero (Nat.ne_zero_of_lt enough)
    rw [readMembers, nextMember_of_close h]
    rfl
  | member separated name quoted colon value rest ih ih' =>
    intro depth fuel deep enough
    rw [membersDepth] at deep
    obtain ⟨fuel, rfl⟩ := Nat.exists_eq_add_one_of_ne_zero (Nat.ne_zero_of_lt enough)
    have read := quoted.leaves.trans ((Leaves.of_skipBlank colon).trans value.leaves)
    have shorter := (separated.leaves_trans ((Leaves.of_skipBlank name).trans read)).length_lt
    rw [readMembers_of_separated separated name,
      skipMember_eq quoted colon (ih depth (by omega))]
    simp only [bind, Except.bind]
    exact ih' depth fuel (by omega) (by omega)

/-! ## The nesting of a tree -/

/-- Each level of nesting takes a byte. -/
theorem depth_le {part : Part} {bs r : Bytes} (h : Begins part bs r) :
    match part with
    | .value t => t.depth ≤ bs.length
    | .items _ ts => itemsDepth ts ≤ bs.length
    | .members _ ms => membersDepth ms ≤ bs.length := by
  -- A bracket or brace is a byte more than what is inside, and so is every level of nesting.
  induction h with
  | array h _ ih =>
    have shorter := (Leaves.of_skipBlank h).length_lt
    simp only [Tree.depth] at ih ⊢
    omega
  | object h _ ih =>
    have shorter := (Leaves.of_skipBlank h).length_lt
    simp only [Tree.depth] at ih ⊢
    omega
  | item separated value _ ih ih' =>
    have shorter := (separated.leaves_trans value.leaves).length_lt
    have front := separated.length_le
    simp only [itemsDepth] at ih ih' ⊢
    omega
  | member separated name quoted colon value _ ih ih' =>
    have opened := (Leaves.of_skipBlank name).trans quoted.leaves
    have front := separated.leaves_trans (opened.trans (Leaves.of_skipBlank colon))
    have shorter := (front.trans value.leaves).length_lt
    have before := front.length_lt
    simp only [membersDepth] at ih ih' ⊢
    omega
  | _ => exact Nat.zero_le _

/-- Exactly the bytes of a tree are passed over. -/
theorem skipValue_eq {t : Tree} {bs r : Bytes} (h : Begins (.value t) bs r) :
    skipValue bs = .ok r := by
  rw [skipValue, h.skip _ h.depth_le, Except.map_ok]

end Begins

end HashGateway.Json
