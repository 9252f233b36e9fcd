import HashGateway.Proofs.Json.Grammar

/-!
# The readers of JSON

Both readers are held to the grammar. What is passed over begins with a tree. What is
kept has the value of its tree, and is refused if this has none.

## Main definitions

* `Json.readMember` — reads a member of an object that is kept

## Main results

* `Json.exists_begins_of_skipNested` — what is passed over begins with a tree
* `Json.Begins.toOption_read`, `Json.Document.toOption_parse` — the value of a tree is read
* `Json.exists_document_of_parse` — what is read is a document
-/

namespace HashGateway.Json

/-! ## Between items and members -/

section Next

variable {attention : Attention} {first more : Bool} {bs r : Bytes}

theorem nextItem_cases (h : nextItem attention first bs = .ok (more, r)) :
    (more = false ∧ skipBlank bs = 0x5D :: r) ∨
      (more = true ∧ ∃ m, Separated first bs m ∧ r = skipBlank m) := by
  rw [nextItem.eq_def] at h
  -- A bracket ends the list. Otherwise the first item comes at once and others after a comma.
  cases head : skipBlank bs with
  | nil => simp [head] at h
  | cons b m =>
    simp only [head] at h
    split at h
    · next close =>
      obtain ⟨rfl, rfl⟩ := Prod.mk.inj (Except.ok.inj h)
      exact .inl ⟨rfl, by rw [close]⟩
    · split at h
      · next first =>
        obtain ⟨rfl, rfl⟩ := Prod.mk.inj (Except.ok.inj h)
        exact .inr ⟨rfl, bs, by simp [Separated, first], head.symm⟩
      · next later =>
        split at h
        · next comma =>
          have separated : Separated first bs m := by simp [Separated, later, head, comma]
          cases attention with
          | skip =>
            obtain ⟨rfl, rfl⟩ := Prod.mk.inj (Except.ok.inj h)
            exact .inr ⟨rfl, m, separated, rfl⟩
          | keep =>
            cases head' : skipBlank m with
            | nil => simp [head'] at h
            | cons c m' =>
              simp only [head'] at h
              split at h
              · simp at h
              · obtain ⟨rfl, rfl⟩ := Prod.mk.inj (Except.ok.inj h)
                exact .inr ⟨rfl, m, separated, head'.symm⟩
        · simp at h

theorem nextMember_cases (h : nextMember attention first bs = .ok (more, r)) :
    (more = false ∧ skipBlank bs = 0x7D :: r) ∨
      (more = true ∧ ∃ m, Separated first bs m ∧ skipBlank m = 0x22 :: r) := by
  rw [nextMember.eq_def] at h
  cases head : skipBlank bs with
  | nil => simp [head] at h
  | cons b m =>
    simp only [head] at h
    split at h
    · next close =>
      obtain ⟨rfl, rfl⟩ := Prod.mk.inj (Except.ok.inj h)
      exact .inl ⟨rfl, by rw [close]⟩
    · split at h
      · next first =>
        split at h
        · next quote =>
          obtain ⟨rfl, rfl⟩ := Prod.mk.inj (Except.ok.inj h)
          exact .inr ⟨rfl, bs, by simp [Separated, first], by rw [head, quote]⟩
        · simp at h
      · next later =>
        split at h
        · next comma =>
          have separated : Separated first bs m := by simp [Separated, later, head, comma]
          cases head' : skipBlank m with
          | nil => simp [head'] at h
          | cons c m' =>
            simp only [head'] at h
            split at h
            · next quote =>
              obtain ⟨rfl, rfl⟩ := Prod.mk.inj (Except.ok.inj h)
              exact .inr ⟨rfl, m, separated, by rw [head', quote]⟩
            · split at h <;> simp at h
        · simp at h

end Next

theorem colon_eq_ok_iff {bs r : Bytes} : colon bs = .ok r ↔ skipBlank bs = 0x3A :: r := by
  rw [colon]
  cases skipBlank bs with
  | nil => simp
  | cons b m =>
    by_cases is_colon : b = 0x3A
    · simp [is_colon]
    · simp [is_colon]

/-! ## What is read has a tree -/

theorem exists_begins_of_readItems {α : Type} {attention : Attention}
    {item : Bytes → Except Fault (α × Bytes)}
    (sound : ∀ bs a r, item bs = .ok (a, r) → ∃ t, Begins (.value t) bs r) {fuel : Nat}
    {first : Bool} {bs r : Bytes} {as : List α}
    (h : readItems attention item fuel first bs = .ok (as, r)) :
    ∃ ts, Begins (.items first ts) bs r := by
  induction fuel generalizing first bs as with
  | zero => simp [readItems] at h
  | succ fuel ih =>
    obtain ⟨⟨more, m⟩, next, h⟩ := Except.bind_eq_ok.mp h
    rcases nextItem_cases next with ⟨rfl, close⟩ | ⟨rfl, m', separated, rfl⟩
    · obtain ⟨-, rfl⟩ := Prod.mk.inj (Except.ok.inj h)
      exact ⟨[], .noItem close⟩
    · obtain ⟨⟨a, m''⟩, read, h⟩ := Except.bind_eq_ok.mp h
      obtain ⟨⟨as', r'⟩, rest, h⟩ := Except.bind_eq_ok.mp h
      obtain ⟨-, rfl⟩ := Prod.mk.inj (Except.ok.inj h)
      obtain ⟨t, value⟩ := sound _ _ _ read
      obtain ⟨ts, items⟩ := ih rest
      exact ⟨t :: ts, .item separated value.of_skipBlank items⟩

/-- A member after the opening quote of its name: the rest of the name, a colon, and a value. -/
def BeginsMember (q r : Bytes) : Prop :=
  ∃ ps c v t, Quoted q ps c ∧ skipBlank c = 0x3A :: v ∧ Begins (.value t) v r

theorem exists_begins_of_readMembers {σ : Type} {attention : Attention}
    {member : σ → Bytes → Except Fault (σ × Bytes)}
    (sound : ∀ s q s' r, member s q = .ok (s', r) → BeginsMember q r) {fuel : Nat}
    {first : Bool} {s s' : σ} {bs r : Bytes}
    (h : readMembers attention member fuel first s bs = .ok (s', r)) :
    ∃ ms, Begins (.members first ms) bs r := by
  induction fuel generalizing first s bs with
  | zero => simp [readMembers] at h
  | succ fuel ih =>
    obtain ⟨⟨more, q⟩, next, h⟩ := Except.bind_eq_ok.mp h
    rcases nextMember_cases next with ⟨rfl, close⟩ | ⟨rfl, m, separated, name⟩
    · obtain ⟨-, rfl⟩ := Prod.mk.inj (Except.ok.inj h)
      exact ⟨[], .noMember close⟩
    · obtain ⟨⟨s'', m'⟩, read, rest⟩ := Except.bind_eq_ok.mp h
      obtain ⟨ps, c, v, t, quoted, colon, value⟩ := sound _ _ _ _ read
      obtain ⟨ms, members⟩ := ih rest
      exact ⟨(ps, t) :: ms, .member separated name quoted colon value members⟩

theorem exists_of_skipNumber {bs r : Bytes} (h : skipNumber bs = .ok r) :
    ∃ figures, Figures.read bs = .ok (figures, r) := by
  unfold skipNumber at h
  split at h
  · next figures rest read =>
    obtain rfl := Except.ok.inj h
    exact ⟨figures, read⟩
  · simp at h

theorem exists_of_readNumber {negative : Bool} {bs r : Bytes} {n : Number}
    (h : readNumber negative bs = .ok (n, r)) : ∃ figures, Figures.read bs = .ok (figures, r) := by
  obtain ⟨⟨figures, rest⟩, read, h⟩ := Except.bind_eq_ok.mp h
  simp only at h
  split at h
  · obtain ⟨-, rfl⟩ := Prod.mk.inj (Except.ok.inj h)
    exact ⟨figures, read⟩
  · simp [throw, throwThe, MonadExceptOf.throw] at h

/-- What is passed over begins with a tree. -/
theorem exists_begins_of_skipNested {depth : Nat} {bs r : Bytes} {u : Unit}
    (h : skipNested depth bs = .ok (u, r)) : ∃ t, Begins (.value t) bs r := by
  induction depth using Nat.strongRecOn generalizing bs r u with
  | ind depth ih =>
    have scalar {rest : Except Fault Bytes} (h : rest.map (fun rest => ((), rest)) = .ok (u, r)) :
        rest = .ok r := by
      obtain ⟨r', read, result⟩ := Except.map_eq_ok.mp h
      obtain ⟨-, rfl⟩ := Prod.mk.inj result
      exact read
    -- The cases are those of the first byte that is no blank.
    rw [skipNested.eq_def] at h
    cases head : skipBlank bs with
    | nil => simp [head] at h
    | cons b m =>
      simp only [head] at h
      split at h
      · next letter => exact ⟨_, .null (by rw [head, letter, word_eq_ok_iff.mp (scalar h)])⟩
      split at h
      · next letter => exact ⟨_, .isTrue (by rw [head, letter, word_eq_ok_iff.mp (scalar h)])⟩
      split at h
      · next letter => exact ⟨_, .isFalse (by rw [head, letter, word_eq_ok_iff.mp (scalar h)])⟩
      split at h
      · next minus =>
        obtain ⟨figures, read⟩ := exists_of_skipNumber (scalar h)
        exact ⟨_, .minus (by rw [head, minus]) read⟩
      split at h
      · next digit =>
        obtain ⟨figures, read⟩ := exists_of_skipNumber (scalar h)
        exact ⟨_, .number head digit read⟩
      split at h
      · next quote =>
        obtain ⟨ps, quoted⟩ := exists_quoted_of_skipString (scalar h)
        exact ⟨_, .string (by rw [head, quote]) quoted⟩
      split at h
      · next bracket =>
        cases depth with
        | zero => simp at h
        | succ depth =>
          obtain ⟨⟨as, r'⟩, read, result⟩ := Except.map_eq_ok.mp h
          obtain ⟨-, rfl⟩ := Prod.mk.inj result
          obtain ⟨ts, items⟩ := exists_begins_of_readItems
            (fun bs a r read => ih depth (Nat.lt_succ_self depth) read) read
          exact ⟨_, .array (by rw [head, bracket]) items⟩
      split at h
      · next brace =>
        cases depth with
        | zero => simp at h
        | succ depth =>
          obtain ⟨ms, members⟩ := exists_begins_of_readMembers (fun _ q _ r' read => by
            obtain ⟨c, name, read⟩ := Except.bind_eq_ok.mp read
            obtain ⟨v, colon, read⟩ := Except.bind_eq_ok.mp read
            obtain ⟨ps, quoted⟩ := exists_quoted_of_skipString name
            obtain ⟨t, value⟩ := ih depth (Nat.lt_succ_self depth) read
            exact ⟨ps, c, v, t, quoted, colon_eq_ok_iff.mp colon, value⟩) h
          exact ⟨_, .object (by rw [head, brace]) members⟩
      simp at h

theorem exists_begins_of_skipValue {bs r : Bytes} (h : skipValue bs = .ok r) :
    ∃ t, Begins (.value t) bs r := by
  obtain ⟨⟨u, r'⟩, read, rfl⟩ := Except.map_eq_ok.mp h
  exact exists_begins_of_skipNested read

/-! ## The value of a tree is read -/

section Next

variable {attention : Attention} {first : Bool} {bs m q r : Bytes} {b : UInt8}

theorem nextItem_of_close (close : skipBlank bs = 0x5D :: r) :
    nextItem attention first bs = .ok (false, r) := by
  rw [nextItem.eq_def]
  simp [close]

theorem nextItem_of_separated (separated : Separated first bs m) (head : skipBlank m = b :: r)
    (other : b ≠ 0x5D) : nextItem attention first bs = .ok (true, skipBlank m) := by
  rw [nextItem.eq_def]
  cases first with
  | true =>
    obtain rfl : bs = m := separated
    simp [head, other]
  | false =>
    have comma : skipBlank bs = 0x2C :: m := separated
    cases attention <;> simp [comma, head, other]

theorem nextMember_of_close (close : skipBlank bs = 0x7D :: r) :
    nextMember attention first bs = .ok (false, r) := by
  rw [nextMember.eq_def]
  simp [close]

theorem nextMember_of_separated (separated : Separated first bs m)
    (name : skipBlank m = 0x22 :: q) : nextMember attention first bs = .ok (true, q) := by
  rw [nextMember.eq_def]
  cases first with
  | true =>
    obtain rfl : bs = m := separated
    simp [name]
  | false =>
    have comma : skipBlank bs = 0x2C :: m := separated
    simp [comma, name]

end Next

/-- No value begins with the bracket that ends a list. -/
theorem Begins.head {t : Tree} {bs r : Bytes} (h : Begins (.value t) bs r) :
    ∃ b m, skipBlank bs = b :: m ∧ b ≠ 0x5D := by
  cases h with
  | number h digit => exact ⟨_, _, h, by rintro rfl; simp [digit?] at digit⟩
  | null h => exact ⟨_, _, h, by decide⟩
  | isTrue h => exact ⟨_, _, h, by decide⟩
  | isFalse h => exact ⟨_, _, h, by decide⟩
  | minus h => exact ⟨_, _, h, by decide⟩
  | string h => exact ⟨_, _, h, by decide⟩
  | array h => exact ⟨_, _, h, by decide⟩
  | object h => exact ⟨_, _, h, by decide⟩

/-- Reads a member of an object that is kept. -/
def readMember (depth : Nat) (members : List (String × Value)) (bs : Bytes) :
    Except Fault (List (String × Value) × Bytes) := do
  let (name, rest) ← readString bs
  let rest ← colon rest
  let (v, rest) ← readValue depth rest
  return (Ordered.insert name v members, rest)

/-- A digit is not the first byte of anything but a number. -/
theorem apart_of_digit? {b : UInt8} (digit : (digit? b).isSome = true) :
    b ≠ 0x6E ∧ b ≠ 0x74 ∧ b ≠ 0x66 ∧ b ≠ 0x2D := by
  have other {c : UInt8} (no_digit : (digit? c).isSome = false) : b ≠ c := by
    rintro rfl
    simp [digit] at no_digit
  exact ⟨other (by decide), other (by decide), other (by decide), other (by decide)⟩

section ReadValue

variable {b : UInt8} {bs m : Bytes}

/-- The first byte behind the blanks tells what is read. -/
theorem readValue_of_head (h : skipBlank bs = b :: m) (depth : Nat) : readValue depth bs =
    if b = 0x6E then (word nullRest m).map fun rest => (.null, rest)
    else if b = 0x74 then (word trueRest m).map fun rest => (.bool true, rest)
    else if b = 0x66 then (word falseRest m).map fun rest => (.bool false, rest)
    else if b = 0x2D then (readNumber true m).map fun (n, rest) => (.number n, rest)
    else if (digit? b).isSome then
      (readNumber false (b :: m)).map fun (n, rest) => (.number n, rest)
    else if b = 0x22 then (readString m).map fun (s, rest) => (.string s, rest)
    else if b = 0x5B then
      match depth with
      | 0 => .error .tooDeep
      | depth + 1 =>
        (readItems .keep (readValue depth) (m.length + 1) true m).map
          fun (items, rest) => (.array items, rest)
    else if b = 0x7B then
      match depth with
      | 0 => .error .tooDeep
      | depth + 1 =>
        (readMembers .keep (readMember depth) (m.length + 1) true [] m).map
          fun (members, rest) => (.object members, rest)
    else .error .expectedValue := by
  rw [readValue.eq_def]
  simp only [h]
  rfl

theorem readValue_skipBlank (h : skipBlank bs = b :: m) (depth : Nat) :
    readValue depth (skipBlank bs) = readValue depth bs := by
  have h' : skipBlank (skipBlank bs) = b :: m := by rw [skipBlank_skipBlank, h]
  rw [readValue_of_head h, readValue_of_head h']

theorem readValue_minus (h : skipBlank bs = 0x2D :: m) (depth : Nat) :
    readValue depth bs = (readNumber true m).map fun (n, rest) => (.number n, rest) := by
  simp [readValue_of_head h]

theorem readValue_number (h : skipBlank bs = b :: m) (digit : (digit? b).isSome = true)
    (depth : Nat) :
    readValue depth bs = (readNumber false (b :: m)).map fun (n, rest) => (.number n, rest) := by
  simp [readValue_of_head h, digit, apart_of_digit? digit]

theorem readValue_string (h : skipBlank bs = 0x22 :: m) (depth : Nat) :
    readValue depth bs = (readString m).map fun (s, rest) => (.string s, rest) := by
  simp [readValue_of_head h, digit?]

theorem readValue_array (h : skipBlank bs = 0x5B :: m) (depth : Nat) :
    readValue (depth + 1) bs = (readItems .keep (readValue depth) (m.length + 1) true m).map
      fun (items, rest) => (.array items, rest) := by
  simp [readValue_of_head h, digit?]

theorem readValue_object (h : skipBlank bs = 0x7B :: m) (depth : Nat) :
    readValue (depth + 1) bs =
      (readMembers .keep (readMember depth) (m.length + 1) true [] m).map
        fun (members, rest) => (.object members, rest) := by
  simp [readValue_of_head h, digit?]

end ReadValue

/-- What is kept begins with a tree. -/
theorem exists_begins_of_readValue {depth : Nat} {bs r : Bytes} {v : Value}
    (h : readValue depth bs = .ok (v, r)) : ∃ t, Begins (.value t) bs r := by
  induction depth using Nat.strongRecOn generalizing bs r v with
  | ind depth ih =>
    -- All values are wrapped in one of two ways, which tell what was read behind the first byte.
    have scalar {rest : Except Fault Bytes} {u : Value}
        (h : rest.map (fun rest => (u, rest)) = .ok (v, r)) : rest = .ok r := by
      obtain ⟨r', read, result⟩ := Except.map_eq_ok.mp h
      obtain ⟨-, rfl⟩ := Prod.mk.inj result
      exact read
    have held {α : Type} {x : Except Fault (α × Bytes)} {f : α → Value}
        (h : x.map (fun x => (f x.1, x.2)) = .ok (v, r)) : ∃ a, x = .ok (a, r) := by
      obtain ⟨⟨a, r'⟩, read, result⟩ := Except.map_eq_ok.mp h
      obtain ⟨-, rfl⟩ := Prod.mk.inj result
      exact ⟨a, read⟩
    -- The first byte chooses the reader; lists and objects are one level less deep inside.
    cases head : skipBlank bs with
    | nil =>
      rw [readValue.eq_def] at h
      simp [head] at h
    | cons b m =>
      rw [readValue_of_head head] at h
      split at h
      · next letter => exact ⟨_, .null (by rw [head, letter, word_eq_ok_iff.mp (scalar h)])⟩
      split at h
      · next letter => exact ⟨_, .isTrue (by rw [head, letter, word_eq_ok_iff.mp (scalar h)])⟩
      split at h
      · next letter => exact ⟨_, .isFalse (by rw [head, letter, word_eq_ok_iff.mp (scalar h)])⟩
      split at h
      · next minus =>
        obtain ⟨n, read⟩ := held h
        obtain ⟨figures, read⟩ := exists_of_readNumber read
        exact ⟨_, .minus (by rw [head, minus]) read⟩
      split at h
      · next digit =>
        obtain ⟨n, read⟩ := held h
        obtain ⟨figures, read⟩ := exists_of_readNumber read
        exact ⟨_, .number head digit read⟩
      split at h
      · next quote =>
        obtain ⟨s, read⟩ := held h
        obtain ⟨ps, quoted⟩ := exists_quoted_of_readString read
        exact ⟨_, .string (by rw [head, quote]) quoted⟩
      split at h
      · next bracket =>
        cases depth with
        | zero => simp at h
        | succ depth =>
          obtain ⟨vs, read⟩ := held h
          obtain ⟨ts, items⟩ := exists_begins_of_readItems
            (fun bs v r read => ih depth (Nat.lt_succ_self depth) read) read
          exact ⟨_, .array (by rw [head, bracket]) items⟩
      split at h
      · next brace =>
        cases depth with
        | zero => simp at h
        | succ depth =>
          obtain ⟨members, read⟩ := held h
          obtain ⟨ms, members⟩ := exists_begins_of_readMembers (fun _ q _ r' member => by
            obtain ⟨⟨name, c⟩, named, member⟩ := Except.bind_eq_ok.mp member
            obtain ⟨v, colon, member⟩ := Except.bind_eq_ok.mp member
            obtain ⟨⟨u, r''⟩, value, result⟩ := Except.bind_eq_ok.mp member
            obtain ⟨-, rfl⟩ := Prod.mk.inj (Except.ok.inj result)
            obtain ⟨ps, quoted⟩ := exists_quoted_of_readString named
            obtain ⟨t, value⟩ := ih depth (Nat.lt_succ_self depth) value
            exact ⟨ps, c, v, t, quoted, colon_eq_ok_iff.mp colon, value⟩) read
          exact ⟨_, .object (by rw [head, brace]) members⟩
      simp at h

theorem toOption_readNumber {negative : Bool} {bs r : Bytes} {figures : Figures}
    (read : Figures.read bs = .ok (figures, r)) : (readNumber negative bs).toOption =
      (figures.number? negative).map fun n => (n, r) := by
  rw [readNumber, read]
  cases h : figures.number? negative <;> simp [bind, Except.bind, h] <;> rfl

theorem readItems_of_separated {α : Type} {attention : Attention}
    {item : Bytes → Except Fault (α × Bytes)} {fuel : Nat} {first : Bool} {bs m r : Bytes}
    {b : UInt8} (separated : Separated first bs m) (head : skipBlank m = b :: r)
    (other : b ≠ 0x5D) : readItems attention item (fuel + 1) first bs = (do
      let (a, rest) ← item (skipBlank m)
      let (as, rest) ← readItems attention item fuel false rest
      return (a :: as, rest)) := by
  rw [readItems, nextItem_of_separated separated head other]
  rfl

theorem readMembers_of_separated {σ : Type} {attention : Attention}
    {member : σ → Bytes → Except Fault (σ × Bytes)} {fuel : Nat} {first : Bool} {s : σ}
    {bs m q : Bytes} (separated : Separated first bs m) (name : skipBlank m = 0x22 :: q) :
    readMembers attention member (fuel + 1) first s bs = (do
      let (s, rest) ← member s q
      readMembers attention member fuel false s rest) := by
  rw [readMembers, nextMember_of_separated separated name]
  rfl

theorem toOption_readMember {q c v r : Bytes} {ps : List Piece} {t : Tree} {depth : Nat}
    (quoted : Quoted q ps c) (colon : skipBlank c = 0x3A :: v)
    (value : (readValue depth v).toOption = (t.within depth).map fun v => (v, r))
    (members : List (String × Value)) : (readMember depth members q).toOption =
      (text? ps).bind fun name => (t.within depth).map fun v =>
        (Ordered.insert name v members, r) := by
  rw [readMember, Except.toOption_bind, toOption_readString quoted]
  cases text? ps with
  | none => rfl
  | some name =>
    simp only [Option.map_some, Option.bind_some, Except.toOption_bind, colon_eq_ok_iff.mpr colon]
    rw [Except.toOption, Option.bind_some, value]
    cases t.within depth <;> rfl

/-- A value that is kept is the value of its tree. -/
theorem Begins.toOption_read {part : Part} {bs r : Bytes} (h : Begins part bs r) :
    match part with
    | .value t => ∀ depth,
      (readValue depth bs).toOption = (t.within depth).map fun v => (v, r)
    | .items first ts => ∀ depth fuel, bs.length < fuel →
      (readItems .keep (readValue depth) fuel first bs).toOption =
        (itemsWithin depth ts).map fun vs => (vs, r)
    | .members first ms => ∀ depth fuel members, bs.length < fuel →
      (readMembers .keep (readMember depth) fuel first members bs).toOption =
        (membersWithin depth members ms).map fun members => (members, r) := by
  induction h with
  | null h =>
    intro depth
    simp [readValue_of_head h, word_eq_ok_iff.mpr rfl, Tree.within, Except.toOption]
  | isTrue h =>
    intro depth
    simp [readValue_of_head h, word_eq_ok_iff.mpr rfl, Tree.within, Except.toOption]
  | isFalse h =>
    intro depth
    simp [readValue_of_head h, word_eq_ok_iff.mpr rfl, Tree.within, Except.toOption]
  | @minus _ _ _ figures h read =>
    intro depth
    rw [readValue_minus h, Except.toOption_map, toOption_readNumber read, Tree.within]
    cases figures.number? true <;> rfl
  | @number _ _ _ _ figures h digit read =>
    intro depth
    rw [readValue_number h digit, Except.toOption_map, toOption_readNumber read, Tree.within]
    cases figures.number? false <;> rfl
  | @string _ _ _ ps h quoted =>
    intro depth
    rw [readValue_string h, Except.toOption_map, toOption_readString quoted, Tree.within]
    cases text? ps <;> rfl
  | array h _ ih =>
    intro depth
    cases depth with
    | zero => simp [readValue_of_head h, digit?, Tree.within, Except.toOption]
    | succ depth =>
      rw [readValue_array h, Except.toOption_map, ih depth _ (Nat.lt_succ_self _), Tree.within]
      cases itemsWithin depth _ <;> rfl
  | object h _ ih =>
    intro depth
    cases depth with
    | zero => simp [readValue_of_head h, digit?, Tree.within, Except.toOption]
    | succ depth =>
      rw [readValue_object h, Except.toOption_map, ih depth _ _ (Nat.lt_succ_self _), Tree.within]
      cases membersWithin depth _ _ <;> rfl
  | noItem h =>
    intro depth fuel enough
    cases fuel with
    | zero => omega
    | succ fuel =>
      rw [readItems, nextItem_of_close h]
      rfl
  | @item _ _ _ _ _ t ts separated value rest ih ih' =>
    intro depth fuel enough
    cases fuel with
    | zero => omega
    | succ fuel =>
      obtain ⟨b, m, head, other⟩ := value.head
      -- An item leaves fewer bytes, so the fuel lasts for those that follow.
      have shorter := (separated.leaves_trans value.leaves).length_lt
      have rest_read := ih' depth fuel (by omega)
      rw [readItems_of_separated separated head other, readValue_skipBlank head,
        Except.toOption_bind, ih, itemsWithin]
      cases t.within depth with
      | none => rfl
      | some v =>
        simp only [Option.map_some, Option.bind_some, Except.toOption_bind, rest_read]
        cases itemsWithin depth ts <;> rfl
  | noMember h =>
    intro depth fuel members enough
    cases fuel with
    | zero => omega
    | succ fuel =>
      rw [readMembers, nextMember_of_close h]
      rfl
  | @member _ _ _ _ _ _ _ _ ps t ms separated name quoted colon value _ ih ih' =>
    intro depth fuel members enough
    cases fuel with
    | zero => omega
    | succ fuel =>
      have read := quoted.leaves.trans ((Leaves.of_skipBlank colon).trans value.leaves)
      have shorter := (separated.leaves_trans ((Leaves.of_skipBlank name).trans read)).length_lt
      have rest_read := fun members => ih' depth fuel members (by omega)
      rw [readMembers_of_separated separated name, Except.toOption_bind,
        toOption_readMember quoted colon (ih depth), membersWithin]
      cases text? ps with
      | none => rfl
      | some name =>
        cases t.within depth with
        | none => rfl
        | some v => exact rest_read _

/-- A document is read as the value of its tree. -/
theorem Document.toOption_parse {t : Tree} {bs : Bytes} (h : Document t bs) :
    (parse bs).toOption = t.within maxDepth := by
  obtain ⟨r, begins, blank⟩ := h
  rw [parse, Except.toOption_bind, begins.toOption_read maxDepth]
  cases t.within maxDepth with
  | none => rfl
  | some v =>
    simp only [Option.map_some, Option.bind_some, endOfDocument, blank]
    rfl

/-- What is read is a document, and the value of its tree. -/
theorem exists_document_of_parse {bs : Bytes} {v : Value} (h : parse bs = .ok v) :
    ∃ t, Document t bs ∧ t.within maxDepth = some v := by
  obtain ⟨⟨v', r⟩, read, ended⟩ := Except.bind_eq_ok.mp h
  obtain ⟨t, begins⟩ := exists_begins_of_readValue read
  have blank : skipBlank r = [] := by
    rw [endOfDocument] at ended
    split at ended
    · next nothing => exact List.isEmpty_iff.mp nothing
    · simp at ended
  have document : Document t bs := ⟨r, begins, blank⟩
  refine ⟨t, document, ?_⟩
  rw [← document.toOption_parse, h]
  rfl

end HashGateway.Json
