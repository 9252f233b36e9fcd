import HashGateway.Proofs.Results
import HashGateway.Text.Utf8
import Mathlib.Tactic.SplitIfs

/-!
# UTF-8 there and back

Reading is held to writing: the bytes of a text are read as that text, and bytes
that are read as a text are its bytes. So the bytes that are some text are exactly
those that are written, and each text is written in one way.

## Main definitions

* `Utf8.IsText` — bytes that are those of a text

## Main results

* `Utf8.decode_encode`, `Utf8.decode?_bytes` — what is written is read back
* `Utf8.decode_eq_ok_iff` — what is read is what was written
* `Utf8.IsText.split` — bytes below `0x80` are characters of their own, so a text can be cut there
* `Utf8.bytes_lt_bytes_iff` — texts are in the order of their bytes
-/

namespace HashGateway.Utf8

/-! ## Ranges of bytes -/

theorem toNat_ofNat {n : Nat} (h : n < 256) : (UInt8.ofNat n).toNat = n := by
  rw [UInt8.toNat_ofNat']
  exact Nat.mod_eq_of_lt h

theorem isTail_iff {b : UInt8} : isTail b = true ↔ 0x80 ≤ b.toNat ∧ b.toNat ≤ 0xBF := by
  simp [isTail]

/-- The range of a second byte, which four of the first bytes narrow. -/
theorem isSecond_iff {a b : UInt8} : isSecond a b = true ↔
    (0x80 ≤ b.toNat ∧ b.toNat ≤ 0xBF) ∧ (a.toNat = 0xE0 → 0xA0 ≤ b.toNat) ∧
      (a.toNat = 0xED → b.toNat ≤ 0x9F) ∧ (a.toNat = 0xF0 → 0x90 ≤ b.toNat) ∧
      (a.toNat = 0xF4 → b.toNat ≤ 0x8F) := by
  have eq_iff (x : UInt8) : a = x ↔ a.toNat = x.toNat := UInt8.toNat_inj.symm
  simp only [isSecond, eq_iff, UInt8.reduceToNat]
  split_ifs <;> simp <;> omega

theorem width_eq_one_iff {b : UInt8} : width b = 1 ↔ b.toNat < 0x80 := by
  simp only [width, Bool.and_eq_true, decide_eq_true_eq]
  split_ifs <;> simp <;> omega

theorem width_eq_two_iff {b : UInt8} : width b = 2 ↔ 0xC2 ≤ b.toNat ∧ b.toNat ≤ 0xDF := by
  simp only [width, Bool.and_eq_true, decide_eq_true_eq]
  split_ifs <;> simp <;> omega

theorem width_eq_three_iff {b : UInt8} : width b = 3 ↔ 0xE0 ≤ b.toNat ∧ b.toNat ≤ 0xEF := by
  simp only [width, Bool.and_eq_true, decide_eq_true_eq]
  split_ifs <;> simp <;> omega

theorem width_eq_four_iff {b : UInt8} : width b = 4 ↔ 0xF0 ≤ b.toNat ∧ b.toNat ≤ 0xF4 := by
  simp only [width, Bool.and_eq_true, decide_eq_true_eq]
  split_ifs <;> simp <;> omega

/-! ## One character -/

/-- No character is a surrogate or above the last one. -/
theorem toNat_valid (c : Char) : c.toNat < 0xD800 ∨ 0xDFFF < c.toNat ∧ c.toNat < 0x110000 :=
  c.valid

theorem toNat_charOfNat {n : Nat} (h : n < 0xD800 ∨ 0xDFFF < n ∧ n < 0x110000) :
    (Char.ofNat n).toNat = n := by
  have valid : n.isValidChar := h
  rw [Char.ofNat, dif_pos valid]
  rfl

/-- The bytes of a character are read as that character, whatever follows. -/
theorem decodeFrom_encodeChar (index : Nat) (c : Char) (r : Bytes) :
    decodeFrom index (encodeChar c ++ r) =
      (decodeFrom (index + (encodeChar c).length) r).map (c :: ·) := by
  -- One case for each number of bytes; in each the bytes are within the ranges that are read, and
  -- their digits to the base 64 make up the character again.
  have valid := toNat_valid c
  by_cases one : c.toNat < 0x80
  · have a : (UInt8.ofNat c.toNat).toNat = c.toNat := toNat_ofNat (by omega)
    have w : width (UInt8.ofNat c.toNat) = 1 := width_eq_one_iff.mpr (by omega)
    rw [encodeChar, if_pos one, List.singleton_append, decodeFrom.eq_def]
    simp only [w, a, Char.ofNat_toNat, List.length_singleton]
  by_cases two : c.toNat < 0x800
  · have a := toNat_ofNat (n := 0xC0 + c.toNat / 0x40) (by omega)
    have b := toNat_ofNat (n := 0x80 + c.toNat % 0x40) (by omega)
    have w : width (UInt8.ofNat (0xC0 + c.toNat / 0x40)) = 2 := width_eq_two_iff.mpr (by omega)
    have s : isSecond (UInt8.ofNat (0xC0 + c.toNat / 0x40))
        (UInt8.ofNat (0x80 + c.toNat % 0x40)) = true := isSecond_iff.mpr (by omega)
    have value : (0xC0 + c.toNat / 0x40 - 0xC0) * 0x40 + (0x80 + c.toNat % 0x40 - 0x80) =
        c.toNat := by omega
    rw [encodeChar, if_neg one, if_pos two, List.cons_append, List.singleton_append,
      decodeFrom.eq_def]
    simp only [w, s, if_true, a, b, value, Char.ofNat_toNat, List.length_cons, List.length_nil]
  by_cases three : c.toNat < 0x10000
  · have a := toNat_ofNat (n := 0xE0 + c.toNat / 0x1000) (by omega)
    have b := toNat_ofNat (n := 0x80 + c.toNat / 0x40 % 0x40) (by omega)
    have d := toNat_ofNat (n := 0x80 + c.toNat % 0x40) (by omega)
    have w : width (UInt8.ofNat (0xE0 + c.toNat / 0x1000)) = 3 := width_eq_three_iff.mpr (by omega)
    have s : isSecond (UInt8.ofNat (0xE0 + c.toNat / 0x1000))
        (UInt8.ofNat (0x80 + c.toNat / 0x40 % 0x40)) = true := isSecond_iff.mpr (by omega)
    have t : isTail (UInt8.ofNat (0x80 + c.toNat % 0x40)) = true := isTail_iff.mpr (by omega)
    have value : (0xE0 + c.toNat / 0x1000 - 0xE0) * 0x1000 +
        (0x80 + c.toNat / 0x40 % 0x40 - 0x80) * 0x40 + (0x80 + c.toNat % 0x40 - 0x80) =
        c.toNat := by omega
    rw [encodeChar, if_neg one, if_neg two, if_pos three, List.cons_append, List.cons_append,
      List.singleton_append, decodeFrom.eq_def]
    simp only [w, s, t, if_true, a, b, d, value, Char.ofNat_toNat, List.length_cons,
      List.length_nil]
  · have a := toNat_ofNat (n := 0xF0 + c.toNat / 0x40000) (by omega)
    have b := toNat_ofNat (n := 0x80 + c.toNat / 0x1000 % 0x40) (by omega)
    have d := toNat_ofNat (n := 0x80 + c.toNat / 0x40 % 0x40) (by omega)
    have e := toNat_ofNat (n := 0x80 + c.toNat % 0x40) (by omega)
    have w : width (UInt8.ofNat (0xF0 + c.toNat / 0x40000)) = 4 := width_eq_four_iff.mpr (by omega)
    have s : isSecond (UInt8.ofNat (0xF0 + c.toNat / 0x40000))
        (UInt8.ofNat (0x80 + c.toNat / 0x1000 % 0x40)) = true := isSecond_iff.mpr (by omega)
    have t : isTail (UInt8.ofNat (0x80 + c.toNat / 0x40 % 0x40)) = true :=
      isTail_iff.mpr (by omega)
    have u : isTail (UInt8.ofNat (0x80 + c.toNat % 0x40)) = true := isTail_iff.mpr (by omega)
    have value : (0xF0 + c.toNat / 0x40000 - 0xF0) * 0x40000 +
        (0x80 + c.toNat / 0x1000 % 0x40 - 0x80) * 0x1000 +
        (0x80 + c.toNat / 0x40 % 0x40 - 0x80) * 0x40 + (0x80 + c.toNat % 0x40 - 0x80) =
        c.toNat := by omega
    rw [encodeChar, if_neg one, if_neg two, if_neg three, List.cons_append, List.cons_append,
      List.cons_append, List.singleton_append, decodeFrom.eq_def]
    simp only [w, s, t, u, if_true, a, b, d, e, value, Char.ofNat_toNat, List.length_cons,
      List.length_nil]

private theorem ofNat_eq {n : Nat} {b : UInt8} (h : n = b.toNat) : UInt8.ofNat n = b := by
  rw [h, UInt8.ofNat_toNat]

/-! What is read from one to four bytes is written as these bytes. -/

theorem encodeChar_one {a : UInt8} (h : width a = 1) : encodeChar (Char.ofNat a.toNat) = [a] := by
  have range := width_eq_one_iff.mp h
  have n := toNat_charOfNat (n := a.toNat) (by omega)
  simp only [encodeChar, n, if_pos range, UInt8.ofNat_toNat]

theorem encodeChar_two {a b : UInt8} (h : width a = 2) (s : isSecond a b = true) :
    encodeChar (Char.ofNat ((a.toNat - 0xC0) * 0x40 + (b.toNat - 0x80))) = [a, b] := by
  have range := width_eq_two_iff.mp h
  have second := isSecond_iff.mp s
  have n := toNat_charOfNat (n := (a.toNat - 0xC0) * 0x40 + (b.toNat - 0x80)) (by omega)
  rw [encodeChar, n, if_neg (by omega), if_pos (by omega), ofNat_eq (b := a) (by omega),
    ofNat_eq (b := b) (by omega)]

theorem encodeChar_three {a b c : UInt8} (h : width a = 3) (s : isSecond a b = true)
    (t : isTail c = true) :
    encodeChar (Char.ofNat ((a.toNat - 0xE0) * 0x1000 + (b.toNat - 0x80) * 0x40
      + (c.toNat - 0x80))) = [a, b, c] := by
  have range := width_eq_three_iff.mp h
  have second := isSecond_iff.mp s
  have third := isTail_iff.mp t
  have n := toNat_charOfNat (n := (a.toNat - 0xE0) * 0x1000 + (b.toNat - 0x80) * 0x40
    + (c.toNat - 0x80)) (by omega)
  rw [encodeChar, n, if_neg (by omega), if_neg (by omega), if_pos (by omega),
    ofNat_eq (b := a) (by omega), ofNat_eq (b := b) (by omega), ofNat_eq (b := c) (by omega)]

theorem encodeChar_four {a b c d : UInt8} (h : width a = 4) (s : isSecond a b = true)
    (t : isTail c = true) (u : isTail d = true) :
    encodeChar (Char.ofNat ((a.toNat - 0xF0) * 0x40000 + (b.toNat - 0x80) * 0x1000
      + (c.toNat - 0x80) * 0x40 + (d.toNat - 0x80))) = [a, b, c, d] := by
  have range := width_eq_four_iff.mp h
  have second := isSecond_iff.mp s
  have third := isTail_iff.mp t
  have fourth := isTail_iff.mp u
  have n := toNat_charOfNat (n := (a.toNat - 0xF0) * 0x40000 + (b.toNat - 0x80) * 0x1000
    + (c.toNat - 0x80) * 0x40 + (d.toNat - 0x80)) (by omega)
  rw [encodeChar, n, if_neg (by omega), if_neg (by omega), if_neg (by omega),
    ofNat_eq (b := a) (by omega), ofNat_eq (b := b) (by omega), ofNat_eq (b := c) (by omega),
    ofNat_eq (b := d) (by omega)]

/-! ## Texts -/

theorem decodeFrom_encode (index : Nat) (cs : List Char) :
    decodeFrom index (encode cs) = .ok cs := by
  induction cs generalizing index with
  | nil => rw [encode_nil, decodeFrom]
  | cons c cs ih => rw [encode_cons, decodeFrom_encodeChar, ih, Except.map_ok]

/-- Bytes that are read as a text are those of this text. -/
theorem eq_encode_of_decodeFrom {index : Nat} {bs : Bytes} {cs : List Char}
    (h : decodeFrom index bs = .ok cs) : bs = encode cs := by
  -- Induction along the reading; the cases that are left are those of one to four good bytes.
  fun_induction decodeFrom index bs generalizing cs with
  | case1 index =>
    obtain rfl : [] = cs := by simpa using h
    rfl
  | case2 index a r w ih =>
    obtain ⟨ds, hds, rfl⟩ := Except.map_eq_ok.mp h
    rw [encode_cons, encodeChar_one w, ih hds, List.singleton_append]
  | case4 index a w b r s c =>
    rename_i ih
    obtain ⟨ds, hds, rfl⟩ := Except.map_eq_ok.mp h
    rw [encode_cons, encodeChar_two w s, ih hds, List.cons_append, List.singleton_append]
  | case8 index a w b s c r t d =>
    rename_i ih
    obtain ⟨ds, hds, rfl⟩ := Except.map_eq_ok.mp h
    rw [encode_cons, encodeChar_three w s t, ih hds, List.cons_append, List.cons_append,
      List.singleton_append]
  | case14 index a w b s c t d r u e =>
    rename_i ih
    obtain ⟨ds, hds, rfl⟩ := Except.map_eq_ok.mp h
    rw [encode_cons, encodeChar_four w s t u, ih hds, List.cons_append, List.cons_append,
      List.cons_append, List.singleton_append]
  | _ => simp at h

@[simp] theorem decode_encode (cs : List Char) : decode (encode cs) = .ok cs :=
  decodeFrom_encode 0 cs

/-- Exactly the bytes of a text are read as this text. -/
theorem decode_eq_ok_iff {bs : Bytes} {cs : List Char} : decode bs = .ok cs ↔ bs = encode cs :=
  ⟨eq_encode_of_decodeFrom, fun h => h ▸ decode_encode cs⟩

theorem encode_injective {cs ds : List Char} (h : encode cs = encode ds) : cs = ds := by
  have read : (Except.ok cs : Except Fault (List Char)) = .ok ds := by
    rw [← decode_encode cs, h, decode_encode]
  exact Except.ok.inj read

@[simp] theorem decode?_bytes (s : String) : decode? (bytes s) = some s := by
  rw [decode?, bytes, decode_encode]
  exact congrArg some (String.ofList_toList)

theorem decode?_eq_some_iff {bs : Bytes} {s : String} : decode? bs = some s ↔ bs = bytes s := by
  refine ⟨fun h => ?_, fun h => h ▸ decode?_bytes s⟩
  unfold decode? at h
  split at h
  · next cs hcs =>
    obtain rfl := Option.some.inj h
    rw [bytes, String.toList_ofList, decode_eq_ok_iff.mp hcs]
  · simp at h

/-! ## Bytes below `0x80` -/

/-- A byte below `0x80` is no part of a longer character. -/
theorem encodeChar_eq_singleton {c : Char} {b : UInt8} (mem : b ∈ encodeChar c)
    (small : b.toNat < 0x80) : encodeChar c = [b] := by
  have valid := toNat_valid c
  simp only [encodeChar] at mem ⊢
  split at mem
  · next one =>
    rw [if_pos one]
    rw [List.mem_singleton.mp mem]
  -- All bytes of a longer character are `0x80` or more.
  · next one =>
    exfalso
    split at mem
    · have a := toNat_ofNat (n := 0xC0 + c.toNat / 0x40) (by omega)
      have a' := toNat_ofNat (n := 0x80 + c.toNat % 0x40) (by omega)
      simp only [List.mem_cons, List.not_mem_nil, or_false] at mem
      rcases mem with rfl | rfl <;> omega
    · split at mem
      · have a := toNat_ofNat (n := 0xE0 + c.toNat / 0x1000) (by omega)
        have a' := toNat_ofNat (n := 0x80 + c.toNat / 0x40 % 0x40) (by omega)
        have a'' := toNat_ofNat (n := 0x80 + c.toNat % 0x40) (by omega)
        simp only [List.mem_cons, List.not_mem_nil, or_false] at mem
        rcases mem with rfl | rfl | rfl <;> omega
      · have a := toNat_ofNat (n := 0xF0 + c.toNat / 0x40000) (by omega)
        have a' := toNat_ofNat (n := 0x80 + c.toNat / 0x1000 % 0x40) (by omega)
        have a'' := toNat_ofNat (n := 0x80 + c.toNat / 0x40 % 0x40) (by omega)
        have a₃ := toNat_ofNat (n := 0x80 + c.toNat % 0x40) (by omega)
        simp only [List.mem_cons, List.not_mem_nil, or_false] at mem
        rcases mem with rfl | rfl | rfl | rfl <;> omega

/-- Bytes that are those of a text. -/
def IsText (bs : Bytes) : Prop := ∃ cs, bs = encode cs

theorem isText_nil : IsText [] := ⟨[], rfl⟩

theorem isText_encodeChar (c : Char) : IsText (encodeChar c) := ⟨[c], by simp [encode]⟩

theorem IsText.append {bs bs' : Bytes} (h : IsText bs) (h' : IsText bs') : IsText (bs ++ bs') := by
  obtain ⟨cs, rfl⟩ := h
  obtain ⟨ds, rfl⟩ := h'
  exact ⟨cs ++ ds, (encode_append cs ds).symm⟩

theorem encodeChar_ofNat {b : UInt8} (small : b.toNat < 0x80) :
    encodeChar (Char.ofNat b.toNat) = [b] :=
  encodeChar_one (width_eq_one_iff.mpr small)

theorem isText_singleton {b : UInt8} (small : b.toNat < 0x80) : IsText [b] :=
  ⟨[Char.ofNat b.toNat], by rw [encode_cons, encode_nil, encodeChar_ofNat small, List.append_nil]⟩

/-- A text can be cut at a byte below `0x80`. -/
theorem IsText.split {p r : Bytes} {b : UInt8} (h : IsText (p ++ b :: r))
    (small : b.toNat < 0x80) : IsText p ∧ IsText r := by
  obtain ⟨cs, h⟩ := h
  induction cs generalizing p with
  | nil => simp at h
  | cons c cs ih =>
    rw [encode_cons] at h
    rcases List.append_eq_append_iff.mp h with ⟨q, front, back⟩ | ⟨q, front, back⟩
    · -- The byte stands in this character, unless this ends right before it.
      cases q with
      | nil =>
        obtain ⟨-, rest⟩ := ih (p := []) (by simpa using back)
        rw [List.append_nil] at front
        exact ⟨front ▸ isText_encodeChar c, rest⟩
      | cons b' q =>
        obtain ⟨rfl, rfl⟩ := List.cons.inj back
        have alone := encodeChar_eq_singleton (c := c) (b := b) (by simp [front]) small
        rw [alone] at front
        have lengths := congrArg List.length front
        simp only [List.length_append, List.length_cons, List.length_nil] at lengths
        obtain rfl : p = [] := List.eq_nil_of_length_eq_zero (by omega)
        obtain rfl : q = [] := List.eq_nil_of_length_eq_zero (by omega)
        exact ⟨isText_nil, cs, rfl⟩
    · obtain ⟨before, rest⟩ := ih back.symm
      exact ⟨front ▸ (isText_encodeChar c).append before, rest⟩

theorem isText_cons_iff {b : UInt8} {r : Bytes} (small : b.toNat < 0x80) :
    IsText (b :: r) ↔ IsText r :=
  ⟨fun h => (IsText.split (p := []) h small).2, fun h => (isText_singleton small).append h⟩

/-- Bytes below `0x80` can be put before a text and taken from it. -/
theorem isText_append_iff {p r : Bytes} (small : ∀ b ∈ p, b.toNat < 0x80) :
    IsText (p ++ r) ↔ IsText r := by
  induction p with
  | nil => rfl
  | cons b p ih =>
    rw [List.cons_append, isText_cons_iff (small b (by simp))]
    exact ih fun b mem => small b (by simp [mem])

/-- A text begins with another of bytes below `0x80` if its bytes do. -/
theorem encode_prefix_iff {cs ds : List Char} (small : ∀ b ∈ encode cs, b.toNat < 0x80) :
    encode cs <+: encode ds ↔ cs <+: ds := by
  constructor
  · rintro ⟨r, cut⟩
    -- What follows such bytes is a text of its own.
    obtain ⟨rest, rfl⟩ := (isText_append_iff small).mp ⟨ds, cut⟩
    rw [← encode_append] at cut
    exact ⟨rest, encode_injective cut⟩
  · rintro ⟨rest, rfl⟩
    exact ⟨encode rest, (encode_append _ _).symm⟩

theorem isText_iff_decode? {bs : Bytes} : IsText bs ↔ (decode? bs).isSome = true := by
  rw [Option.isSome_iff_exists]
  constructor
  · rintro ⟨cs, rfl⟩
    exact ⟨String.ofList cs, decode?_eq_some_iff.mpr (by rw [bytes, String.toList_ofList])⟩
  · rintro ⟨s, h⟩
    exact ⟨s.toList, decode?_eq_some_iff.mp h⟩

/-! ## Order -/

section Order

variable {m n : Nat} {r r' : Bytes}

theorem ofNat_cons_lt {a b : Nat} (small : a < 256) (small' : b < 256)
    (h : a < b ∨ a = b ∧ r < r') : UInt8.ofNat a :: r < UInt8.ofNat b :: r' := by
  refine List.cons_lt_cons_iff.mpr (h.imp (fun lt => ?_) fun ⟨head, rest⟩ => ⟨by rw [head], rest⟩)
  rwa [UInt8.lt_iff_toNat_lt, toNat_ofNat small, toNat_ofNat small']

/-- A byte that is not the first holds six bits of a character. -/
theorem tail_lt (h : m % 0x40 < n % 0x40) :
    UInt8.ofNat (0x80 + m % 0x40) :: r < UInt8.ofNat (0x80 + n % 0x40) :: r' :=
  ofNat_cons_lt (by omega) (by omega) (.inl (by omega))

theorem tails_lt (h : m % 0x1000 < n % 0x1000) :
    UInt8.ofNat (0x80 + m / 0x40 % 0x40) :: UInt8.ofNat (0x80 + m % 0x40) :: r <
      UInt8.ofNat (0x80 + n / 0x40 % 0x40) :: UInt8.ofNat (0x80 + n % 0x40) :: r' := by
  refine ofNat_cons_lt (by omega) (by omega) ?_
  rcases Nat.lt_or_ge (m / 0x40 % 0x40) (n / 0x40 % 0x40) with lt | ge
  · exact .inl (by omega)
  · exact .inr ⟨by omega, tail_lt (by omega)⟩

/-- A smaller character has smaller bytes, whatever follows them. -/
theorem encodeChar_append_lt {c d : Char} (h : c.toNat < d.toNat) (r r' : Bytes) :
    encodeChar c ++ r < encodeChar d ++ r' := by
  have valid := toNat_valid d
  simp only [encodeChar]
  split_ifs <;> simp only [List.cons_append, List.nil_append] <;> try omega
  all_goals refine ofNat_cons_lt (by omega) (by omega) ?_
  -- Characters of different widths differ in their first byte.
  all_goals try exact .inl (by omega)
  · rcases Nat.lt_or_ge (c.toNat / 0x40) (d.toNat / 0x40) with lt | ge
    · exact .inl (by omega)
    · exact .inr ⟨by omega, tail_lt (by omega)⟩
  · rcases Nat.lt_or_ge (c.toNat / 0x1000) (d.toNat / 0x1000) with lt | ge
    · exact .inl (by omega)
    · exact .inr ⟨by omega, tails_lt (by omega)⟩
  · rcases Nat.lt_or_ge (c.toNat / 0x40000) (d.toNat / 0x40000) with lt | ge
    · exact .inl (by omega)
    · refine .inr ⟨by omega, ofNat_cons_lt (by omega) (by omega) ?_⟩
      rcases Nat.lt_or_ge (c.toNat / 0x1000) (d.toNat / 0x1000) with lt | ge
      · exact .inl (by omega)
      · exact .inr ⟨by omega, tails_lt (by omega)⟩

theorem encode_lt_encode {cs ds : List Char} (h : cs < ds) : encode cs < encode ds := by
  induction cs generalizing ds with
  | nil =>
    cases ds with
    | nil => exact absurd h (List.lt_irrefl _)
    | cons d ds =>
      obtain ⟨b, r, first⟩ := List.exists_cons_of_ne_nil (encodeChar_ne_nil d)
      rw [encode_cons, first]
      exact List.nil_lt_cons b _
  | cons c cs ih =>
    cases ds with
    | nil => exact absurd h (by simp)
    | cons d ds =>
      rw [encode_cons, encode_cons]
      rcases List.cons_lt_cons_iff.mp h with lt | ⟨rfl, rest⟩
      · exact encodeChar_append_lt lt _ _
      · exact List.append_left_lt (ih rest)

/-- Texts are in the order of their bytes. -/
theorem bytes_lt_bytes_iff {s t : String} : bytes s < bytes t ↔ s < t := by
  rw [String.lt_iff]
  refine ⟨fun less => ?_, encode_lt_encode⟩
  rcases Std.lt_trichotomy s.toList t.toList with lt | equal | gt
  · exact lt
  · rw [bytes, bytes, equal] at less
    exact absurd less (List.lt_irrefl _)
  · exact absurd (encode_lt_encode gt) (List.lt_asymm less)

end Order

end HashGateway.Utf8
