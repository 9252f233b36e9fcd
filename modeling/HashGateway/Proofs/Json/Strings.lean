import HashGateway.Proofs.Json.Lexemes
import HashGateway.Proofs.Utf8

/-!
# Strings of a JSON text

What stands between two quotes are pieces: bytes, some of them escaped, and units of
sixteen bits. Passing over a string asks for nothing else. To be read, the pieces have to
denote bytes, which they do unless a surrogate has no partner, and these bytes have to be
UTF-8, which they are if the whole text is.

## Main definitions

* `Json.Quoted` — the pieces of a string
* `Json.denote`, `Json.text?` — the bytes and the text that pieces denote

## Main results

* `Json.Quoted.of_append` — blanks that follow a string make no difference
* `Json.Quoted.isText` — a string of a text denotes a text
* `Json.exists_quoted_of_skipString`, `Json.exists_quoted_of_readString`,
  `Json.toOption_readString` — the readers of strings
-/

namespace HashGateway.Json

/-- A piece of a string: a byte, which may have been escaped, or a unit of sixteen bits. -/
inductive Piece
  | byte (b : UInt8)
  | unit (n : Nat)
  deriving DecidableEq, Repr

/-- The bytes after an opening quote are the pieces of a string; others follow its closing quote. -/
inductive Quoted : Bytes → List Piece → Bytes → Prop
  | close (r : Bytes) : Quoted (0x22 :: r) [] r
  | plain {b : UInt8} {bs r : Bytes} {ps : List Piece} (quote : b ≠ 0x22) (escape : b ≠ 0x5C)
      (control : ¬ b.toNat < 0x20) (rest : Quoted bs ps r) :
      Quoted (b :: bs) (.byte b :: ps) r
  | short {e c : UInt8} {bs r : Bytes} {ps : List Piece} (escape : shortEscape? e = some c)
      (rest : Quoted bs ps r) : Quoted (0x5C :: e :: bs) (.byte c :: ps) r
  | unit {h₁ h₂ h₃ h₄ : UInt8} {n : Nat} {bs r : Bytes} {ps : List Piece}
      (digits : unit? h₁ h₂ h₃ h₄ = some n) (rest : Quoted bs ps r) :
      Quoted (0x5C :: 0x75 :: h₁ :: h₂ :: h₃ :: h₄ :: bs) (.unit n :: ps) r

/-- The bytes that pieces denote. There are none if a surrogate has no partner. -/
def denote : List Piece → Option Bytes
  | [] => some []
  | .byte b :: ps => (denote ps).map (b :: ·)
  | .unit n :: ps =>
    if isTrail n then none
    else if isLead n then
      match ps with
      | .unit m :: ps =>
        if isTrail m then (denote ps).map (Utf8.encodeChar (joined n m) ++ ·) else none
      | _ => none
    else (denote ps).map (Utf8.encodeChar (Char.ofNat n) ++ ·)

/-- The text that pieces denote. -/
def text? (ps : List Piece) : Option String := (denote ps).bind Utf8.decode?

/-! ### Escapes -/

theorem isSpace_of_shortEscape? {e c : UInt8} (h : shortEscape? e = some c) :
    isSpace e = false := by
  rw [Bool.eq_false_iff]
  intro space
  simp only [isSpace, Bool.or_eq_true, decide_eq_true_eq] at space
  rcases space with ((rfl | rfl) | rfl) | rfl <;> exact absurd h (by simp [shortEscape?])

theorem toNat_lt_of_shortEscape? {e c : UInt8} (h : shortEscape? e = some c) :
    e.toNat < 0x80 ∧ c.toNat < 0x80 := by
  unfold shortEscape? at h
  split at h
  · next letter =>
    obtain rfl := Option.some.inj h
    simp only [Bool.or_eq_true, decide_eq_true_eq] at letter
    rcases letter with (rfl | rfl) | rfl <;> decide
  · repeat
      split at h
      · next letter =>
        obtain rfl := Option.some.inj h
        exact ⟨by rw [letter]; decide, by decide⟩
    simp at h

theorem dark_of_hexDigit? {b : UInt8} {d : Nat} (h : hexDigit? b = some d) :
    b.toNat < 0x80 ∧ isSpace b = false := by
  have range : 0x30 ≤ b.toNat ∧ b.toNat < 0x80 := by
    simp only [hexDigit?, Bool.and_eq_true, decide_eq_true_eq] at h
    split at h
    · omega
    · split at h
      · omega
      · split at h
        · omega
        · simp at h
  refine ⟨range.2, ?_⟩
  rw [Bool.eq_false_iff]
  intro space
  simp only [isSpace, Bool.or_eq_true, decide_eq_true_eq] at space
  rcases space with ((rfl | rfl) | rfl) | rfl <;> simp at range

/-- The bytes of an escape of a unit. -/
theorem dark_of_unit? {h₁ h₂ h₃ h₄ : UInt8} {n : Nat} (h : unit? h₁ h₂ h₃ h₄ = some n) :
    ∀ b ∈ [0x5C, 0x75, h₁, h₂, h₃, h₄], b.toNat < 0x80 ∧ isSpace b = false := by
  simp only [unit?, Option.bind_eq_bind, Option.bind_eq_some_iff] at h
  obtain ⟨_, d₁, _, d₂, _, d₃, _, d₄, -⟩ := h
  intro b mem
  simp only [List.mem_cons, List.not_mem_nil, or_false] at mem
  rcases mem with rfl | rfl | rfl | rfl | rfl | rfl
  · decide
  · decide
  · exact dark_of_hexDigit? d₁
  · exact dark_of_hexDigit? d₂
  · exact dark_of_hexDigit? d₃
  · exact dark_of_hexDigit? d₄

theorem Blank.of_cons {b : UInt8} {bs : Bytes} (h : Blank (b :: bs)) : Blank bs :=
  fun b' mem => h b' (List.mem_cons_of_mem b mem)

namespace Quoted

variable {bs r w : Bytes} {ps : List Piece}

theorem leaves (h : Quoted bs ps r) : Leaves bs r := by
  induction h with
  | close r => exact ⟨[0x22], by simp, rfl⟩
  | @plain b _ _ _ _ _ _ _ ih =>
    obtain ⟨c, -, cut⟩ := ih
    exact ⟨b :: c, by simp, by rw [cut, List.cons_append]⟩
  | @short e _ _ _ _ _ _ ih =>
    obtain ⟨c, -, cut⟩ := ih
    exact ⟨0x5C :: e :: c, by simp, by rw [cut]; rfl⟩
  | @unit h₁ h₂ h₃ h₄ _ _ _ _ _ _ ih =>
    obtain ⟨c, -, cut⟩ := ih
    exact ⟨0x5C :: 0x75 :: h₁ :: h₂ :: h₃ :: h₄ :: c, by simp, by rw [cut]; rfl⟩

theorem not_blank (h : Quoted bs ps r) : ¬ Blank bs := by
  intro blank
  induction h with
  | close => exact absurd (blank 0x22 (by simp)) (by decide)
  | plain _ _ _ _ ih => exact ih blank.of_cons
  | short => exact absurd (blank 0x5C (by simp)) (by decide)
  | unit => exact absurd (blank 0x5C (by simp)) (by decide)

/-- No string ends among blanks that follow. -/
theorem of_append (blank : Blank w) (h : Quoted (bs ++ w) ps r) :
    ∃ m, r = m ++ w ∧ Quoted bs ps m := by
  -- The bytes are no variable, so the induction needs a name for them.
  generalize whole : bs ++ w = x at h
  induction h generalizing bs with
  | close r =>
    obtain ⟨m, rfl, rfl⟩ := append_eq_append_blank (c := [0x22]) blank (by simp [isSpace])
      whole.symm
    exact ⟨m, rfl, .close m⟩
  | @plain b bs' _ _ quote escape control rest ih =>
    cases bs with
    | nil =>
      rw [List.nil_append] at whole
      rw [whole] at blank
      -- The closing quote is not among the blanks.
      exact absurd blank.of_cons rest.not_blank
    | cons b' bs =>
      obtain ⟨rfl, cut⟩ := List.cons.inj whole
      obtain ⟨m, left, quoted⟩ := ih cut
      exact ⟨m, left, .plain quote escape control quoted⟩
  | @short e _ _ _ _ escape _ ih =>
    have dark : ∀ b ∈ [0x5C, e], isSpace b = false := by
      intro b mem
      rcases List.mem_cons.mp mem with rfl | mem
      · decide
      · rw [List.mem_singleton.mp mem]
        exact isSpace_of_shortEscape? escape
    obtain ⟨m, rfl, cut⟩ := append_eq_append_blank (c := [0x5C, e]) blank dark whole.symm
    obtain ⟨m', left, quoted⟩ := ih cut.symm
    exact ⟨m', left, .short escape quoted⟩
  | @unit h₁ h₂ h₃ h₄ _ _ _ _ digits _ ih =>
    obtain ⟨m, rfl, cut⟩ := append_eq_append_blank (c := [0x5C, 0x75, h₁, h₂, h₃, h₄]) blank
      (fun b mem => (dark_of_unit? digits b mem).2) whole.symm
    obtain ⟨m', left, quoted⟩ := ih cut.symm
    exact ⟨m', left, .unit digits quoted⟩

end Quoted

theorem isText_of_escape {p e bs : Bytes} {b : UInt8} (small : b.toNat < 0x80)
    (rest : ∀ b ∈ e, b.toNat < 0x80) (h : Utf8.IsText (p ++ (b :: e ++ bs))) :
    Utf8.IsText p ∧ Utf8.IsText bs := by
  rw [List.cons_append] at h
  obtain ⟨left, right⟩ := h.split small
  exact ⟨left, (Utf8.isText_append_iff rest).mp right⟩

theorem isText_of_unit {p bs : Bytes} {h₁ h₂ h₃ h₄ : UInt8} {n : Nat}
    (digits : unit? h₁ h₂ h₃ h₄ = some n)
    (h : Utf8.IsText (p ++ (0x5C :: 0x75 :: h₁ :: h₂ :: h₃ :: h₄ :: bs))) :
    Utf8.IsText p ∧ Utf8.IsText bs :=
  isText_of_escape (e := [0x75, h₁, h₂, h₃, h₄]) (by decide)
    (fun b mem => (dark_of_unit? digits b (List.mem_cons_of_mem _ mem)).1) h

namespace Quoted

variable {bs r : Bytes} {ps : List Piece}

/-- What follows a string of a text is a text. -/
theorem isText_rest (h : Quoted bs ps r) {p : Bytes} (text : Utf8.IsText (p ++ bs)) :
    Utf8.IsText r := by
  induction h generalizing p with
  | close r => exact (text.split (by decide)).2
  | @plain b _ _ _ _ _ _ _ ih => exact ih (p := p ++ [b]) (by simpa using text)
  | @short e _ _ _ _ escape _ ih =>
    have small := (toNat_lt_of_shortEscape? escape).1
    exact ih (p := []) (isText_of_escape (e := [e]) (by decide) (by simpa using small) text).2
  | unit digits _ ih => exact ih (p := []) (isText_of_unit digits text).2

/-- A string of a text denotes a text. -/
theorem isText (h : Quoted bs ps r) {p t : Bytes} (text : Utf8.IsText (p ++ bs))
    (denoted : denote ps = some t) : Utf8.IsText (p ++ t) := by
  -- Induction along the pieces, with what has been read of them before the bytes that are left.
  fun_induction denote ps generalizing bs p t with
  | case1 =>
    cases h
    obtain rfl := Option.some.inj denoted
    rw [List.append_nil]
    exact (text.split (by decide)).1
  | case2 b ps ih =>
    obtain ⟨t', inner, rfl⟩ := Option.map_eq_some_iff.mp denoted
    cases h with
    | plain _ _ _ rest =>
      have read := ih rest (p := p ++ [b]) (by simpa using text) inner
      simpa using read
    | @short e _ _ _ _ escape rest =>
      have small := toNat_lt_of_shortEscape? escape
      obtain ⟨before, after⟩ :=
        isText_of_escape (e := [e]) (by decide) (by simpa using small.1) text
      have read := ih rest (p := p ++ [b])
        ((before.append (Utf8.isText_singleton small.2)).append after) inner
      simpa using read
  -- Two units that make up one character.
  | case4 n _ _ m ps _ ih =>
    obtain ⟨t', inner, rfl⟩ := Option.map_eq_some_iff.mp denoted
    cases h with
    | unit digits rest =>
      cases rest with
      | unit digits' rest =>
        obtain ⟨before, after⟩ := isText_of_unit digits text
        have after := (isText_of_unit (p := []) digits' after).2
        rw [← List.append_assoc]
        exact ih rest ((before.append (Utf8.isText_encodeChar _)).append after) inner
  | case7 n ps _ _ ih =>
    obtain ⟨t', inner, rfl⟩ := Option.map_eq_some_iff.mp denoted
    cases h with
    | unit digits rest =>
      obtain ⟨before, after⟩ := isText_of_unit digits text
      rw [← List.append_assoc]
      exact ih rest ((before.append (Utf8.isText_encodeChar _)).append after) inner
  | _ => simp at denoted

end Quoted

/-! ### Readers -/

theorem exists_quoted_of_skipString {bs r : Bytes} (h : skipString bs = .ok r) :
    ∃ ps, Quoted bs ps r := by
  fun_induction skipString bs with
  | case2 r' =>
    obtain rfl := Except.ok.inj h
    exact ⟨[], .close r'⟩
  | case5 h₁ h₂ h₃ h₄ r' n digits _ ih =>
    obtain ⟨ps, rest⟩ := ih h
    exact ⟨_, .unit digits rest⟩
  | case7 e r' _ c escape _ ih =>
    obtain ⟨ps, rest⟩ := ih h
    exact ⟨_, .short escape rest⟩
  | case10 b r' quote escape control ih =>
    obtain ⟨ps, rest⟩ := ih h
    exact ⟨_, .plain quote escape control rest⟩
  | _ => simp at h

theorem before_eq_ok {bs t r : Bytes} {rest : Except Fault (Bytes × Bytes)}
    (h : before bs rest = .ok (t, r)) : ∃ t', rest = .ok (t', r) := by
  obtain ⟨⟨t', r'⟩, read, result⟩ := Except.map_eq_ok.mp h
  obtain ⟨-, rfl⟩ := Prod.mk.inj result
  exact ⟨t', read⟩

theorem exists_quoted_of_rawString {bs t r : Bytes} (h : rawString bs = .ok (t, r)) :
    ∃ ps, Quoted bs ps r := by
  -- The cases that succeed read a piece, or two units of a pair, and go on; the others fail.
  fun_induction rawString bs generalizing t with
  | case2 r' =>
    obtain ⟨-, rfl⟩ := Prod.mk.inj (Except.ok.inj h)
    exact ⟨[], .close r'⟩
  | case9 _ _ _ _ _ lead _ _ _ _ _ _ r' _ trail _ _ ih =>
    obtain ⟨_, read⟩ := before_eq_ok h
    obtain ⟨ps, rest⟩ := ih read
    exact ⟨_, .unit lead (.unit trail rest)⟩
  | case14 _ _ _ _ r' _ digits _ _ _ ih =>
    obtain ⟨_, read⟩ := before_eq_ok h
    obtain ⟨ps, rest⟩ := ih read
    exact ⟨_, .unit digits rest⟩
  | case16 e r' _ c escape _ ih =>
    obtain ⟨_, read⟩ := before_eq_ok h
    obtain ⟨ps, rest⟩ := ih read
    exact ⟨_, .short escape rest⟩
  | case19 b r' quote escape control ih =>
    obtain ⟨_, read⟩ := before_eq_ok h
    obtain ⟨ps, rest⟩ := ih read
    exact ⟨_, .plain quote escape control rest⟩
  | _ => simp at h

theorem ne_of_shortEscape? {e c : UInt8} (h : shortEscape? e = some c) : e ≠ 0x75 := by
  rintro rfl
  have no_escape : shortEscape? 0x75 = none := rfl
  rw [no_escape] at h
  exact absurd h (by simp)

theorem toOption_before (bs : Bytes) (rest : Except Fault (Bytes × Bytes)) :
    (before bs rest).toOption = rest.toOption.map fun (t, r) => (bs ++ t, r) :=
  Except.toOption_map _ _

section RawString

variable {b e c h₁ h₂ h₃ h₄ : UInt8} {n : Nat} {r : Bytes}

theorem rawString_close : rawString (0x22 :: r) = .ok ([], r) := by
  rw [rawString.eq_def]
  simp

theorem rawString_plain (quote : b ≠ 0x22) (escape : b ≠ 0x5C) (control : ¬ b.toNat < 0x20) :
    rawString (b :: r) = before [b] (rawString r) := by
  rw [rawString.eq_def]
  simp [quote, escape, control]

theorem rawString_short (escape : shortEscape? e = some c) :
    rawString (0x5C :: e :: r) = before [c] (rawString r) := by
  rw [rawString.eq_def]
  simp [escape, ne_of_shortEscape? escape]

theorem rawString_unit (digits : unit? h₁ h₂ h₃ h₄ = some n) (trail : isTrail n = false)
    (lead : isLead n = false) : rawString (0x5C :: 0x75 :: h₁ :: h₂ :: h₃ :: h₄ :: r) =
      before (Utf8.encodeChar (Char.ofNat n)) (rawString r) := by
  rw [rawString.eq_def]
  simp [digits, trail, lead]

theorem toOption_rawString_trail (digits : unit? h₁ h₂ h₃ h₄ = some n) (trail : isTrail n = true) :
    (rawString (0x5C :: 0x75 :: h₁ :: h₂ :: h₃ :: h₄ :: r)).toOption = none := by
  rw [rawString.eq_def]
  simp [digits, trail, Except.toOption]

/-- After the first half of a character the second half has to follow at once. -/
theorem toOption_rawString_lead (digits : unit? h₁ h₂ h₃ h₄ = some n) (trail : isTrail n = false)
    (lead : isLead n = true) {ps : List Piece} {r' : Bytes} (rest : Quoted r ps r') :
    (rawString (0x5C :: 0x75 :: h₁ :: h₂ :: h₃ :: h₄ :: r)).toOption =
      match ps with
      | .unit m :: _ =>
        if isTrail m then
          (rawString (r.drop 6)).toOption.map fun (t, r) => (Utf8.encodeChar (joined n m) ++ t, r)
        else none
      | _ => none := by
  rw [rawString.eq_def]
  cases rest with
  | close => simp [digits, trail, lead, Except.toOption]
  | plain quote escape => simp [digits, trail, lead, escape, Except.toOption]
  | short escape => simp [digits, trail, lead, ne_of_shortEscape? escape, Except.toOption]
  | @unit _ _ _ _ m _ _ _ digits' =>
    by_cases second : isTrail m = true
    · simp [digits, trail, lead, digits', second, toOption_before]
    · simp [digits, trail, lead, digits', second, Except.toOption]

end RawString

/-- A string is read as the bytes that its pieces denote. -/
theorem toOption_rawString {bs r : Bytes} {ps : List Piece} (h : Quoted bs ps r) :
    (rawString bs).toOption = (denote ps).map fun t => (t, r) := by
  have map_map (c : Bytes) (x : Option Bytes) : (x.map fun t => (t, r)).map
      (fun (t, r) => (c ++ t, r)) = (x.map (c ++ ·)).map fun t => (t, r) := by
    cases x <;> rfl
  -- The cases are those of `denote`, which looks at a second unit behind a leading one.
  fun_induction denote ps generalizing bs with
  | case1 =>
    cases h
    rw [rawString_close]
    rfl
  | case2 b ps ih =>
    cases h with
    | plain quote escape control rest =>
      rw [rawString_plain quote escape control, toOption_before, ih rest]
      exact map_map [b] (denote ps)
    | short escape rest =>
      rw [rawString_short escape, toOption_before, ih rest]
      exact map_map [b] (denote ps)
  | case3 n ps trail =>
    cases h with
    | unit digits rest => exact toOption_rawString_trail digits trail
  | case4 n trail lead m ps second ih =>
    cases h with
    | unit digits rest =>
      rw [toOption_rawString_lead digits (by simpa using trail) lead rest]
      cases rest with
      | unit digits' rest =>
        simp only [second, if_true]
        exact (congrArg _ (ih rest)).trans (map_map _ (denote ps))
  | case5 n trail lead m ps second =>
    cases h with
    | unit digits rest =>
      rw [toOption_rawString_lead digits (by simpa using trail) lead rest]
      simp [second]
  | case6 n ps trail lead no_unit =>
    cases h with
    | unit digits rest =>
      rw [toOption_rawString_lead digits (by simpa using trail) lead rest]
      split
      · exact absurd rfl (no_unit _ _)
      · rfl
  | case7 n ps trail lead ih =>
    cases h with
    | unit digits rest =>
      rw [rawString_unit digits (by simpa using trail) (by simpa using lead), toOption_before,
        ih rest]
      exact map_map _ (denote ps)

theorem toOption_readString {bs r : Bytes} {ps : List Piece} (h : Quoted bs ps r) :
    (readString bs).toOption = (text? ps).map fun s => (s, r) := by
  rw [readString, Except.toOption_bind, toOption_rawString h, text?]
  cases denote ps with
  | none => rfl
  | some t =>
    simp only [Option.map_some, Option.bind_some]
    cases Utf8.decode? t <;> rfl

theorem exists_quoted_of_readString {bs r : Bytes} {s : String} (h : readString bs = .ok (s, r)) :
    ∃ ps, Quoted bs ps r := by
  obtain ⟨⟨t, r'⟩, read, decoded⟩ := Except.bind_eq_ok.mp h
  simp only at decoded
  split at decoded
  · obtain ⟨-, rfl⟩ := Prod.mk.inj (Except.ok.inj decoded)
    exact exists_quoted_of_rawString read
  · simp [throw, throwThe, MonadExceptOf.throw] at decoded

end HashGateway.Json
