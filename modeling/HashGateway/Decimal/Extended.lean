import HashGateway.Decimal.Layout
import HashGateway.Text.Numeral

/-!
# Floating point numbers as texts

All numbers of 64 bits, with the infinities and the value that is no number. A text
is read as the finite number nearest to what it writes, and a number is written with
the fewest digits that read back as it.

## Main definitions

* `Extended` — a finite number, an infinity, or no number
* `Scientific.nearest?` — the magnitude nearest to a decimal
* `Scientific.ofText?` — the decimal that a text without a sign writes
* `Extended.ofText?`, `Extended.text` — a number from its text, and back
-/

namespace HashGateway.Decimal

/-- A floating point number of 64 bits. -/
inductive Extended
  | finite (x : Binary64)
  | infinite (negative : Bool)
  | notANumber
  deriving DecidableEq, Repr

namespace Scientific

/-- The magnitude nearest to a decimal. There is none beyond the largest finite magnitude. -/
def nearest? (x : Scientific) : Option Magnitude :=
  -- The decimal is below this power of ten, and not below the one before it.
  let bound := x.power + (Nat.toDigits 10 x.digits).length
  if x.digits = 0 || bound ≤ -324 then some .zero
  else if 309 < bound then none
  else
    match x.power with
    | .ofNat n => Magnitude.ofQuotient (x.digits * Nat.pow 10 n) 1
    | .negSucc k => Magnitude.ofQuotient x.digits (Nat.pow 10 (k + 1))

/-- The exponent that ends a decimal: the letter `e` and an integer, or nothing. -/
def exponent? : List Char → Option Int
  | [] => some 0
  | c :: cs => if c = 'e' || c = 'E' then Numeral.integer? cs else none

/-- The decimal that a text without a sign writes. The digits before the point may be missing, or
those after it, but not both. -/
def ofText? (cs : List Char) : Option Scientific := do
  let whole := cs.takeWhile Char.isDigit
  let (fraction, rest) :=
    match cs.dropWhile Char.isDigit with
    | '.' :: r => (r.takeWhile Char.isDigit, r.dropWhile Char.isDigit)
    | r => ([], r)
  let digits ← Numeral.digits? (whole ++ fraction)
  let exponent ← exponent? rest
  return ⟨digits, exponent - fraction.length⟩

end Scientific

namespace Extended

/-- Numbers from `1e-4` up to `1e16` are written positionally, whole ones with `.0`. -/
def style : Style where
  least := -4
  greatest := 15
  wholeEnd := ['.', '0']
  mark := 'e'
  plus := false
  zero := ['0', '.', '0']

/-- The text of a number. -/
def text : Extended → String
  | .finite x => String.ofList (x.render style)
  | .infinite negative => if negative then "-inf" else "inf"
  | .notANumber => "NaN"

/-- The number that a word stands for, in letters of either case. -/
def ofWord? (negative : Bool) (cs : List Char) : Option Extended :=
  let word := String.ofList (cs.map Char.toLower)
  if word = "inf" || word = "infinity" then some (.infinite negative)
  else if word = "nan" then some .notANumber
  else none

/-- The number that a text after its sign writes. A decimal that is too large is infinite. -/
def ofUnsigned? (negative : Bool) (cs : List Char) : Option Extended :=
  match Scientific.ofText? cs with
  | some x =>
    match x.nearest? with
    | some m => some (.finite ⟨negative, m⟩)
    | none => some (.infinite negative)
  | none => ofWord? negative cs

/-- The number that a text writes. -/
def ofText? : List Char → Option Extended
  | '-' :: cs => ofUnsigned? true cs
  | cs => ofUnsigned? false (Numeral.unsign cs)

end Extended

end HashGateway.Decimal
