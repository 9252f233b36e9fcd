import HashGateway.Decimal.Shortest

/-!
# Laying out a decimal

Given the digits of a number and the place of its point, what is written: the
positional form for exponents in a range, the exponent form outside it.

## Main definitions

* `Style` — the decisions of a number format
* `Style.render` — the text of a number in a style
-/

namespace HashGateway.Decimal

/-- The decisions of a number format. -/
structure Style where
  /-- The least exponent of a first digit that is written positionally. -/
  least : Int
  /-- The greatest exponent of a first digit that is written positionally. -/
  greatest : Int
  /-- What follows the point of a whole number in the positional form. -/
  wholeEnd : List Char
  /-- The mark before an exponent. -/
  mark : Char
  /-- Whether a positive exponent has a plus sign. -/
  plus : Bool
  /-- The text of zero. -/
  zero : List Char

/-- The digits with a point after the first `n` of them, padded with zeros up to there. -/
def withPoint (style : Style) (ds : List Char) (n : Nat) : List Char :=
  if ds.length ≤ n then ds ++ List.replicate (n - ds.length) '0' ++ style.wholeEnd
  else ds.take n ++ '.' :: ds.drop n

/-- The text of an exponent. -/
def exponentText (style : Style) (e : Int) : List Char :=
  match e with
  | .ofNat n => (if style.plus then ['+'] else []) ++ Nat.toDigits 10 n
  | .negSucc k => '-' :: Nat.toDigits 10 (k + 1)

/-- The text of a positive decimal. -/
def Scientific.render (style : Style) (x : Scientific) : List Char :=
  let ds := Nat.toDigits 10 x.digits
  let e := x.power + ds.length - 1
  if style.least ≤ e && e ≤ style.greatest then
    match e with
    | .ofNat n => withPoint style ds (n + 1)
    | .negSucc k => '0' :: '.' :: List.replicate k '0' ++ ds
  else
    match ds with
    | [d] => d :: style.mark :: exponentText style e
    | ds => ds.take 1 ++ '.' :: ds.drop 1 ++ style.mark :: exponentText style e

/-- The text of a number: the sign, and its shortest decimal. -/
def Binary64.render (style : Style) (x : Binary64) : List Char :=
  (if x.negative then ['-'] else []) ++
    if x.magnitude.mantissa = 0 then style.zero else x.magnitude.shortest.render style

end HashGateway.Decimal
