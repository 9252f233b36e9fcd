import HashGateway.Decimal.Binary64

/-!
# The shortest decimal of a number

Every decimal in a certain interval around a binary number reads back as that
number. Among the decimals with the fewest digits in that interval the one
nearest to the number is chosen, a tie going to the even last digit.

The choice is made in exact arithmetic of natural numbers: for one digit, two,
and so on, the two decimals around the number are tried.

## Main definitions

* `Interval` — a number and the ends of its rounding interval over one denominator
* `Scientific` — a whole number of some power of ten
* `shortest` — the shortest decimal of a magnitude
-/

namespace HashGateway.Decimal

/-- `digits * 10 ^ power`. -/
structure Scientific where
  digits : Nat
  power : Int
  deriving DecidableEq, Repr

/-- A number with the ends of its rounding interval, as numerators over `denominator`. -/
structure Interval where
  low : Nat
  value : Nat
  high : Nat
  denominator : Nat
  /-- Whether the ends belong to the interval. -/
  closed : Bool

/-- The rounding interval of a magnitude that is not zero. The neighbour below is half as far
away as the one above when the mantissa is the least of its length. -/
def Magnitude.interval (x : Magnitude) : Interval :=
  let gap := if x.mantissa = 1 <<< 52 && 0 < x.shift then 1 else 2
  { low := (4 * x.mantissa - gap) <<< x.shift
    value := (4 * x.mantissa) <<< x.shift
    high := (4 * x.mantissa + 2) <<< x.shift
    denominator := 4 * Magnitude.one
    closed := x.mantissa % 2 == 0 }

namespace Interval

/-- The exponent of the first decimal digit of the number. -/
def leading (i : Interval) : Int :=
  if i.denominator ≤ i.value then (Nat.toDigits 10 (i.value / i.denominator)).length - 1
  else -((Nat.toDigits 10 ((i.denominator - 1) / i.value)).length : Int)

/-- The interval counted in units of `10 ^ power`. -/
def scale (i : Interval) : Int → Interval
  | .ofNat n => { i with denominator := i.denominator * Nat.pow 10 n }
  | .negSucc k =>
    let ten := Nat.pow 10 (k + 1)
    { i with low := i.low * ten, value := i.value * ten, high := i.high * ten }

/-- Whether a whole number lies in the interval. -/
def holds (i : Interval) (n : Nat) : Bool :=
  let point := n * i.denominator
  if i.closed then i.low ≤ point && point ≤ i.high else i.low < point && point < i.high

/-- The whole number in the interval that is nearest to its value, of the two around it. -/
def nearest? (i : Interval) : Option Nat :=
  let below := i.value / i.denominator
  let rest := i.value % i.denominator
  match i.holds below, i.holds (below + 1) with
  | true, true =>
    if 2 * rest < i.denominator || (2 * rest == i.denominator && below % 2 == 0) then some below
    else some (below + 1)
  | true, false => some below
  | false, true => some (below + 1)
  | false, false => none

/-- The first hit on the grids of `count`, `count + 1`, … digits; `more` grids are tried. -/
def search (i : Interval) (count : Nat) : (more : Nat) → Scientific
  | 0 => ⟨0, 0⟩
  | more + 1 =>
    -- On this grid the number has `count` digits before the point.
    let power := i.leading - count + 1
    match (i.scale power).nearest? with
    | some digits => ⟨digits, power⟩
    | none => i.search (count + 1) more

end Interval

/-- Removes the zeros at the end of the digits; `more` of them at most. -/
def Scientific.stripZeros (x : Scientific) : (more : Nat) → Scientific
  | 0 => x
  | more + 1 =>
    if x.digits % 10 = 0 then Scientific.stripZeros ⟨x.digits / 10, x.power + 1⟩ more else x

/-- The decimal with the fewest digits that reads back as a magnitude that is not zero.
Seventeen digits always suffice. -/
def Magnitude.shortest (x : Magnitude) : Scientific := (x.interval.search 1 17).stripZeros 17

end HashGateway.Decimal
