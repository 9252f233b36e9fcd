/-!
# Binary floating point numbers of 64 bits

The finite numbers of IEEE 754 binary64, kept exactly: a sign and a whole number
of units of `2 ^ (-1074)`, which is a mantissa of at most 53 bits shifted left.
Arithmetic is exact arithmetic of natural numbers followed by one rounding to the
nearest such number, a tie going to the even mantissa.

## Main definitions

* `Magnitude` — a mantissa and its shift
* `Magnitude.ofQuotient` — the magnitude nearest to a quotient, if it is not too large
* `Magnitude.mul`, `Magnitude.div` — rounded products and quotients
* `Magnitude.scaled` — a whole number times a power of ten, rounded step by step
* `Binary64` — a magnitude with a sign
-/

namespace HashGateway.Decimal

/-- A finite magnitude: `mantissa * 2 ^ shift` units of `2 ^ (-1074)`. -/
structure Magnitude where
  mantissa : Nat
  shift : Nat
  deriving DecidableEq, Repr, Inhabited

namespace Magnitude

/-- The size of one in units. -/
def one : Nat := 1 <<< 1074

/-- The largest shift of a finite magnitude. -/
def maxShift : Nat := 2045

/-- The magnitude zero. -/
def zero : Magnitude := ⟨0, 0⟩

/-- The number of units. -/
def units (x : Magnitude) : Nat := x.mantissa <<< x.shift

/-- The magnitude with 53 bits of mantissa nearest to `num / den` units; a tie goes to the
even mantissa. There is none beyond the largest finite magnitude. -/
def ofUnits (num den : Nat) : Option Magnitude :=
  let whole := num / den
  -- A number below 53 bits keeps all its units.
  let shift := if whole < 1 <<< 53 then 0 else whole.log2 - 52
  let step := den <<< shift
  let low := num / step
  let rest := num % step
  let mantissa := if step < 2 * rest || (step == 2 * rest && low % 2 == 1) then low + 1 else low
  -- Rounding up may have reached the next power of two.
  let (mantissa, shift) := if mantissa = 1 <<< 53 then (1 <<< 52, shift + 1) else (mantissa, shift)
  if shift ≤ maxShift then some ⟨mantissa, shift⟩ else none

/-- The magnitude nearest to `num / den`. -/
def ofQuotient (num den : Nat) : Option Magnitude := ofUnits (num * one) den

/-- The magnitude nearest to a natural number below the overflow threshold; zero for others. -/
def ofNat (n : Nat) : Magnitude := (ofQuotient n 1).getD zero

/-- The rounded product. -/
def mul (x y : Magnitude) : Option Magnitude := ofUnits (x.units * y.units) one

/-- The rounded quotient; the second magnitude is not zero. -/
def div (x y : Magnitude) : Magnitude := (ofQuotient x.units y.units).getD zero

/-- The largest power of ten that is finite. -/
def maxPower : Nat := 308

/-- The power of ten nearest to `10 ^ n`, for `n` up to `maxPower`. -/
def powerOfTen (n : Nat) : Magnitude := ofNat (Nat.pow 10 n)

/-- A whole number times a power of ten: the number is rounded, and then its product with, or
its quotient by, the rounded power. A power that is too small is divided off in two steps; what
is left after that is zero. There is no result beyond the largest finite magnitude. -/
def scaled (significand : Nat) : Int → Option Magnitude
  | .ofNat n =>
    if n ≤ maxPower then (ofNat significand).mul (powerOfTen n)
    else if significand = 0 then some zero
    else none
  | .negSucc k =>
    let n := k + 1
    if n ≤ maxPower then some ((ofNat significand).div (powerOfTen n))
    else if n ≤ 2 * maxPower then
      some (((ofNat significand).div (powerOfTen maxPower)).div (powerOfTen (n - maxPower)))
    else some zero

end Magnitude

/-- A finite number of 64 bits. Zero has two signs. -/
structure Binary64 where
  negative : Bool
  magnitude : Magnitude
  deriving DecidableEq, Repr, Inhabited

end HashGateway.Decimal
