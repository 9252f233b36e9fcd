/-!
# Decimal numerals

Numbers as decimal digits. Reading takes ASCII digits only, with at most one sign
before them, and refuses numbers above a bound; writing gives the digits without
leading zeros, and a sign only before negative numbers.

## Main definitions

* `Numeral.render`, `Numeral.renderInt` — the digits of a natural number and of an integer
* `Numeral.ofDigits` — the number of some digits
* `Numeral.digits?` — the number that digits write, unless there are none
* `Numeral.unsigned?` — the same with an optional plus sign and a bound
* `Numeral.integer?` — an integer of any size with an optional sign
* `Numeral.grouped?` — the same with underscores among its digits
-/

namespace HashGateway.Numeral

/-- The decimal digits of a number. -/
def render (n : Nat) : List Char := Nat.toDigits 10 n

/-- The decimal digits of an integer, after a minus sign if it is negative. -/
def renderInt : Int → List Char
  | .ofNat n => render n
  | .negSucc n => '-' :: render (n + 1)

/-- The value of a decimal digit. -/
def digit? (c : Char) : Option Nat :=
  if '0' ≤ c && c ≤ '9' then some (c.toNat - '0'.toNat) else none

/-- The number whose decimal digits are given, first digit first. -/
def ofDigits (ds : List Nat) : Nat := ds.foldl (fun n d => 10 * n + d) 0

@[simp] theorem ofDigits_nil : ofDigits [] = 0 := rfl

theorem ofDigits_append_singleton (ds : List Nat) (d : Nat) :
    ofDigits (ds ++ [d]) = 10 * ofDigits ds + d := by
  simp [ofDigits]

/-- The number that a non-empty sequence of digits writes. -/
def digits? (cs : List Char) : Option Nat :=
  if cs.isEmpty then none else (cs.mapM digit?).map ofDigits

/-- The digits after an optional plus sign. -/
def unsign : List Char → List Char
  | '+' :: cs => cs
  | cs => cs

/-- The number up to `bound` that a numeral with an optional plus sign writes. -/
def unsigned? (bound : Nat) (cs : List Char) : Option Nat :=
  match digits? (unsign cs) with
  | some n => if n ≤ bound then some n else none
  | none => none

/-- The integer that a numeral with an optional sign writes. -/
def integer? : List Char → Option Int
  | '-' :: cs => (digits? cs).map fun n => -n
  | cs => (digits? (unsign cs)).map Int.ofNat

/-- The number that digits write, with underscores anywhere but in front of them. -/
def groupedDigits? (cs : List Char) : Option Nat :=
  if cs.head? = some '_' then none else digits? (cs.filter (· != '_'))

/-- The integer that a numeral with an optional sign writes when its digits may be grouped. -/
def grouped? : List Char → Option Int
  | '-' :: cs => (groupedDigits? cs).map fun n => -n
  | cs => (groupedDigits? (unsign cs)).map Int.ofNat

/-- The largest number of 16 bits, which is the largest port. -/
def maxPort : Nat := 0xFFFF

/-- The largest number of 32 bits. -/
def max32 : Nat := 0xFFFFFFFF

/-- The largest number of 64 bits. -/
def max64 : Nat := 0xFFFFFFFFFFFFFFFF

/-- How many integers of 64 bits are negative. -/
def half64 : Nat := 0x8000000000000000

theorem le_of_unsigned? {bound n : Nat} {cs : List Char} (h : unsigned? bound cs = some n) :
    n ≤ bound := by
  simp only [unsigned?] at h
  split at h
  · split at h <;> simp_all
  · simp at h

@[simp] theorem digits?_nil : digits? [] = none := rfl

@[simp] theorem unsigned?_nil (bound : Nat) : unsigned? bound [] = none := rfl

end HashGateway.Numeral
