import HashGateway.Json.Fault
import HashGateway.Text.Utf8

/-!
# Numbers of a JSON text

A number is read in two steps: first its digits, as the grammar has them, then
its value. The digits that fit into 64 bits are kept and a power of ten stands for
the others, so the value of a long numeral is near, not equal, to what it writes.

## Main definitions

* `Json.Figures` — the digits of a number: whole part, fraction, exponent
* `Json.Figures.read` — reads a number without its sign
* `Json.Figures.number?` — its value, unless that is out of range
-/

namespace HashGateway.Json

open HashGateway.Decimal

/-- The digits of a number, as it is written. -/
structure Figures where
  whole : List Nat
  fraction : List Nat
  /-- The exponent: whether it is negative, and its digits. -/
  exponent : Option (Bool × List Nat)
  deriving DecidableEq, Repr

/-- The value of a decimal digit. -/
def digit? (b : UInt8) : Option Nat :=
  if 0x30 ≤ b.toNat && b.toNat ≤ 0x39 then some (b.toNat - 0x30) else none

/-- The digits at the start of some bytes, and the bytes after them. -/
def digits : Bytes → List Nat × Bytes
  | [] => ([], [])
  | b :: r =>
    match digit? b with
    | some d => let (ds, rest) := digits r; (d :: ds, rest)
    | none => ([], b :: r)

namespace Figures

/-- What a missing digit is called: the text ends there, or goes on with something else. -/
def missingDigit : Bytes → Fault
  | [] => .endOfValue
  | _ => .badNumber

/-- Reads the exponent, if one follows. -/
def readExponent : Bytes → Except Fault (Option (Bool × List Nat) × Bytes)
  | [] => .ok (none, [])
  | b :: r =>
    if b = 0x65 || b = 0x45 then
      let (negative, r) :=
        match r with
        | [] => (false, [])
        | s :: r' => if s = 0x2D then (true, r') else if s = 0x2B then (false, r') else (false, r)
      match digits r with
      | ([], rest) => .error (missingDigit rest)
      | (ds, rest) => .ok (some (negative, ds), rest)
    else .ok (none, b :: r)

/-- Reads the fraction, if one follows. -/
def readFraction : Bytes → Except Fault (List Nat × Bytes)
  | [] => .ok ([], [])
  | b :: r =>
    if b = 0x2E then
      match digits r with
      | ([], rest) => .error (missingDigit rest)
      | (ds, rest) => .ok (ds, rest)
    else .ok ([], b :: r)

/-- Reads a number without its sign. The whole part has no leading zero. -/
def read (bs : Bytes) : Except Fault (Figures × Bytes) :=
  match digits bs with
  | ([], rest) => .error (missingDigit rest)
  | (0 :: _ :: _, _) => .error .badNumber
  | (whole, rest) => do
    let (fraction, rest) ← readFraction rest
    let (exponent, rest) ← readExponent rest
    return (⟨whole, fraction, exponent⟩, rest)

/-- Takes digits onto a significand as long as it fits into 64 bits; the other digits are left. -/
def accumulate (significand : Nat) : List Nat → Nat × List Nat
  | [] => (significand, [])
  | d :: ds =>
    if 10 * significand + d ≤ Numeral.max64 then accumulate (10 * significand + d) ds
    else (significand, d :: ds)

/-- The largest exponent that is added up; beyond it a number is zero or out of range. -/
def maxExponent : Nat := 0x7FFFFFFF

/-- The magnitude of a significand with a written exponent on top of a power of ten. -/
def magnitude? (significand : Nat) (power : Int) :
    Option (Bool × List Nat) → Option Magnitude
  | none => Magnitude.scaled significand power
  | some (negative, ds) =>
    let e := Numeral.ofDigits ds
    if maxExponent < e then
      -- No power of ten makes zero too large.
      if significand ≠ 0 && !negative then none else some Magnitude.zero
    else Magnitude.scaled significand (if negative then power - e else power + e)

/-- The value of a number with its sign. Whole numbers in the range of 64 bit integers, with or
without a sign, stay integers, apart from a negative zero. -/
def number? (negative : Bool) (x : Figures) : Option Number :=
  let (significand, left) := accumulate 0 x.whole
  let real (m : Magnitude) : Number := .real ⟨negative, m⟩
  if x.fraction.isEmpty && x.exponent.isNone then
    if left.isEmpty then
      if !negative then some (.int significand)
      -- The sign of zero, and numbers below the least integer, need a floating point number.
      else if significand = 0 || Numeral.half64 < significand then
        some (real (Magnitude.ofNat significand))
      else some (.int (-significand))
    else (Magnitude.scaled significand left.length).map real
  else
    let (significand, dropped) := accumulate significand x.fraction
    -- Whole digits that were left raise the power of ten, taken ones of the fraction lower it.
    let power : Int := left.length - (x.fraction.length - dropped.length : Nat)
    (magnitude? significand power x.exponent).map real

end Figures

/-- Reads a number whose sign has been read. -/
def readNumber (negative : Bool) (bs : Bytes) : Except Fault (Number × Bytes) := do
  let (figures, rest) ← Figures.read bs
  match figures.number? negative with
  | some n => return (n, rest)
  | none => throw .numberRange

/-- Passes over a number whose sign has been read: its digits are not looked at. -/
def skipNumber (bs : Bytes) : Except Fault Bytes :=
  match Figures.read bs with
  | .ok (_, rest) => .ok rest
  | .error _ => .error .badNumber

end HashGateway.Json
