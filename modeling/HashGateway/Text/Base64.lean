import HashGateway.Text.Utf8

/-!
# Base64

Bytes as digits of six bits. Four digits make three bytes; at the end two digits make
one byte and three digits make two, with or without equals signs that complete the
group of four.

## Main definitions

* `Base64.Fault`, `Base64.Fault.message` — what is wrong with a text, and its wording
* `Base64.decode` — the bytes that a text stands for, or the first fault
-/

namespace HashGateway.Base64

/-- What is wrong with a text. -/
inductive Fault
  /-- A byte is no digit, or an equals sign stands where none may. -/
  | badByte (index : Nat) (byte : UInt8)
  /-- One digit is left over, which is too few for a byte. -/
  | badLength
  /-- The last digit has bits that belong to no byte. -/
  | badLast (index : Nat) (byte : UInt8)
  deriving DecidableEq, Repr

/-- The wording of a fault. -/
def Fault.message : Fault → String
  | .badByte index byte => s!"Invalid byte {byte.toNat}, offset {index}."
  | .badLength => "Encoded text cannot have a 6-bit remainder."
  | .badLast index byte => s!"Invalid last symbol {byte.toNat}, offset {index}."

/-- The equals sign that completes a group. -/
def pad : UInt8 := 0x3D

/-- The value of a digit. -/
def digit? (b : UInt8) : Option Nat :=
  let n := b.toNat
  if 0x41 ≤ n && n ≤ 0x5A then some (n - 0x41)
  else if 0x61 ≤ n && n ≤ 0x7A then some (n - 0x61 + 26)
  else if 0x30 ≤ n && n ≤ 0x39 then some (n - 0x30 + 52)
  else if n = 0x2B then some 62
  else if n = 0x2F then some 63
  else none

/-- The digits at the start of a text, and the rest of it. -/
def digits : Bytes → List Nat × Bytes
  | [] => ([], [])
  | b :: r =>
    match digit? b with
    | some d => let (ds, rest) := digits r; (d :: ds, rest)
    | none => ([], b :: r)

/-- Whether a text completes the group that some digits began. -/
def completes (count : Nat) (rest : Bytes) : Bool :=
  rest.all (· == pad) && 2 ≤ count % 4 && count % 4 + rest.length ≤ 4

/-- The bits of the last digits that belong to no byte. -/
def spare : List Nat → Nat
  | _ :: _ :: _ :: _ :: ds => spare ds
  | [_, _, c] => c % 4
  | [_, b] => b % 16
  | _ => 0

/-- The bytes of some digits. -/
def assemble : List Nat → Bytes
  | a :: b :: c :: d :: ds =>
    let n := ((a * 64 + b) * 64 + c) * 64 + d
    UInt8.ofNat (n / 0x10000) :: UInt8.ofNat (n / 0x100) :: UInt8.ofNat n :: assemble ds
  | [a, b, c] =>
    let n := ((a * 64 + b) * 64 + c) / 4
    [UInt8.ofNat (n / 0x100), UInt8.ofNat n]
  | [a, b] => [UInt8.ofNat ((a * 64 + b) / 16)]
  | _ => []

/-- The fault of a text whose length leaves one digit over. What stands last is blamed if it is
neither a digit nor an equals sign. -/
def lengthFault (text : Bytes) : Fault :=
  match text.getLast? with
  | some b =>
    if b = pad || (digit? b).isSome then .badLength else .badByte (text.length - 1) b
  | none => .badLength

/-- The bytes that a text stands for. -/
def decode (text : Bytes) : Except Fault Bytes :=
  let (ds, rest) := digits text
  if text.length % 4 = 1 then .error (lengthFault text)
  else if !rest.isEmpty && !completes ds.length rest then
    .error (.badByte ds.length (rest.headD pad))
  else if spare ds ≠ 0 then
    .error (.badLast (ds.length - 1) (text.getD (ds.length - 1) pad))
  else .ok (assemble ds)

end HashGateway.Base64
