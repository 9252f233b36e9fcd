import HashGateway.Json.Fault
import HashGateway.Text.Utf8

/-!
# Strings of a JSON text

What stands between two double quotes. A string is read into the bytes it denotes,
with its escapes replaced, and these bytes have to be UTF-8. A string that nobody
asks for is passed over: its escapes are checked for their form only.

## Main definitions

* `Json.rawString` — the bytes of a string whose opening quote has been read
* `Json.readString` — the text of such a string
* `Json.skipString` — passes over such a string
-/

namespace HashGateway.Json

/-- The byte that an escape of two characters stands for. -/
def shortEscape? (b : UInt8) : Option UInt8 :=
  if b = 0x22 || b = 0x5C || b = 0x2F then some b
  else if b = 0x62 then some 0x08
  else if b = 0x66 then some 0x0C
  else if b = 0x6E then some 0x0A
  else if b = 0x72 then some 0x0D
  else if b = 0x74 then some 0x09
  else none

/-- The value of a hexadecimal digit of either case. -/
def hexDigit? (b : UInt8) : Option Nat :=
  let n := b.toNat
  if 0x30 ≤ n && n ≤ 0x39 then some (n - 0x30)
  else if 0x61 ≤ n && n ≤ 0x66 then some (n - 0x57)
  else if 0x41 ≤ n && n ≤ 0x46 then some (n - 0x37)
  else none

/-- The value of four hexadecimal digits. -/
def unit? (a b c d : UInt8) : Option Nat := do
  let a ← hexDigit? a
  let b ← hexDigit? b
  let c ← hexDigit? c
  let d ← hexDigit? d
  return ((a * 16 + b) * 16 + c) * 16 + d

/-- Values that stand for the first half of a character above `0xFFFF`. -/
def isLead (n : Nat) : Bool := 0xD800 ≤ n && n ≤ 0xDBFF

/-- Values that stand for the second half of a character above `0xFFFF`. -/
def isTrail (n : Nat) : Bool := 0xDC00 ≤ n && n ≤ 0xDFFF

/-- The character of two halves. -/
def joined (lead trail : Nat) : Char :=
  Char.ofNat (0x10000 + (lead - 0xD800) * 0x400 + (trail - 0xDC00))

/-- Puts bytes before those of the rest of a string. -/
def before (bs : Bytes) (rest : Except Fault (Bytes × Bytes)) : Except Fault (Bytes × Bytes) :=
  rest.map fun (text, remaining) => (bs ++ text, remaining)

/-- The bytes that a string denotes whose opening quote has been read, and what follows its
closing quote. -/
def rawString : Bytes → Except Fault (Bytes × Bytes)
  | [] => .error .endOfString
  | b :: r =>
    if b = 0x22 then .ok ([], r)
    else if b = 0x5C then
      match r with
      | [] => .error .endOfString
      | e :: r =>
        if e = 0x75 then
          match r with
          | h₁ :: h₂ :: h₃ :: h₄ :: r =>
            match unit? h₁ h₂ h₃ h₄ with
            | none => .error .badEscape
            | some n =>
              -- A second half without a first one is called by the name of the first.
              if isTrail n then .error .loneSurrogate
              -- The second half has to follow at once, in an escape of its own.
              else if isLead n then
                match r with
                | [] => .error .endOfString
                | s :: r =>
                  if s = 0x5C then
                    match r with
                    | [] => .error .endOfString
                    | u :: r =>
                      if u = 0x75 then
                        match r with
                        | k₁ :: k₂ :: k₃ :: k₄ :: r =>
                          match unit? k₁ k₂ k₃ k₄ with
                          | none => .error .badEscape
                          | some m =>
                            if isTrail m then
                              before (Utf8.encodeChar (joined n m)) (rawString r)
                            else .error .loneSurrogate
                        | _ => .error .endOfString
                      else .error .endOfEscape
                  else .error .endOfEscape
              else before (Utf8.encodeChar (Char.ofNat n)) (rawString r)
          | _ => .error .endOfString
        else
          match shortEscape? e with
          | some c => before [c] (rawString r)
          | none => .error .badEscape
    else if b.toNat < 0x20 then .error .controlCharacter
    -- Bytes from 0x80 on are kept as they are; whether they are UTF-8 is asked at the end.
    else before [b] (rawString r)

/-- The text of a string whose opening quote has been read. -/
def readString (bs : Bytes) : Except Fault (String × Bytes) := do
  let (text, rest) ← rawString bs
  match Utf8.decode? text with
  | some s => return (s, rest)
  | none => throw .badUnicode

/-- Passes over a string whose opening quote has been read. -/
def skipString : Bytes → Except Fault Bytes
  | [] => .error .endOfString
  | b :: r =>
    if b = 0x22 then .ok r
    else if b = 0x5C then
      match r with
      | [] => .error .endOfString
      | e :: r =>
        if e = 0x75 then
          match r with
          | h₁ :: h₂ :: h₃ :: h₄ :: r =>
            match unit? h₁ h₂ h₃ h₄ with
            | none => .error .badEscape
            -- Halves of a character need no partner here.
            | some _ => skipString r
          | _ => .error .endOfString
        else
          match shortEscape? e with
          | some _ => skipString r
          | none => .error .badEscape
    else if b.toNat < 0x20 then .error .controlCharacter
    else skipString r

end HashGateway.Json
