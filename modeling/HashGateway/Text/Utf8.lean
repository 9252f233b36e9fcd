/-!
# UTF-8

Texts as bytes and back. Reading stops at the first byte that no text can hold
and says where it stands and how many bytes of a character came before the fault.

## Main definitions

* `Bytes` — a list of bytes
* `Utf8.encode`, `Utf8.bytes` — the bytes of a text
* `Utf8.decode` — the text of some bytes, or the first fault
* `Utf8.Fault` — what is wrong with bytes that are no text
* `Utf8.decodeLossy` — the text of any bytes, with a sign for every fault
-/

namespace HashGateway

/-- A sequence of bytes. -/
abbrev Bytes := List UInt8

namespace Utf8

/-- The one to four bytes of a character. -/
def encodeChar (c : Char) : Bytes :=
  let n := c.toNat
  if n < 0x80 then [UInt8.ofNat n]
  else if n < 0x800 then [UInt8.ofNat (0xC0 + n / 0x40), UInt8.ofNat (0x80 + n % 0x40)]
  else if n < 0x10000 then
    [UInt8.ofNat (0xE0 + n / 0x1000), UInt8.ofNat (0x80 + n / 0x40 % 0x40),
      UInt8.ofNat (0x80 + n % 0x40)]
  else
    [UInt8.ofNat (0xF0 + n / 0x40000), UInt8.ofNat (0x80 + n / 0x1000 % 0x40),
      UInt8.ofNat (0x80 + n / 0x40 % 0x40), UInt8.ofNat (0x80 + n % 0x40)]

/-- The bytes of a list of characters. -/
def encode (cs : List Char) : Bytes := cs.flatMap encodeChar

/-- The bytes of a string. -/
def bytes (s : String) : Bytes := encode s.toList

@[simp] theorem encode_nil : encode [] = [] := rfl

@[simp] theorem encode_cons (c : Char) (cs : List Char) :
    encode (c :: cs) = encodeChar c ++ encode cs := rfl

@[simp] theorem encode_append (cs ds : List Char) : encode (cs ++ ds) = encode cs ++ encode ds :=
  List.flatMap_append

theorem encodeChar_ne_nil (c : Char) : encodeChar c ≠ [] := by
  simp only [encodeChar]
  split
  · simp
  · split
    · simp
    · split <;> simp

/-- Why bytes are no text: the place of the first byte that fits no character. -/
inductive Fault
  /-- `length` bytes from `index` on start no character. -/
  | invalid (index length : Nat)
  /-- The bytes end inside the character that starts at `index`. -/
  | truncated (index : Nat)
  deriving DecidableEq, Repr

/-- The wording of a fault. -/
def Fault.message : Fault → String
  | .invalid index length => s!"invalid utf-8 sequence of {length} bytes from index {index}"
  | .truncated index => s!"incomplete utf-8 byte sequence from index {index}"

/-- Bytes that continue a character. -/
def isTail (b : UInt8) : Bool := 0x80 ≤ b.toNat && b.toNat ≤ 0xBF

/-- The number of bytes of a character, by its first byte; `0` for a byte that starts none. -/
def width (b : UInt8) : Nat :=
  let n := b.toNat
  if n < 0x80 then 1
  else if 0xC2 ≤ n && n ≤ 0xDF then 2
  else if 0xE0 ≤ n && n ≤ 0xEF then 3
  else if 0xF0 ≤ n && n ≤ 0xF4 then 4
  else 0

/-- Which second bytes may follow a first byte. The bounds leave out forms longer than
necessary, surrogates, and values above the last character. -/
def isSecond (first second : UInt8) : Bool :=
  let n := second.toNat
  if first = 0xE0 then 0xA0 ≤ n && n ≤ 0xBF
  else if first = 0xED then 0x80 ≤ n && n ≤ 0x9F
  else if first = 0xF0 then 0x90 ≤ n && n ≤ 0xBF
  else if first = 0xF4 then 0x80 ≤ n && n ≤ 0x8F
  else 0x80 ≤ n && n ≤ 0xBF

/-- Reads bytes that start at position `index` of the whole. -/
def decodeFrom (index : Nat) : Bytes → Except Fault (List Char)
  | [] => .ok []
  | a :: r =>
    match width a with
    | 1 => (decodeFrom (index + 1) r).map (Char.ofNat a.toNat :: ·)
    | 2 =>
      match r with
      | [] => .error (.truncated index)
      | b :: r =>
        if isSecond a b then
          let c := Char.ofNat ((a.toNat - 0xC0) * 0x40 + (b.toNat - 0x80))
          (decodeFrom (index + 2) r).map (c :: ·)
        else .error (.invalid index 1)
    | 3 =>
      match r with
      | [] => .error (.truncated index)
      | b :: r =>
        if isSecond a b then
          match r with
          | [] => .error (.truncated index)
          | c :: r =>
            if isTail c then
              let c := Char.ofNat ((a.toNat - 0xE0) * 0x1000 + (b.toNat - 0x80) * 0x40
                + (c.toNat - 0x80))
              (decodeFrom (index + 3) r).map (c :: ·)
            else .error (.invalid index 2)
        else .error (.invalid index 1)
    | 4 =>
      match r with
      | [] => .error (.truncated index)
      | b :: r =>
        if isSecond a b then
          match r with
          | [] => .error (.truncated index)
          | c :: r =>
            if isTail c then
              match r with
              | [] => .error (.truncated index)
              | d :: r =>
                if isTail d then
                  let c := Char.ofNat ((a.toNat - 0xF0) * 0x40000 + (b.toNat - 0x80) * 0x1000
                    + (c.toNat - 0x80) * 0x40 + (d.toNat - 0x80))
                  (decodeFrom (index + 4) r).map (c :: ·)
                else .error (.invalid index 3)
            else .error (.invalid index 2)
        else .error (.invalid index 1)
    | _ => .error (.invalid index 1)

/-- The characters that bytes hold, or the first fault. -/
def decode (bs : Bytes) : Except Fault (List Char) := decodeFrom 0 bs

/-- The string that bytes hold, if they hold one. -/
def decode? (bs : Bytes) : Option String :=
  match decode bs with
  | .ok cs => some (String.ofList cs)
  | .error _ => none

/-- The sign that stands for bytes that are no text. -/
def replacement : Char := '\uFFFD'

/-- The character that bytes begin with and the number of its bytes. Bytes that begin none are
replaced together: those that could have begun one, or else a single byte. -/
def first (b : UInt8) (r : Bytes) : Char × Nat :=
  let bs := (b :: r).take (max 1 (width b))
  match decode bs with
  | .ok (c :: _) => (c, bs.length)
  | .error (.invalid _ length) => (replacement, length)
  | _ => (replacement, bs.length)

/-- The text of bytes of which some may have been read already. -/
def decodeLossyFrom : (read : Nat) → Bytes → List Char
  | _, [] => []
  | read + 1, _ :: r => decodeLossyFrom read r
  | 0, b :: r =>
    let (c, size) := first b r
    c :: decodeLossyFrom (size - 1) r

/-- The text of any bytes. A sign stands for every fault. -/
def decodeLossy (bs : Bytes) : List Char := decodeLossyFrom 0 bs

end Utf8

end HashGateway
