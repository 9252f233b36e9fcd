import HashGateway.Decimal.Extended
import HashGateway.Text.Utf8

/-!
# Replies of a store

## Main definitions

* `Reply` — what a store answers to a command
* `Reply.bulk` — a text as a reply
* `Reply.text?` — the text that a reply holds
-/

namespace HashGateway

/-- What a store answers to a command. -/
inductive Reply
  | nil
  | okay
  | int (i : Int)
  | bytes (b : Bytes)
  | simple (s : String)
  | array (items : List Reply)
  | set (items : List Reply)
  | map (pairs : List (Reply × Reply))
  | attribute (data : Reply) (attributes : List (Reply × Reply))
  | double (x : Decimal.Extended)
  | bool (b : Bool)
  /-- An integer of any size. -/
  | bigNumber (i : Int)
  | verbatim (format text : String)
  | push (kind : String) (items : List Reply)
  /-- A failure that the server words, as a value: its code, and what may be said about it. -/
  | serverError (code : String) (detail : Option String)

namespace Reply

/-- A text as a reply. -/
def bulk (s : String) : Reply := .bytes (Utf8.bytes s)

/-- Whether a reply is a string of either form. -/
def isString : Reply → Bool
  | .bytes _ => true
  | .simple _ => true
  | _ => false

/-- The text that a reply holds. -/
def text? : Reply → Option String
  | .bytes b => Utf8.decode? b
  | .simple s => some s
  | _ => none

@[simp] theorem isString_bulk (s : String) : (bulk s).isString = true := rfl

end Reply

end HashGateway
