import HashGateway.Credentials.Pem

/-!
# Credentials of the server

What encrypted connections need: a certificate, and the private key that belongs to it.
Which keys can be used is for the cryptography to say that serves the connections, so it
is a parameter here.

## Main definitions

* `Credentials.Fault`, `Credentials.Fault.message` — why credentials are refused
* `Credentials.key?` — the private key among some sections
* `Credentials.check` — whether two files hold credentials
-/

namespace HashGateway.Credentials

/-- Why credentials are refused. -/
inductive Fault
  /-- A file is not written as it should be. -/
  | file (fault : Pem.Fault)
  | noCertificate
  | noKey
  /-- The private key cannot be used. -/
  | badKey
  deriving DecidableEq, Repr

/-- The wording of a refusal. -/
def Fault.message : Fault → String
  | .file fault => fault.message
  | .noCertificate => "Couldn't extract certificate chain from config."
  | .noKey => "Couldn't extract private key from config."
  | .badKey => "unexpected error: invalid private key"

/-- The content of the first section with a label. -/
def content? (label : String) (sections : List Pem.Section) : Option Bytes :=
  (sections.find? fun s => s.label = label).map Pem.Section.content

/-- The private key: one of any algorithm comes before one that is for one algorithm only. -/
def key? (sections : List Pem.Section) : Option Bytes :=
  (content? "PRIVATE KEY" sections).or (content? "RSA PRIVATE KEY" sections)

/-- Whether two files hold a certificate and a private key that can be used. The certificate is
not looked into. -/
def check (accepts : Bytes → Bool) (certificate key : Bytes) : Except Fault Unit :=
  match Pem.sections certificate, Pem.sections key with
  | .error fault, _ => .error (.file fault)
  | .ok sections, keySections =>
    if (content? "CERTIFICATE" sections).isNone then .error .noCertificate
    else
      match keySections with
      | .error fault => .error (.file fault)
      | .ok sections =>
        match key? sections with
        | none => .error .noKey
        | some key => if accepts key then .ok () else .error .badKey

end HashGateway.Credentials
