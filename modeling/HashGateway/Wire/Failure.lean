/-!
# Failures of an exchange with a server

A command that is sent to a server fails in one of two ways: the connection fails,
so there is no answer, or the answer says that the command failed. Both are worded
here, and `Failure.isConnection` tells them apart.

## Main definitions

* `Wire.Kind` — the kinds of failures that have a name
* `Wire.Failure` — a failure
* `Wire.Failure.message` — its wording
* `Wire.Failure.isConnection` — whether there was no answer
-/

namespace HashGateway.Wire

/-- The kinds of failures that have a name. -/
inductive Kind
  | response
  | parse
  | authentication
  | type
  | abort
  | loading
  | noScript
  | address
  | moved
  | ask
  | tryAgain
  | clusterDown
  | crossSlot
  | masterDown
  | io
  | client
  | extension
  | readOnly
  | noMasterName
  | noReplica
  | noSentinel
  | notBusy
  | noNode
  deriving DecidableEq, Repr

/-- The name of a kind. -/
def Kind.name : Kind → String
  | .response => "ResponseError"
  | .parse => "ParseError"
  | .authentication => "AuthenticationFailed"
  | .type => "TypeError"
  | .abort => "ExecAbortError"
  | .loading => "BusyLoadingError"
  | .noScript => "NoScriptError"
  | .address => "InvalidClientConfig"
  | .moved => "Moved"
  | .ask => "Ask"
  | .tryAgain => "TryAgain"
  | .clusterDown => "ClusterDown"
  | .crossSlot => "CrossSlot"
  | .masterDown => "MasterDown"
  | .io => "IoError"
  | .client => "ClientError"
  | .extension => "ExtensionError"
  | .readOnly => "ReadOnly"
  | .noMasterName => "MasterNameNotFoundBySentinel"
  | .noReplica => "NoValidReplicasFoundBySentinel"
  | .noSentinel => "EmptySentinelList"
  | .notBusy => "NotBusy"
  | .noNode => "ClusterConnectionNotFound"

/-- All kinds. -/
def Kind.all : List Kind :=
  [.response, .parse, .authentication, .type, .abort, .loading, .noScript, .address, .moved,
    .ask, .tryAgain, .clusterDown, .crossSlot, .masterDown, .io, .client, .extension, .readOnly,
    .noMasterName, .noReplica, .noSentinel, .notBusy, .noNode]

/-- The kind with a name. -/
def Kind.named? (s : String) : Option Kind := Kind.all.find? fun kind => kind.name = s

/-- A failure of an exchange. -/
inductive Failure
  /-- A failure of a named kind. -/
  | known (kind : Kind) (description : String) (detail : Option String)
  /-- A failure with a code that the server made up. -/
  | extended (code : String) (detail : Option String)
  /-- The connection failed. -/
  | connection (text : String)
  deriving DecidableEq, Repr

/-- The wording of a failure. -/
def Failure.message : Failure → String
  | .known kind description none => s!"{description}- {kind.name}"
  | .known kind description (some detail) => s!"{description} - {kind.name}: {detail}"
  | .extended code none => s!"{code}: Unknown extension error encountered"
  | .extended code (some detail) => s!"{code}: {detail}"
  | .connection text => text

/-- Whether a failure is one of the connection. -/
def Failure.isConnection : Failure → Bool
  | .known kind _ _ => kind = .io
  | .extended _ _ => false
  | .connection _ => true

end HashGateway.Wire
