import HashGateway.Endpoint

/-!
# The gateway

The part of the server that knows nothing of connections: a request becomes an
exchange with the store, and the outcome of the exchange becomes a response.

## Main definitions

* `Request`, `Response` — what comes in and what goes out
* `Gateway.dispatch` — what a request does
* `Gateway.serve` — the same for a body that is read from a connection
-/

namespace HashGateway

/-- A request that comes at a time, counted in microseconds from an epoch. Clocks may stand before
it. -/
structure Request where
  method : String
  url : String
  body : Bytes
  stamp : Int
  deriving DecidableEq, Repr

/-- The part of an address before its question mark. -/
def Request.path (request : Request) : String :=
  String.ofList (request.url.toList.takeWhile (· != '?'))

/-- A response: its status and its body. -/
structure Response where
  status : Nat
  body : String
  deriving DecidableEq, Repr

/-- A response that carries no data of the store. -/
def Response.fail (status : Nat) : Response := ⟨status, Envelope.fail.text⟩

/-- The response to a request that has been handled. What the client did wrong is not found;
without its store the gateway is unavailable. -/
def Response.ofResult : Except Error Outcome → Response
  | .ok outcome => ⟨200, outcome.body⟩
  | .error (.json _) => .fail 404
  | .error (.invalidRequest _) => .fail 404
  | .error (.unavailable _) => .fail 503
  | .error _ => .fail 500

namespace Gateway

/-- The largest number of bytes of a path. -/
def maxPath : Nat := 100

/-- The largest number of bytes of a body. -/
def maxBody : Nat := 1024

/-- The type of the body of every response. -/
def contentType : String := "application/json; charset=utf-8"

/-- What a request does. A request that is too large, or that leads nowhere, is answered without
looking at its body. -/
def dispatch (pageSize : Nat) (request : Request) : Exchange Response :=
  if maxPath < (Utf8.bytes request.path).length || maxBody < request.body.length then
    .done (.fail 404)
  else
    match Endpoint.route request.method request.path with
    | none => .done (.fail 404)
    | some endpoint =>
      (endpoint.handle pageSize request.stamp request.body).bind fun result =>
        .done (.ofResult result)

/-- What a request does whose body is read from a connection. No more of the body is read than
is needed to see that it is too large. -/
def serve (pageSize : Nat) (request : Request) : Exchange Response :=
  dispatch pageSize { request with body := request.body.take (maxBody + 1) }

end Gateway

end HashGateway
