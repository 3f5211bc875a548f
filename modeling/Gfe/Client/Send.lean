import Gfe.Handler.Request

/-! # Sending a request to a server

What the pooled client makes of a request before it goes out: the protocol
follows from the scheme and the request, the server is named by the authority
given, and only the path and query of the request's target are kept.
-/

namespace Gfe

/-- How a server is spoken to. -/
inductive ClientScheme where
  | http
  | https
  | h2c
  deriving DecidableEq, Repr

/-- Why a request to a server failed, as the client tells it. -/
inductive LibraryKind where
  | connectTimeout
  | connectRefused
  | connectError
  | tls
  | protocolRefused
  | reset
  | connectionLimit
  | other
  deriving DecidableEq, Repr

/-- A body as it comes in. Bodies are told apart by their number. -/
structure Incoming where
  number : Nat
  /-- Nothing of it is left to come. -/
  isEndStream : Bool
  deriving DecidableEq, Repr

inductive RequestBody where
  | empty
  /-- The client's own, counted as it streams in. -/
  | counted (content : Incoming)
  deriving DecidableEq, Repr

/-- A request that is handed to the client. -/
structure Attempt where
  method : Method
  version : Version
  pathAndQuery : Str
  headers : HeaderMap
  body : RequestBody
  deriving DecidableEq, Repr

structure Response where
  status : UInt16
  headers : HeaderMap
  content : Incoming
  deriving DecidableEq, Repr

/-- The head that goes out to a server. -/
structure SentHead where
  method : Method
  version : Version
  tls : Bool
  authority : Str
  pathAndQuery : Str
  headers : HeaderMap
  deriving DecidableEq, Repr

/-- Whether a request goes out over HTTP/1.1. -/
def overHttp1 (scheme : ClientScheme) (version : Version) : Bool :=
  match scheme with
  | .http => true
  | .https => version != .http2
  | .h2c => false

/-- The `Host` the HTTP library fills in: the server, without the port if that is the
    scheme's default. -/
def filledHost (http : Http) (tls : Bool) (authority : Str) : Str :=
  let usual : UInt16 := if tls then 443 else 80
  if http.portU16 authority ∈ [none, some usual] then hostOf (afterUserinfo authority)
  else afterUserinfo authority

/-- `Client::send`, up to the connection. Over HTTP/1.1 a request without `Host`
    gets the server's; over HTTP/2 `Host` is dropped. -/
def send (http : Http) (scheme : ClientScheme) (authority : Str) (request : Attempt) :
    Except LibraryKind SentHead :=
  if http.authorityValid authority then
    .ok {
      method := request.method
      version := if overHttp1 scheme request.version then .http11 else request.version
      tls := scheme == .https
      authority := authority
      pathAndQuery := request.pathAndQuery
      headers :=
        if overHttp1 scheme request.version then
          if (request.headers.getAll hostHeader).isEmpty then
            set request.headers hostHeader (filledHost http (scheme == .https) authority)
          else request.headers
        else request.headers.remove hostHeader }
  else .error .other

theorem send_headers {http : Http} {scheme : ClientScheme} {authority : Str} {request : Attempt}
    {sent : SentHead} (ended : send http scheme authority request = .ok sent)
    (plain : overHttp1 scheme request.version = true)
    (named : request.headers.getAll hostHeader ≠ []) : sent.headers = request.headers := by
  unfold send at ended
  split at ended
  · cases ended
    simp [named]
  · cases ended

end Gfe
