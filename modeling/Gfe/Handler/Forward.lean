import Gfe.Handler.Decision
import Gfe.Handler.Progress
import Gfe.Handler.Retry
import Gfe.LoadBalancing.Admission

/-! # Forwarding a request

A forward takes a place in its pool, selects a backend, sends the request and
waits for the response, once more if the attempt failed and may be repeated. The
place is shared by the attempts; it and the backend's mark are given back when
the last owner of them is dropped, on whichever path that is.

What the client makes of an attempt, how long it takes and whether the request's
own client goes away is decided outside: it is read from the request's lane when
the wait for the response ends.
-/

namespace Gfe

open Interleaving

/-! ## What a forward works on -/

/-- A connection with its client's address. -/
structure Connection extends ConnInfo where
  client : IpAddr
  isTls : Bool

structure Request (http : Http) extends Parts http where
  content : Incoming

/-- What a forward takes from the node it runs on. -/
structure Forwarder where
  hsts : Str
  /-- The hash of a client's address. -/
  hash64 : IpAddr → UInt64
  order : ScoreOrder

/-- How the wait for a response ended. -/
inductive Outcome where
  | responded (response : Response)
  | failed (kind : LibraryKind)
  | overdue
  /-- The client went away, and the handler was dropped where it waited. -/
  | dropped
  deriving DecidableEq, Repr

/-- An attempt handed to the client, and what became of it. Not part of the
    program. -/
structure Try where
  scheme : ClientScheme
  authority : Str
  attempt : Attempt
  /-- How the wait for it ended. -/
  outcome : Option Outcome
  /-- Whether the request's body was found to have failed, if that was asked. -/
  clientFailed : Option Bool
  deriving DecidableEq, Repr

/-- What belongs to one request. -/
structure Lane where
  /-- What the client makes of the attempt under way, -/
  sending : Except LibraryKind Response
  /-- whether the backend is overdue with it, -/
  overdue : Bool
  /-- and whether the request's own client is gone. -/
  cancelled : Bool
  progress : SendProgress
  /-- The owners of the pool's place, an `Arc`. -/
  owners : Nat
  /-- The attempts, the last one first. -/
  tries : List Try

/-- A pool and the requests forwarded to it. -/
structure Traffic (ι : Type) where
  pool : PoolState ι
  lanes : ι → Lane
  now : Instant

/-- How waiting for the response to an attempt ends. Nothing but its client
    bounds a gRPC call. -/
def Lane.outcome (lane : Lane) (grpc : Bool) (sent : Except LibraryKind SentHead) : Outcome :=
  if lane.cancelled then .dropped
  else if lane.overdue && !grpc then .overdue
  else
    match sent, lane.sending with
    | .error kind, _ => .failed kind
    | .ok _, .error kind => .failed kind
    | .ok _, .ok response => .responded response

/-- Note something about the last attempt. -/
def Lane.note (update : Try → Try) (lane : Lane) : Lane :=
  match lane.tries with
  | [] => lane
  | last :: past => { lane with tries := update last :: past }

section

variable {ι : Type} [DecidableEq ι]

namespace Traffic

def poolPart : Part (Traffic ι) (PoolState ι) where
  view s := s.pool
  put pool s := { s with pool := pool }
  view_put _ _ := rfl

def setLane (r : ι) (update : Lane → Lane) (s : Traffic ι) : Traffic ι :=
  { s with lanes := Function.update s.lanes r (update (s.lanes r)) }

end Traffic

/-- Change something of the request's own. -/
def inLane (r : ι) (update : Lane → Lane) : Program (Traffic ι) Unit :=
  .write (·.setLane r update)

/-- `Instant::now()`. -/
def clock : Program (Traffic ι) Instant := .read (·.now)

/-! ## Owners of the pool's place -/

/-- `Arc::clone`. -/
def addOwner (r : ι) : Program (Traffic ι) Unit :=
  inLane r fun lane => { lane with owners := lane.owners + 1 }

/-- Drop an `Arc`: the last one drops the guard. -/
def dropOwner (r : ι) (guard : InflightGuard) : Program (Traffic ι) Unit := do
  let owners ← .exchange fun s => ((s.lanes r).owners,
    s.setLane r fun lane => { lane with owners := lane.owners - 1 })
  if owners = 1 then (guard.drop r).zoom Traffic.poolPart
  else pure ()

/-- Marks a backend as busy with a request, until dropped. -/
structure BackendBusy where
  leastRequest : InflightGuard
  /-- An `Arc` of the guard. -/
  pool : InflightGuard
  deriving DecidableEq, Repr

def BackendBusy.drop (r : ι) (busy : BackendBusy) : Program (Traffic ι) Unit := do
  (busy.leastRequest.drop r).zoom Traffic.poolPart
  dropOwner r busy.pool

/-! ## The record of a request -/

structure UpstreamLeg where
  pool : Str
  /-- The backend of the last attempt. -/
  backend : Option Str
  attempts : Nat
  busy : Option BackendBusy
  deriving DecidableEq, Repr

structure RequestRecord where
  requestId : Str
  /-- The host the request is for, as used for routing. -/
  host : Str
  isGrpc : Bool
  upstream : Option UpstreamLeg
  /-- Why the proxy answered itself. -/
  error : Option Str
  deriving DecidableEq, Repr

namespace RequestRecord

def begin {http : Http} (request : Request http) (host requestId : Str) : RequestRecord where
  requestId := requestId
  host := host
  isGrpc := Gfe.isGrpc request.headers
  upstream := none
  error := none

def busy (record : RequestRecord) : Option BackendBusy := record.upstream.bind (·.busy)

def dropBusy (record : RequestRecord) (r : ι) : Program (Traffic ι) Unit :=
  match record.busy with
  | some busy => busy.drop r
  | none => pure ()

/-- The proxy is answering the request itself. -/
def failed (record : RequestRecord) (r : ι) (reason : Str) :
    Program (Traffic ι) RequestRecord := do
  record.dropBusy r
  return { record with
    error := some reason
    upstream := record.upstream.map fun upstream => { upstream with busy := none } }

def forwardingTo (record : RequestRecord) (r : ι) (pool : Str) :
    Program (Traffic ι) RequestRecord := do
  record.dropBusy r
  return { record with upstream := some ⟨pool, none, 0, none⟩ }

/-- An attempt is being made; the mark of the one before it is dropped. -/
def attempting (record : RequestRecord) (r : ι) (backend : Str) (busy : BackendBusy) :
    Program (Traffic ι) RequestRecord :=
  match record.upstream with
  | some upstream => do
    record.dropBusy r
    return { record with
      upstream := some ⟨upstream.pool, some backend, upstream.attempts + 1, some busy⟩ }
  | none => do
    busy.drop r
    return record

end RequestRecord

/-! ## One attempt -/

/-- How a forward ended. A handler that is dropped where it waits, or panics,
    drops what it owns and returns nothing. -/
inductive Forwarded where
  | responded (response : Response)
  | unanswered (why : Unanswered)
  | dropped
  | panicked (panic : Panic)
  deriving DecidableEq, Repr

def Forwarded.refused (refusal : Refusal) : Forwarded := .unanswered (.refused refusal)

/-- What there is to send: the head, and the body if it is streamed. -/
structure Outgoing where
  method : Method
  version : Version
  pathAndQuery : Str
  headers : HeaderMap
  streamed : Option Incoming
  deriving DecidableEq, Repr

/-- The next attempt, and what it leaves: the body is gone with it, and the
    headers too if no other attempt may follow. -/
def Outgoing.next (out : Outgoing) (mayFollow : Bool) : Attempt × Outgoing :=
  (⟨out.method, out.version, out.pathAndQuery, out.headers,
      match out.streamed with
      | some content => .counted content
      | none => .empty⟩,
    { out with headers := if mayFollow then out.headers else [], streamed := none })

def clientScheme : Scheme → ClientScheme
  | .http => .http
  | .https => .https
  | .h2c => .h2c

def strictTransportSecurity : HeaderName := "strict-transport-security".toList

/-- The backend's response, as the client gets it. -/
def toClient (http : Http) (response : Response) (isTls : Bool) (hsts requestId : Str) :
    Response :=
  let headers := stripHopByHop http response.headers
  let headers := if isTls && !hsts.isEmpty then set headers strictTransportSecurity hsts
    else headers
  let headers := if (headers.getAll xRequestId).isEmpty then set headers xRequestId requestId
    else headers
  { response with headers := headers }

def hand (r : ι) (scheme : ClientScheme) (authority : Str) (attempt : Attempt) :
    Program (Traffic ι) Unit :=
  inLane r fun lane => { lane with
    tries := ⟨scheme, authority, attempt, none, none⟩ :: lane.tries }

/-- Wait for the response to the attempt. -/
def awaitResponse (r : ι) (grpc : Bool) (sent : Except LibraryKind SentHead) :
    Program (Traffic ι) Outcome :=
  .exchange fun s =>
    let outcome := (s.lanes r).outcome grpc sent
    (outcome, s.setLane r (·.note fun last => { last with outcome := some outcome }))

/-- `progress.client_failed()`. -/
def clientFailed (r : ι) : Program (Traffic ι) Bool :=
  .exchange fun s =>
    let failed := (s.lanes r).progress.clientFailed
    (failed, s.setLane r (·.note fun last => { last with clientFailed := some failed }))

/-- What came of an attempt: the forward is over, or the attempt failed. -/
inductive AttemptEnd where
  | ended (forwarded : Forwarded)
  | failed (kind : FailureKind)
  deriving DecidableEq, Repr

variable {http : Http} (forwarder : Forwarder) (conn : Connection) (pool : Pool Scheme) (r : ι)

/-- Hand an attempt to the client and wait for what comes of it. -/
def sendAttempt (http : Http) (authority : Str) (attempt : Attempt) (record : RequestRecord) :
    Program (Traffic ι) AttemptEnd := do
  let scheme := clientScheme pool.payload
  let started ← clock
  inLane r fun lane => { lane with progress := lane.progress.attemptStarted started }
  hand r scheme authority attempt
  match ← awaitResponse r record.isGrpc (send http scheme authority attempt) with
  | .responded response =>
    return .ended (.responded
      (toClient http response conn.isTls forwarder.hsts record.requestId))
  | .failed kind =>
    if ← clientFailed r then return .ended (.unanswered .clientGone)
    else return .failed (.of kind)
  | .overdue =>
    if ← (.read fun s => (s.lanes r).progress.waitingForClient : Program (Traffic ι) Bool) then
      return .ended (.refused .requestBodyTimeout)
    else return .ended (.refused (.upstream .timeout))
  | .dropped => return .ended .dropped

/-- One round of the loop: select a backend, mark it as busy, and try it. -/
def tryOnce (http : Http) (admitted : InflightGuard) (replayable : Bool) (attempts : Nat)
    (out : Outgoing) (record : RequestRecord) :
    Program (Traffic ι) (AttemptEnd × Outgoing × RequestRecord) := do
  let hashKey := some (forwarder.hash64 conn.client)
  match ← (ExceptT.run (select forwarder.order pool r hashKey)).zoom Traffic.poolPart with
  | .error panic => return (.ended (.panicked panic), out, record)
  | .ok none => return (.ended (.refused .noHealthyUpstream), out, record)
  | .ok (some selection) =>
    let authority := selection.backend.authority
    addOwner r
    let record ← record.attempting r authority ⟨selection.guard, admitted⟩
    let mayFollow := replayable && decide (attempts + 1 < maxAttempts)
    let tried ← sendAttempt forwarder conn pool r http authority (out.next mayFollow).1 record
    return (tried, (out.next mayFollow).2, record)

/-- The loop, after so many attempts. -/
def attemptFrom (http : Http) (admitted : InflightGuard) (replayable : Bool) (attempts : Nat)
    (out : Outgoing) (record : RequestRecord) : Program (Traffic ι) (Forwarded × RequestRecord) := do
  let (tried, out, record) ←
    tryOnce forwarder conn pool r http admitted replayable attempts out record
  match tried with
  | .ended forwarded => return (forwarded, record)
  | .failed kind =>
    if !kind.isTheBackends then return (.refused (.upstream kind), record)
    else if again : mayRetry ⟨replayable, attempts + 1, false, kind⟩ then
      attemptFrom http admitted replayable (attempts + 1) out record
    else return (.refused (.upstream kind), record)
termination_by maxAttempts - attempts
decreasing_by
  have left : attempts + 1 < maxAttempts := (mayRetry_iff.mp again).2.2.2
  omega

/-! ## The forward -/

def outgoing (request : Request http) (record : RequestRecord) (replayable : Bool) : Outgoing :=
  let head := toBackend request.toParts
    ⟨conn.client, if conn.isTls then "https".toList else "http".toList, record.host,
      record.requestId⟩
  { method := head.method
    version := if record.isGrpc then .http2 else .http11
    pathAndQuery := head.uri.pathAndQuery.getD ['/']
    headers := head.headers
    streamed := if replayable then none else some request.content }

def Limit.refusal : Limit → Refusal
  | .maxInFlight => .poolFull
  | .maxRequestsPerSecond => .poolRateLimited

/-- `forward` from the admission on. -/
def forwardAdmitted (request : Request http) (record : RequestRecord) (admitted : InflightGuard) :
    Program (Traffic ι) (Forwarded × RequestRecord) := do
  let replayable := isReplayable request.method (!request.content.isEndStream)
  let started ← clock
  inLane r fun lane => { lane with progress := .begin started (!replayable) }
  -- a streamed body that is empty from the start is complete
  if !replayable && request.content.isEndStream then do
    let now ← clock
    inLane r fun lane => { lane with progress := lane.progress.bodyEnded now }
  attemptFrom forwarder conn pool r http admitted replayable 0
    (outgoing conn request record replayable) record

def forward (request : Request http) (record : RequestRecord) :
    Program (Traffic ι) (Forwarded × RequestRecord) := do
  if !namesAPath request.uri then return (.refused .unsupportedTarget, record)
  else if asksForUpgrade request.headers then return (.refused .upgradeNotSupported, record)
  else do
    let record ← record.forwardingTo r pool.id
    let now ← clock
    match ← (admitRequest pool r now).zoom Traffic.poolPart with
    | .error limit => return (.refused limit.refusal, record)
    | .ok admitted => do
      inLane r fun lane => { lane with owners := 1 }
      let ended ← forwardAdmitted forwarder conn pool r request record admitted
      dropOwner r admitted
      return ended

/-- A forwarded request, from the start of its record to the drop of it: when the
    response body is dropped, or once the forward has failed or was abandoned. -/
def forwardRequest (request : Request http) (host requestId : Str) :
    Program (Traffic ι) Forwarded := do
  let (forwarded, record) ← forward forwarder conn pool r request (.begin request host requestId)
  match forwarded with
  | .unanswered (.refused refusal) => do
    let record ← record.failed r refusal.reason
    record.dropBusy r
    return forwarded
  | _ => do
    record.dropBusy r
    return forwarded

end

end Gfe
