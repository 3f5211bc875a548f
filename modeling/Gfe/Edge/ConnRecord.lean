import Gfe.Kernel.Wire
import Gfe.Lib.Journal
import Gfe.Server.Connection

/-! # The record of a client connection

What the node counts and logs of a connection, from the accepted socket to whatever ends it:
the peer or the node closes it, the handshake fails or takes too long, the task is dropped at
the drain deadline, or it panics. Every change of a count and every line of the log is one
action. Counters are numbers without a bound, times are in nanoseconds, and a histogram is
what was observed. The handshakes without a certificate are counted elsewhere.
-/

namespace Gfe.Edge

open Interleaving Server

/-! ## What is counted and logged -/

/-- What has a count of its own: a metric with its labels. -/
inductive Series where
  | connectionsAccepted (listener : Str)
  | connectionsActive
  | listenerConnectionsActive (listener : Str)
  | connectionsRejected (reason : Str)
  | connectionsClosed (listener reason : Str)
  | tlsHandshakes (result : Str)
  | tlsHandshakeFailures (reason : Str)
  | tlsConnections (version cipher alpn resumed : Str)
  | bytesIn (listener : Str)
  | bytesOut (listener : Str)
  deriving DecidableEq

inductive Distribution where
  | acceptQueueWaitSeconds (listener : Str)
  | tlsHandshakeDurationSeconds
  | connectionDurationSeconds (listener : Str)

/-- A `gfe::conn` event. Times are in microseconds. -/
structure ConnEvent where
  client : SocketAddr
  listener : Str
  proto : Str
  sni : Option Str
  tlsVersion : Option Str
  tlsCipher : Option Str
  alpn : Option Str
  tlsResumed : Option Bool
  tlsHandshake : Option Nat
  tlsError : Option Str
  acceptWait : Option Nat
  requests : Nat
  bytesIn : Nat
  bytesOut : Nat
  duration : Nat
  reason : Str
  error : Option Str

inductive Note where
  | add (series : Series) (amount : Int)
  | observe (distribution : Distribution) (nanos : Nat)
  | event (event : ConnEvent)

def Note.amount (series : Series) : Note → Int
  | .add other amount => if other = series then amount else 0
  | .observe _ _ | .event _ => 0

def Note.event? : Note → Option ConnEvent
  | .event conn => some conn
  | .add _ _ | .observe _ _ => none

variable {ι : Type}

def value (journal : Journal ι Note) (series : Series) : Int := journal.total (Note.amount series)

/-- The `gfe::conn` events of the log. -/
def events (journal : Journal ι Note) : List ConnEvent :=
  journal.filterMap fun entry => entry.2.event?

/-! ## Handshakes -/

/-- What a handshake settled on. -/
structure TlsInfo where
  sni : Option Str
  version : Str
  cipher : Str
  alpn : Option Str
  resumed : Bool

inductive RustlsError where
  | invalidMessage
  | peerIncompatible
  | alertReceived
  | peerMisbehaved
  | other

/-- An I/O error, which may wrap one of TLS. -/
structure HandshakeError where
  tls : Option RustlsError
  kind : IoKind
  text : Str

/-- `failure_reason` -/
def HandshakeError.reason (error : HandshakeError) : Str :=
  match error.tls with
  | some .invalidMessage => "invalid_message".toList
  | some .peerIncompatible => "peer_incompatible".toList
  | some .alertReceived => "alert_received".toList
  | some .peerMisbehaved => "peer_misbehaved".toList
  | some .other => "other".toList
  | none =>
    match error.kind with
    | .unexpectedEof | .connectionReset | .brokenPipe => "client_closed".toList
    | _ => "io_error".toList

/-! ## The record -/

/-- The bytes read from a stream and written to it. -/
structure Meter where
  bytesRead : Nat
  bytesWritten : Nat

structure ConnRecord where
  listener : Str
  client : SocketAddr
  isTls : Bool
  meter : Option Meter
  tls : Option TlsInfo
  tlsHandshake : Option Nat
  tlsError : Option Str
  acceptWait : Option Nat
  requests : Nat
  /-- Why the connection ended, once that is known. -/
  reason : Option Str
  error : Option Str

def closeReason : CloseReason → Str
  | .closed => "closed".toList
  | .drain => "drain".toList
  | .idleTimeout => "idle_timeout".toList
  | .headerTimeout => "header_timeout".toList
  | .clientAbort => "client_abort".toList
  | .clientUnresponsive => "client_unresponsive".toList
  | .protocolError => "protocol_error".toList
  | .error => "error".toList

/-- The reason of a connection whose handshake took too long. -/
def handshakeTimeout : Str := "tls_handshake_timeout".toList

def flag (value : Bool) : Str := if value then "true".toList else "false".toList

def micros (nanos : Nat) : Nat := nanos / 1000

/-- One of the node's notes. -/
abbrev Noting (ι α : Type) := Program (Journal ι Note) α

def add (i : ι) (series : Series) (amount : Int) : Noting ι Unit := .note i (.add series amount)

/-- `ConnRecord::open`, for a connection that is known to have waited so long to be accepted. -/
def ConnRecord.open (i : ι) (listener : Listener) (client : SocketAddr) (acceptWait : Option Nat) :
    Noting ι ConnRecord := do
  let label := listener.id.id
  match acceptWait with
  | some waited => Program.note i (.observe (.acceptQueueWaitSeconds label) waited)
  | none => pure ()
  add i (.connectionsAccepted label) 1
  add i .connectionsActive 1
  add i (.listenerConnectionsActive label) 1
  return {
    listener := label
    client := Wire.canonical client
    isTls := listener.protocol = .https
    meter := none
    tls := none
    tlsHandshake := none
    tlsError := none
    acceptWait := acceptWait
    requests := 0
    reason := none
    error := none }

namespace ConnRecord

/-- `ConnRecord::meter`: from here on the bytes are counted. -/
def metered (record : ConnRecord) : ConnRecord := { record with meter := some ⟨0, 0⟩ }

def tlsEstablished (i : ι) (record : ConnRecord) (tls : TlsInfo) (elapsed : Nat) :
    Noting ι ConnRecord := do
  add i (.tlsHandshakes "ok".toList) 1
  Program.note i (.observe .tlsHandshakeDurationSeconds elapsed)
  add i (.tlsConnections tls.version tls.cipher (tls.alpn.getD "none".toList) (flag tls.resumed)) 1
  return { record with tls := some tls, tlsHandshake := some elapsed }

def tlsFailed (i : ι) (record : ConnRecord) (error : HandshakeError) : Noting ι ConnRecord := do
  add i (.tlsHandshakes "failed".toList) 1
  add i (.tlsHandshakeFailures error.reason) 1
  return { record with
    tlsError := some error.reason
    error := some error.text
    reason := some "tls_handshake_failed".toList }

def tlsTimedOut (i : ι) (record : ConnRecord) : Noting ι ConnRecord := do
  add i (.connectionsRejected "handshake_timeout".toList) 1
  return { record with reason := some handshakeTimeout }

/-- It was served and ended so. -/
def closed (record : ConnRecord) (closed : Closed) : ConnRecord :=
  { record with
    reason := some (closeReason closed.reason)
    requests := closed.requests
    error := closed.error }

/-- What the record says when it is dropped. -/
def toEvent (record : ConnRecord) (reason : Str) (elapsed : Nat) : ConnEvent where
  client := record.client
  listener := record.listener
  proto := if record.isTls then "https".toList else "http".toList
  sni := record.tls.bind (·.sni)
  tlsVersion := record.tls.map (·.version)
  tlsCipher := record.tls.map (·.cipher)
  alpn := record.tls.bind (·.alpn)
  tlsResumed := record.tls.map (·.resumed)
  tlsHandshake := record.tlsHandshake.map micros
  tlsError := record.tlsError
  acceptWait := record.acceptWait.map micros
  requests := record.requests
  bytesIn := (record.meter.map (·.bytesRead)).getD 0
  bytesOut := (record.meter.map (·.bytesWritten)).getD 0
  duration := micros elapsed
  reason := reason
  error := record.error

/-- The reason that is reported: without one the connection was cut short. -/
def reported (record : ConnRecord) (panicking : Bool) : Str :=
  record.reason.getD (if panicking then "error".toList else "shutdown".toList)

/-- `Drop for ConnRecord` -/
def drop (i : ι) (record : ConnRecord) (panicking : Bool) (elapsed : Nat) : Noting ι Unit := do
  let reason := record.reported panicking
  add i .connectionsActive (-1)
  add i (.listenerConnectionsActive record.listener) (-1)
  add i (.connectionsClosed record.listener reason) 1
  Program.note i (.observe (.connectionDurationSeconds record.listener) elapsed)
  Program.note i (.event (record.toEvent reason elapsed))

end ConnRecord

/-! ## The stream -/

/-- What polling a stream gives. -/
inductive Polled where
  | pending
  | failed
  | moved (bytes : Nat)

inductive Io where
  | read (polled : Polled)
  | write (polled : Polled)

/-- A read of a metered stream: what was read is added to its own count and to the listener's. -/
def ConnRecord.countRead (i : ι) (record : ConnRecord) (read : Nat) : Noting ι ConnRecord :=
  if read = 0 then return record
  else do
    add i (.bytesIn record.listener) read
    return { record with
      meter := record.meter.map fun meter => { meter with bytesRead := meter.bytesRead + read } }

def ConnRecord.countWritten (i : ι) (record : ConnRecord) (written : Nat) :
    Noting ι ConnRecord :=
  if written = 0 then return record
  else do
    add i (.bytesOut record.listener) written
    return { record with
      meter := record.meter.map fun meter =>
        { meter with bytesWritten := meter.bytesWritten + written } }

/-- A poll that moved nothing is not counted. -/
def ConnRecord.transfer (i : ι) (record : ConnRecord) : Io → Noting ι ConnRecord
  | .read (.moved bytes) => record.countRead i bytes
  | .write (.moved bytes) => record.countWritten i bytes
  | .read .pending | .read .failed | .write .pending | .write .failed => return record

def ConnRecord.transferAll (i : ι) (record : ConnRecord) : List Io → Noting ι ConnRecord
  | [] => return record
  | io :: ios => do
    let record ← record.transfer i io
    record.transferAll i ios

/-! ## A connection -/

/-- How serving HTTP ends. -/
inductive Served where
  | closed (closed : Closed)
  /-- The task is dropped: the connection is cut. -/
  | dropped
  | panicked

inductive Handshaken where
  | established (tls : TlsInfo)
  | failed (error : HandshakeError)
  | timedOut
  | dropped
  | panicked

/-- What happens to a connection: what is read and written, when and how its handshake ends if it
    has one, and how serving it ends. The stream is gone, with what it writes in parting, before
    the record is. -/
structure Course where
  acceptWait : Option Nat
  handshakeIo : List Io
  handshakeTook : Nat
  handshaken : Handshaken
  io : List Io
  parting : List Io
  served : Served
  lifetime : Nat

/-- An accepted connection: the listener as it was configured then, and the peer. -/
structure Accepted where
  listener : Listener
  peer : SocketAddr

/-- `Edge::serve_http` -/
def serveHttp (i : ι) (record : ConnRecord) (course : Course) : Noting ι Unit := do
  let record ← record.transferAll i course.io
  let record ← record.transferAll i course.parting
  match course.served with
  | .closed closed => (record.closed closed).drop i false course.lifetime
  | .dropped => record.drop i false course.lifetime
  | .panicked => record.drop i true course.lifetime

/-- The part of `Edge::serve_connection` that is for connections with a handshake. -/
def serveTls (i : ι) (record : ConnRecord) (course : Course) : Noting ι Unit := do
  let record ← record.transferAll i course.handshakeIo
  match course.handshaken with
  | .established tls =>
    let record ← record.tlsEstablished i tls course.handshakeTook
    serveHttp i record course
  | .failed error =>
    let record ← record.tlsFailed i error
    record.drop i false course.lifetime
  | .timedOut =>
    let record ← record.tlsTimedOut i
    record.drop i false course.lifetime
  | .dropped => record.drop i false course.lifetime
  | .panicked => record.drop i true course.lifetime

/-- `Edge::serve_connection` -/
def serveConnection (i : ι) (accepted : Accepted) (course : Course) : Noting ι Unit := do
  let record ← ConnRecord.open i accepted.listener accepted.peer course.acceptWait
  let record := record.metered
  if accepted.listener.protocol = .https then serveTls i record course
  else serveHttp i record course

/-- Connections about to be served, each in a task of its own. -/
def serving (accepted : ι → Accepted) (course : ι → Course) : Crowd ι (Journal ι Note) Unit :=
  ⟨fun i => serveConnection i (accepted i) (course i), []⟩

end Gfe.Edge
