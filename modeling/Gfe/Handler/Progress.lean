import Gfe.RateLimiting.TokenBucket

/-! # How far a request has got

What the body of a request notes on its way to a backend, in milliseconds since
the forwarding started, and when a response is due by it.
-/

namespace Gfe

/-- The timeouts that bound the wait for a response, in nanoseconds. -/
structure TimeoutsConfig where
  upstreamFirstByte : Nat
  requestTotal : Nat
  deriving DecidableEq, Repr

/-- What asking for more of a request's body finds. -/
inductive BodyPoll where
  | pending
  /-- A piece of it, and whether that was the last. -/
  | frame (last : Bool)
  | finished
  | failed
  deriving DecidableEq, Repr

structure SendProgress where
  started : Instant
  /-- When the backend was last sent something. -/
  lastSentMs : UInt64
  /-- When the request was complete, `notCompleted` until then. -/
  completedMs : UInt64
  /-- The client had nothing to give when last asked for more of the body. -/
  waitingForClient : Bool
  /-- The body failed. -/
  clientFailed : Bool
  deriving DecidableEq, Repr

namespace SendProgress

/-- `u64::MAX`. -/
def notCompleted : UInt64 := 18446744073709551615

/-- A request without a body is complete from the start. -/
def begin (now : Instant) (hasBody : Bool) : SendProgress where
  started := now
  lastSentMs := 0
  completedMs := if hasBody then notCompleted else 0
  waitingForClient := false
  clientFailed := false

/-- The milliseconds since the start, as far as they fit. -/
def elapsedMs (progress : SendProgress) (now : Instant) : UInt64 :=
  let millis := now.since progress.started / 1000000
  if millis < UInt64.size then .ofNat millis else 18446744073709551615

def attemptStarted (now : Instant) (progress : SendProgress) : SendProgress :=
  { progress with lastSentMs := progress.elapsedMs now }

/-- A piece of the body was forwarded. -/
def bodyProgressed (now : Instant) (progress : SendProgress) : SendProgress :=
  { progress with lastSentMs := progress.elapsedMs now }

/-- The request has been sent in full. -/
def bodyEnded (now : Instant) (progress : SendProgress) : SendProgress :=
  { progress with lastSentMs := progress.elapsedMs now, completedMs := progress.elapsedMs now }

/-- The client was asked for more of the body. -/
def bodyPolled (pending : Bool) (progress : SendProgress) : SendProgress :=
  { progress with waitingForClient := pending }

def bodyFailed (progress : SendProgress) : SendProgress := { progress with clientFailed := true }

/-- `CountedBody::poll_frame`, by what its body's poll finds. -/
def pollFrame (found : BodyPoll) (now : Instant) (progress : SendProgress) : SendProgress :=
  let progress := progress.bodyPolled (found == .pending)
  match found with
  | .pending => progress
  | .frame last => if last then progress.bodyEnded now else progress.bodyProgressed now
  | .failed => progress.bodyFailed
  | .finished => progress.bodyEnded now

/-- `response_deadline` from the two values it loads, one after the other. -/
def deadlineFrom (timeouts : TimeoutsConfig) (started : Instant) (lastSentMs completedMs : UInt64) :
    Nat :=
  let sinceStart (ms : UInt64) := started.nanos + ms.toNat * 1000000
  let firstByte := sinceStart lastSentMs + timeouts.upstreamFirstByte
  if completedMs = notCompleted then firstByte
  else min firstByte (sinceStart completedMs + timeouts.requestTotal)

/-- The time by which the response head must have arrived, in nanoseconds of the clock. -/
def responseDeadline (timeouts : TimeoutsConfig) (progress : SendProgress) : Nat :=
  deadlineFrom timeouts progress.started progress.lastSentMs progress.completedMs

end SendProgress

end Gfe
