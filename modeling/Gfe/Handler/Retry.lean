import Gfe.Client.Send

/-! # Failures, answers and retries

Why an attempt against a backend failed, in the proxy's own words, why a request
is answered by the proxy itself, and which failed attempts are made again.
-/

namespace Gfe

/-! ## Failures -/

/-- Why an attempt failed: what the client tells apart, and a backend that took
    too long. -/
inductive FailureKind where
  | connectTimeout
  | connectRefused
  | connectError
  | tls
  | reset
  | connectionLimit
  | timeout
  | other
  deriving DecidableEq, Repr

namespace FailureKind

/-- The access log's `error` for a request that failed this way. -/
def reason : FailureKind → Str
  | .connectTimeout => "upstream_connect_timeout".toList
  | .connectRefused => "upstream_connect_refused".toList
  | .connectError => "upstream_connect_error".toList
  | .tls => "upstream_tls".toList
  | .reset => "upstream_reset".toList
  | .connectionLimit => "upstream_connection_limit".toList
  | .timeout => "upstream_timeout".toList
  | .other => "upstream_error".toList

/-- What the node itself refused is not the backend's failure. -/
def isTheBackends (kind : FailureKind) : Bool := kind != .connectionLimit

/-- Another attempt could fare better. -/
def isRetryable : FailureKind → Bool
  | .connectionLimit | .timeout => false
  | _ => true

def of : LibraryKind → FailureKind
  | .connectTimeout => .connectTimeout
  | .connectRefused => .connectRefused
  | .connectError => .connectError
  | .tls => .tls
  | .protocolRefused => .other
  | .reset => .reset
  | .connectionLimit => .connectionLimit
  | .other => .other

end FailureKind

/-! ## Answers of the proxy itself -/

inductive Refusal where
  | hostConflict
  | hostMissing
  | misdirected
  | noRoute
  | unsupportedTarget
  | upgradeNotSupported
  | poolNotFound
  | poolFull
  | poolRateLimited
  | noHealthyUpstream
  | requestBodyTimeout
  | upstream (kind : FailureKind)
  deriving DecidableEq, Repr

/-- The access log's `error`. -/
def Refusal.reason : Refusal → Str
  | .hostConflict => "host_conflict".toList
  | .hostMissing => "host_missing".toList
  | .misdirected => "misdirected_request".toList
  | .noRoute => "no_route".toList
  | .unsupportedTarget => "unsupported_request_target".toList
  | .upgradeNotSupported => "upgrade_not_supported".toList
  | .poolNotFound => "pool_not_found".toList
  | .poolFull => "upstream_pool_full".toList
  | .poolRateLimited => "upstream_pool_rate_limited".toList
  | .noHealthyUpstream => "no_healthy_upstream".toList
  | .requestBodyTimeout => "request_body_timeout".toList
  | .upstream kind => kind.reason

/-- Why a forward ended without a response from a backend. -/
inductive Unanswered where
  | refused (refusal : Refusal)
  /-- The client went away, or broke its request body. -/
  | clientGone
  deriving DecidableEq, Repr

/-! ## Retries -/

/-- The first attempt, and one retry. -/
def maxAttempts : Nat := 2

def isReplayable (method : Method) (hasBody : Bool) : Bool :=
  let idempotent :=
    match method with
    | .get | .head | .options | .trace | .delete => true
    | _ => false
  idempotent && !hasBody

/-- What the retry decision is made from. -/
structure Attempted where
  replayable : Bool
  /-- The failed one included. -/
  attempts : Nat
  responseStarted : Bool
  failure : FailureKind

def mayRetry (attempted : Attempted) : Bool :=
  attempted.replayable && !attempted.responseStarted && attempted.failure.isRetryable &&
    decide (attempted.attempts < maxAttempts)

theorem mayRetry_iff {attempted : Attempted} : mayRetry attempted = true ↔
    attempted.replayable = true ∧ attempted.responseStarted = false ∧
      attempted.failure.isRetryable = true ∧ attempted.attempts < maxAttempts := by
  simp [mayRetry, and_assoc]

end Gfe
