import Gfe.Handler.Request
import Gfe.Handler.Retry

/-! # The answers the proxy writes itself

A refusal, in gRPC's terms for a gRPC call, and a route's redirect or fixed answer.
Every one of them carries the request's id.
-/

namespace Gfe

def retryAfterHeader : HeaderName := "retry-after".toList

def locationHeader : HeaderName := "location".toList

def grpcStatusHeader : HeaderName := "grpc-status".toList

def grpcMessageHeader : HeaderName := "grpc-message".toList

/-- An answer, with the text that is its body. -/
structure Answer where
  status : UInt16
  headers : HeaderMap
  body : Str
  deriving DecidableEq, Repr

namespace Refusal

/-- The HTTP status of the answer. -/
def status : Refusal → UInt16
  | .hostConflict | .hostMissing | .unsupportedTarget => 400
  | .misdirected => 421
  | .noRoute => 404
  | .upgradeNotSupported => 501
  | .poolNotFound => 502
  | .poolFull | .noHealthyUpstream => 503
  | .poolRateLimited => 429
  | .requestBodyTimeout => 408
  | .upstream .connectionLimit => 503
  | .upstream .timeout => 504
  | .upstream _ => 502

/-- The few words the answer says. -/
def message : Refusal → Str
  | .hostConflict => "conflicting host".toList
  | .hostMissing => "missing host".toList
  | .misdirected => "misdirected request".toList
  | .noRoute => "no route".toList
  | .unsupportedTarget => "unsupported request target".toList
  | .upgradeNotSupported => "protocol upgrade not supported".toList
  | .poolNotFound => "pool not found".toList
  | .poolFull => "upstream pool full".toList
  | .poolRateLimited => "upstream pool rate limited".toList
  | .noHealthyUpstream => "no healthy upstream".toList
  | .requestBodyTimeout => "request body timeout".toList
  | .upstream .connectionLimit => "upstream connection limit".toList
  | .upstream .timeout => "upstream timeout".toList
  | .upstream _ => "upstream error".toList

/-- After how many seconds to try again, if that is known. -/
def retryAfter : Refusal → Option Nat
  | .poolRateLimited => some 1
  | _ => none

end Refusal

/-- The gRPC status of a call that is failed. -/
inductive GrpcCode where
  | unknown
  | permissionDenied
  | unimplemented
  | internal
  | unavailable
  | unauthenticated
  deriving DecidableEq, Repr

namespace GrpcCode

def number : GrpcCode → Nat
  | .unknown => 2
  | .permissionDenied => 7
  | .unimplemented => 12
  | .internal => 13
  | .unavailable => 14
  | .unauthenticated => 16

def forHttpStatus (status : UInt16) : GrpcCode :=
  match status.toNat with
  | 400 => .internal
  | 401 => .unauthenticated
  | 403 => .permissionDenied
  | 404 => .unimplemented
  | 429 | 502 | 503 | 504 => .unavailable
  | _ => .unknown

end GrpcCode

/-- `StatusCode::from_u16`, or this status if it is not one. -/
def statusOr (status otherwise : UInt16) : UInt16 :=
  if 100 ≤ status && status ≤ 999 then status else otherwise

/-- An id that cannot be a header value is left out. -/
def answer (status : UInt16) (body requestId : Str) : Answer where
  status := status
  headers := set [] xRequestId requestId
  body := body

def synthetic (status : UInt16) (message requestId : Str) : Answer :=
  let text := Nat.toDigits 10 status.toNat ++ " ".toList ++ message ++ "\nrequest-id: ".toList ++
    requestId ++ "\n".toList
  let response := answer status text requestId
  let contentType := HeaderValue.ofText "text/plain; charset=utf-8".toList
  { response with headers := response.headers.insert contentTypeHeader contentType }

/-- A response without a body whose headers are the call's status. -/
def grpcFailure (code : GrpcCode) (message requestId : Str) : Answer :=
  let response := answer 200 [] requestId
  let headers := response.headers.insert contentTypeHeader (.ofText "application/grpc".toList)
  let headers := headers.insert grpcStatusHeader (.ofText (Nat.toDigits 10 code.number))
  { response with headers := set headers grpcMessageHeader message }

def refusal (refusal : Refusal) (requestId : Str) (grpc : Bool) : Answer :=
  if grpc then
    grpcFailure (.forHttpStatus refusal.status) ("gfe: ".toList ++ refusal.reason) requestId
  else
    let response := synthetic refusal.status refusal.message requestId
    match refusal.retryAfter with
    | some seconds =>
      let text := HeaderValue.ofText (Nat.toDigits 10 seconds)
      { response with headers := response.headers.insert retryAfterHeader text }
    | none => response

def redirect (scheme : Str) (status : UInt16) (host pathAndQuery requestId : Str) : Answer :=
  let response := answer (statusOr status 308) [] requestId
  let location := scheme ++ "://".toList ++ host ++ pathAndQuery
  { response with headers := set response.headers locationHeader location }

def fixed (status : UInt16) (text requestId : Str) : Answer :=
  answer (statusOr status 200) text requestId

/-! ## The id -/

theorem answer_requestId (status : UInt16) (body requestId : Str) :
    (answer status body requestId).headers.getAll xRequestId =
      (HeaderValue.fromStr requestId).toList := by
  simp only [answer, set]
  cases HeaderValue.fromStr requestId with
  | none => rfl
  | some value => rw [HeaderMap.getAll_insert, if_pos rfl, Option.toList_some]

theorem synthetic_requestId (status : UInt16) (message requestId : Str) :
    (synthetic status message requestId).headers.getAll xRequestId =
      (HeaderValue.fromStr requestId).toList := by
  have differ : xRequestId ≠ contentTypeHeader := by decide
  simp only [synthetic]
  rw [HeaderMap.getAll_insert, if_neg differ, answer_requestId]

theorem grpcFailure_requestId (code : GrpcCode) (message requestId : Str) :
    (grpcFailure code message requestId).headers.getAll xRequestId =
      (HeaderValue.fromStr requestId).toList := by
  have contentType : xRequestId ≠ contentTypeHeader := by decide
  have status : xRequestId ≠ grpcStatusHeader := by decide
  have reason : xRequestId ≠ grpcMessageHeader := by decide
  simp only [grpcFailure]
  rw [getAll_set_of_ne reason, HeaderMap.getAll_insert, if_neg status, HeaderMap.getAll_insert,
    if_neg contentType, answer_requestId]

theorem refusal_requestId (why : Refusal) (requestId : Str) (grpc : Bool) :
    (refusal why requestId grpc).headers.getAll xRequestId =
      (HeaderValue.fromStr requestId).toList := by
  have differ : xRequestId ≠ retryAfterHeader := by decide
  unfold refusal
  cases grpc with
  | true => exact grpcFailure_requestId ..
  | false =>
    simp only [Bool.false_eq_true, if_false]
    cases why.retryAfter with
    | none => exact synthetic_requestId ..
    | some seconds =>
      dsimp only
      rw [HeaderMap.getAll_insert, if_neg differ, synthetic_requestId]

end Gfe
