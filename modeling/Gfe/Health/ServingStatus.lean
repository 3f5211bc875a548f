import Gfe.Health.StateMachine
import Gfe.Lib.Endian
import Gfe.Lib.Protobuf

/-! # What a gRPC server reports about itself

A gRPC probe asks for the health of a server and reads the status out of the first two bytes
of the answer. That is right where the first record of a message is what the message says,
in the usual two bytes, and wrong for others that are as valid.
-/

namespace Gfe

open Protobuf

variable {message : List UInt8}

/-- `grpc.health.v1.ServingStatus` -/
inductive ServingStatus where
  | serving
  | notServing
  | other
  deriving DecidableEq, Repr

/-! ## The probe -/

/-- The status in the bytes of a message. -/
def readStatus : List UInt8 → ServingStatus
  | 8 :: 1 :: _ => .serving
  | 8 :: 2 :: _ => .notServing
  | _ => .other

/-- `serving_status`: a frame is a flag, a length in four bytes and the message. -/
def servingStatus (body : List UInt8) : Option ServingStatus :=
  if body.length < 5 then none
  else
    let header := body.take 5
    let rest := body.drop 5
    if header.head? ≠ some 0 then none
    else
      let length := Endian.ofBig (header.drop 1)
      if rest.length < length then none else some (readStatus (rest.take length))

/-- The answer to a `Check` call, with `grpc-status` as the headers and the trailers have it. -/
structure CheckResponse where
  status : UInt16
  headerStatus : Option Str
  body : List UInt8
  trailerStatus : Option Str

/-- `GrpcProbe::call`, once the server has answered in full. -/
def grpcCall (response : CheckResponse) : Option ServingStatus :=
  if response.status ≠ 200 then none
  else if response.headerStatus.isSome then none
  else if response.trailerStatus ≠ some ['0'] then none
  else servingStatus response.body

/-- `GrpcProbe::check`; nothing is answered if the call fails or takes too long. -/
def grpcCheck (answer : Option CheckResponse) : ProbeResult :=
  match answer.bind grpcCall with
  | some .serving => .pass
  | some .notServing => .drain
  | some .other => .fail
  | none => .fail

/-! ## What the message says -/

def grpcFrame (message : List UInt8) : List UInt8 :=
  0 :: (Endian.big 4 message.length ++ message)

/-- The first record of the message is this status, with its tag and its value in a byte each. -/
def Leads (code : UInt8) (records : List Record) (message : List UInt8) : Prop :=
  ∃ rest bytes, records = .varint 1 (BitVec.ofNat 64 code.toNat) :: rest ∧
    message = 8 :: code :: bytes

/-! ## Reading -/

theorem servingStatus_grpcFrame (short : message.length < 2 ^ 32) :
    servingStatus (grpcFrame message) = some (readStatus message) := by
  have width : (Endian.big 4 message.length).length = 4 := Endian.length_big ..
  have header : (grpcFrame message).take 5 = 0 :: Endian.big 4 message.length := by
    rw [grpcFrame, List.take_succ_cons, List.take_left' width]
  have rest : (grpcFrame message).drop 5 = message := by
    rw [grpcFrame, List.drop_succ_cons, List.drop_left' width]
  have length : Endian.ofBig (Endian.big 4 message.length) = message.length := by
    rw [Endian.ofBig_big, Nat.mod_eq_of_lt (by omega)]
  have long : ¬ (grpcFrame message).length < 5 := by
    simp [grpcFrame]
  simp only [servingStatus, header, rest, long, List.head?_cons, List.drop_succ_cons,
    List.drop_zero, length, if_false, ne_eq, not_true_eq_false, Nat.lt_irrefl, List.take_length]

theorem leads_of_encodes {records : List Record} {code : UInt8} {bytes : List UInt8}
    (encodes : Encodes records (8 :: code :: bytes)) (short : code < 128) :
    Leads code records (8 :: code :: bytes) := by
  obtain ⟨rest, rfl⟩ := @Encodes.of_short _ 1 _ _ _ encodes rfl (by decide) short
  exact ⟨rest, bytes, rfl, rfl⟩

theorem readStatus_iff {records : List Record} (encodes : Encodes records message) :
    (readStatus message = .serving ↔ Leads 1 records message) ∧
      (readStatus message = .notServing ↔ Leads 2 records message) := by
  constructor
  all_goals
    constructor
    · intro read
      unfold readStatus at read
      split at read
      all_goals cases read
      exact leads_of_encodes encodes (by decide)
    · rintro ⟨rest, bytes, _, rfl⟩
      rfl

/-- A server passes or drains just when the first record of its answer says so in two bytes. -/
theorem grpcCheck_iff {records : List Record} {response : CheckResponse}
    (encodes : Encodes records message) (short : message.length < 2 ^ 32)
    (ok : response.status = 200) (bare : response.headerStatus = none)
    (done : response.trailerStatus = some ['0']) (body : response.body = grpcFrame message) :
    (grpcCheck (some response) = .pass ↔ Leads 1 records message) ∧
      (grpcCheck (some response) = .drain ↔ Leads 2 records message) := by
  have read : grpcCall response = some (readStatus message) := by
    rw [grpcCall, ok, bare, done, body, servingStatus_grpcFrame short]
    rfl
  rw [grpcCheck, Option.bind_some, read, ← (readStatus_iff encodes).1, ← (readStatus_iff encodes).2]
  cases readStatus message <;> simp

/-! ## Messages -/

end Gfe
