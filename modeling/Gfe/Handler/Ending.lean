import Gfe.Handler.Forward
import Gfe.Handler.Respond

/-! # How an exchange is reported to have ended

The record of a request goes with the body of its response and is reported when the body is
dropped. That the client went away is what is assumed until the body says that it has ended,
when the response is handed over or when a frame is taken from it, or fails. The server
polls a body to its end, or drops it before; a response that has no body it drops unpolled,
and one whose body has not said that it has ended is then taken for one the client left.
Between two polls the end of a body that comes from HTTP/2 may arrive, and nothing notes it.
-/

namespace Gfe.Access

open Interleaving

/-! ## The record -/

/-- How an exchange ended. -/
inductive Termination where
  /-- The response was written to the end. -/
  | complete
  /-- The client went away first. -/
  | clientAbort
  /-- The upstream failed in the middle of the response. -/
  | upstreamAbort
  deriving DecidableEq, Repr

namespace Termination

def asStr : Termination → Str
  | .complete => "complete".toList
  | .clientAbort => "client_abort".toList
  | .upstreamAbort => "upstream_abort".toList

/-- Whom the metric of aborted requests names. -/
def abortedBy : Termination → Option Str
  | .complete => none
  | .clientAbort => some "client".toList
  | .upstreamAbort => some "upstream".toList

end Termination

/-- A request's record, with what is known of the response. -/
structure Record extends RequestRecord where
  status : Option UInt16
  grpcStatus : Option Nat
  responseBytes : UInt64
  termination : Termination
  deriving DecidableEq

/-- The status reported for a request without a response. -/
def clientClosedRequest : UInt16 := 499

def maxGrpcStatus : Nat := 16

/-- The `grpc-status` of headers or trailers, if it is one. -/
def grpcStatus (headers : HeaderMap) : Option Nat := do
  let value ← headers.get grpcStatusHeader
  let text ← HeaderValue.toStr value
  let status ← Text.parseUnsigned 256 text
  if status ≤ maxGrpcStatus then some status else none

/-- What is logged and counted of a request that is over. -/
structure Report where
  status : UInt16
  grpcStatus : Option Nat
  responseBytes : UInt64
  error : Option Str
  termination : Str
  abortedBy : Option Str
  deriving DecidableEq, Repr

namespace Record

/-- The only way a record can end before there is a response is that the client leaves. -/
def begin (record : RequestRecord) : Record where
  toRequestRecord := record
  status := none
  grpcStatus := none
  responseBytes := 0
  termination := .clientAbort

def report (record : Record) : Report where
  status := record.status.getD clientClosedRequest
  grpcStatus := record.grpcStatus
  responseBytes := record.responseBytes
  error := record.error
  termination := record.termination.asStr
  abortedBy := record.termination.abortedBy

end Record

/-! ## Bodies -/

inductive Frame where
  | data (bytes : Bytes)
  | trailers (headers : HeaderMap)
  deriving DecidableEq, Repr

/-- What polling a body finds. -/
inductive Poll where
  | pending
  | frame (frame : Frame)
  | failed
  | finished
  deriving DecidableEq, Repr

/-- A body of any kind: what polling it does, whether it says that it has ended, and what
    happens to it meanwhile. One that has ended stays so and has no more frames. -/
structure Body (σ : Type) where
  poll : σ → Poll × σ
  isEndStream : σ → Bool
  arrives : σ → σ → Prop
  ended_arrives : ∀ {s s'}, arrives s s' → isEndStream s = true → isEndStream s' = true
  ended_poll : ∀ {s}, isEndStream s = true →
    (poll s).1 = .finished ∧ isEndStream (poll s).2 = true

/-- A body that is a text, which is one frame unless it is empty. -/
def Body.full : Body (Option Bytes) where
  poll
    | some bytes => (.frame (.data bytes), none)
    | none => (.finished, none)
  isEndStream := Option.isNone
  arrives s s' := s' = s
  ended_arrives same ended := by rw [same]; exact ended
  ended_poll {s} ended := by cases s <;> first | exact ⟨rfl, rfl⟩ | cases ended

/-- The text of an answer, as a body. -/
def content (answer : Answer) : Option Bytes :=
  if answer.body.isEmpty then none else some (Text.utf8 answer.body)

/-! ## The observed body -/

/-- A body and the record that goes with it. -/
structure ObservedBody (σ : Type) where
  inner : σ
  record : Record
  /-- The body as it was when it was last asked for the record whether it has ended: the node
      does not keep this. -/
  shown : σ

variable {σ : Type} (body : Body σ)

def ObservedBody.terminate (termination : Termination) (observed : ObservedBody σ) : ObservedBody σ :=
  { observed with record := { observed.record with termination := termination } }

def noteIfEnded : Program (ObservedBody σ) Unit := do
  if ← Program.exchange fun (observed : ObservedBody σ) =>
      (body.isEndStream observed.inner, { observed with shown := observed.inner }) then
    Program.write (ObservedBody.terminate .complete)
  else return

/-- `RequestRecord::respond`: the record is handed over to the response. -/
def respond (status : UInt16) (headers : HeaderMap) : Program (ObservedBody σ) Unit := do
  Program.write fun observed => { observed with record := { observed.record with
    status := some status
    grpcStatus :=
      if observed.record.isGrpc then grpcStatus headers else observed.record.grpcStatus } }
  noteIfEnded body

def Record.count (record : Record) : Frame → Record
  | .data bytes => { record with responseBytes := record.responseBytes + .ofNat bytes.length }
  | .trailers headers =>
    if record.isGrpc then { record with grpcStatus := Access.grpcStatus headers } else record

def pollFrame : Program (ObservedBody σ) Poll := do
  let found ← Program.exchange fun (observed : ObservedBody σ) =>
    let (found, inner) := body.poll observed.inner
    (found, { observed with inner := inner })
  match found with
  | .pending => return .pending
  | .frame frame =>
    Program.write fun (observed : ObservedBody σ) =>
      { observed with record := observed.record.count frame }
    noteIfEnded body
    return .frame frame
  | .failed =>
    Program.write (ObservedBody.terminate .upstreamAbort)
    return .failed
  | .finished =>
    Program.write (ObservedBody.terminate .complete)
    return .finished

/-! ## The server -/

/-- What the server does with a body: ask for more of it, or whether there is more. -/
inductive Act where
  | poll
  | look
  deriving DecidableEq, Repr

inductive Ending where
  /-- There was no body to send. -/
  | bare
  /-- The body was seen to have ended. -/
  | seen
  /-- There was nothing left to poll. -/
  | polled
  | failed
  /-- The body was dropped before. -/
  | dropped
  deriving DecidableEq, Repr

/-- The response was delivered in full. -/
def Ending.delivered : Ending → Bool
  | .bare | .seen | .polled => true
  | .failed | .dropped => false

/-- The server does this, as long as the body has not reported its end or failed, and drops it. -/
def send : List Act → Program (ObservedBody σ) Ending
  | [] => return .dropped
  | .look :: acts => do
    if ← Program.read fun observed => body.isEndStream observed.inner then return .seen
    else send acts
  | .poll :: acts => do
    match ← pollFrame body with
    | .finished => return .polled
    | .failed => return .failed
    | .pending => send acts
    | .frame _ => send acts

/-- A response whose head is all there is to send. -/
def hasNoBody (method : Method) (status : UInt16) : Bool :=
  method == .head || (100 ≤ status && status < 200) || status == 204 || status == 304

/-- A response from when the node has it until the server drops its body. -/
def exchange (method : Method) (status : UInt16) (headers : HeaderMap) (acts : List Act) :
    Program (ObservedBody σ) Ending := do
  respond body status headers
  if hasNoBody method status then return .bare
  else send body acts

/-! ## What is reported -/

def Arrives (observed observed' : ObservedBody σ) : Prop :=
  body.arrives observed.inner observed'.inner ∧ observed'.record = observed.record ∧
    observed'.shown = observed.shown

/-- What is reported follows what the body last said. -/
structure Noted (observed : ObservedBody σ) : Prop where
  termination : observed.record.termination =
    if body.isEndStream observed.shown then .complete else .clientAbort
  lasting : body.isEndStream observed.shown = true → body.isEndStream observed.inner = true

def Reported (observed : ObservedBody σ) : Ending → Prop
  | .polled => observed.record.termination = .complete
  | .failed => observed.record.termination = .upstreamAbort
  | .bare | .seen | .dropped => Noted body observed

/-- A body is reported as it ended: when it was delivered in full as complete, when it failed as
    aborted by the upstream, and when it was dropped before its end as aborted by the client. -/
structure RightlyReported (ending : Ending) (observed : ObservedBody σ) : Prop where
  delivered : ending.delivered = true → observed.record.report.termination = "complete".toList ∧
    observed.record.report.abortedBy = none
  failed : ending = .failed → observed.record.report.termination = "upstream_abort".toList ∧
    observed.record.report.abortedBy = some "upstream".toList
  dropped : ending = .dropped → body.isEndStream observed.inner = false →
    observed.record.report.termination = "client_abort".toList ∧
      observed.record.report.abortedBy = some "client".toList

/-- While the server has a body, nobody else touches the record, and what has ended stays so. -/
def beside : Rely (ObservedBody σ) where
  may s s' := s'.record = s.record ∧ s'.shown = s.shown ∧
    (body.isEndStream s.inner = true → body.isEndStream s'.inner = true)
  refl _ := ⟨rfl, rfl, id⟩
  trans first second := ⟨second.1.trans first.1, second.2.1.trans first.2.1,
    second.2.2 ∘ first.2.2⟩

variable {body}

theorem beside_of_arrives (observed observed' : ObservedBody σ)
    (arrived : Arrives body observed observed') : (beside body).may observed observed' :=
  ⟨arrived.2.1, arrived.2.2, body.ended_arrives arrived.1⟩

theorem Noted.moved {observed observed' : ObservedBody σ} (noted : Noted body observed)
    (moved : (beside body).may observed observed') : Noted body observed' := by
  obtain ⟨record, shown, lasting⟩ := moved
  constructor
  · rw [record, shown]
    exact noted.termination
  · rw [shown]
    exact lasting ∘ noted.lasting

theorem ensures_noteIfEnded {observed : ObservedBody σ}
    (assumed : observed.record.termination = .clientAbort) :
    (noteIfEnded body).Ensures (beside body) (fun _ observed' => Noted body observed') observed := by
  apply Program.Ensures.bind
  apply Program.Ensures.exchange
  intro x y toX toY
  have kept : y.record.termination = .clientAbort := by
    rw [toY.1]
    exact (congrArg Record.termination toX.1).trans assumed
  have shown : y.shown = x.inner := toY.2.1
  dsimp only
  cases ended : body.isEndStream x.inner with
  | true =>
    apply Program.Ensures.write
    intro z u toZ toU
    have at_z : z.shown = x.inner := toZ.2.1.trans shown
    have noted : Noted body (z.terminate .complete) := by
      constructor
      · rw [show (z.terminate .complete).shown = x.inner from at_z, ended]
        rfl
      · exact fun _ => toZ.2.2 (toY.2.2 ended)
    exact noted.moved toU
  | false =>
    have noted : Noted body y := by
      constructor
      · rw [kept, shown, ended]
        rfl
      · rw [shown, ended]
        exact nofun
    exact Program.Ensures.ret fun z toZ => noted.moved toZ

theorem ensures_respond (status : UInt16) (headers : HeaderMap) {observed : ObservedBody σ}
    (assumed : observed.record.termination = .clientAbort) :
    (respond body status headers).Ensures (beside body)
      (fun _ observed' => Noted body observed') observed := by
  apply Program.Ensures.bind
  apply Program.Ensures.write
  intro x y toX toY
  have kept : y.record.termination = .clientAbort := by
    rw [toY.1]
    exact (congrArg Record.termination toX.1).trans assumed
  exact ensures_noteIfEnded kept

theorem termination_count (record : Record) (frame : Frame) :
    (record.count frame).termination = record.termination := by
  cases frame with
  | data bytes => rfl
  | trailers headers =>
    rw [Record.count]
    split
    · rfl
    · rfl

theorem Body.unended_of_poll {s : σ} (more : (body.poll s).1 ≠ .finished) :
    body.isEndStream s = false := by
  by_contra ended
  exact more (body.ended_poll (Bool.not_eq_false _ ▸ ended)).1

theorem ensures_terminate (termination : Termination) (found : Poll) (observed : ObservedBody σ) :
    Program.Ensures (beside body)
      (Program.write (ObservedBody.terminate termination) >>= fun _ => .ret found)
      (fun value observed => value = found ∧ observed.record.termination = termination)
      observed := by
  apply Program.Ensures.bind
  apply Program.Ensures.write
  intro x y _ toY
  refine Program.Ensures.ret fun z toZ => ⟨rfl, ?_⟩
  rw [toZ.1, toY.1]
  rfl

theorem ensures_pollFrame {observed : ObservedBody σ} (noted : Noted body observed) :
    (pollFrame body).Ensures (beside body) (fun found observed =>
      match found with
      | .finished => observed.record.termination = .complete
      | .failed => observed.record.termination = .upstreamAbort
      | _ => Noted body observed) observed := by
  apply Program.Ensures.bind
  apply Program.Ensures.exchange
  intro x y toX toY
  have atX : Noted body x := noted.moved toX
  -- a body that has more to give had not ended when it was last asked
  have unended : (body.poll x.inner).1 ≠ .finished →
      body.isEndStream y.shown = false ∧ y.record.termination = .clientAbort := by
    intro more
    have before : body.isEndStream x.shown = false := by
      by_contra ended
      have now := atX.lasting (Bool.not_eq_false _ ▸ ended)
      exact Bool.false_ne_true ((Body.unended_of_poll more).symm.trans now)
    refine ⟨(congrArg body.isEndStream toY.2.1).trans before, ?_⟩
    rw [toY.1]
    exact atX.termination.trans (by rw [before]; rfl)
  dsimp only
  cases found : (body.poll x.inner).1 with
  | pending =>
    obtain ⟨still, assumed⟩ := unended (by rw [found]; exact Poll.noConfusion)
    have noted : Noted body y := by
      constructor
      · rw [assumed, still]
        rfl
      · rw [still]
        exact nofun
    exact Program.Ensures.ret fun z toZ => noted.moved toZ
  | frame frame =>
    obtain ⟨_, assumed⟩ := unended (by rw [found]; exact Poll.noConfusion)
    apply Program.Ensures.bind
    apply Program.Ensures.write
    intro z u toZ toU
    have kept : u.record.termination = .clientAbort := by
      rw [toU.1, termination_count, toZ.1, assumed]
    apply Program.Ensures.bind
    refine (ensures_noteIfEnded kept).weaken ?_
    intro _ w noted
    exact Program.Ensures.ret fun z toZ => noted.moved toZ
  | failed =>
    refine (ensures_terminate .upstreamAbort .failed y).weaken ?_
    rintro _ z ⟨rfl, known⟩
    exact known
  | finished =>
    refine (ensures_terminate .complete .finished y).weaken ?_
    rintro _ z ⟨rfl, known⟩
    exact known

/-- Whatever the server does with a body, what is reported is how that ended. -/
theorem ensures_send (acts : List Act) {observed : ObservedBody σ} (noted : Noted body observed) :
    (send body acts).Ensures (beside body) (fun ending observed => Reported body observed ending)
      observed := by
  induction acts generalizing observed with
  | nil => exact Program.Ensures.ret fun x toX => noted.moved toX
  | cons act acts ih =>
    cases act with
    | look =>
      apply Program.Ensures.bind
      apply Program.Ensures.read
      intro x y toX toY
      have atY : Noted body y := (noted.moved toX).moved toY
      cases body.isEndStream x.inner with
      | true => exact Program.Ensures.ret fun z toZ => atY.moved toZ
      | false => exact ih atY
    | poll =>
      apply Program.Ensures.bind
      refine (ensures_pollFrame noted).weaken ?_
      intro found x after
      cases found with
      | pending | frame => exact ih after
      | failed | finished =>
        refine Program.Ensures.ret fun y toY => ?_
        rw [Reported, toY.1]
        exact after

theorem ensures_exchange (record : RequestRecord) (inner : σ) (method : Method) (status : UInt16)
    (headers : HeaderMap) (acts : List Act) :
    (exchange body method status headers acts).Ensures (beside body)
      (fun ending observed => Reported body observed ending) ⟨inner, .begin record, inner⟩ := by
  apply Program.Ensures.bind
  refine (ensures_respond status headers rfl).weaken ?_
  intro _ x noted
  cases hasNoBody method status with
  | true => exact Program.Ensures.ret fun y toY => noted.moved toY
  | false => exact ensures_send acts noted

theorem Reported.rightly_iff {ending : Ending} {observed : ObservedBody σ}
    (reported : Reported body observed ending) :
    RightlyReported body ending observed ↔
      (ending = .bare ∨ ending = .seen → body.isEndStream observed.shown = true) := by
  constructor
  · intro right here
    have told : observed.record.termination.asStr = "complete".toList := by
      obtain rfl | rfl := here <;> exact (right.delivered rfl).1
    have noted : Noted body observed := by
      obtain rfl | rfl := here <;> exact reported
    by_contra unended
    rw [noted.termination, if_neg unended] at told
    exact absurd told (by decide)
  · intro shown
    have complete (noted : Noted body observed) (ended : body.isEndStream observed.shown = true) :
        observed.record.termination = .complete :=
      noted.termination.trans (if_pos ended)
    have said {termination : Termination} (known : observed.record.termination = termination) :
        observed.record.report.termination = termination.asStr ∧
          observed.record.report.abortedBy = termination.abortedBy :=
      ⟨congrArg Termination.asStr known, congrArg Termination.abortedBy known⟩
    cases ending with
    | bare => exact ⟨fun _ => said (complete reported (shown (.inl rfl))), nofun, nofun⟩
    | seen => exact ⟨fun _ => said (complete reported (shown (.inr rfl))), nofun, nofun⟩
    | polled => exact ⟨fun _ => said reported, nofun, nofun⟩
    | failed => exact ⟨nofun, fun _ => said reported, nofun⟩
    | dropped =>
      refine ⟨nofun, nofun, fun _ unended => ?_⟩
      have noted : Noted body observed := reported
      have unshown : ¬ body.isEndStream observed.shown = true := fun ended => by
        rw [noted.lasting ended] at unended
        cases unended
      exact said (noted.termination.trans (if_neg unshown))

/-- However the body of a response yields its frames, whatever arrives meanwhile and wherever the
    server stops, what is reported is how the exchange ended, unless there was no body to send or
    the server saw by itself that it had ended, and the body had not said so when it was last
    asked for the record. -/
theorem endings_are_reported_iff (record : RequestRecord) (inner : σ) (method : Method)
    (status : UInt16) (headers : HeaderMap) (acts : List Act) {ending : Ending}
    {observed : ObservedBody σ}
    (steps : Program.Steps (Arrives body) (exchange body method status headers acts,
      ⟨inner, .begin record, inner⟩) (.ret ending, observed)) :
    RightlyReported body ending observed ↔
      (ending = .bare ∨ ending = .seen → body.isEndStream observed.shown = true) := by
  have reported := (ensures_exchange record inner method status headers acts).sound
    beside_of_arrives steps
  exact Reported.rightly_iff reported

/-! ## Answers to GET and HEAD -/

/-- The record of a request for the host `h` that matches no route. -/
def unrouted : RequestRecord := ⟨['i'], ['h'], false, none, some Refusal.noRoute.reason⟩

/-- The refusal of such a request and what the server does with it. -/
def refused (method : Method) : Ending × ObservedBody (Option Bytes) :=
  let answer := refusal .noRoute unrouted.requestId unrouted.isGrpc
  (exchange Body.full method answer.status answer.headers [.look, .poll, .look]).run
    ⟨content answer, .begin unrouted, content answer⟩

/-- In answer to a GET the server sees its end behind the text, and it is reported as complete. -/
theorem endings_are_reported_get :
    (refused .get).1 = .seen ∧ RightlyReported Body.full (refused .get).1 (refused .get).2 :=
  ⟨rfl, (endings_are_reported_iff unrouted _ .get _ _ _ (Program.steps_run _ _ _)).mpr fun _ => rfl⟩

/-- In answer to a HEAD its head is all there is to send, and it is reported as aborted by the
    client. -/
theorem head_refusal_reported_as_abort :
    (refused .head).1 = .bare ∧
      (refused .head).2.record.report.termination = "client_abort".toList ∧
      (refused .head).2.record.report.abortedBy = some "client".toList :=
  ⟨rfl, rfl, rfl⟩

end Gfe.Access
