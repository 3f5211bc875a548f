import Gfe.Server.Activity

/-! # Serving one connection

`serve` polls the connection and, in this order, looks at the drain signal and at
one timer, the watchdog. Requests begin while the connection is polled. They end,
time passes and the drain is signalled at any moment. The protocols are not ours:
what the connection does while it is polled is left open.
-/

namespace Gfe

namespace Server

open Text

variable {options : Options} {start : Nat}

/-- `CLOSE_GRACE`. -/
def closeGrace : Nat := 5 * second

inductive CloseReason where
  | closed
  | drain
  | idleTimeout
  | headerTimeout
  | clientAbort
  | clientUnresponsive
  | protocolError
  | error
  deriving DecidableEq

structure Closed where
  reason : CloseReason
  requests : Nat
  error : Option Str
  deriving DecidableEq

/-! ## How a connection ends by itself -/

inductive IoKind where
  | connectionReset
  | connectionAborted
  | brokenPipe
  | unexpectedEof
  | timedOut
  | interrupted
  | other
  deriving DecidableEq

inductive HyperKind where
  | timeout
  | parse
  | incompleteMessage
  | other
  deriving DecidableEq

/-- An error, with the I/O error that is first among its causes. -/
inductive ErrorKind where
  | io (kind : IoKind)
  | hyper (kind : HyperKind) (cause : Option IoKind)
  | other (cause : Option IoKind)
  deriving DecidableEq

def isCancelled : ErrorKind → Bool
  | .io .interrupted => true
  | _ => false

def ioCloseReason : Option IoKind → CloseReason
  | some .connectionReset | some .connectionAborted | some .brokenPipe | some .unexpectedEof =>
    .clientAbort
  | some .timedOut => .clientUnresponsive
  | _ => .error

def errorCloseReason (error : ErrorKind) (http2 : Bool) : CloseReason :=
  match error with
  | .hyper .timeout _ => if http2 then .clientUnresponsive else .idleTimeout
  | .hyper .parse _ => .protocolError
  | .hyper .incompleteMessage _ => .clientAbort
  | .hyper .other cause | .other cause => ioCloseReason cause
  | .io kind => ioCloseReason (some kind)

/-! ## The loop -/

inductive Phase where
  /-- The connection is polled. -/
  | polling
  /-- It has nothing to do, and the drain signal and the watchdog are looked at. -/
  | looking
  /-- A timer ended it. -/
  | cut (closed : Closed)
  /-- It ended by itself. -/
  | over (closed : Closed)
  deriving DecidableEq

/-- Whether the connection was asked to shut down, and polled since. -/
inductive Asked where
  | no
  | asked
  | polled
  deriving DecidableEq

def Asked.poll : Asked → Asked
  | .no => .no
  | _ => .polled

structure Conn where
  options : Options
  now : Nat
  phase : Phase
  activity : ConnActivity
  /-- When the watchdog is due. -/
  watchdog : Nat
  shutDownFor : Option CloseReason
  draining : Bool
  leaveBy : Option Nat
  toldToClose : Bool
  http2 : Bool
  /-- The drain was signalled. -/
  drainSent : Bool
  asked : Asked
  deriving DecidableEq

/-- The start of `serve`. -/
def serve (options : Options) (now : Nat) : Conn where
  options := options
  now := now
  phase :=
    match options.validate with
    | .ok () => .polling
    | .error invalid => .over ⟨.error, 0, some invalid.text⟩
  activity := .new now options.headerTimeout options.idleTimeout
  watchdog := now + min options.headerTimeout options.idleTimeout
  shutDownFor := none
  draining := false
  leaveBy := none
  toldToClose := false
  http2 := false
  drainSent := false
  asked := .no

namespace Conn

def gracefulShutdown (s : Conn) (reason : CloseReason) : Conn :=
  { s with shutDownFor := some reason, asked := .asked }

/-- What came of the connection, as it is reported. -/
def ended (s : Conn) : Except (ErrorKind × Str) Unit → Closed
  | .ok () =>
    if s.toldToClose then ⟨.drain, s.activity.requests, none⟩
    else ⟨s.shutDownFor.getD .closed, s.activity.requests, none⟩
  | .error (error, text) =>
    match s.shutDownFor, isCancelled error with
    | some reason, true => ⟨reason, s.activity.requests, none⟩
    | _, _ => ⟨errorCloseReason error s.http2, s.activity.requests, some text⟩

/-- The drain signal is looked at, `read` being the time. -/
def seeDrain (s : Conn) (read : Nat) : Conn :=
  let s := { s with draining := s.drainSent, phase := .polling }
  if s.draining ∧ s.shutDownFor = none then
    if s.activity.hasRequestInFlight then s.gracefulShutdown .drain
    else
      { s with
        leaveBy := some (read + s.options.drainIdleGrace)
        watchdog := min s.watchdog (read + s.options.drainIdleGrace) }
  else s

/-- The drain grace is over. -/
def leaves (s : Conn) (now : Nat) : Bool := s.leaveBy.any (· ≤ now)

def rearm (s : Conn) (nextCheck : Nat) : Conn :=
  { s with
    phase := .polling
    watchdog :=
      match s.leaveBy, s.shutDownFor with
      | some deadline, none => min nextCheck deadline
      | _, _ => nextCheck }

def cut (s : Conn) (reason : CloseReason) : Conn :=
  { s with phase := .cut ⟨reason, s.activity.requests, none⟩ }

/-- The watchdog fires, `now` being the time. -/
def fire (s : Conn) (now : Nat) : Conn :=
  let s := if s.shutDownFor = none ∧ s.leaves now then s.gracefulShutdown .drain else s
  match s.activity.verdict now with
  | .checkAgainAt time => s.rearm time
  | .idleTimeout =>
    if s.shutDownFor = none then (s.gracefulShutdown .idleTimeout).rearm (now + closeGrace)
    else s.cut .idleTimeout
  | .headerTimeout => s.cut .headerTimeout

inductive Event where
  | other
  | drain
  | fire (read : Nat)

/-- Times that are read were read no later than now. -/
inductive Step : Event → Conn → Conn → Prop where
  | tick {s time} : s.now ≤ time → Step .other s { s with now := time }
  | begin {s http2} : s.phase = .polling → Step .other s { s with
      activity := s.activity.beginRequest, http2 := s.http2 || http2 }
  /-- An HTTP/1.1 response says that the connection will be closed. -/
  | answer {s} : s.phase = .polling → s.drainSent = true → s.activity.hasRequestInFlight = true →
      Step .other s { s with toldToClose := true }
  | finish {s} : s.activity.hasRequestInFlight = true → Step .other s { s with
      activity := s.activity.endRequest s.now }
  | signal {s} : Step .other s { s with drainSent := true }
  | pending {s} : s.phase = .polling → Step .other s { s with
      phase := .looking, asked := s.asked.poll }
  | wake {s} : s.phase = .looking → Step .other s { s with phase := .polling }
  | resolve {s result} : s.phase = .polling → Step .other s { s with phase := .over (s.ended result) }
  | drain {s read} : s.phase = .looking → s.draining = false → read ≤ s.now →
      Step .drain s (s.seeDrain read)
  | fire {s read} : s.phase = .looking → s.watchdog ≤ read → read ≤ s.now →
      Step (.fire read) s (s.fire read)

def Runs : Conn → Conn → Prop := Relation.ReflTransGen fun s s' => ∃ event, Step event s s'

/-! ## What the timers leave -/

variable {event : Event} {s s' : Conn} {read : Nat}

@[simp] theorem activity_seeDrain : (s.seeDrain read).activity = s.activity := by
  unfold seeDrain
  dsimp only
  split
  · split <;> rfl
  · rfl

@[simp] theorem now_seeDrain : (s.seeDrain read).now = s.now := by
  unfold seeDrain
  dsimp only
  split
  · split <;> rfl
  · rfl

/-- The state in which the verdict is acted on. -/
def afterGrace (s : Conn) (now : Nat) : Conn :=
  if s.shutDownFor = none ∧ s.leaves now then s.gracefulShutdown .drain else s

theorem fire_eq (s : Conn) (now : Nat) : s.fire now =
    match s.activity.verdict now with
    | .checkAgainAt time => (s.afterGrace now).rearm time
    | .idleTimeout =>
      if (s.afterGrace now).shutDownFor = none then
        ((s.afterGrace now).gracefulShutdown .idleTimeout).rearm (now + closeGrace)
      else (s.afterGrace now).cut .idleTimeout
    | .headerTimeout => (s.afterGrace now).cut .headerTimeout := by
  have same : (s.afterGrace now).activity = s.activity := by
    unfold afterGrace
    split <;> rfl
  rw [← same]
  rfl

theorem activity_afterGrace : (s.afterGrace read).activity = s.activity := by
  unfold afterGrace
  split <;> rfl

theorem now_afterGrace : (s.afterGrace read).now = s.now := by
  unfold afterGrace
  split <;> rfl

@[simp] theorem activity_fire : (s.fire read).activity = s.activity := by
  rw [fire_eq]
  split
  · exact activity_afterGrace
  · split <;> exact activity_afterGrace
  · exact activity_afterGrace

@[simp] theorem now_fire : (s.fire read).now = s.now := by
  rw [fire_eq]
  split
  · exact now_afterGrace
  · split <;> exact now_afterGrace
  · exact now_afterGrace

/-- What a step does to the activity. -/
theorem Step.activity (step : Step event s s') :
    s'.activity = s.activity ∨ s'.activity = s.activity.beginRequest ∨
      s'.activity = s.activity.endRequest s.now := by
  cases step with
  | begin => exact .inr (.inl rfl)
  | finish => exact .inr (.inr rfl)
  | drain => exact .inl activity_seeDrain
  | fire => exact .inl activity_fire
  | _ => exact .inl rfl

theorem Step.now_le (step : Step event s s') : s.now ≤ s'.now := by
  cases step with
  | tick later => exact later
  | drain => exact now_seeDrain.ge
  | fire => exact now_fire.ge
  | _ => exact le_rfl

theorem Runs.now_le (run : Runs s s') : s.now ≤ s'.now := by
  induction run with
  | refl => exact le_rfl
  | tail _ last ih =>
    obtain ⟨event, step⟩ := last
    exact ih.trans step.now_le

/-- What the timers are set by never changes. -/
structure SetBy (options : Options) (start : Nat) (s : Conn) : Prop where
  accepted : s.activity.acceptedAt = start
  header : s.activity.headerTimeout = options.headerTimeout
  idle : s.activity.idleTimeout = options.idleTimeout
  started : start ≤ s.now
  known : s.activity.idleSinceMs * millisecond ≤ s.now - start
  counted : s.activity.requests = 0 → s.activity.inFlight = 0

theorem asMillis_mul_le (elapsed : Nat) : asMillis elapsed * millisecond ≤ elapsed := by
  have floor := Nat.div_mul_le_self elapsed millisecond
  have capped : asMillis elapsed ≤ elapsed / millisecond := Nat.min_le_left _ _
  exact (Nat.mul_le_mul_right _ capped).trans floor

theorem SetBy.step (set : SetBy options start s)
    (step : Step event s s') : SetBy options start s' := by
  have later := step.now_le
  have known := set.known
  have started := set.started
  cases step.activity with
  | inl same =>
    refine ⟨by rw [same, set.accepted], by rw [same, set.header], by rw [same, set.idle],
      started.trans later, ?_, by rw [same]; exact set.counted⟩
    rw [same]
    omega
  | inr moved =>
    cases moved with
    | inl began =>
      refine ⟨by rw [began]; exact set.accepted, by rw [began]; exact set.header,
        by rw [began]; exact set.idle, started.trans later, ?_, ?_⟩
      · rw [began, ConnActivity.beginRequest]
        dsimp only
        omega
      · rw [began]
        exact fun none => absurd none (Nat.succ_ne_zero _)
    | inr ended =>
      refine ⟨by rw [ended]; exact set.accepted, by rw [ended]; exact set.header,
        by rw [ended]; exact set.idle, started.trans later, ?_, ?_⟩
      · rw [ended, ConnActivity.endRequest]
        dsimp only
        rw [set.accepted]
        have floor := asMillis_mul_le (s.now - start)
        omega
      · rw [ended, ConnActivity.endRequest]
        intro none
        dsimp only at none ⊢
        rw [set.counted none]

theorem setBy_of_runs (run : Runs (serve options start) s) :
    SetBy options start s := by
  induction run with
  | refl => exact ⟨rfl, rfl, rfl, le_rfl, by simp [serve, ConnActivity.new], fun _ => rfl⟩
  | tail _ last ih =>
    obtain ⟨event, step⟩ := last
    exact ih.step step

/-! ## When the watchdog is armed for -/

/-- The times of this connection that 64 bits of milliseconds hold. -/
def lastMillis : Nat := 2 ^ 64 - 1

/-- Nothing is due before the watchdog, but for the millisecond that idle times are
    cut to. -/
structure Armed (s : Conn) : Prop where
  soon : s.watchdog ≤ s.now + s.activity.idleTimeout
  silent : s.activity.requests = 0 → s.watchdog ≤ s.activity.acceptedAt + s.activity.headerTimeout
  idle : s.activity.requests ≠ 0 → s.activity.inFlight = 0 → s.activity.idleSinceMs < lastMillis →
    s.watchdog < s.activity.acceptedAt + s.activity.idleSinceMs * millisecond +
      s.activity.idleTimeout + millisecond
  grace : ∀ deadline, s.leaveBy = some deadline → s.watchdog ≤ deadline

theorem Step.other_frame (step : Step .other s s') :
    s'.watchdog = s.watchdog ∧ s'.shutDownFor = s.shutDownFor ∧ s'.leaveBy = s.leaveBy := by
  cases step <;> exact ⟨rfl, rfl, rfl⟩

theorem lt_asMillis_succ {elapsed : Nat} (fits : asMillis elapsed < lastMillis) :
    elapsed < asMillis elapsed * millisecond + millisecond := by
  have same : asMillis elapsed = elapsed / millisecond := by
    unfold asMillis at fits ⊢
    unfold lastMillis at fits
    omega
  rw [same]
  exact Nat.lt_div_mul_add (by decide)

theorem Armed.other (armed : s.Armed)
    (set : SetBy options start s) (step : Step .other s s') : s'.Armed := by
  obtain ⟨soon, silent, idle, grace⟩ := armed
  obtain ⟨watchdog, _, leaveBy⟩ := step.other_frame
  have later := step.now_le
  have grace' : ∀ deadline, s'.leaveBy = some deadline → s'.watchdog ≤ deadline := by
    rw [watchdog, leaveBy]
    exact grace
  cases step.activity with
  | inl same =>
    refine ⟨?_, ?_, ?_, grace'⟩
    · rw [watchdog, same]
      omega
    · rw [watchdog, same]
      exact silent
    · rw [watchdog, same]
      exact idle
  | inr moved =>
    cases moved with
    | inl began =>
      refine ⟨?_, ?_, ?_, grace'⟩
      · rw [watchdog, began, ConnActivity.beginRequest]
        dsimp only
        omega
      · rw [began]
        exact fun none => absurd none (Nat.succ_ne_zero _)
      · rw [began]
        exact fun _ none => absurd none (Nat.succ_ne_zero _)
    | inr ended =>
      refine ⟨?_, ?_, ?_, grace'⟩
      · rw [watchdog, ended, ConnActivity.endRequest]
        dsimp only
        omega
      · rw [watchdog, ended]
        exact silent
      · rw [watchdog, ended, ConnActivity.endRequest]
        intro _ _ fits
        dsimp only at fits ⊢
        have close := lt_asMillis_succ fits
        have started := set.started
        rw [set.accepted] at close ⊢
        omega

theorem armed_rearm {start time : Nat} (set : SetBy options start s)
    (early : read ≤ s.now) (up : s.shutDownFor = none)
    (fine : s.activity.verdict read = .checkAgainAt time) : (s.rearm time).Armed := by
  obtain ⟨silent, busy, idle⟩ := ConnActivity.verdict_checkAgainAt fine set.counted
  have sooner : (s.rearm time).watchdog ≤ time := by
    unfold rearm
    rw [up]
    cases s.leaveBy with
    | none => exact le_rfl
    | some deadline => exact Nat.min_le_left _ _
  refine ⟨?_, ?_, ?_, ?_⟩
  · change _ ≤ s.now + s.activity.idleTimeout
    have known := set.known
    have started := set.started
    rw [← set.accepted] at known started
    by_cases none : s.activity.requests = 0
    · have := (silent none).2
      omega
    · by_cases some : 0 < s.activity.inFlight
      · have := busy some
        omega
      · have := idle none (by omega)
        omega
  · intro none
    exact sooner.trans (silent none).1
  · intro some none _
    have due := idle some none
    change _ < s.activity.acceptedAt + s.activity.idleSinceMs * millisecond +
      s.activity.idleTimeout + millisecond
    have := (show 0 < millisecond by decide)
    omega
  · intro deadline leaving
    have leaving : s.leaveBy = some deadline := leaving
    simp only [rearm, leaving, up]
    exact Nat.min_le_right _ _

theorem afterGrace_of_up (up : (s.afterGrace read).shutDownFor = none) : s.afterGrace read = s := by
  unfold afterGrace at up ⊢
  split at up
  · cases up
  · rw [if_neg ‹_›]

theorem Armed.fire (armed : s.Armed) (set : SetBy options start s)
    (early : read ≤ s.now) (up : (s.fire read).shutDownFor = none) : (s.fire read).Armed := by
  rw [fire_eq] at up ⊢
  split at up
  · rename_i time fine
    have same : s.afterGrace read = s := afterGrace_of_up up
    rw [same] at up ⊢
    exact armed_rearm set early up fine
  · split at up
    · cases up
    · exact absurd up ‹_›
  · have same : s.afterGrace read = s := afterGrace_of_up up
    rw [same]
    exact ⟨armed.soon, armed.silent, armed.idle, armed.grace⟩

theorem Armed.seeDrain (armed : s.Armed) : (s.seeDrain read).Armed := by
  obtain ⟨soon, silent, idle, grace⟩ := armed
  unfold Conn.seeDrain
  dsimp only
  split
  · split
    · exact ⟨soon, silent, idle, grace⟩
    · refine ⟨(Nat.min_le_left _ _).trans soon, fun none => (Nat.min_le_left _ _).trans (silent none),
        fun some none fits => (Nat.min_le_left _ _).trans_lt (idle some none fits), ?_⟩
      intro deadline same
      cases same
      exact Nat.min_le_right _ _
  · exact ⟨soon, silent, idle, grace⟩

theorem Step.up (step : Step event s s') (up : s'.shutDownFor = none) : s.shutDownFor = none := by
  cases step with
  | @drain _ read _ _ _ =>
    unfold Conn.seeDrain at up
    dsimp only at up
    split at up
    · rename_i both
      exact both.2
    · exact up
  | @fire _ read _ _ _ =>
    by_contra down
    have same : s.afterGrace read = s := by
      unfold afterGrace
      rw [if_neg (fun both => down both.1)]
    rw [fire_eq, same] at up
    split at up
    · exact down up
    · rw [if_neg down] at up
      exact down up
    · exact down up
  | _ => exact up

theorem armed_of_runs (run : Runs (serve options start) s)
    (up : s.shutDownFor = none) : s.Armed := by
  induction run with
  | refl =>
    refine ⟨?_, fun _ => ?_, fun some => absurd rfl some, nofun⟩
    · exact Nat.add_le_add_left (Nat.min_le_right _ _) start
    · exact Nat.add_le_add_left (Nat.min_le_left _ _) start
  | tail before last ih =>
    obtain ⟨event, step⟩ := last
    have armed := ih (step.up up)
    have set := setBy_of_runs before
    cases event with
    | other => exact armed.other set step
    | drain =>
      cases step with
      | drain => exact armed.seeDrain
    | fire read =>
      cases step with
      | fire _ _ early => exact armed.fire set early up

end Conn

end Server

end Gfe
