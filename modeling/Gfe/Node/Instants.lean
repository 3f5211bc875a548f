import Gfe.Config.Bootstrap
import Gfe.Handler.Deadlines
import Gfe.Server.Timers

/-! # Instants that are out of range

An instant is a count of seconds in 63 bits, with the nanoseconds of one. What comes out of
range when a duration is added to it panics. The timeouts of a node are added to instants in
three places: by the watchdog of a client connection, by the wait for a response, and by the
drain. The functions here are those of these places with the additions as they are; `none`
is a panic.
-/

namespace Gfe

variable {timeouts : TimeoutsConfig}

/-- `2 ^ 63` seconds, in nanoseconds. -/
def instantRange : Nat := 2 ^ 63 * 10 ^ 9

namespace Server

/-- Whatever the timers add to times up to `horizon` is in range. -/
structure Options.Fit (horizon : Nat) (options : Options) : Prop where
  header : horizon + options.headerTimeout < instantRange
  idle : horizon + options.idleTimeout < instantRange
  grace : horizon + options.drainIdleGrace < instantRange

variable {options : Options} {start horizon read : Nat} {s : Conn}

end Server

/-! ## The wait for a response -/

namespace Sending

variable {timeouts : TimeoutsConfig} {started : Instant} {hasBody : Bool} {s s' : Sending}

/-- This many milliseconds have passed since the start. -/
def Passed (s : Sending) (ms : UInt64) : Prop :=
  s.progress.started.nanos + ms.toNat * 1000000 ≤ s.now.nanos

/-- What is noted, and what the wait has loaded, is of the past. -/
structure Timely (s : Sending) : Prop where
  started : s.progress.started ≤ s.now
  sent : s.Passed s.progress.lastSentMs
  completed : s.progress.completedMs ≠ SendProgress.notCompleted → s.Passed s.progress.completedMs
  loaded : ∀ ms, s.phase = .loaded ms → s.Passed ms

theorem passed_elapsedMs (started : s.progress.started ≤ s.now) :
    s.Passed (s.progress.elapsedMs s.now) := by
  rw [Instant.le_def] at started
  unfold Passed SendProgress.elapsedMs Instant.since
  dsimp only
  split
  · rename_i fits
    rw [UInt64.toNat_ofNat_of_lt' fits]
    omega
  · rename_i large
    have capped : (18446744073709551615 : UInt64).toNat = UInt64.size - 1 := rfl
    rw [capped]
    omega

theorem times_note (event : SendEvent) (now : Instant) (progress : SendProgress) :
    (event.note now progress).started = progress.started ∧
      ((event.note now progress).lastSentMs = progress.lastSentMs ∨
        (event.note now progress).lastSentMs = progress.elapsedMs now) ∧
      ((event.note now progress).completedMs = progress.completedMs ∨
        (event.note now progress).completedMs = progress.elapsedMs now) := by
  cases event with
  | attempt => exact ⟨rfl, .inr rfl, .inl rfl⟩
  | poll found =>
    cases found with
    | pending | failed => exact ⟨rfl, .inl rfl, .inl rfl⟩
    | finished => exact ⟨rfl, .inr rfl, .inr rfl⟩
    | frame last =>
      cases last with
      | true => exact ⟨rfl, .inr rfl, .inr rfl⟩
      | false => exact ⟨rfl, .inr rfl, .inl rfl⟩

theorem Timely.note (timely : s.Timely) (event : SendEvent) : (s.note event).Timely := by
  obtain ⟨started, sent, completed, loaded⟩ := timely
  obtain ⟨origin, sentThen, completedThen⟩ := times_note event s.now s.progress
  have passed : ∀ ms, (s.note event).Passed ms ↔ s.Passed ms := by
    intro ms
    unfold Passed Sending.note
    dsimp only
    rw [origin]
  have elapsed := passed_elapsedMs started
  refine ⟨origin ▸ started, ?sent, ?completed, fun ms phase => (passed ms).mpr (loaded ms phase)⟩
  case sent =>
    rw [passed]
    cases sentThen with
    | inl same => exact same ▸ sent
    | inr now => exact now ▸ elapsed
  case completed =>
    intro complete
    rw [passed]
    cases completedThen with
    | inl same => exact same ▸ completed (same ▸ complete)
    | inr now => exact now ▸ elapsed

theorem Timely.step (timely : s.Timely) (step : Step timeouts s s') : s'.Timely := by
  obtain ⟨started, sent, completed, loaded⟩ := timely
  cases step with
  | @pass now later =>
    have passed : ∀ ms, s.Passed ms → Passed { s with now := now } ms :=
      fun _ past => Nat.le_trans past later
    exact ⟨Nat.le_trans started later, passed _ sent, fun complete => passed _ (completed complete),
      fun ms phase => passed ms (loaded ms phase)⟩
  | poll found => exact Timely.note ⟨started, sent, completed, loaded⟩ _
  | attempt away =>
    obtain ⟨started, sent, completed, _⟩ := Timely.note ⟨started, sent, completed, loaded⟩ .attempt
    exact ⟨started, sent, completed, nofun⟩
  | load loading =>
    refine ⟨started, sent, completed, ?_⟩
    rintro _ ⟨⟩
    exact sent
  | compute | overdue | sleep | wake | ended | blame => exact ⟨started, sent, completed, nofun⟩

end Sending

/-! ## A node -/

namespace Bootstrap

/-- What bounds the wait for a response. -/
def TimeoutsConfig.response (timeouts : TimeoutsConfig) : Gfe.TimeoutsConfig :=
  ⟨timeouts.upstreamFirstByte, timeouts.requestTotal⟩

def httpOptions (timeouts : TimeoutsConfig) (limits : LimitsConfig) : Server.Options where
  headerTimeout := timeouts.requestHeader
  idleTimeout := timeouts.clientIdle
  keepAliveTimeout := timeouts.clientIdle / 4
  drainIdleGrace := timeouts.drainDeadline / 2
  maxHeaderBytes := limits.maxHeaderBytes
  maxConcurrentStreams := limits.maxH2ConcurrentStreams

/-- Whatever is added to times up to `horizon` is in range. -/
structure TimeoutsConfig.Fit (horizon : Nat) (timeouts : TimeoutsConfig) : Prop where
  header : horizon + timeouts.requestHeader < instantRange
  idle : horizon + timeouts.clientIdle < instantRange
  firstByte : horizon + timeouts.upstreamFirstByte < instantRange
  total : horizon + timeouts.requestTotal < instantRange
  drain : horizon + timeouts.drainDeadline < instantRange

theorem TimeoutsConfig.Fit.options {horizon : Nat}
    (fit : timeouts.Fit horizon) (limits : LimitsConfig) : (httpOptions timeouts limits).Fit horizon := by
  have drain := fit.drain
  refine ⟨fit.header, fit.idle, ?_⟩
  change horizon + timeouts.drainDeadline / 2 < instantRange
  omega

variable {file : NodeFile} {config : NodeConfig} {horizon : Nat}

end Bootstrap

end Gfe
