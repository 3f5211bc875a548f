import Gfe.Handler.Forward
import Mathlib.Logic.Relation

/-! # When a response is overdue

A request is sent by one task, which polls its body, and waited for by another,
which loads what the first one noted, looks at the clock and sleeps until the
response is due. The due time moves while it is waited for, and it is kept in whole
milliseconds. What was really sent and when is kept beside it, as a history.
-/

namespace Gfe

variable {started : Instant}

/-! ## Histories -/

/-- Something that is noted about a request on its way. A body that is empty from the
    start is noted as one that was found at its end. -/
inductive SendEvent where
  | attempt
  | poll (found : BodyPoll)
  deriving DecidableEq, Repr

namespace SendEvent

def note (now : Instant) (progress : SendProgress) : SendEvent → SendProgress
  | .attempt => progress.attemptStarted now
  | .poll found => progress.pollFrame found now

/-- Something is sent to the backend. -/
def sends : SendEvent → Bool
  | .attempt => true
  | .poll (.frame _) | .poll .finished => true
  | .poll .pending | .poll .failed => false

/-- The request is sent in full. -/
def ends : SendEvent → Bool
  | .poll (.frame last) => last
  | .poll .finished => true
  | _ => false

end SendEvent

/-- What was noted and when, the latest first. -/
abbrev SendHistory := List (SendEvent × Instant)

namespace SendHistory

def lastSent (started : Instant) : SendHistory → Instant
  | [] => started
  | (event, now) :: past => if event.sends then now else lastSent started past

/-- When the request had been sent in full, by the last poll that found its end. -/
def completed (started : Instant) (hasBody : Bool) : SendHistory → Option Instant
  | [] => if hasBody then none else some started
  | (event, now) :: past => if event.ends then some now else completed started hasBody past

def latestPoll : SendHistory → Option BodyPoll
  | [] => none
  | (.poll found, _) :: _ => some found
  | (.attempt, _) :: past => latestPoll past

def BodyEnded (history : SendHistory) : Prop := ∃ noted ∈ history, noted.1.ends = true

/-- A body that has ended is not found pending again. -/
def StaysEnded : SendHistory → Prop
  | [] => True
  | (event, _) :: past => (event = .poll .pending → ¬ BodyEnded past) ∧ StaysEnded past

/-- When the response is due. -/
def deadline (timeouts : TimeoutsConfig) (started : Instant) (hasBody : Bool)
    (history : SendHistory) : Nat :=
  let firstByte := (history.lastSent started).nanos + timeouts.upstreamFirstByte
  match history.completed started hasBody with
  | none => firstByte
  | some ended => min firstByte (ended.nanos + timeouts.requestTotal)

theorem latestPoll_ne_pending {history : SendHistory} (stays : history.StaysEnded)
    (ended : history.BodyEnded) : history.latestPoll ≠ some .pending := by
  induction history with
  | nil =>
    obtain ⟨noted, member, _⟩ := ended
    cases member
  | cons noted past ih =>
    obtain ⟨event, now⟩ := noted
    have earlier : event.ends = false → BodyEnded past := by
      intro open'
      obtain ⟨noted, member, ends⟩ := ended
      cases List.mem_cons.mp member with
      | inl here =>
        subst here
        rw [open'] at ends
        cases ends
      | inr before => exact ⟨noted, before, ends⟩
    cases event with
    | attempt => exact ih stays.2 (earlier rfl)
    | poll found =>
      intro pending
      cases pending
      exact stays.1 rfl (earlier rfl)

end SendHistory

/-! ## Milliseconds -/

/-- This number of milliseconds after the start is this time, up to one. -/
def Stamps (started : Instant) (ms : UInt64) (time : Instant) : Prop :=
  started.nanos + ms.toNat * 1000000 ≤ time.nanos ∧
    time.nanos < started.nanos + ms.toNat * 1000000 + 1000000

/-- How long a request can be on its way for its milliseconds to be told from `notCompleted`. -/
def maxElapsed : Nat := 18446744073709551615 * 1000000

theorem stamps_elapsedMs {progress : SendProgress} {now : Instant}
    (later : progress.started ≤ now) (short : now.since progress.started < maxElapsed) :
    Stamps progress.started (progress.elapsedMs now) now ∧
      progress.elapsedMs now ≠ SendProgress.notCompleted := by
  have gap : now.since progress.started = now.nanos - progress.started.nanos := rfl
  have small : now.since progress.started / 1000000 < 18446744073709551615 := by
    unfold maxElapsed at short
    omega
  have fits : now.since progress.started / 1000000 < UInt64.size := Nat.lt_trans small (by decide)
  have value : (progress.elapsedMs now).toNat = now.since progress.started / 1000000 := by
    rw [SendProgress.elapsedMs, if_pos fits, UInt64.toNat_ofNat_of_lt' fits]
  rw [Instant.le_def] at later
  refine ⟨⟨?_, ?_⟩, ?_⟩
  · omega
  · omega
  · intro same
    rw [same] at value
    simp only [SendProgress.notCompleted, UInt64.reduceToNat] at value
    omega

/-- What is noted of a history: the times up to a millisecond, and who was asked last. -/
structure Noted (started : Instant) (hasBody : Bool) (progress : SendProgress)
    (history : SendHistory) : Prop where
  origin : progress.started = started
  sent : Stamps started progress.lastSentMs (history.lastSent started)
  complete : ∀ ended, history.completed started hasBody = some ended →
    progress.completedMs ≠ SendProgress.notCompleted ∧ Stamps started progress.completedMs ended
  incomplete : history.completed started hasBody = none →
    progress.completedMs = SendProgress.notCompleted
  waiting : progress.waitingForClient = true ↔ history.latestPoll = some .pending

theorem noted_begin (started : Instant) (hasBody : Bool) :
    Noted started hasBody (.begin started hasBody) [] := by
  have now : Stamps started 0 started := by
    constructor
    · simp
    · simp
  have nobody : (false = true) ↔ (none : Option BodyPoll) = some .pending := by simp
  cases hasBody with
  | true => exact ⟨rfl, now, fun _ none => (by cases none), fun _ => rfl, nobody⟩
  | false =>
    refine ⟨rfl, now, ?_, fun some => (by cases some), nobody⟩
    intro ended same
    cases same
    refine ⟨?_, now⟩
    simp [SendProgress.begin, SendProgress.notCompleted]

theorem Noted.note {hasBody : Bool} {progress : SendProgress}
    {history : SendHistory} (noted : Noted started hasBody progress history) {now : Instant}
    (later : started ≤ now) (short : now.since started < maxElapsed) (event : SendEvent) :
    Noted started hasBody (event.note now progress) ((event, now) :: history) := by
  obtain ⟨rfl, sent, complete, incomplete, waiting⟩ := noted
  obtain ⟨stamps, distinct⟩ := stamps_elapsedMs later short
  have ends : ∀ ended, some now = some ended → progress.elapsedMs now ≠ SendProgress.notCompleted ∧
      Stamps progress.started (progress.elapsedMs now) ended := by
    rintro _ ⟨⟩
    exact ⟨distinct, stamps⟩
  cases event with
  | attempt => exact ⟨rfl, stamps, complete, incomplete, waiting⟩
  | poll found =>
    cases found with
    | pending => exact ⟨rfl, sent, complete, incomplete, by simp [SendEvent.note,
        SendProgress.pollFrame, SendProgress.bodyPolled, SendHistory.latestPoll]⟩
    | failed => exact ⟨rfl, sent, complete, incomplete, by simp [SendEvent.note,
        SendProgress.pollFrame, SendProgress.bodyPolled, SendProgress.bodyFailed,
        SendHistory.latestPoll]⟩
    | finished => exact ⟨rfl, stamps, ends, nofun, by simp [SendEvent.note,
        SendProgress.pollFrame, SendProgress.bodyPolled, SendProgress.bodyEnded,
        SendHistory.latestPoll]⟩
    | frame last =>
      cases last with
      | true => exact ⟨rfl, stamps, ends, nofun, by simp [SendEvent.note,
          SendProgress.pollFrame, SendProgress.bodyPolled, SendProgress.bodyEnded,
          SendHistory.latestPoll]⟩
      | false => exact ⟨rfl, stamps, complete, incomplete, by simp [SendEvent.note,
          SendProgress.pollFrame, SendProgress.bodyPolled, SendProgress.bodyProgressed,
          SendHistory.latestPoll]⟩

/-- The deadline is the right one, less than a millisecond early and never late. -/
theorem Noted.deadline {hasBody : Bool} {progress : SendProgress}
    {history : SendHistory} (noted : Noted started hasBody progress history)
    (timeouts : TimeoutsConfig) :
    progress.responseDeadline timeouts ≤ history.deadline timeouts started hasBody ∧
      history.deadline timeouts started hasBody <
        progress.responseDeadline timeouts + 1000000 := by
  obtain ⟨rfl, sent, complete, incomplete, _⟩ := noted
  unfold Stamps at sent
  unfold SendHistory.deadline SendProgress.responseDeadline SendProgress.deadlineFrom
  cases ended : history.completed progress.started hasBody with
  | none =>
    rw [if_pos (incomplete ended)]
    dsimp only
    omega
  | some time =>
    obtain ⟨distinct, stamps⟩ := complete time ended
    unfold Stamps at stamps
    rw [if_neg distinct]
    dsimp only
    omega

/-! ## The wait -/

/-- Where the task that waits for a response is. -/
inductive WaitPhase where
  /-- No attempt is under way. -/
  | away
  | loading
  | loaded (lastSentMs : UInt64)
  /-- The deadline is known, the clock not yet looked at. -/
  | computed (deadline : Nat)
  | asleep (deadline : Nat)
  | overdue
  | timedOut (why : Refusal)
  deriving DecidableEq

/-- A request on its way, with the task that waits for its response. The last two fields are
    not part of the program. -/
structure Sending where
  progress : SendProgress
  now : Instant
  phase : WaitPhase
  history : SendHistory
  /-- Nothing was sent since the wait last loaded when something was. -/
  quiet : Bool

namespace Sending

def begin (started : Instant) (hasBody : Bool) : Sending :=
  ⟨.begin started hasBody, started, .away, [], true⟩

/-- Something happens now. -/
def note (event : SendEvent) (s : Sending) : Sending :=
  { s with
    progress := event.note s.now s.progress
    history := (event, s.now) :: s.history
    quiet := s.quiet && !event.sends }

def blamed (progress : SendProgress) : Refusal :=
  if progress.waitingForClient then .requestBodyTimeout else .upstream .timeout

inductive Step (timeouts : TimeoutsConfig) : Sending → Sending → Prop where
  | pass {s : Sending} {now : Instant} : s.now ≤ now → Step timeouts s { s with now := now }
  /-- The body is polled by the task of the connection to the backend. -/
  | poll {s : Sending} (found : BodyPoll) : Step timeouts s (s.note (.poll found))
  | attempt {s : Sending} : s.phase = .away →
      Step timeouts s { s.note .attempt with phase := .loading }
  | load {s : Sending} : s.phase = .loading →
      Step timeouts s { s with phase := .loaded s.progress.lastSentMs, quiet := true }
  | compute {s : Sending} {lastSentMs : UInt64} : s.phase = .loaded lastSentMs →
      Step timeouts s { s with
        phase := .computed (SendProgress.deadlineFrom timeouts s.progress.started lastSentMs
          s.progress.completedMs) }
  | overdue {s : Sending} {deadline : Nat} : s.phase = .computed deadline →
      deadline ≤ s.now.nanos → Step timeouts s { s with phase := .overdue }
  | sleep {s : Sending} {deadline : Nat} : s.phase = .computed deadline →
      s.now.nanos < deadline → Step timeouts s { s with phase := .asleep deadline }
  | wake {s : Sending} {deadline : Nat} : s.phase = .asleep deadline → deadline ≤ s.now.nanos →
      Step timeouts s { s with phase := .loading }
  /-- The attempt ended before it was overdue; another may follow. -/
  | ended {s : Sending} : s.phase ≠ .overdue → (∀ why, s.phase ≠ .timedOut why) →
      Step timeouts s { s with phase := .away }
  | blame {s : Sending} : s.phase = .overdue →
      Step timeouts s { s with phase := .timedOut (blamed s.progress) }

abbrev Runs (timeouts : TimeoutsConfig) : Sending → Sending → Prop :=
  Relation.ReflTransGen (Step timeouts)

variable {timeouts : TimeoutsConfig} {s s' : Sending}

theorem Step.now_le (step : Step timeouts s s') : s.now ≤ s'.now := by
  cases step with
  | pass later => exact later
  | _ => exact Nat.le_refl _

/-- What the wait has loaded is what there is, unless something was sent since. -/
def Current (timeouts : TimeoutsConfig) (s : Sending) : Prop :=
  s.quiet = true →
    match s.phase with
    | .loaded lastSentMs => lastSentMs = s.progress.lastSentMs
    | .computed deadline => deadline = s.progress.responseDeadline timeouts
    | _ => True

theorem note_of_silent {event : SendEvent} (silent : event.sends = false) (now : Instant)
    (progress : SendProgress) :
    (event.note now progress).started = progress.started ∧
      (event.note now progress).lastSentMs = progress.lastSentMs ∧
      (event.note now progress).completedMs = progress.completedMs := by
  cases event with
  | attempt => cases silent
  | poll found =>
    cases found with
    | pending | failed => exact ⟨rfl, rfl, rfl⟩
    | frame last => cases silent
    | finished => cases silent

theorem Current.note (current : s.Current timeouts) (event : SendEvent) :
    (s.note event).Current timeouts := by
  intro quiet
  have both : s.quiet = true ∧ event.sends = false := by simpa [Sending.note] using quiet
  obtain ⟨started, sent, completed⟩ := note_of_silent both.2 s.now s.progress
  have before := current both.1
  have phase : (s.note event).phase = s.phase := rfl
  have progress : (s.note event).progress = event.note s.now s.progress := rfl
  rw [phase, progress]
  cases here : s.phase with
  | loaded lastSentMs =>
    rw [here] at before
    exact before.trans sent.symm
  | computed deadline =>
    rw [here] at before
    rw [before, SendProgress.responseDeadline, SendProgress.responseDeadline, started, sent,
      completed]
  | _ => exact True.intro

theorem Current.step (current : s.Current timeouts) (step : Step timeouts s s') :
    s'.Current timeouts := by
  cases step with
  | pass later => exact current
  | poll found => exact current.note _
  | attempt away => exact fun _ => True.intro
  | load loading => exact fun _ => rfl
  | compute loaded =>
    intro quiet
    have before := current quiet
    rw [loaded] at before
    rw [before]
    rfl
  | overdue | sleep | wake | ended | blame => exact fun _ => True.intro

/-- What holds at every moment. -/
structure Sound (timeouts : TimeoutsConfig) (started : Instant) (hasBody : Bool) (s : Sending) :
    Prop where
  later : started ≤ s.now
  current : s.Current timeouts
  noted : s.now.since started < maxElapsed → Noted started hasBody s.progress s.history

theorem Sound.step {hasBody : Bool} (sound : s.Sound timeouts started hasBody)
    (step : Step timeouts s s') : s'.Sound timeouts started hasBody := by
  have later : started ≤ s'.now := Nat.le_trans sound.later step.now_le
  have current := sound.current.step step
  have before : s'.now.since started < maxElapsed → s.now.since started < maxElapsed := by
    have moved := step.now_le
    rw [Instant.le_def] at moved
    unfold Instant.since
    omega
  refine ⟨later, current, ?_⟩
  intro short
  have noted := sound.noted (before short)
  cases step with
  | poll found => exact noted.note sound.later short (.poll found)
  | attempt away => exact noted.note sound.later short .attempt
  | _ => exact noted

theorem sound_of_runs {hasBody : Bool}
    (run : Runs timeouts (.begin started hasBody) s) : s.Sound timeouts started hasBody := by
  induction run with
  | refl => exact ⟨Nat.le_refl _, fun _ => True.intro, fun _ => noted_begin started hasBody⟩
  | tail _ step ih => exact ih.step step

open Interleaving in
/-- The attempt of a forward that is found overdue ends with this blame. -/
theorem run_sendAttempt_overdue {ι : Type} [DecidableEq ι] (forwarder : Forwarder)
    (conn : Connection) (pool : Pool Scheme) (r : ι) (http : Http) (authority : Str)
    (attempt : Attempt) (record : RequestRecord) {s : Traffic ι}
    (overdue : (s.lanes r).overdue = true) (there : (s.lanes r).cancelled = false)
    (bounded : record.isGrpc = false) :
    ((sendAttempt forwarder conn pool r http authority attempt record).run s).1 =
      .ended (.refused (blamed (s.lanes r).progress)) := by
  cases waiting : (s.lanes r).progress.waitingForClient with
  | true | false =>
    simp [sendAttempt, clock, inLane, hand, awaitResponse, Traffic.setLane, Lane.outcome,
      Lane.note, overdue, there, bounded, blamed, waiting, SendProgress.attemptStarted]

theorem Step.computed_of_overdue (step : Step timeouts s s') (before : s.phase ≠ .overdue)
    (after : s'.phase = .overdue) :
    ∃ deadline, s.phase = .computed deadline ∧ deadline ≤ s.now.nanos := by
  cases step with
  | overdue computed due => exact ⟨_, computed, due⟩
  | pass | poll => exact absurd after before
  | attempt | load => cases after
  | compute | sleep => cases after
  | wake | ended => cases after
  | blame overdue => cases after

theorem Step.blamed_of_timedOut {why : Refusal} (step : Step timeouts s s')
    (overdue : s.phase = .overdue) (after : s'.phase = .timedOut why) : why = blamed s.progress := by
  cases step with
  | blame _ => exact (WaitPhase.timedOut.inj after).symm
  | pass later =>
    rw [overdue] at after
    cases after
  | poll found =>
    rw [Sending.note, overdue] at after
    cases after
  | attempt | load => cases after
  | compute | overdue | sleep => cases after
  | wake | ended => cases after

/-- At every moment of a request's way to its backends, as long as it takes less than 2^64 - 1
    milliseconds: the deadline is the one by what was sent, less than a millisecond early and
    never late. The wait is declared overdue at or after the deadline, if nothing was sent since
    it loaded when something was; an upload is then overdue for lack of progress. The client is
    blamed if its body was last found pending, which a body that has ended is not. -/
theorem wait_ends_when_due (timeouts : TimeoutsConfig) (started : Instant) (hasBody : Bool)
    {s : Sending} (run : Runs timeouts (.begin started hasBody) s)
    (short : s.now.since started < maxElapsed) :
    (s.progress.responseDeadline timeouts ≤ s.history.deadline timeouts started hasBody ∧
      s.history.deadline timeouts started hasBody <
        s.progress.responseDeadline timeouts + 1000000) ∧
    (∀ s', Step timeouts s s' → s.phase ≠ .overdue → s'.phase = .overdue → s.quiet = true →
      s.progress.responseDeadline timeouts ≤ s.now.nanos ∧
      (s.history.completed started hasBody = none →
        (s.history.lastSent started).nanos + timeouts.upstreamFirstByte <
          s.now.nanos + 1000000)) ∧
    ∀ s' why, Step timeouts s s' → s.phase = .overdue → s'.phase = .timedOut why →
      (why = .requestBodyTimeout ↔ s.history.latestPoll = some .pending) ∧
      (s.history.StaysEnded → s.history.BodyEnded → why = .upstream .timeout) := by
  have sound := sound_of_runs run
  have noted := sound.noted short
  have deadline := noted.deadline timeouts
  refine ⟨deadline, ?_, ?_⟩
  · intro s' step before after quiet
    obtain ⟨limit, computed, passed⟩ := step.computed_of_overdue before after
    have due : s.progress.responseDeadline timeouts ≤ s.now.nanos := by
      have current := sound.current quiet
      rw [computed] at current
      rwa [← current]
    refine ⟨due, ?_⟩
    intro unfinished
    have near := deadline.2
    simp only [SendHistory.deadline, unfinished] at near
    omega
  · intro s' why step overdue after
    obtain rfl := step.blamed_of_timedOut overdue after
    have waiting := noted.waiting
    constructor
    · rw [← waiting, Sending.blamed]
      cases s.progress.waitingForClient with
      | true => simp
      | false => simp
    · intro stays ended
      have given : s.progress.waitingForClient = false := by
        rw [Bool.eq_false_iff, ne_eq, waiting]
        exact SendHistory.latestPoll_ne_pending stays ended
      rw [Sending.blamed, given]
      rfl

/-- A second to respond, a millisecond more once the request is complete. -/
def shortTimeouts : TimeoutsConfig := ⟨1000000000, 1000000⟩

def zero : Instant := ⟨0, clockRange_pos⟩

def second : Instant := ⟨1000000000, by decide⟩

/-- A client that has nothing to give for a second. -/
def stalled : Sending where
  progress := (SendEvent.poll .pending).note zero (SendEvent.attempt.note zero (.begin zero true))
  now := second
  phase := .overdue
  history := [(.poll .pending, zero), (.attempt, zero)]
  quiet := true

theorem stalled_client_is_blamed :
    (stalled.progress.responseDeadline shortTimeouts ≤
        stalled.history.deadline shortTimeouts zero true ∧
      stalled.history.deadline shortTimeouts zero true <
        stalled.progress.responseDeadline shortTimeouts + 1000000) ∧
    ∃ s', Step shortTimeouts stalled s' ∧ s'.phase = .timedOut .requestBodyTimeout ∧
      stalled.history.latestPoll = some .pending := by
  have run : Runs shortTimeouts (.begin zero true) stalled :=
    ((((((Relation.ReflTransGen.refl (r := Step shortTimeouts) (a := begin zero true)).tail
      (.attempt rfl)).tail (.poll .pending)).tail (.load rfl)).tail (.compute rfl)).tail
      (@Step.pass _ _ second (by decide))).tail (.overdue rfl (by decide))
  obtain ⟨due, _, blames⟩ := wait_ends_when_due shortTimeouts zero true run (by decide)
  exact ⟨due, _, .blame rfl, rfl, (blames _ _ (.blame rfl) rfl rfl).1.mp rfl⟩

/-! ## Where the deadline in force is missed -/

/-- A body that goes on between the load and the look at the clock is timed out though it is
    not due; one that went on within the first millisecond is timed out that much too early; and
    the end of a body that comes 2^64 - 1 milliseconds after the start is not noted. -/
theorem wait_ends_before_due :
    (∃ s s', Runs shortTimeouts (.begin zero true) s ∧ Step shortTimeouts s s' ∧
      s.phase ≠ .overdue ∧ s'.phase = .overdue ∧
      s.now.nanos < s.progress.responseDeadline shortTimeouts) ∧
    (∃ s s', Runs shortTimeouts (.begin zero true) s ∧ Step shortTimeouts s s' ∧
      s.phase ≠ .overdue ∧ s'.phase = .overdue ∧ s.history.completed zero true = none ∧
      s.now.nanos < (s.history.lastSent zero).nanos + shortTimeouts.upstreamFirstByte) ∧
    ∃ s, Runs shortTimeouts (.begin zero true) s ∧
      s.history.deadline shortTimeouts zero true < s.progress.responseDeadline shortTimeouts := by
  refine ⟨?_, ?_, ?_⟩
  · have run := ((((((Relation.ReflTransGen.refl (r := Step shortTimeouts)
      (a := begin zero true)).tail (.attempt rfl)).tail (.load rfl)).tail (.compute rfl)).tail
      (@Step.pass _ _ ⟨999999999, by decide⟩ (by decide))).tail (.poll (.frame false))).tail
      (@Step.pass _ _ second (by decide))
    exact ⟨_, _, run, .overdue rfl (by decide), by decide, rfl, by decide⟩
  · have run := ((((((Relation.ReflTransGen.refl (r := Step shortTimeouts)
      (a := begin zero true)).tail (.attempt rfl)).tail
      (@Step.pass _ _ ⟨900000, by decide⟩ (by decide))).tail (.poll (.frame false))).tail
      (.load rfl)).tail (.compute rfl)).tail (@Step.pass _ _ second (by decide))
    exact ⟨_, _, run, .overdue rfl (by decide), by decide, rfl, rfl, by decide⟩
  · have run := ((Relation.ReflTransGen.refl (r := Step shortTimeouts)
      (a := begin zero true)).tail
      (@Step.pass _ _ ⟨maxElapsed, by decide⟩ (by decide))).tail (.poll .finished)
    exact ⟨_, run, by decide⟩

end Sending

end Gfe
