import Gfe.Server.Connection

/-! # What the timers of a connection do

When a connection is ended by a timer, when it is found idle, how late the watchdog
may be, and whether a client is asked to leave before it is cut off.
-/

namespace Gfe

namespace Server

namespace Conn

open Text

variable {event : Event} {s s' : Conn} {read : Nat}

/-! ## What the watchdog ends -/

/-- The loop comes to an idle timeout: it shuts the connection down for it, or closes
    it outright. -/
def ReportsIdle (s s' : Conn) : Prop :=
  s.shutDownFor = none ∧ s'.shutDownFor = some .idleTimeout ∨
    ∃ closed, s'.phase = .cut closed ∧ closed.reason = .idleTimeout

/-- Something is due: a head, a request or, once it drains, that the client leaves. -/
def Due (s : Conn) : Prop :=
  s.activity.verdict s.now = .headerTimeout ∨ s.activity.verdict s.now = .idleTimeout ∨
    ∃ deadline, s.leaveBy = some deadline ∧ deadline ≤ s.now

/-- Only the watchdog cuts a connection, and for what is due. -/
theorem cut_of_fire {closed : Closed} (fired : (s.fire read).phase = .cut closed) :
    closed.reason = .headerTimeout ∧ s.activity.verdict read = .headerTimeout ∨
      closed.reason = .idleTimeout ∧ s.activity.verdict read = .idleTimeout ∧
        (s.afterGrace read).shutDownFor ≠ none := by
  rw [fire_eq] at fired
  split at fired
  · cases fired
  · split at fired
    · cases fired
    · cases fired
      exact .inr ⟨rfl, ‹_›, ‹_›⟩
  · cases fired
    exact .inl ⟨rfl, ‹_›⟩

theorem Step.cut {closed : Closed} (step : Step event s s') (whole : ∀ other, s.phase ≠ .cut other)
    (ended : s'.phase = .cut closed) :
    ∃ read, s.phase = .looking ∧ s.watchdog ≤ read ∧ read ≤ s.now ∧ s' = s.fire read := by
  cases step with
  | fire looking due early => exact ⟨_, looking, due, early, rfl⟩
  | @drain _ read _ _ _ =>
    unfold Conn.seeDrain at ended
    dsimp only at ended
    split at ended
    · split at ended <;> cases ended
    · cases ended
  | tick | begin | answer | finish | signal => exact absurd ended (whole closed)
  | pending => cases ended
  | wake => cases ended
  | resolve => cases ended

theorem Step.reportsIdle (step : Step event s s') (whole : ∀ other, s.phase ≠ .cut other)
    (reports : ReportsIdle s s') :
    ∃ read, read ≤ s.now ∧ s.activity.verdict read = .idleTimeout := by
  cases reports with
  | inr ended =>
    obtain ⟨closed, ended, idle⟩ := ended
    obtain ⟨read, _, _, early, same⟩ := step.cut whole ended
    rw [same] at ended
    cases cut_of_fire ended with
    | inl header => rw [idle] at header; cases header.1
    | inr idle => exact ⟨read, early, idle.2.1⟩
  | inl shut =>
    obtain ⟨up, shut⟩ := shut
    cases event with
    | other => rw [step.other_frame.2.1, up] at shut; cases shut
    | drain =>
      cases step with
      | drain =>
        unfold Conn.seeDrain at shut
        dsimp only at shut
        split at shut
        · split at shut
          · cases shut
          · rw [up] at shut; cases shut
        · rw [up] at shut; cases shut
    | fire read =>
      cases step with
      | fire _ _ early =>
        refine ⟨read, early, ?_⟩
        rw [fire_eq] at shut
        have grace : (s.afterGrace read).shutDownFor ≠ some .idleTimeout := by
          unfold afterGrace
          split
          · exact nofun
          · rw [up]
            exact nofun
        split at shut
        · exact absurd shut grace
        · assumption
        · exact absurd shut grace

/-- A request that was in flight once is in flight still, or its end is known. -/
theorem Runs.ended {s₀ : Conn} (run : Runs s₀ s) (busy : 0 < s₀.activity.inFlight) :
    s.activity.acceptedAt = s₀.activity.acceptedAt ∧ (0 < s.activity.inFlight ∨
      asMillis (s₀.now - s₀.activity.acceptedAt) ≤ s.activity.idleSinceMs) := by
  induction run with
  | refl => exact ⟨rfl, .inl busy⟩
  | tail before last ih =>
    obtain ⟨event, step⟩ := last
    obtain ⟨accepted, known⟩ := ih
    have later := Runs.now_le before
    cases step.activity with
    | inl same => rw [same]; exact ⟨accepted, known⟩
    | inr moved =>
      cases moved with
      | inl began =>
        rw [began]
        exact ⟨accepted, .inl (Nat.succ_pos _)⟩
      | inr ended =>
        rw [ended]
        refine ⟨accepted, .inr ?_⟩
        change _ ≤ asMillis (_ - ConnActivity.acceptedAt _)
        rw [accepted]
        unfold asMillis
        have floor := Nat.div_le_div_right (c := millisecond)
          (Nat.sub_le_sub_right later s₀.activity.acceptedAt)
        omega

theorem errorCloseReason_ne (error : ErrorKind) (http2 : Bool) :
    errorCloseReason error http2 ≠ .headerTimeout := by
  have io : ∀ cause, ioCloseReason cause ≠ .headerTimeout := by
    intro cause
    unfold ioCloseReason
    split <;> simp
  cases error with
  | io kind => exact io _
  | other cause => exact io _
  | hyper kind cause =>
    cases kind with
    | timeout => cases http2 <;> simp [errorCloseReason]
    | other => exact io _
    | _ => simp [errorCloseReason]

theorem reason_ended (shut : s.shutDownFor ≠ some .headerTimeout)
    (result : Except (ErrorKind × Str) Unit) : (s.ended result).reason ≠ .headerTimeout := by
  cases result with
  | ok value =>
    simp only [ended]
    split
    · simp
    · cases why : s.shutDownFor with
      | none => simp
      | some reason =>
        rw [why] at shut
        exact fun same => shut (congrArg some same)
  | error failed =>
    simp only [ended]
    split
    · rename_i reason why _
      rw [why] at shut
      exact fun same => shut (congrArg some same)
    · exact errorCloseReason_ne _ _

theorem shutDownFor_step (step : Step event s s') (shut : s.shutDownFor ≠ some .headerTimeout) :
    s'.shutDownFor ≠ some .headerTimeout := by
  have grace (read : Nat) : (s.afterGrace read).shutDownFor ≠ some .headerTimeout := by
    unfold afterGrace
    split
    · simp [gracefulShutdown]
    · exact shut
  cases step with
  | drain =>
    unfold Conn.seeDrain
    dsimp only
    split
    · split
      · simp [gracefulShutdown]
      · exact shut
    · exact shut
  | fire =>
    rw [fire_eq]
    split
    · exact grace _
    · split
      · simp [gracefulShutdown, rearm]
      · exact grace _
    · exact grace _
  | _ => exact shut

theorem shutDownFor_of_runs {options : Options} {start : Nat} (run : Runs (serve options start) s) :
    s.shutDownFor ≠ some .headerTimeout := by
  induction run with
  | refl => simp [serve]
  | tail _ last ih =>
    obtain ⟨event, step⟩ := last
    exact shutDownFor_step step ih

theorem Step.over_reason {closed : Closed} (step : Step event s s')
    (shut : s.shutDownFor ≠ some .headerTimeout) (unended : ∀ other, s.phase ≠ .over other)
    (ended : s'.phase = .over closed) : closed.reason ≠ .headerTimeout := by
  cases step with
  | @resolve _ result _ =>
    cases ended
    exact reason_ended shut result
  | drain =>
    unfold Conn.seeDrain at ended
    dsimp only at ended
    split at ended
    · split at ended <;> cases ended
    · cases ended
  | fire =>
    rw [fire_eq] at ended
    split at ended
    · cases ended
    · split at ended <;> cases ended
    · cases ended
  | pending => cases ended
  | wake => cases ended
  | _ => exact absurd ended (unended closed)

variable {options : Options} {start : Nat}

theorem idle_since {s₀ : Conn} (set : SetBy options start s) (set₀ : SetBy options start s₀)
    (since : Runs s₀ s) (busy : 0 < s₀.activity.inFlight)
    (fits : s₀.now < start + lastMillis * millisecond)
    (idle : s.activity.verdict read = .idleTimeout) :
    s₀.now + options.idleTimeout < read + millisecond := by
  obtain ⟨_, none, late⟩ := ConnActivity.verdict_idleTimeout idle
  obtain ⟨_, known⟩ := Runs.ended since busy
  have started := set₀.started
  rw [set.accepted, set.idle] at late
  rw [set₀.accepted, none] at known
  cases known with
  | inl busy => cases busy
  | inr known =>
    have short : asMillis (s₀.now - start) < lastMillis := by
      have floor := asMillis_mul_le (s₀.now - start)
      by_contra long
      have far := Nat.mul_le_mul_right millisecond (Nat.not_lt.mp long)
      omega
    have close := lt_asMillis_succ short
    have upTo := Nat.mul_le_mul_right millisecond known
    omega

theorem others_frame (rest : Relation.ReflTransGen (Step .other) s s') :
    Runs s s' ∧ s'.watchdog = s.watchdog ∧ s'.shutDownFor = s.shutDownFor := by
  induction rest with
  | refl => exact ⟨.refl, rfl, rfl⟩
  | tail _ step ih =>
    obtain ⟨run, watchdog, shut⟩ := ih
    obtain ⟨watchdog', shut', _⟩ := step.other_frame
    exact ⟨run.tail ⟨_, step⟩, watchdog'.trans watchdog, shut'.trans shut⟩

theorem Armed.watchdog_le (armed : s.Armed) (set : SetBy options start s) (due : s.Due)
    (fits : s.now < start + lastMillis * millisecond) : s.watchdog ≤ s.now + millisecond := by
  cases due with
  | inl header =>
    obtain ⟨none, late⟩ := ConnActivity.verdict_headerTimeout header
    have := armed.silent none
    omega
  | inr due =>
    cases due with
    | inl idle =>
      obtain ⟨some, none, late⟩ := ConnActivity.verdict_idleTimeout idle
      have known := set.known
      have started := set.started
      have short : s.activity.idleSinceMs < lastMillis := by
        by_contra long
        have far := Nat.mul_le_mul_right millisecond (Nat.not_lt.mp long)
        omega
      have := armed.idle some none short
      omega
    | inr leaving =>
      obtain ⟨deadline, leaving, late⟩ := leaving
      have := armed.grace deadline leaving
      omega

end Conn

open Conn

/-- A timer ends a connection only when no request is in flight: for want of a head
    if none ever was and the header timeout is over, or as idle. It is found idle only
    when no request was in flight for the idle timeout, to the millisecond. And while
    it is not shut down, nothing is due a millisecond before the watchdog. -/
theorem timers_act_when_due (options : Options) (start : Nat) {s : Conn}
    (run : Runs (serve options start) s) :
    (∀ event s' closed, Step event s s' → (∀ other, s.phase ≠ .cut other) →
      s'.phase = .cut closed → s.activity.inFlight = 0 ∧
        (closed.reason = .headerTimeout ∧ s.activity.requests = 0 ∧
            start + options.headerTimeout ≤ s.now ∨
          closed.reason = .idleTimeout ∧ ReportsIdle s s')) ∧
    (∀ event s' closed, Step event s s' → (∀ other, s.phase ≠ .over other) →
      s'.phase = .over closed → closed.reason ≠ .headerTimeout) ∧
    (∀ event s', Step event s s' → (∀ other, s.phase ≠ .cut other) → ReportsIdle s s' →
      s.activity.inFlight = 0 ∧
        ∀ s₀, Runs (serve options start) s₀ → Runs s₀ s → 0 < s₀.activity.inFlight →
          s₀.now < start + lastMillis * millisecond →
            s₀.now + options.idleTimeout < s.now + millisecond) ∧
    (s.shutDownFor = none → ∀ s', Relation.ReflTransGen (Step .other) s s' → s'.Due →
      s'.now < start + lastMillis * millisecond → s.watchdog ≤ s'.now + millisecond) := by
  have set := setBy_of_runs run
  refine ⟨?_, ?_, ?_, ?_⟩
  · intro event s' closed step whole ended
    obtain ⟨read, _, _, early, same⟩ := step.cut whole ended
    have fired := ended
    rw [same] at fired
    cases cut_of_fire fired with
    | inl header =>
      obtain ⟨none, late⟩ := ConnActivity.verdict_headerTimeout header.2
      rw [set.accepted, set.header] at late
      exact ⟨set.counted none, .inl ⟨header.1, none, late.trans early⟩⟩
    | inr idle =>
      obtain ⟨_, none, _⟩ := ConnActivity.verdict_idleTimeout idle.2.1
      exact ⟨none, .inr ⟨idle.1, .inr ⟨closed, ended, idle.1⟩⟩⟩
  · intro event s' closed step whole ended
    exact step.over_reason (shutDownFor_of_runs run) whole ended
  · intro event s' step whole reports
    obtain ⟨read, early, idle⟩ := step.reportsIdle whole reports
    refine ⟨(ConnActivity.verdict_idleTimeout idle).2.1, fun s₀ before since busy fits => ?_⟩
    have gone := idle_since set (setBy_of_runs before) since busy fits idle
    omega
  · intro up s' rest due fits
    obtain ⟨further, watchdog, shut⟩ := others_frame rest
    have run' : Runs (serve options start) s' := run.trans further
    have armed := armed_of_runs run' (shut.trans up)
    rw [← watchdog]
    exact armed.watchdog_le (setBy_of_runs run') due fits

/-- Ten seconds for a head and for a request, five to leave. -/
def hasty : Options := ⟨10 * second, 10 * second, 10 * second, 5 * second, minHeaderBytes, 1⟩

theorem phase_hasty : (serve hasty 0).phase = .polling := by decide +kernel

/-- Requests of an HTTP/2 connection, `now` being the time. -/
def Conn.having (requests inFlight idleSinceMs now : Nat) : Conn :=
  { serve hasty 0 with
    activity := ⟨0, 10 * second, 10 * second, requests, inFlight, idleSinceMs⟩
    http2 := true
    now := now }

theorem others_first (now : Nat) :
    Relation.ReflTransGen (Step .other) (serve hasty 0) (.having 1 1 0 now) :=
  .tail (.single (@Step.begin _ true phase_hasty)) (.tick (Nat.zero_le _))

theorem others_wait {now later : Nat} (early : now ≤ later) :
    Relation.ReflTransGen (Step .other) (.having 1 1 0 now)
      { Conn.having 1 0 (asMillis now) later with phase := .looking } :=
  .tail (.tail (.single (.finish rfl)) (.tick early)) (.pending phase_hasty)

theorem fire_idle {s : Conn} {read : Nat} (up : s.shutDownFor = none) (stays : s.leaveBy = none)
    (idle : s.activity.verdict read = .idleTimeout) :
    s.fire read = { s with
      shutDownFor := some .idleTimeout, asked := .asked, phase := .polling
      watchdog := read + closeGrace } := by
  have same : s.afterGrace read = s := by simp [afterGrace, leaves, stays]
  simp [fire_eq, idle, same, up, gracefulShutdown, rearm]

/-- A connection that was shut down as idle is let have one more request and then
    reported as idle; and one that is served for long enough is found idle while a
    request has just ended. -/
theorem idle_report_after_request :
    (∃ s₀ s, Runs (serve hasty 0) s₀ ∧ Runs s₀ s ∧ 0 < s₀.activity.inFlight ∧ s.now = s₀.now ∧
      s.phase = .over ⟨.idleTimeout, 2, none⟩) ∧
    (∃ read s₀ s s', Runs (serve hasty 0) s₀ ∧ Runs s₀ s ∧ 0 < s₀.activity.inFlight ∧
      s.now = s₀.now ∧ Step (.fire read) s s' ∧ ReportsIdle s s') := by
  constructor
  · have idle : Runs (serve hasty 0) _ :=
      (others_frame ((others_first 0).trans (others_wait (Nat.zero_le (10 * second))))).1
    have fired := idle.tail ⟨.fire (10 * second), .fire rfl (by decide) le_rfl⟩
    rw [fire_idle rfl rfl (by decide +kernel)] at fired
    have busy := fired.tail ⟨.other, @Step.begin _ true rfl⟩
    exact ⟨_, _, busy, .tail (.single ⟨.other, .finish rfl⟩)
      ⟨.other, @Step.resolve _ (.ok ()) rfl⟩, by decide, rfl, by decide +kernel⟩
  · refine ⟨2 ^ 64 * millisecond + 10 * second, _, _, _, (others_frame (others_first _)).1,
      (others_frame (others_wait le_rfl)).1, by decide, rfl, .fire rfl (by decide) le_rfl,
      .inl ⟨rfl, ?_⟩⟩
    rw [fire_idle rfl rfl (by decide +kernel)]

/-- A client that sends nothing is cut off when the header timeout is over. -/
theorem silent_client_is_cut :
    ∃ s s' closed, Runs (serve hasty 0) s ∧ Step (.fire (10 * second)) s s' ∧
      s'.phase = .cut closed ∧ closed.reason = .headerTimeout ∧ s.activity.requests = 0 := by
  let waiting : Conn := { serve hasty 0 with now := 10 * second, phase := .looking }
  have waited : Runs (serve hasty 0) waiting :=
    .tail (.single ⟨.other, .tick (Nat.zero_le (10 * second))⟩) ⟨.other, .pending phase_hasty⟩
  have fired : Step (.fire (10 * second)) waiting (waiting.fire (10 * second)) :=
    .fire rfl (by decide) le_rfl
  have cut : (waiting.fire (10 * second)).phase = .cut ⟨.headerTimeout, 0, none⟩ := by
    decide +kernel
  refine ⟨_, _, _, waited, fired, cut, rfl, ?_⟩
  obtain ⟨_, why⟩ := (timers_act_when_due hasty 0 waited).1 _ _ _ fired nofun cut
  cases why with
  | inl header => exact header.2.1
  | inr idle => cases idle.1

/-! ## Asked before it is cut -/

namespace Conn

def RunsUnder (allowed : Event → Conn → Prop) : Conn → Conn → Prop :=
  Relation.ReflTransGen fun s s' => ∃ event, allowed event s ∧ Step event s s'

/-- The watchdog does not find that the drain grace is over and that the connection is
    idle at once, while it is not shut down. -/
def OneAtATime (event : Event) (s : Conn) : Prop :=
  ∀ read, event = .fire read → s.shutDownFor = none → s.leaves read = true →
    s.activity.verdict read ≠ .idleTimeout

variable {event : Event} {s s' : Conn} {read : Nat}

theorem oneAtATime_of_stays (stays : s.leaveBy = none) : OneAtATime event s := by
  intro read _ _ leaves
  rw [Conn.leaves, stays] at leaves
  cases leaves

structure Polite (s : Conn) : Prop where
  asked : s.shutDownFor ≠ none → s.asked ≠ .no
  /-- It is polled before anything else is looked at. -/
  looking : s.phase = .looking → s.asked ≠ .asked
  cut : ∀ closed, s.phase = .cut closed → closed.reason = .idleTimeout → s.asked = .polled

theorem polite_of_polling (asked : s.shutDownFor ≠ none → s.asked ≠ .no)
    (polling : s.phase = .polling) : s.Polite := by
  refine ⟨asked, ?_, ?_⟩
  · intro looking
    rw [polling] at looking
    cases looking
  · intro closed ended
    rw [polling] at ended
    cases ended

theorem poll_of_ne_no {a : Asked} (some : a ≠ .no) : a.poll = .polled := by
  cases a with
  | no => exact absurd rfl some
  | _ => rfl

theorem Polite.seeDrain (polite : s.Polite) : (s.seeDrain read).Polite := by
  unfold Conn.seeDrain
  dsimp only
  split
  · split
    · exact polite_of_polling (fun _ => by simp [gracefulShutdown]) rfl
    · exact polite_of_polling polite.asked rfl
  · exact polite_of_polling polite.asked rfl

theorem Polite.fire (polite : s.Polite) (looking : s.phase = .looking)
    (allowed : OneAtATime (.fire read) s) : (s.fire read).Polite := by
  have grace : (s.afterGrace read).shutDownFor ≠ none → (s.afterGrace read).asked ≠ .no := by
    unfold afterGrace
    split
    · simp [gracefulShutdown]
    · exact polite.asked
  rw [fire_eq]
  split
  · exact polite_of_polling grace rfl
  · rename_i idle
    split
    · exact polite_of_polling (fun _ => by simp [gracefulShutdown, rearm]) rfl
    · rename_i down
      refine ⟨grace, fun same => (by cases same), fun closed _ _ => ?_⟩
      -- it was shut down before the watchdog fired, as only one thing is due
      have before : s.shutDownFor ≠ none := by
        intro up
        apply down
        rw [afterGrace, if_neg (fun both => allowed read rfl up both.2 idle)]
        exact up
      have same : s.afterGrace read = s := by
        rw [afterGrace, if_neg (fun both => before both.1)]
      have asked := polite.asked before
      have polled := polite.looking looking
      change (s.afterGrace read).asked = .polled
      rw [same]
      cases here : s.asked <;> simp_all
  · refine ⟨grace, fun same => (by cases same), fun closed same idle => ?_⟩
    cases same
    cases idle

theorem Polite.step (polite : s.Polite) (allowed : OneAtATime event s) (step : Step event s s') :
    s'.Polite := by
  obtain ⟨asked, looking, cut⟩ := polite
  cases step with
  | tick | begin | answer | finish | signal => exact ⟨asked, looking, cut⟩
  | pending =>
    refine ⟨fun down => ?_, fun _ => ?_, nofun⟩
    · rw [poll_of_ne_no (asked down)]
      exact nofun
    · cases s.asked <;> simp [Asked.poll]
  | wake | resolve => exact ⟨asked, nofun, nofun⟩
  | drain => exact Polite.seeDrain ⟨asked, looking, cut⟩
  | fire here _ _ => exact Polite.fire ⟨asked, looking, cut⟩ here allowed

end Conn

/-- Where only one thing is due at a time, a connection that is cut for being idle was
    asked to leave before, and polled since. -/
theorem idle_connection_is_asked_first {options : Options} {start : Nat} {s : Conn}
    (run : RunsUnder OneAtATime (serve options start) s) {closed : Closed}
    (cut : s.phase = .cut closed) (idle : closed.reason = .idleTimeout) : s.asked = .polled := by
  have polite : s.Polite := by
    clear cut idle
    induction run with
    | refl =>
      have unended : ∀ closed, (serve options start).phase ≠ .cut closed := by
        intro closed
        unfold serve
        dsimp only
        split <;> exact nofun
      exact ⟨fun down => absurd rfl down, fun _ => nofun, fun closed cut => absurd cut (unended closed)⟩
    | tail _ last ih =>
      obtain ⟨event, allowed, step⟩ := last
      exact ih.step allowed step
  exact polite.cut closed cut idle

theorem Conn.runsUnder_of_others {s s' : Conn} {allowed : Event → Conn → Prop}
    (calm : ∀ s, allowed .other s) (others : Relation.ReflTransGen (Step .other) s s') :
    RunsUnder allowed s s' :=
  Relation.ReflTransGen.mono (fun _ _ step => ⟨.other, calm _, step⟩) _ _ others

/-- It is shut down as idle, and cut when the grace for that is over. -/
theorem idle_connection_is_cut :
    ∃ s : Conn, RunsUnder OneAtATime (serve hasty 0) s ∧ s.phase = .cut ⟨.idleTimeout, 1, none⟩ ∧
      s.asked = .polled := by
  have calm : ∀ s, OneAtATime .other s := by
    intro s read none
    cases none
  have idle : RunsUnder OneAtATime (serve hasty 0) _ :=
    runsUnder_of_others calm ((others_first 0).trans (others_wait (Nat.zero_le (10 * second))))
  have fired := idle.tail ⟨.fire (10 * second), oneAtATime_of_stays rfl,
    .fire rfl (by decide) le_rfl⟩
  rw [fire_idle rfl rfl (by decide +kernel)] at fired
  have again := (fired.tail ⟨.other, calm _, .tick (show _ ≤ 15 * second by decide)⟩).tail
    ⟨.other, calm _, .pending rfl⟩
  have run := again.tail ⟨.fire (15 * second), oneAtATime_of_stays rfl,
    .fire rfl (by decide) le_rfl⟩
  refine ⟨_, run, ?cut, idle_connection_is_asked_first run ?cut rfl⟩
  decide +kernel

/-- The drain grace and the idle timeout are over at once: it is cut as it is asked. -/
theorem idle_connection_is_not_asked :
    ∃ s : Conn, Runs (serve hasty 0) s ∧ s.phase = .cut ⟨.idleTimeout, 1, none⟩ ∧
      s.asked = .asked := by
  have idle : Runs (serve hasty 0) _ :=
    (others_frame ((others_first 0).trans (others_wait (Nat.zero_le (5 * second))))).1
  have drained := (idle.tail ⟨.other, .signal⟩).tail ⟨.drain, .drain rfl rfl le_rfl⟩
  have waited := (drained.tail ⟨.other, .tick (show _ ≤ 10 * second by decide +kernel)⟩).tail
    ⟨.other, .pending (by decide +kernel)⟩
  have cut := waited.tail ⟨.fire (10 * second), .fire rfl (by decide +kernel) le_rfl⟩
  exact ⟨_, cut, by decide +kernel, by decide +kernel⟩

end Server

end Gfe
