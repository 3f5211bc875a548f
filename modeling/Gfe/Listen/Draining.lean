import Gfe.Listen.Accept

/-! # Waiting for the last connection

When nothing accepts any more, the drain waits until no connection is open, at most until its
deadline, then cuts what is open and waits once more for a moment. The waiter looks at the
count and sleeps until a connection says that it has ended; it registers for that before it
looks, so an end in between is not missed.
-/

namespace Gfe.Accept

open Interleaving

variable {κ ι : Type}

/-! ## Notifications -/

/-- `tokio::sync::Notify`, as far as `notify_waiters` goes. -/
structure Notify where
  calls : Nat

/-- `tokio::sync::futures::Notified` -/
inductive Notified where
  /-- Not polled yet, made after this many calls. -/
  | made (calls : Nat)
  /-- In the list of those to wake. -/
  | waiting
  | done
  deriving DecidableEq

def Notify.notified (notify : Notify) : Notified := .made notify.calls

def Notify.notifyWaiters (notify : Notify) : Notify := ⟨notify.calls + 1⟩

def Notified.enable (notify : Notify) : Notified → Notified
  | .made calls => if notify.calls = calls then .waiting else .done
  | future => future

/-- What a call of `notify_waiters` does to a future. -/
def Notified.woken : Notified → Notified
  | .waiting => .done
  | future => future

/-! ## The waiter -/

/-- Where `OpenConnections::all_closed` is. -/
inductive Waiter where
  | begin
  | created (closed : Notified)
  | enabled (closed : Notified)
  | awaiting (closed : Notified)
  | returned
  /-- Dropped by a timeout. -/
  | dropped
  deriving DecidableEq

def Waiter.woken : Waiter → Waiter
  | .created closed => .created closed.woken
  | .enabled closed => .enabled closed.woken
  | .awaiting closed => .awaiting closed.woken
  | waiter => waiter

/-- It sleeps, and nothing is there to wake it. -/
def Waiter.Parked : Waiter → Prop
  | .awaiting closed => closed ≠ .done
  | _ => False

structure Drained where
  cut : Nat
  stuck : Nat
  deriving DecidableEq

/-- Where `Listeners::serve_until_drained` is. -/
inductive Stage where
  | waiting
  | late
  | cut (cut : Nat)
  | tooLate (cut : Nat)
  | over (drained : Drained)

/-- A node that drains, with the connections that have said that they ended. -/
structure Drain (κ ι : Type) where
  admission : Admission κ ι
  closed : Notify
  told : ι → Bool
  waiter : Waiter
  stage : Stage

def Drain.count (d : Drain κ ι) : Nat := (d.admission.inUse .total).toNat

variable [DecidableEq κ] [DecidableEq ι]

/-- What the tasks of the connections and the waiter do. A slot gives its places back, then
    notifies. -/
inductive Drain.Step (arrivals : Arrivals κ ι) (d : Drain κ ι) : Drain κ ι → Prop where
  | task {admission} : TaskStep arrivals d.admission admission → Step arrivals d { d with admission }
  | notifies {i} : (d.admission.ledger i).phase = .closed → d.told i = false →
      Step arrivals d { d with
        closed := d.closed.notifyWaiters
        told := Function.update d.told i true
        waiter := d.waiter.woken }
  | notified : d.waiter = .begin → Step arrivals d { d with waiter := .created d.closed.notified }
  | enable {closed} : d.waiter = .created closed →
      Step arrivals d { d with waiter := .enabled (closed.enable d.closed) }
  | look {closed} : d.waiter = .enabled closed →
      Step arrivals d { d with waiter := if d.count = 0 then .returned else .awaiting closed }
  | wakes : d.waiter = .awaiting .done → Step arrivals d { d with waiter := .begin }
  | deadline {closed} : d.stage = .waiting → d.waiter = .awaiting closed →
      Step arrivals d { d with waiter := .dropped, stage := .late }
  | cuts : d.stage = .late → Step arrivals d { d with waiter := .begin, stage := .cut d.count }
  | grace {cut closed} : d.stage = .cut cut → d.waiter = .awaiting closed →
      Step arrivals d { d with waiter := .dropped, stage := .tooLate cut }
  | stuck {cut} : d.stage = .tooLate cut →
      Step arrivals d { d with stage := .over ⟨cut, d.count⟩ }
  | inTime : d.stage = .waiting → d.waiter = .returned →
      Step arrivals d { d with stage := .over ⟨0, 0⟩ }
  | afterCut {cut} : d.stage = .cut cut → d.waiter = .returned →
      Step arrivals d { d with stage := .over ⟨cut, 0⟩ }

/-- The connection is open, and counted. -/
def Open (d : Drain κ ι) (i : ι) : Prop :=
  (d.admission.ledger i).phase = .serving ∨ (d.admission.ledger i).phase = .ended

/-- The connection has ended, and has not given everything back or not said so yet. -/
def Ending (d : Drain κ ι) (i : ι) : Prop :=
  (d.admission.ledger i).phase = .ended ∨ (d.admission.ledger i).phase = .leaving ∨
    (d.admission.ledger i).phase = .closed ∧ d.told i = false

/-! ## What the waiter can count on -/

variable [Fintype ι] {limits : Limits} {arrivals : Arrivals κ ι} {d d' : Drain κ ι}

structure Watched (limits : Limits) (arrivals : Arrivals κ ι) (d : Drain κ ι) : Prop where
  orderly : Orderly limits arrivals d.admission
  quiet : ∀ i, (d.admission.ledger i).phase ≠ .admitting
  told : ∀ i, d.told i = true → (d.admission.ledger i).phase = .closed
  /-- Whoever has looked was registered before. -/
  enabled : ∀ calls, d.waiter ≠ .enabled (.made calls) ∧ d.waiter ≠ .awaiting (.made calls)
  /-- Somebody will wake the waiter. -/
  awaited : d.waiter = .awaiting .waiting → ∃ i, Open d i ∨ Ending d i
  empty : (d.waiter = .returned ∨ ∃ cut, d.stage = .over ⟨cut, 0⟩) → ∀ i, ¬ Open d i

omit [DecidableEq κ] [DecidableEq ι] in
theorem Watched.exists_open (watched : Watched limits arrivals d) (some : d.count ≠ 0) :
    ∃ i, Open d i := by
  have sound := watched.orderly.sound .total
  have counted : (d.admission.places .total).holders.Nonempty := by
    rw [← Finset.card_ne_zero]
    intro none
    have zero := sound.count
    rw [none] at zero
    exact some (by rw [Drain.count, show d.admission.inUse .total = 0 from zero]; rfl)
  obtain ⟨i, member⟩ := counted
  have holds := Places.mem_holders.mp member
  refine ⟨i, ?_⟩
  have fits := watched.orderly.fits i
  cases phase : (d.admission.ledger i).phase with
  | serving => exact .inl phase
  | ended => exact .inr phase
  | admitting => exact absurd phase (watched.quiet i)
  | coming | refused | closed | leaving =>
    simp only [Record.Fits, phase] at fits
    have free := (fits .total).2 (by simp)
    simp [Admission.places, free] at holds

omit [DecidableEq ι] in
theorem Watched.none_open (watched : Watched limits arrivals d) (none : d.count = 0) (i : ι) :
    ¬ Open d i := by
  intro here
  have sound := watched.orderly.sound .total
  have member : i ∈ served arrivals d.admission .total := by
    simpa [served, Open] using here
  obtain ⟨k, seen, _⟩ := watched.orderly.granted member
  have holds : i ∈ (d.admission.places .total).holders := by
    rw [Places.mem_holders]
    exact Option.isSome_iff_exists.mpr ⟨k, seen⟩
  have positive := Finset.card_pos.mpr ⟨i, holds⟩
  have count : d.admission.inUse .total = _ := sound.count
  rw [Drain.count, count] at none
  omega

/-- Where a connection goes when its task takes a step. -/
inductive Leaves : Phase → Phase → Prop where
  | ends : Leaves .serving .ended
  | givesTotal : Leaves .ended .leaving
  | givesHere : Leaves .leaving .closed

omit [Fintype ι] in
theorem TaskStep.leaves {s s' : Admission κ ι} (step : TaskStep arrivals s s') :
    ∃ i, Leaves (s.ledger i).phase (s'.ledger i).phase ∧
      ∀ j ≠ i, (s'.ledger j).phase = (s.ledger j).phase := by
  cases step with
  | @ends i serving =>
    refine ⟨i, ?_, fun j other => by simp [other]⟩
    simp [serving, Leaves.ends]
  | @givesTotal i ended =>
    refine ⟨i, ?_, fun j other => ?_⟩
    · simp [ended, Leaves.givesTotal]
    · rw [s.ledger_give_note, Function.update_of_ne other]
  | @givesHere i leaving =>
    refine ⟨i, ?_, fun j other => ?_⟩
    · simp [leaving, Leaves.givesHere]
    · rw [s.ledger_give_note, Function.update_of_ne other]

theorem Watched.task {admission : Admission κ ι} (watched : Watched limits arrivals d)
    (step : TaskStep arrivals d.admission admission) :
    Watched limits arrivals { d with admission } := by
  obtain ⟨i, leaves, others⟩ := step.leaves
  generalize before : (d.admission.ledger i).phase = old at leaves
  generalize after : (admission.ledger i).phase = new at leaves
  have silent : d.told i = false := by
    by_contra told
    rw [watched.told i (by simpa using told)] at before
    subst before
    cases leaves
  constructor
  case orderly => exact step.orderly watched.orderly
  case quiet =>
    intro j
    by_cases same : j = i
    · rw [same, after]
      cases leaves <;> nofun
    · rw [others j same]
      exact watched.quiet j
  case told =>
    intro j told
    have other : j ≠ i := by
      rintro rfl
      rw [silent] at told
      cases told
    rw [others j other]
    exact watched.told j told
  case enabled => exact watched.enabled
  case awaited =>
    intro parked
    obtain ⟨j, present⟩ := watched.awaited parked
    refine ⟨j, ?_⟩
    by_cases same : j = i
    · subst same
      cases leaves with
      | ends => exact .inl (.inr after)
      | givesTotal => exact .inr (.inr (.inl after))
      | givesHere => exact .inr (.inr (.inr ⟨after, silent⟩))
    · simpa only [Open, Ending, others j same] using present
  case empty =>
    intro finished j here
    have none := watched.empty finished j
    by_cases same : j = i
    · subst same
      rw [Open, after] at here
      cases leaves with
      | ends => exact none (.inl before)
      | givesTotal | givesHere => simp at here
    · rw [Open, others j same] at here
      exact none here

omit [DecidableEq κ] in
theorem Watched.notifies {i : ι} (watched : Watched limits arrivals d)
    (here : (d.admission.ledger i).phase = .closed) :
    Watched limits arrivals { d with
      closed := d.closed.notifyWaiters
      told := Function.update d.told i true
      waiter := d.waiter.woken } := by
  constructor
  case orderly => exact watched.orderly
  case quiet => exact watched.quiet
  case told =>
    intro j told
    by_cases same : j = i
    · rw [same]
      exact here
    · dsimp only at told
      rw [Function.update_of_ne same] at told
      exact watched.told j told
  case enabled =>
    intro calls
    have never := watched.enabled calls
    cases waiter : d.waiter with
    | begin | created | returned | dropped => simp [Waiter.woken]
    | enabled closed | awaiting closed =>
      rw [waiter] at never
      cases closed <;> simp_all [Waiter.woken, Notified.woken]
  case awaited =>
    -- a notification leaves nobody waiting
    intro parked
    dsimp only at parked
    cases waiter : d.waiter with
    | begin | created | enabled | returned | dropped => simp [waiter, Waiter.woken] at parked
    | awaiting closed => cases closed <;> simp [waiter, Waiter.woken, Notified.woken] at parked
  case empty =>
    intro finished
    apply watched.empty
    refine finished.imp_left fun returned => ?_
    dsimp only at returned
    cases waiter : d.waiter with
    | returned => rfl
    | begin | created | enabled | awaiting | dropped => simp [waiter, Waiter.woken] at returned

theorem Notified.enable_ne_made (notify : Notify) (closed : Notified) (calls : Nat) :
    closed.enable notify ≠ .made calls := by
  cases closed with
  | made n =>
    rw [enable]
    split <;> nofun
  | waiting | done => nofun

theorem Drain.Step.watched (step : Drain.Step arrivals d d') (watched : Watched limits arrivals d) :
    Watched limits arrivals d' := by
  obtain ⟨orderly, quiet, told, enabled, awaited, empty⟩ := watched
  cases step with
  | task step => exact Watched.task ⟨orderly, quiet, told, enabled, awaited, empty⟩ step
  | notifies here => exact Watched.notifies ⟨orderly, quiet, told, enabled, awaited, empty⟩ here
  | notified | wakes =>
    exact ⟨orderly, quiet, told, fun _ => ⟨nofun, nofun⟩, nofun,
      fun finished => empty (finished.imp_left nofun)⟩
  | cuts | deadline | grace =>
    refine ⟨orderly, quiet, told, fun _ => ⟨nofun, nofun⟩, nofun, ?_⟩
    rintro (returned | ⟨cut, finished⟩)
    · cases returned
    · cases finished
  | @enable closed =>
    refine ⟨orderly, quiet, told, fun calls => ⟨?_, nofun⟩, nofun,
      fun finished => empty (finished.imp_left nofun)⟩
    intro same
    exact Notified.enable_ne_made d.closed closed calls (Waiter.enabled.inj same)
  | @look closed looking =>
    have watched : Watched limits arrivals d := ⟨orderly, quiet, told, enabled, awaited, empty⟩
    by_cases none : d.count = 0
    · rw [if_pos none]
      exact ⟨orderly, quiet, told, fun _ => ⟨nofun, nofun⟩, nofun,
        fun _ => watched.none_open none⟩
    · rw [if_neg none]
      refine ⟨orderly, quiet, told, fun calls => ⟨nofun, ?_⟩, fun _ => ?_,
        fun finished => empty (finished.imp_left nofun)⟩
      · intro same
        rw [Waiter.awaiting.inj same] at looking
        exact (enabled calls).1 looking
      · obtain ⟨i, here⟩ := watched.exists_open none
        exact ⟨i, .inl here⟩
  | stuck =>
    have watched : Watched limits arrivals d := ⟨orderly, quiet, told, enabled, awaited, empty⟩
    refine ⟨orderly, quiet, told, enabled, awaited, ?_⟩
    rintro (returned | ⟨cut, finished⟩)
    · exact empty (.inl returned)
    · exact watched.none_open (Drained.mk.inj (Stage.over.inj finished)).2
  | inTime _ returned | afterCut _ returned =>
    exact ⟨orderly, quiet, told, enabled, awaited, fun _ => empty (.inl returned)⟩

section

variable {c : Crowd κ (Admission κ ι) Unit}

/-- At every moment of a drain that starts when the accept loops have stopped. -/
theorem watched_of_run (accepted : Crowd.Steps (TaskStep arrivals) (listening limits arrivals) c)
    (stopped : ∀ loop, c.threads loop = .ret ()) {calls : Nat} {told : ι → Bool}
    (ended : ∀ i, told i = true → (c.state.ledger i).phase = .closed)
    (run : Relation.ReflTransGen (Drain.Step arrivals)
      ⟨c.state, ⟨calls⟩, told, .begin, .waiting⟩ d) : Watched limits arrivals d := by
  induction run with
  | refl =>
    refine ⟨(listening_sound accepted).1, settled_of_returned accepted stopped, ended,
      fun _ => ⟨nofun, nofun⟩, nofun, ?_⟩
    rintro (returned | ⟨cut, finished⟩)
    · cases returned
    · cases finished
  | tail _ last ih => exact last.watched ih

/-- The waiter never sleeps with nobody left to wake it, and returns only when no connection is
    open: however its steps and those of the connections that end are interleaved, once the accept
    loops have stopped. -/
theorem drain_not_missed (limits : Limits) (arrivals : Arrivals κ ι)
    {c : Crowd κ (Admission κ ι) Unit}
    (accepted : Crowd.Steps (TaskStep arrivals) (listening limits arrivals) c)
    (stopped : ∀ loop, c.threads loop = .ret ()) (calls : Nat) (told : ι → Bool)
    (ended : ∀ i, told i = true → (c.state.ledger i).phase = .closed)
    (run : Relation.ReflTransGen (Drain.Step arrivals)
      ⟨c.state, ⟨calls⟩, told, .begin, .waiting⟩ d) :
    ¬ (d.waiter.Parked ∧ ∀ i, ¬ Open d i ∧ ¬ Ending d i) ∧
      (d.waiter = .returned → ∀ i, ¬ Open d i) := by
  have watched := watched_of_run accepted stopped ended run
  refine ⟨?_, fun returned => watched.empty (.inl returned)⟩
  rintro ⟨parked, nobody⟩
  cases waiter : d.waiter with
  | begin | created | enabled | returned | dropped =>
    rw [waiter] at parked
    exact parked
  | awaiting closed =>
    rw [waiter] at parked
    cases closed with
    | made calls => exact (watched.enabled calls).2 waiter
    | done => exact parked rfl
    | waiting =>
      obtain ⟨i, here | here⟩ := watched.awaited waiter
      · exact (nobody i).1 here
      · exact (nobody i).2 here

/-- A drain that reports nothing stuck leaves no connection open. -/
theorem none_open_of_drained
    (accepted : Crowd.Steps (TaskStep arrivals) (listening limits arrivals) c)
    (stopped : ∀ loop, c.threads loop = .ret ()) {calls : Nat} {told : ι → Bool}
    (ended : ∀ i, told i = true → (c.state.ledger i).phase = .closed)
    (run : Relation.ReflTransGen (Drain.Step arrivals)
      ⟨c.state, ⟨calls⟩, told, .begin, .waiting⟩ d) {cut : Nat}
    (finished : d.stage = .over ⟨cut, 0⟩) (i : ι) : ¬ Open d i :=
  (watched_of_run accepted stopped ended run).empty (.inr ⟨cut, finished⟩) i

end

/-- Two accept loops that have stopped, with one connection open. -/
def oneOpen : Crowd (Fin 2) (Admission (Fin 2) (Fin 2)) Unit :=
  let start := listening ⟨1, 1, none⟩ twoLoops
  let first := (start.threads 0).run start.state
  let threads := Function.update start.threads 0 (.ret first.1)
  let second := (threads 1).run first.2
  ⟨Function.update threads 1 (.ret second.1), second.2⟩

theorem steps_oneOpen :
    Crowd.Steps (TaskStep twoLoops) (listening ⟨1, 1, none⟩ twoLoops) oneOpen :=
  (Crowd.steps_run _ _ _ 0).trans (Crowd.steps_run _ _ _ 1)

theorem stopped_oneOpen : ∀ loop, oneOpen.threads loop = .ret ()
  | 0 | 1 => rfl

/-- The waiter sleeps, and the open connection will wake it. -/
theorem drain_not_missed_oneOpen :
    ∃ d : Drain (Fin 2) (Fin 2), d.waiter.Parked ∧ ¬ ∀ i, ¬ Open d i ∧ ¬ Ending d i := by
  let d (waiter : Waiter) : Drain (Fin 2) (Fin 2) :=
    ⟨oneOpen.state, ⟨0⟩, fun _ => false, waiter, .waiting⟩
  have count : (d (.enabled .waiting)).count = 1 := by decide +kernel
  have look : Drain.Step twoLoops (d (.enabled .waiting)) (d (.awaiting .waiting)) := by
    have step : Drain.Step twoLoops (d (.enabled .waiting)) _ := .look rfl
    rwa [if_neg (by rw [count]; decide)] at step
  have run : Relation.ReflTransGen (Drain.Step twoLoops) (d .begin) (d (.awaiting .waiting)) :=
    .head (.notified rfl) (.head (.enable rfl) (.single look))
  have fine := drain_not_missed ⟨1, 1, none⟩ twoLoops steps_oneOpen stopped_oneOpen 0 (fun _ => false) nofun run
  have parked : (d (.awaiting .waiting)).waiter.Parked := nofun
  exact ⟨_, parked, fun nobody => fine.1 ⟨parked, nobody⟩⟩

/-- The open connection ends while the waiter begins, and has given its place back when it looks. -/
theorem none_open_of_drained_oneOpen :
    ∃ d : Drain (Fin 2) (Fin 2), d.stage = .over ⟨0, 0⟩ ∧ ∀ i, ¬ Open d i := by
  let ended := oneOpen.state.note 0 .ended
  let left := (ended.give .total 0).note 0 .leaving
  let d (admission : Admission (Fin 2) (Fin 2)) (waiter : Waiter) : Drain (Fin 2) (Fin 2) :=
    ⟨admission, ⟨0⟩, fun _ => false, waiter, .waiting⟩
  have count : (d left (.enabled .waiting)).count = 0 := by decide +kernel
  have look : Drain.Step twoLoops (d left (.enabled .waiting)) (d left .returned) := by
    have step : Drain.Step twoLoops (d left (.enabled .waiting)) _ := .look rfl
    rwa [if_pos count] at step
  have serving : (oneOpen.state.ledger 0).phase = .serving := by decide +kernel
  have run : Relation.ReflTransGen (Drain.Step twoLoops) (d oneOpen.state .begin) _ :=
    .head (.notified rfl) (.head (.task (.ends serving)) (.head (.enable rfl)
      (.head (.task (.givesTotal rfl)) (.head look (.single (.inTime rfl rfl))))))
  refine ⟨_, rfl, none_open_of_drained steps_oneOpen stopped_oneOpen ?_ run rfl⟩
  intro i told
  cases told

end Gfe.Accept
