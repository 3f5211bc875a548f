import Gfe.Health.StateMachine
import Gfe.Lib.Obeys

/-! # Probe loops as tasks

The loops of the health checker run on threads of their own while it reconciles.
Reconciling aborts the loops that are not asked for as they run and tells the
observer, pool by pool, which backends left; but an aborted task stops at its next
await only, and a turn of a loop has none between the probe and the last report.
So the checker, its tasks and what happens are one state here, and reconciling is a
program whose actions stand between the steps of the tasks. The lock on the map of
tasks lets one call in at a time.
-/

namespace Gfe

open Interleaving

/-- Where a probe loop is in its turn. -/
inductive ProbePhase where
  /-- At an await: its probe, or the sleep after it. -/
  | waiting
  /-- The probe is over. -/
  | polled (outcome : ProbeResult)
  /-- A status was committed, and the health map does not have it yet. -/
  | setting (status : HealthStatus)
  /-- The status is to be reported under these pools. -/
  | reporting (status : HealthStatus) (pools : List Str)
  | stopped
  deriving DecidableEq

/-- Whether an abort takes effect before anything else is done. -/
def ProbePhase.atAwait : ProbePhase → Bool
  | .waiting | .stopped => true
  | _ => false

/-- A task that runs `run_probe`. -/
structure ProbeTask where
  key : BackendKey
  check : CheckSpec
  pools : List Str
  bh : BackendHealth
  phase : ProbePhase
  aborted : Bool
  /-- The abort found it between two awaits. -/
  torn : Bool

namespace ProbeTask

def spawned (key : BackendKey) (spec : ProbeSpec) : ProbeTask :=
  ⟨key, spec.1, spec.2, .initial, .waiting, false, false⟩

def abort (task : ProbeTask) : ProbeTask :=
  { task with aborted := true, torn := task.torn || !task.phase.atAwait }

def record (task : ProbeTask) (outcome : ProbeResult) : ProbeTask :=
  match task.bh.record outcome task.check.healthyThreshold task.check.unhealthyThreshold with
  | (some new, bh) => { task with bh := bh, phase := .setting new }
  | (none, bh) => { task with bh := bh, phase := .waiting }

/-- The backend it probes and how, unless it was aborted. -/
def live (task : ProbeTask) : Option (BackendKey × ProbeSpec) :=
  if task.aborted then none else some (task.key, task.check, task.pools)

end ProbeTask

/-- What happens at a checker, in order: a call that has the lock, and what the
    observer is told. -/
inductive CheckEvent where
  | given (pools : List CheckedPool)
  | probeFinished
  | statusChanged (pool : Str) (key : BackendKey) (status : HealthStatus)
  | backendLeft (pool : Str) (key : BackendKey)
  deriving DecidableEq

structure Checking where
  checker : HealthChecker
  /-- Every task ever spawned. -/
  tasks : Nat → Option ProbeTask
  health : HealthMap
  events : List CheckEvent

/-- The departure an observer is told of. -/
def CheckEvent.departure : CheckEvent → Option (Str × BackendKey)
  | .backendLeft pool key => some (pool, key)
  | _ => none

namespace Checking

def new (health : HealthMap) : Checking := ⟨.new, fun _ => none, health, []⟩

def note (s : Checking) (event : CheckEvent) : Checking := { s with events := s.events ++ [event] }

def setTask (s : Checking) (id : Nat) (task : ProbeTask) : Checking :=
  { s with tasks := Function.update s.tasks id (some task) }

def abort (s : Checking) (id : Nat) : Checking :=
  { s with tasks := Function.update s.tasks id ((s.tasks id).map ProbeTask.abort) }

/-- Spawn the loop of a backend and enter it, unless it has one. -/
def startProbe (s : Checking) (key : BackendKey) (spec : ProbeSpec) : Checking :=
  match s.checker.tasks.lookup key with
  | some _ => s
  | none =>
    { s.setTask s.checker.nextTask (.spawned key spec) with
      checker := s.checker.startProbe key spec }

/-- The loop a task runs: the backend and how it is probed. -/
def live (s : Checking) (id : Nat) : Option (BackendKey × ProbeSpec) :=
  (s.tasks id).bind ProbeTask.live

/-- The departures the observer was told of. -/
def departures (s : Checking) : List (Str × BackendKey) := s.events.filterMap CheckEvent.departure

end Checking

/-- What the tasks do, one at a time and in any order: everything between two awaits
    of `run_probe` that others can see is a step of its own. -/
inductive ProbeStep : Checking → Checking → Prop where
  /-- A probe comes back. A task that was aborted is not polled any more. -/
  | wake {s id task} (outcome : ProbeResult) : s.tasks id = some task → task.phase = .waiting →
      task.aborted = false → ProbeStep s (s.setTask id { task with phase := .polled outcome })
  | finish {s id task outcome} : s.tasks id = some task → task.phase = .polled outcome →
      ProbeStep s ((s.setTask id (task.record outcome)).note .probeFinished)
  | set {s id task status} : s.tasks id = some task → task.phase = .setting status →
      ProbeStep s { s.setTask id { task with phase := .reporting status task.pools } with
        health := s.health.set task.key status }
  | report {s id task status pool rest} : s.tasks id = some task →
      task.phase = .reporting status (pool :: rest) →
      ProbeStep s ((s.setTask id { task with phase := .reporting status rest }).note
        (.statusChanged pool task.key status))
  | sleep {s id task status} : s.tasks id = some task → task.phase = .reporting status [] →
      ProbeStep s (s.setTask id { task with phase := .waiting })
  | stop {s id task} : s.tasks id = some task → task.phase = .waiting → task.aborted = true →
      ProbeStep s (s.setTask id { task with phase := .stopped })

/-! ## Reconciling -/

def tellLeft (key : BackendKey) : List Str → Program Checking Unit
  | [] => pure ()
  | pool :: rest => do
    .write (·.note (.backendLeft pool key))
    tellLeft key rest

/-- The pools under which a loop reports and the new one of its backend does not. -/
def poolsLeft (desired : HashMap BackendKey ProbeSpec) (key : BackendKey)
    (running : RunningProbe) : List Str :=
  running.pools.filter fun pool => !((desired.lookup key).elim [] Prod.snd).contains pool

/-- The loops that are not asked for as they run are aborted. -/
def stopChanged (desired : HashMap BackendKey ProbeSpec) :
    List (BackendKey × RunningProbe) → Program Checking Unit
  | [] => pure ()
  | (key, running) :: rest => do
    if HealthChecker.unchanged desired key running then
      stopChanged desired rest
    else
      .write (·.abort running.task)
      tellLeft key (poolsLeft desired key running)
      stopChanged desired rest

def startMissing : List (BackendKey × ProbeSpec) → Program Checking Unit
  | [] => pure ()
  | (key, spec) :: rest => do
    .write (·.startProbe key spec)
    startMissing rest

/-- `reconcile`, from the moment it has the lock on the map. The map is written once at the
    end of `retain`: nobody else sees it before the lock is released. -/
def reconcileProbes (pools : List CheckedPool) : Program Checking Unit := do
  let desired := desiredProbes pools
  let running ← .exchange fun s => (s.checker.tasks, s.note (.given pools))
  stopChanged desired running.toList
  .write fun s => { s with
    checker := { s.checker with tasks := running.retain (HealthChecker.unchanged desired) } }
  startMissing desired.toList

/-! ## What the tasks leave alone -/

section

variable {s s' : Checking}

/-- What a step of a task can do: it goes on in its turn, and tells the observer what its
    phase says. -/
theorem ProbeStep.moved (step : ProbeStep s s') :
    ∃ id task bh phase told, s.tasks id = some task ∧ s'.checker = s.checker ∧
      s'.tasks = Function.update s.tasks id (some { task with bh := bh, phase := phase }) ∧
      s'.events = s.events ++ told ∧
      (task.aborted = true → task.phase.atAwait = true → phase.atAwait = true ∧ told = []) ∧
      (∀ status rest, phase = .reporting status rest →
        rest = task.pools ∨ ∃ pool, task.phase = .reporting status (pool :: rest)) ∧
      (told = [] ∨ told = [.probeFinished] ∨ ∃ pool status rest,
        told = [.statusChanged pool task.key status] ∧
          task.phase = .reporting status (pool :: rest)) := by
  cases step with
  | @wake id task outcome found phase running =>
    refine ⟨id, task, task.bh, .polled outcome, [], found, rfl, rfl, by simp [Checking.setTask],
      ?_, by simp, .inl rfl⟩
    simp [running]
  | @finish id task outcome found phase =>
    have recorded : task.record outcome =
        { task with bh := (task.record outcome).bh, phase := (task.record outcome).phase } := by
      unfold ProbeTask.record
      split <;> rfl
    refine ⟨id, task, (task.record outcome).bh, (task.record outcome).phase, [.probeFinished],
      found, rfl, ?_, rfl, ?_, ?_, .inr (.inl rfl)⟩
    · rw [← recorded]
      rfl
    · simp [phase, ProbePhase.atAwait]
    · intro status rest reporting
      unfold ProbeTask.record at reporting
      split at reporting <;> cases reporting
  | @set id task status found phase =>
    refine ⟨id, task, task.bh, .reporting status task.pools, [], found, rfl, rfl,
      by simp [Checking.setTask], by simp [phase, ProbePhase.atAwait], ?_, .inl rfl⟩
    intro status' rest same
    cases same
    exact .inl rfl
  | @report id task status pool rest found phase =>
    refine ⟨id, task, task.bh, .reporting status rest, _, found, rfl, rfl, rfl,
      by simp [phase, ProbePhase.atAwait], ?_, .inr (.inr ⟨pool, status, rest, rfl, phase⟩)⟩
    intro status' rest' same
    cases same
    exact .inr ⟨pool, phase⟩
  | @sleep id task status found phase =>
    exact ⟨id, task, task.bh, .waiting, [], found, rfl, rfl, by simp [Checking.setTask],
      by simp [ProbePhase.atAwait], by simp, .inl rfl⟩
  | @stop id task found phase aborted =>
    exact ⟨id, task, task.bh, .stopped, [], found, rfl, rfl, by simp [Checking.setTask],
      by simp [ProbePhase.atAwait], by simp, .inl rfl⟩

end

/-- What reconciling decides on: the loops that are entered, those that run, and the
    departures that were told. -/
structure Roster where
  checker : HealthChecker
  live : Nat → Option (BackendKey × ProbeSpec)
  departures : List (Str × BackendKey)

namespace Roster

def stop (desired : HashMap BackendKey ProbeSpec) (r : Roster)
    (entry : BackendKey × RunningProbe) : Roster :=
  if HealthChecker.unchanged desired entry.1 entry.2 then r
  else
    { r with
      live := Function.update r.live entry.2.task none
      departures := r.departures ++ (poolsLeft desired entry.1 entry.2).map fun pool =>
        (pool, entry.1) }

def start (r : Roster) (entry : BackendKey × ProbeSpec) : Roster :=
  match r.checker.tasks.lookup entry.1 with
  | some _ => r
  | none =>
    { r with
      checker := r.checker.startProbe entry.1 entry.2
      live := Function.update r.live r.checker.nextTask (some entry) }

/-- With the loops stopped that are not asked for as they run. -/
def kept (desired : HashMap BackendKey ProbeSpec) (r : Roster) : Roster :=
  let stopped := r.checker.tasks.toList.foldl (stop desired) r
  { stopped with
    checker :=
      { stopped.checker with tasks := r.checker.tasks.retain (HealthChecker.unchanged desired) } }

def reconcile (r : Roster) (pools : List CheckedPool) : Roster :=
  (desiredProbes pools).toList.foldl start (r.kept (desiredProbes pools))

end Roster

def Checking.roster (s : Checking) : Roster := ⟨s.checker, s.live, s.departures⟩

theorem Checking.roster_note (s : Checking) (event : CheckEvent) :
    (s.note event).roster =
      { s.roster with departures := s.departures ++ event.departure.toList } := by
  have told : (s.note event).departures = s.departures ++ event.departure.toList := by
    cases event <;> simp [departures, note, CheckEvent.departure]
  rw [roster, told]
  rfl

theorem Checking.live_update (s : Checking) (id : Nat) (task : Option ProbeTask) :
    (fun other => (Function.update s.tasks id task other).bind ProbeTask.live) =
      Function.update s.live id (task.bind ProbeTask.live) := by
  funext other
  by_cases same : other = id
  · subst same
    simp
  · simp [same, live]

theorem ProbeStep.roster {s s' : Checking} (step : ProbeStep s s') : s'.roster = s.roster := by
  obtain ⟨id, task, bh, phase, told, found, checker, tasks, events, _, _, telling⟩ := step.moved
  have live : s'.live = s.live := by
    funext other
    rw [Checking.live, tasks]
    by_cases same : other = id
    · subst same
      simp only [Function.update_self, Checking.live, found]
      rfl
    · rw [Function.update_of_ne same, Checking.live]
  have departures : s'.departures = s.departures := by
    rw [Checking.departures, events, List.filterMap_append]
    obtain rfl | rfl | ⟨pool, status, rest, rfl, _⟩ := telling <;> simp [CheckEvent.departure,
      Checking.departures]
  rw [Checking.roster, checker, live, departures, Checking.roster]

/-! ## What reconciling does to the roster -/

/-- Whatever the tasks do meanwhile, the program takes the one roster to the other. -/
abbrev Rosters (p : Program Checking Unit) (r r' : Roster) : Prop :=
  p.Owns Checking.roster (fun _ _ => True) (fun _ => True) r fun _ o => o = r'

section

variable {r r' : Roster}

theorem rosters_write {update : Checking → Checking}
    (step : ∀ s : Checking, s.roster = r → (update s).roster = r') :
    Rosters (.write update) r r' :=
  .write True.intro fun s here => ⟨True.intro, step s here⟩

theorem Rosters.andThen {r'' : Roster} {p q : Program Checking Unit} (first : Rosters p r r')
    (second : Rosters q r' r'') : Rosters (p >>= fun _ => q) r r'' :=
  .bind (Program.Owns.weaken first fun _ _ here => here ▸ second)

theorem rosters_tellLeft (key : BackendKey) (pools : List Str) (r : Roster) :
    Rosters (tellLeft key pools) r
      { r with departures := r.departures ++ pools.map fun pool => (pool, key) } := by
  induction pools generalizing r with
  | nil => exact .ret (by simp)
  | cons pool rest ih =>
    have told : Rosters (.write (·.note (.backendLeft pool key))) r
        { r with departures := r.departures ++ [(pool, key)] } := by
      apply rosters_write
      rintro s rfl
      exact s.roster_note _
    have rest := told.andThen (ih { r with departures := r.departures ++ [(pool, key)] })
    rw [tellLeft]
    simpa using rest

theorem Checking.live_abort (s : Checking) (id : Nat) :
    (s.abort id).live = Function.update s.live id none := by
  have aborted : ((s.tasks id).map ProbeTask.abort).bind ProbeTask.live = none := by
    cases s.tasks id <;> simp [ProbeTask.abort, ProbeTask.live]
  rw [← aborted]
  exact s.live_update id _

theorem rosters_stopChanged (desired : HashMap BackendKey ProbeSpec)
    (entries : List (BackendKey × RunningProbe)) (r : Roster) :
    Rosters (stopChanged desired entries) r (entries.foldl (Roster.stop desired) r) := by
  induction entries generalizing r with
  | nil => exact .ret rfl
  | cons entry rest ih =>
    obtain ⟨key, running⟩ := entry
    rw [stopChanged, List.foldl_cons, Roster.stop]
    split
    · exact ih r
    · have aborted : Rosters (.write (·.abort running.task)) r
          { r with live := Function.update r.live running.task none } := by
        apply rosters_write
        rintro s rfl
        rw [Checking.roster, Checking.live_abort]
        rfl
      exact aborted.andThen ((rosters_tellLeft key _ _).andThen (ih _))

theorem rosters_startMissing (entries : List (BackendKey × ProbeSpec)) (r : Roster) :
    Rosters (startMissing entries) r (entries.foldl Roster.start r) := by
  induction entries generalizing r with
  | nil => exact .ret rfl
  | cons entry rest ih =>
    obtain ⟨key, spec⟩ := entry
    rw [startMissing, List.foldl_cons]
    refine Rosters.andThen (rosters_write ?_) (ih _)
    rintro s rfl
    simp only [Checking.startProbe, Roster.start, Checking.roster]
    cases s.checker.tasks.lookup key with
    | some running => rfl
    | none =>
      have live := s.live_update s.checker.nextTask (some (.spawned key spec))
      simp only [Checking.setTask, Roster.mk.injEq, true_and]
      exact ⟨live, rfl⟩

theorem rosters_reconcileProbes (pools : List CheckedPool) (r : Roster) :
    Rosters (reconcileProbes pools) r (r.reconcile pools) := by
  have given : Program.Owns Checking.roster (fun _ _ => True) (fun _ => True)
      (.exchange fun s => (s.checker.tasks, s.note (.given pools))) r
      fun running o => running = r.checker.tasks ∧ o = r := by
    refine .exchange True.intro ?_
    rintro s rfl
    refine ⟨True.intro, rfl, ?_⟩
    rw [Checking.roster_note]
    simp [CheckEvent.departure, Checking.roster]
  refine .bind (given.weaken ?_)
  rintro _ _ ⟨rfl, rfl⟩
  refine (rosters_stopChanged _ _ _).andThen (Rosters.andThen (rosters_write ?_)
    (rosters_startMissing _ _))
  intro s here
  rw [Roster.kept, ← here]
  rfl

end

/-! ## The loops that run are those that are entered -/

/-- The map of a checker enters exactly the loops that run, under the tasks that run
    them, and the numbers of tasks to come are free. -/
structure Roster.Registered (r : Roster) : Prop where
  entered : ∀ id key spec,
    r.live id = some (key, spec) ↔ r.checker.tasks.lookup key = some ⟨spec.1, spec.2, id⟩
  fresh : ∀ id, r.checker.nextTask ≤ id → r.live id = none

section

variable {desired : HashMap BackendKey ProbeSpec} {r : Roster}

theorem checker_stops (entries : List (BackendKey × RunningProbe)) (r : Roster) :
    (entries.foldl (Roster.stop desired) r).checker = r.checker := by
  induction entries generalizing r with
  | nil => rfl
  | cons entry rest ih =>
    rw [List.foldl_cons, ih, Roster.stop]
    split <;> rfl

theorem departures_stops (entries : List (BackendKey × RunningProbe)) (r : Roster) :
    (entries.foldl (Roster.stop desired) r).departures =
      r.departures ++ entries.flatMap fun entry =>
        if HealthChecker.unchanged desired entry.1 entry.2 then []
        else (poolsLeft desired entry.1 entry.2).map fun pool => (pool, entry.1) := by
  induction entries generalizing r with
  | nil => simp
  | cons entry rest ih =>
    rw [List.foldl_cons, ih, List.flatMap_cons, Roster.stop]
    split <;> simp

theorem live_stops (entries : List (BackendKey × RunningProbe)) (r : Roster) (id : Nat)
    (loop : BackendKey × ProbeSpec) :
    (entries.foldl (Roster.stop desired) r).live id = some loop ↔
      r.live id = some loop ∧ ∀ entry ∈ entries,
        HealthChecker.unchanged desired entry.1 entry.2 = false → entry.2.task ≠ id := by
  induction entries generalizing r with
  | nil => simp
  | cons entry rest ih =>
    rw [List.foldl_cons, ih, List.forall_mem_cons, Roster.stop]
    split
    · simp [*]
    · by_cases same : id = entry.2.task
      · simp [*]
      · simp [*, Ne.symm same]

theorem departures_starts (entries : List (BackendKey × ProbeSpec)) (r : Roster) :
    (entries.foldl Roster.start r).departures = r.departures := by
  induction entries generalizing r with
  | nil => rfl
  | cons entry rest ih =>
    rw [List.foldl_cons, ih, Roster.start]
    split <;> rfl

theorem checker_starts (entries : List (BackendKey × ProbeSpec)) (r : Roster) :
    (entries.foldl Roster.start r).checker =
      entries.foldl (fun checker (key, spec) => checker.startProbe key spec) r.checker := by
  induction entries generalizing r with
  | nil => rfl
  | cons entry rest ih =>
    have one : (r.start entry).checker = r.checker.startProbe entry.1 entry.2 := by
      unfold Roster.start HealthChecker.startProbe
      split <;> simp [*]
    rw [List.foldl_cons, ih, one]
    rfl

theorem Roster.Registered.start (registered : r.Registered) (entry : BackendKey × ProbeSpec) :
    (r.start entry).Registered := by
  obtain ⟨key, spec⟩ := entry
  unfold Roster.start
  cases found : r.checker.tasks.lookup key with
  | some running => simpa [found] using registered
  | none =>
    simp only [HealthChecker.startProbe_of_missing found]
    constructor
    · intro id other spec'
      simp only [HashMap.lookup_insert]
      by_cases new : id = r.checker.nextTask
      · subst new
        rw [Function.update_self]
        by_cases same : other = key
        · simp [same, Prod.ext_iff]
        · have free := registered.fresh r.checker.nextTask le_rfl
          rw [if_neg same, ← registered.entered, free]
          simp [Ne.symm same]
      · rw [Function.update_of_ne new, registered.entered]
        by_cases same : other = key
        · subst same
          simp [found, Ne.symm new]
        · rw [if_neg same]
    · intro id later
      simp only at later ⊢
      rw [Function.update_of_ne (by omega)]
      exact registered.fresh id (by omega)

theorem Roster.Registered.kept (registered : r.Registered)
    (desired : HashMap BackendKey ProbeSpec) : (r.kept desired).Registered := by
  constructor
  · intro id key spec
    simp only [Roster.kept, live_stops, HashMap.lookup_retain, Option.filter_eq_some_iff,
      registered.entered]
    constructor
    · rintro ⟨found, others⟩
      refine ⟨found, ?_⟩
      by_contra changed
      exact others _ (HashMap.mem_toList_iff.mpr found) (by simpa using changed) rfl
    · rintro ⟨found, same⟩
      refine ⟨found, ?_⟩
      -- a task runs one loop, so a stopped one is another task's
      rintro ⟨other, running⟩ listed changed rfl
      have stopped := (registered.entered running.task other (running.check, running.pools)).mpr
        (HashMap.mem_toList_iff.mp listed)
      have here := (registered.entered _ key spec).mpr found
      rw [here] at stopped
      cases stopped
      simp [same] at changed
  · intro id later
    have free := registered.fresh id (by simpa [Roster.kept, checker_stops] using later)
    by_contra some
    obtain ⟨loop, runs⟩ := Option.ne_none_iff_exists'.mp some
    rw [((live_stops _ _ _ _).mp runs).1] at free
    cases free

theorem Roster.Registered.reconcile (registered : r.Registered) (pools : List CheckedPool) :
    (r.reconcile pools).Registered := by
  unfold Roster.reconcile
  generalize (desiredProbes pools).toList = entries
  induction entries using List.reverseRecOn with
  | nil => exact registered.kept _
  | append_singleton entries entry ih =>
    rw [List.foldl_append]
    exact ih.start entry

theorem checker_reconcile (pools : List CheckedPool) (r : Roster) :
    (r.reconcile pools).checker = r.checker.reconcile pools := by
  rw [Roster.reconcile, checker_starts, Roster.kept, checker_stops]
  rfl

theorem departures_reconcile (pools : List CheckedPool) (r : Roster) :
    (r.reconcile pools).departures = r.departures ++ r.checker.backendsLeft pools := by
  rw [Roster.reconcile, departures_starts, Roster.kept, departures_stops]
  rfl

end

/-! ## A sequence of calls -/

def Given (pools : List CheckedPool) (pool : Str) (key : BackendKey) : Prop :=
  ∃ p ∈ pools, p.id = pool ∧ key ∈ p.backends

theorem given_iff {pools : List CheckedPool} {pool : Str} {key : BackendKey} :
    Given pools pool key ↔ ∃ spec, probeFor pools key = some spec ∧ pool ∈ spec.2 := by
  have member : Given pools pool key ↔ pool ∈ (memberships pools key).map CheckedPool.id := by
    simp only [Given, memberships, List.mem_map, List.mem_flatMap, List.mem_filter,
      decide_eq_true_eq]
    constructor
    · rintro ⟨p, listed, rfl, inside⟩
      exact ⟨p, ⟨p, listed, key, ⟨inside, rfl⟩, rfl⟩, rfl⟩
    · rintro ⟨_, ⟨p, listed, other, ⟨inside, rfl⟩, rfl⟩, rfl⟩
      exact ⟨p, listed, rfl, inside⟩
  rw [member, probeFor]
  cases memberships pools key <;> simp

/-- A checker that was given `pools` last, in a call that is over, with its tasks at work. -/
inductive LastGiven : List CheckedPool → Checking → Prop where
  | new (health : HealthMap) : LastGiven [] (.new health)
  | probe {pools s s'} : LastGiven pools s → ProbeStep s s' → LastGiven pools s'
  | reconcile {pools pools' s s'} : LastGiven pools s →
      Program.Steps ProbeStep (reconcileProbes pools', s) (.ret (), s') → LastGiven pools' s'

section

variable {previous pools : List CheckedPool} {before after : Checking}

theorem roster_reconciled
    (call : Program.Steps ProbeStep (reconcileProbes pools, before) (.ret (), after)) :
    after.roster = before.roster.reconcile pools := by
  have ensures := Program.obeys_iff_ensures.mp
    (rosters_reconcileProbes pools before.roster before rfl)
  have held := ensures.sound (fun _ _ (step : ProbeStep _ _) => step.roster) call
  exact held

theorem LastGiven.registered (reached : LastGiven pools before) : before.roster.Registered := by
  induction reached with
  | new health =>
    constructor
    · intro id key spec
      simp [Checking.roster, Checking.live, Checking.new, HealthChecker.new]
    · intro id _
      rfl
  | probe _ step ih => rwa [step.roster]
  | reconcile _ call ih =>
    rw [roster_reconciled call]
    exact ih.reconcile _

theorem LastGiven.probing (reached : LastGiven pools before) (key : BackendKey) :
    before.checker.probing key = probeFor pools key := by
  induction reached with
  | new health => simp [Checking.new, HealthChecker.new, HealthChecker.probing, probeFor, memberships]
  | probe _ step ih =>
    obtain ⟨_, _, _, _, _, _, same, _⟩ := step.moved
    rwa [same]
  | @reconcile _ pools' s s' _ call _ =>
    have same : s'.checker = s.checker.reconcile pools' :=
      (congrArg Roster.checker (roster_reconciled call)).trans (checker_reconcile _ _)
    rw [same, HealthChecker.probing_reconcile, lookup_desiredProbes]

theorem LastGiven.live_iff (reached : LastGiven pools before) (key : BackendKey) (spec : ProbeSpec) :
    (∃ id, before.live id = some (key, spec)) ↔ probeFor pools key = some spec := by
  rw [← reached.probing, HealthChecker.probing, Option.map_eq_some_iff]
  constructor
  · rintro ⟨id, runs⟩
    exact ⟨_, (reached.registered.entered id key spec).mp runs, rfl⟩
  · rintro ⟨⟨check, ids, task⟩, found, rfl⟩
    exact ⟨task, (reached.registered.entered task key (check, ids)).mpr found⟩

/-- What the observer is told: the pairs that are not given any more. -/
theorem LastGiven.mem_backendsLeft (reached : LastGiven previous before)
    (pools : List CheckedPool) (pool : Str) (key : BackendKey) :
    (pool, key) ∈ before.checker.backendsLeft pools ↔
      Given previous pool key ∧ ¬ Given pools pool key := by
  have listed : (pool, key) ∈ before.checker.backendsLeft pools ↔
      ∃ running, before.checker.tasks.lookup key = some running ∧
        HealthChecker.unchanged (desiredProbes pools) key running = false ∧
        pool ∈ poolsLeft (desiredProbes pools) key running := by
    simp only [HealthChecker.backendsLeft, List.mem_flatMap]
    constructor
    · rintro ⟨⟨other, running⟩, entered, told⟩
      split at told
      · cases told
      · rename_i changed
        simp only [List.mem_map, Prod.mk.injEq] at told
        obtain ⟨_, left, rfl, rfl⟩ := told
        exact ⟨running, HashMap.mem_toList_iff.mp entered, by simpa using changed, left⟩
    · rintro ⟨running, found, changed, left⟩
      refine ⟨(key, running), HashMap.mem_toList_iff.mpr found, ?_⟩
      rw [if_neg (by simp [changed])]
      exact List.mem_map.mpr ⟨pool, left, rfl⟩
  have probing := reached.probing key
  rw [listed, given_iff, given_iff, ← probing, ← lookup_desiredProbes, HealthChecker.probing]
  simp only [poolsLeft, HealthChecker.unchanged]
  cases before.checker.tasks.lookup key with
  | none => simp
  | some running =>
    cases (desiredProbes pools).lookup key with
    | none => simp
    | some spec =>
      simp only [Option.some.injEq, exists_eq_left', Option.map_some, Option.elim_some,
        List.mem_filter, Bool.not_eq_true', List.contains_eq_mem, decide_eq_false_iff_not,
        and_iff_right_iff_imp]
      -- a pool that is left is one by which the lists differ
      rintro ⟨reported, left⟩
      simp only [Bool.and_eq_false_iff, beq_eq_false_iff_ne]
      right
      rintro same
      exact left (same ▸ reported)

/-- A call of `reconcile`, after any number of calls and whatever the tasks do meanwhile.
    One loop runs for each backend that is given: with the check of the first pool it is in,
    reporting under all of them. A loop that is asked for as it runs goes on in its task.
    The observer is told of the pairs that were given before and are not any more. -/
theorem reconcile_follows_pools (reached : LastGiven previous before)
    (call : Program.Steps ProbeStep (reconcileProbes pools, before) (.ret (), after)) :
    (∀ key spec, (∃ id, after.live id = some (key, spec)) ↔ probeFor pools key = some spec) ∧
    (∀ key spec spec' id id', after.live id = some (key, spec) →
      after.live id' = some (key, spec') → id = id') ∧
    (∀ key spec id, before.live id = some (key, spec) → probeFor pools key = some spec →
      after.live id = some (key, spec)) ∧
    ∃ told, after.departures = before.departures ++ told ∧
      ∀ pool key, (pool, key) ∈ told ↔ Given previous pool key ∧ ¬ Given pools pool key := by
  have reached' : LastGiven pools after := reached.reconcile call
  have roster := roster_reconciled call
  refine ⟨reached'.live_iff, ?_, ?_, before.checker.backendsLeft pools, ?_,
    reached.mem_backendsLeft pools⟩
  · intro key spec spec' id id' one other
    have entered := (reached'.registered.entered id key spec).mp one
    rw [(reached'.registered.entered id' key spec').mp other] at entered
    exact (congrArg RunningProbe.task (Option.some.inj entered)).symm
  · intro key spec id runs asked
    have entered := (reached.registered.entered id key spec).mp runs
    apply (reached'.registered.entered id key spec).mpr
    rw [roster, checker_reconcile]
    exact HealthChecker.lookup_reconcile entered
      (by simp [HealthChecker.unchanged, lookup_desiredProbes, asked])
  · exact (congrArg Roster.departures roster).trans (departures_reconcile _ _)

def CheckedPool.single : CheckedPool where
  id := "web".toList
  check := ⟨.tcp, 10, 1, 1, 1⟩
  backends := [("10.0.0.1".toList, 8080)]

/-- A checker that was given the pool. -/
def Checking.ofSingle : Checking := ((reconcileProbes [.single]).run (.new (.new true))).2

/-- One backend of two stays, and another comes. -/
theorem reconcile_follows_pools_replaced :
    let given (hosts : List Str) : List CheckedPool :=
      [{ CheckedPool.single with backends := hosts.map (·, 80) }]
    let before := ((reconcileProbes (given [['a'], ['b']])).run (.new (.new true))).2
    let after := ((reconcileProbes (given [['b'], ['c']])).run before).2
    let spec : ProbeSpec := (CheckedPool.single.check, [CheckedPool.single.id])
    after.live 0 = some ((['b'], 80), spec) ∧ (∃ id, after.live id = some ((['c'], 80), spec)) ∧
      (¬ ∃ id, after.live id = some ((['a'], 80), spec)) ∧
      ∃ told, after.departures = before.departures ++ told ∧
        (CheckedPool.single.id, (['a'], 80)) ∈ told := by
  intro given before after spec
  obtain ⟨asked, _, kept, told, departures, left⟩ := reconcile_follows_pools
    (.reconcile (.new (.new true)) (Program.steps_run ProbeStep _ _))
    (Program.steps_run ProbeStep (reconcileProbes (given [['b'], ['c']])) before)
  refine ⟨kept _ spec 0 (by decide +kernel) (by decide), (asked _ spec).mpr (by decide), ?_, told,
    departures, (left _ _).mpr ?_⟩
  · rw [asked]
    decide
  · simp [Given, given]

end

end Gfe
