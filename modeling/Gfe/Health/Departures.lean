import Gfe.Health.Probes

/-! # Nothing after a departure

The observer is promised that nothing more is reported about a backend under a pool
it left until it is given again. Reconciling aborts the loop before it tells of the
departure, which keeps the promise if the loop was at an await: an aborted task is
not polled any more. A loop that is between its probe and its last report goes on to
that report, and the promise is broken.
-/

namespace Gfe

open Interleaving

variable {key : BackendKey} {spec : ProbeSpec}

/-- The promise: what is reported about a backend under a pool after it left comes after it
    was given again. -/
def Silent (events : List CheckEvent) : Prop :=
  ∀ xs ys zs pool key status,
    events = xs ++ .backendLeft pool key :: ys ++ .statusChanged pool key status :: zs →
    ∃ pools, .given pools ∈ ys ∧ Given pools pool key

/-- A backend left a pool and was not given again. -/
def Gone (events : List CheckEvent) (pool : Str) (key : BackendKey) : Prop :=
  ∃ xs ys, events = xs ++ .backendLeft pool key :: ys ∧
    ∀ pools, .given pools ∈ ys → ¬ Given pools pool key

section

variable {events : List CheckEvent} {event : CheckEvent} {pool : Str} {key : BackendKey}

theorem Gone.of_append (gone : Gone (events ++ [event]) pool key) :
    event = .backendLeft pool key ∨
      (Gone events pool key ∧ ∀ pools, event = .given pools → ¬ Given pools pool key) := by
  obtain ⟨xs, ys, split, since⟩ := gone
  cases ys using List.reverseRecOn with
  | nil =>
    obtain ⟨_, last⟩ := List.append_inj' split rfl
    exact .inl (List.singleton_inj.mp last)
  | append_singleton ys last =>
    rw [← List.cons_append, ← List.append_assoc] at split
    obtain ⟨front, same⟩ := List.append_inj' split rfl
    cases List.singleton_inj.mp same
    refine .inr ⟨⟨xs, ys, front, ?_⟩, ?_⟩
    · exact fun pools listed => since pools (List.mem_append_left _ listed)
    · rintro pools rfl
      exact since pools (by simp)

theorem Silent.append (silent : Silent events)
    (told : ∀ pool key status, event = .statusChanged pool key status → ¬ Gone events pool key) :
    Silent (events ++ [event]) := by
  intro xs ys zs pool key status split
  cases zs using List.reverseRecOn with
  | nil =>
    obtain ⟨front, last⟩ := List.append_inj' split rfl
    by_contra never
    apply told pool key status (List.singleton_inj.mp last)
    exact ⟨xs, ys, front, fun pools listed given => never ⟨pools, listed, given⟩⟩
  | append_singleton zs last =>
    rw [← List.cons_append, ← List.append_assoc] at split
    exact silent xs ys zs pool key status (List.append_inj' split rfl).1

end

/-! ## What holds between the steps -/

/-- No abort has found a task between two awaits. -/
def Untorn (s : Checking) : Prop := ∀ id task, s.tasks id = some task → task.torn = false

/-- Aborted tasks are at an await, what a task has to report is under its pools, no loop
    runs for a backend that left, the loops that run are entered, and the promise is
    kept. -/
structure CalmTasks (s : Checking) : Prop where
  quiet : ∀ id task, s.tasks id = some task → task.aborted = true → task.phase.atAwait = true
  within : ∀ id task status rest, s.tasks id = some task → task.phase = .reporting status rest →
    ∀ pool ∈ rest, pool ∈ task.pools
  present : ∀ id key spec, s.live id = some (key, spec) →
    ∀ pool ∈ spec.2, ¬ Gone s.events pool key
  entered : ∀ id key spec, s.live id = some (key, spec) →
    s.checker.tasks.lookup key = some ⟨spec.1, spec.2, id⟩
  silent : Silent s.events

/-- The one state has nothing that reconciling looks at changed, and nobody left. -/
structure SameRoster (s s' : Checking) : Prop where
  roster : s'.roster = s.roster
  gone : ∀ pool key, Gone s'.events pool key → Gone s.events pool key

section

variable {s s' : Checking}

theorem ProbeStep.alike (step : ProbeStep s s') : SameRoster s s' := by
  refine ⟨step.roster, ?_⟩
  obtain ⟨_, _, _, _, told, _, _, _, events, _, _, telling⟩ := step.moved
  intro pool key gone
  rw [events] at gone
  obtain rfl | rfl | ⟨_, _, _, rfl, _⟩ := telling
  · simpa using gone
  · exact (gone.of_append.resolve_left (by simp)).1
  · exact (gone.of_append.resolve_left (by simp)).1

theorem ProbeStep.untorn (step : ProbeStep s s') (untorn : Untorn s') : Untorn s := by
  obtain ⟨id, task, bh, phase, _, found, _, tasks, _⟩ := step.moved
  intro other task' known
  by_cases same : other = id
  · subst same
    rw [found] at known
    cases known
    exact untorn other { task with bh := bh, phase := phase } (by rw [tasks, Function.update_self])
  · exact untorn other task' (by rw [tasks, Function.update_of_ne same, known])

theorem CalmTasks.step (calm : CalmTasks s) (step : ProbeStep s s') : CalmTasks s' := by
  have alike := step.alike
  have live : s'.live = s.live := congrArg Roster.live alike.roster
  have checker : s'.checker = s.checker := congrArg Roster.checker alike.roster
  obtain ⟨id, task, bh, phase, told, found, _, tasks, events, awaits, reports, telling⟩ := step.moved
  constructor
  · intro other task' known aborted
    rw [tasks] at known
    by_cases same : other = id
    · subst same
      rw [Function.update_self] at known
      cases known
      exact (awaits aborted (calm.quiet other task found aborted)).1
    · rw [Function.update_of_ne same] at known
      exact calm.quiet other task' known aborted
  · intro other task' status rest known reporting
    rw [tasks] at known
    by_cases same : other = id
    · subst same
      rw [Function.update_self] at known
      cases known
      obtain rfl | ⟨pool, before⟩ := reports status rest reporting
      · exact fun pool listed => listed
      · exact fun other listed => calm.within _ task status _ found before other (.tail pool listed)
    · rw [Function.update_of_ne same] at known
      exact calm.within other task' status rest known reporting
  · intro other key spec runs pool listed gone
    rw [live] at runs
    exact calm.present other key spec runs pool listed (alike.gone pool key gone)
  · intro other key spec runs
    rw [live] at runs
    rw [checker]
    exact calm.entered other key spec runs
  · rw [events]
    obtain rfl | rfl | ⟨pool, status, rest, rfl, reporting⟩ := telling
    · simpa using calm.silent
    · exact calm.silent.append (by simp)
    · apply calm.silent.append
      rintro _ _ _ ⟨⟩
      -- the task is between two awaits, so it was not aborted, and its pools are present
      have running : task.aborted = false := by
        by_contra aborted
        have awaiting := calm.quiet id task found (by simpa using aborted)
        simp [reporting, ProbePhase.atAwait] at awaiting
      refine calm.present id task.key (task.check, task.pools) ?_ pool
        (calm.within id task status _ found reporting pool (.head rest))
      simp [Checking.live, found, ProbeTask.live, running]

end

/-- The numbers of tasks to come are free. -/
def FreshTasks (s : Checking) : Prop := ∀ id, s.checker.nextTask ≤ id → s.tasks id = none

theorem FreshTasks.step {s s' : Checking} (fresh : FreshTasks s) (step : ProbeStep s s') : FreshTasks s' := by
  obtain ⟨id, task, _, _, _, found, checker, tasks, _⟩ := step.moved
  intro other later
  rw [checker] at later
  have differ : other ≠ id := by
    rintro rfl
    rw [fresh other later] at found
    cases found
  rw [tasks, Function.update_of_ne differ, fresh other later]

/-- What holds of a state that is calm unless a task was torn, besides something that
    reconciling goes by. -/
structure Standing (extra : Checking → Prop) (s : Checking) : Prop where
  fresh : FreshTasks s
  calm : Untorn s → CalmTasks s ∧ extra s

abbrev besideTasks : Rely Checking := .moves ProbeStep

/-- While reconciling. -/
abbrev Kept (s : Checking) : Prop := Untorn s → Silent s.events

theorem steady_standing {extra : Checking → Prop}
    (alike : ∀ s s', SameRoster s s' → extra s → extra s') :
    Program.Steady besideTasks Kept (Standing extra) := by
  constructor
  · intro s s' moved held
    induction moved with
    | refl => exact held
    | tail _ step ih =>
      refine ⟨ih.fresh.step step, ?_⟩
      intro untorn
      obtain ⟨calm, more⟩ := ih.calm (step.untorn untorn)
      exact ⟨calm.step step, alike _ _ step.alike more⟩
  · exact fun s held untorn => (held.calm untorn).1.silent

/-! ## Reconciling keeps the promise -/

/-- What was given has not left since. -/
def Awaited (desired : HashMap BackendKey ProbeSpec) (s : Checking) : Prop :=
  ∀ key spec, desired.lookup key = some spec → ∀ pool ∈ spec.2, ¬ Gone s.events pool key

/-- The loops still to be looked at are entered, and every loop that runs and is not asked
    for as it does is one of them. -/
structure Stopping (desired : HashMap BackendKey ProbeSpec)
    (running : HashMap BackendKey RunningProbe) (rest : List (BackendKey × RunningProbe))
    (s : Checking) : Prop where
  awaited : Awaited desired s
  same : s.checker.tasks = running
  listed : ∀ entry ∈ rest, running.lookup entry.1 = some entry.2
  left : ∀ id key spec, s.live id = some (key, spec) →
    HealthChecker.unchanged desired key ⟨spec.1, spec.2, id⟩ = true ∨
      (key, ⟨spec.1, spec.2, id⟩) ∈ rest

/-- Moreover no loop runs for this backend any more. -/
def Departing (desired : HashMap BackendKey ProbeSpec) (running : HashMap BackendKey RunningProbe)
    (rest : List (BackendKey × RunningProbe)) (key : BackendKey) (s : Checking) : Prop :=
  Stopping desired running rest s ∧ ∀ id spec, s.live id ≠ some (key, spec)

section

variable {desired : HashMap BackendKey ProbeSpec} {running : HashMap BackendKey RunningProbe}
  {rest : List (BackendKey × RunningProbe)} {s s' : Checking}

theorem Awaited.alike (awaited : Awaited desired s) (alike : SameRoster s s') : Awaited desired s' :=
  fun key spec asked pool listed gone => awaited key spec asked pool listed (alike.gone pool key gone)

theorem Stopping.alike (stopping : Stopping desired running rest s) (alike : SameRoster s s') :
    Stopping desired running rest s' := by
  have live : s'.live = s.live := congrArg Roster.live alike.roster
  have checker : s'.checker = s.checker := congrArg Roster.checker alike.roster
  refine ⟨stopping.awaited.alike alike, checker ▸ stopping.same, stopping.listed, ?_⟩
  intro id key spec runs
  exact stopping.left id key spec (live ▸ runs)

theorem CalmTasks.leave (calm : CalmTasks s) {pool : Str}
    (stopped : ∀ id spec, s.live id ≠ some (key, spec)) : CalmTasks (s.note (.backendLeft pool key)) := by
  refine ⟨calm.quiet, calm.within, ?_, calm.entered, calm.silent.append (by simp)⟩
  intro id other spec runs pool' listed gone
  obtain same | ⟨gone, _⟩ := gone.of_append
  · cases same
    exact stopped id spec runs
  · exact calm.present id other spec runs pool' listed gone

theorem Stopping.leave (stopping : Stopping desired running rest s) {pool : Str}
    (left : pool ∉ (desired.lookup key).elim [] Prod.snd) :
    Stopping desired running rest (s.note (.backendLeft pool key)) := by
  refine ⟨?_, stopping.same, stopping.listed, stopping.left⟩
  intro other spec asked pool' listed gone
  obtain same | ⟨gone, _⟩ := gone.of_append
  · cases same
    exact left (by simpa [asked] using listed)
  · exact stopping.awaited other spec asked pool' listed gone

theorem steady_stopping : Program.Steady besideTasks Kept (Standing (Stopping desired running rest)) :=
  steady_standing fun _ _ alike stopping => stopping.alike alike

theorem steady_departing :
    Program.Steady besideTasks Kept (Standing (Departing desired running rest key)) := by
  apply steady_standing
  rintro s s' alike ⟨stopping, stopped⟩
  have live : s'.live = s.live := congrArg Roster.live alike.roster
  exact ⟨stopping.alike alike, fun id spec => live ▸ stopped id spec⟩

theorem obeys_tellLeft {pools : List Str}
    (left : ∀ pool ∈ pools, pool ∉ (desired.lookup key).elim [] Prod.snd)
    (held : Standing (Departing desired running rest key) s) :
    (tellLeft key pools).Obeys besideTasks (fun _ _ => True) Kept
      (fun _ => Standing (Stopping desired running rest)) s := by
  have steady : Program.Steady besideTasks Kept (Standing (Departing desired running rest key)) :=
    steady_departing
  induction pools generalizing s with
  | nil =>
    apply Program.Obeys.ret
    intro s' moved
    have later := steady.stable s s' moved held
    refine ⟨later.fresh, ?_⟩
    intro untorn
    obtain ⟨calm, stopping, _⟩ := later.calm untorn
    exact ⟨calm, stopping⟩
  | cons pool pools ih =>
    rw [tellLeft]
    apply Program.Obeys.bind
    refine (Program.Obeys.change steady steady.stable ?_ held).weaken ?_
    · intro s held
      refine ⟨True.intro, held.fresh, ?_⟩
      intro untorn
      obtain ⟨calm, stopping, stopped⟩ := held.calm untorn
      exact ⟨calm.leave stopped, stopping.leave (left pool (.head pools)), stopped⟩
    · exact fun _ s held => ih (fun other listed => left other (.tail pool listed)) held

theorem Checking.tasks_abort (s : Checking) (id : Nat) {other : Nat} {task : ProbeTask} :
    (s.abort id).tasks other = some task ↔
      ∃ task', s.tasks other = some task' ∧ task = if other = id then task'.abort else task' := by
  simp only [Checking.abort]
  by_cases same : other = id
  · subst same
    simp [eq_comm]
  · simp [same, eq_comm]

theorem FreshTasks.abort (fresh : FreshTasks s) (id : Nat) : FreshTasks (s.abort id) := by
  intro other later
  by_contra some
  obtain ⟨task, known⟩ := Option.ne_none_iff_exists'.mp some
  obtain ⟨task', found, _⟩ := (s.tasks_abort id).mp known
  rw [fresh other later] at found
  cases found

/-- If the abort tears no task, none was torn before, and the one it stops is at an await. -/
theorem Untorn.of_abort {id : Nat} (untorn : Untorn (s.abort id)) :
    Untorn s ∧ ∀ task, s.tasks id = some task → task.phase.atAwait = true := by
  constructor
  · intro other task found
    have after := untorn other _ ((s.tasks_abort id).mpr ⟨task, found, rfl⟩)
    split at after
    · exact (Bool.or_eq_false_iff.mp after).1
    · exact after
  · intro task found
    have after := untorn id _ ((s.tasks_abort id).mpr ⟨task, found, rfl⟩)
    rw [if_pos rfl] at after
    simpa using (Bool.or_eq_false_iff.mp after).2

theorem CalmTasks.abort {id : Nat} (calm : CalmTasks s)
    (awaits : ∀ task, s.tasks id = some task → task.phase.atAwait = true) : CalmTasks (s.abort id) := by
  have fewer : ∀ other loop, (s.abort id).live other = some loop → s.live other = some loop := by
    intro other loop runs
    rw [Checking.live_abort] at runs
    by_cases same : other = id
    · simp [same] at runs
    · rwa [Function.update_of_ne same] at runs
  constructor
  · intro other task known aborted
    obtain ⟨task', found, rfl⟩ := (s.tasks_abort id).mp known
    split at aborted
    · rename_i same
      subst same
      simpa [ProbeTask.abort] using awaits task' found
    · rename_i differ
      simpa [differ] using calm.quiet other task' found aborted
  · intro other task status rest known reporting
    obtain ⟨task', found, rfl⟩ := (s.tasks_abort id).mp known
    have before : task'.phase = .reporting status rest ∧
        (if other = id then task'.abort else task').pools = task'.pools := by
      split at reporting
      · exact ⟨reporting, by simp [*, ProbeTask.abort]⟩
      · exact ⟨reporting, by simp [*]⟩
    rw [before.2]
    exact calm.within other task' status rest found before.1
  · exact fun other key spec runs => calm.present other key spec (fewer _ _ runs)
  · exact fun other key spec runs => calm.entered other key spec (fewer _ _ runs)
  · exact calm.silent

theorem Stopping.abort {probe : RunningProbe} (calm : CalmTasks s)
    (stopping : Stopping desired running ((key, probe) :: rest) s) :
    Departing desired running rest key (s.abort probe.task) := by
  have listed := stopping.listed (key, probe) (.head rest)
  constructor
  · refine ⟨stopping.awaited, stopping.same, fun entry later => stopping.listed entry (.tail _ later),
      ?_⟩
    intro id other spec runs
    rw [Checking.live_abort] at runs
    by_cases same : id = probe.task
    · simp [same] at runs
    · rw [Function.update_of_ne same] at runs
      refine (stopping.left id other spec runs).imp_right fun member => ?_
      cases member with
      | head => exact absurd rfl same
      | tail _ later => exact later
  · intro id spec runs
    rw [Checking.live_abort] at runs
    by_cases same : id = probe.task
    · simp [same] at runs
    · rw [Function.update_of_ne same] at runs
      have entered := calm.entered id key spec runs
      rw [stopping.same, listed] at entered
      exact same (congrArg RunningProbe.task (Option.some.inj entered)).symm

theorem obeys_abort {probe : RunningProbe}
    (held : Standing (Stopping desired running ((key, probe) :: rest)) s) :
    (Program.write (·.abort probe.task)).Obeys besideTasks (fun _ _ => True) Kept
      (fun _ => Standing (Departing desired running rest key)) s := by
  refine Program.Obeys.change steady_stopping steady_departing.stable ?_ held
  intro s held
  refine ⟨True.intro, held.fresh.abort _, ?_⟩
  intro untorn
  obtain ⟨before, awaits⟩ := untorn.of_abort
  obtain ⟨calm, stopping⟩ := held.calm before
  exact ⟨calm.abort awaits, stopping.abort calm⟩

theorem Stopping.skip {probe : RunningProbe}
    (stopping : Stopping desired running ((key, probe) :: rest) s)
    (unchanged : HealthChecker.unchanged desired key probe = true) :
    Stopping desired running rest s := by
  refine ⟨stopping.awaited, stopping.same,
    fun entry later => stopping.listed entry (.tail _ later), ?_⟩
  intro id other spec runs
  cases stopping.left id other spec runs with
  | inl same => exact .inl same
  | inr member =>
    cases member with
    | head => exact .inl unchanged
    | tail _ later => exact .inr later

theorem obeys_stopChanged (held : Standing (Stopping desired running rest) s) :
    (stopChanged desired rest).Obeys besideTasks (fun _ _ => True) Kept
      (fun _ => Standing (Stopping desired running [])) s := by
  induction rest generalizing s with
  | nil => exact Program.Obeys.ret fun s' moved => steady_stopping.stable s s' moved held
  | cons entry rest ih =>
    obtain ⟨key, probe⟩ := entry
    rw [stopChanged]
    split
    · rename_i unchanged
      refine ih ⟨held.fresh, ?_⟩
      intro untorn
      obtain ⟨calm, stopping⟩ := held.calm untorn
      exact ⟨calm, stopping.skip unchanged⟩
    · apply Program.Obeys.bind
      refine (obeys_abort held).weaken fun _ s held => ?_
      apply Program.Obeys.bind
      refine (obeys_tellLeft ?_ held).weaken fun _ s held => ih held
      intro pool listed
      simpa [poolsLeft] using (List.mem_filter.mp listed).2

theorem obeys_retain (held : Standing (Stopping desired running []) s) :
    (Program.write fun s : Checking => { s with
      checker := { s.checker with
        tasks := running.retain (HealthChecker.unchanged desired) } }).Obeys besideTasks
      (fun _ _ => True) Kept (fun _ => Standing (Awaited desired)) s := by
  refine Program.Obeys.change steady_stopping
    (steady_standing fun _ _ alike awaited => awaited.alike alike).stable ?_ held
  intro s held
  refine ⟨True.intro, held.fresh, ?_⟩
  intro untorn
  obtain ⟨calm, stopping⟩ := held.calm untorn
  refine ⟨⟨calm.quiet, calm.within, calm.present, ?_, calm.silent⟩, stopping.awaited⟩
  intro id key spec runs
  have unchanged := (stopping.left id key spec runs).resolve_right (by simp)
  have entered := calm.entered id key spec runs
  rw [stopping.same] at entered
  rw [HashMap.lookup_retain, entered, Option.filter_some_pos unchanged]

theorem Checking.tasks_spawned (s : Checking) (key : BackendKey) (spec : ProbeSpec) (id : Nat) :
    Function.update s.tasks s.checker.nextTask (some (.spawned key spec)) id =
      if id = s.checker.nextTask then some (.spawned key spec) else s.tasks id := by
  split
  · rename_i same
    rw [same, Function.update_self]
  · rename_i differ
    rw [Function.update_of_ne differ]

theorem FreshTasks.startProbe (fresh : FreshTasks s) (key : BackendKey) (spec : ProbeSpec) :
    FreshTasks (s.startProbe key spec) := by
  unfold Checking.startProbe
  cases missing : s.checker.tasks.lookup key with
  | some probe => exact fresh
  | none =>
    intro id later
    simp only [HealthChecker.startProbe_of_missing missing] at later
    simp only [Checking.setTask, Checking.tasks_spawned]
    rw [if_neg (by omega), fresh id (by omega)]

theorem Untorn.of_startProbe (fresh : FreshTasks s)
    (untorn : Untorn (s.startProbe key spec)) : Untorn s := by
  unfold Checking.startProbe at untorn
  cases missing : s.checker.tasks.lookup key with
  | some probe => simpa [missing] using untorn
  | none =>
    simp only [missing] at untorn
    intro id task found
    apply untorn id task
    have differ : id ≠ s.checker.nextTask := by
      rintro rfl
      rw [fresh _ le_rfl] at found
      cases found
    simp only [Checking.setTask, Checking.tasks_spawned]
    rwa [if_neg differ]

theorem Checking.task_spawned {id : Nat} {task : ProbeTask}
    (known : Function.update s.tasks s.checker.nextTask (some (.spawned key spec)) id = some task) :
    task = .spawned key spec ∨ s.tasks id = some task := by
  rw [Checking.tasks_spawned] at known
  split at known
  · exact .inl (Option.some.inj known).symm
  · exact .inr known

theorem Checking.live_spawned {id : Nat}
    {loop : BackendKey × ProbeSpec}
    (runs : (Function.update s.tasks s.checker.nextTask (some (.spawned key spec)) id).bind
      ProbeTask.live = some loop) :
    (id = s.checker.nextTask ∧ loop = (key, spec)) ∨ s.live id = some loop := by
  rw [congrFun (s.live_update s.checker.nextTask (some (.spawned key spec))) id] at runs
  by_cases same : id = s.checker.nextTask
  · subst same
    rw [Function.update_self] at runs
    exact .inl ⟨rfl, (Option.some.inj runs).symm⟩
  · rw [Function.update_of_ne same] at runs
    exact .inr runs

theorem CalmTasks.startProbe (calm : CalmTasks s) (awaited : Awaited desired s)
    (asked : desired.lookup key = some spec) : CalmTasks (s.startProbe key spec) := by
  unfold Checking.startProbe
  cases missing : s.checker.tasks.lookup key with
  | some probe => exact calm
  | none =>
    refine ⟨?_, ?_, ?_, ?_, calm.silent⟩
    · intro id task known aborted
      obtain rfl | known := Checking.task_spawned known
      · cases aborted
      · exact calm.quiet id task known aborted
    · intro id task status rest known reporting
      obtain rfl | known := Checking.task_spawned known
      · cases reporting
      · exact calm.within id task status rest known reporting
    · intro id other spec' runs
      obtain ⟨_, same⟩ | runs := Checking.live_spawned runs
      · cases same
        exact awaited key spec asked
      · exact calm.present id other spec' runs
    · intro id other spec' runs
      simp only [HealthChecker.startProbe_of_missing missing, HashMap.lookup_insert]
      obtain ⟨rfl, same⟩ | runs := Checking.live_spawned runs
      · cases same
        rw [if_pos rfl]
      · have entered := calm.entered id other spec' runs
        have differ : other ≠ key := by
          rintro rfl
          rw [missing] at entered
          cases entered
        rw [if_neg differ, entered]

theorem Awaited.startProbe (awaited : Awaited desired s) (key : BackendKey) (spec : ProbeSpec) :
    Awaited desired (s.startProbe key spec) := by
  unfold Checking.startProbe
  split
  · exact awaited
  · exact awaited

theorem obeys_startMissing {entries : List (BackendKey × ProbeSpec)}
    (asked : ∀ entry ∈ entries, desired.lookup entry.1 = some entry.2)
    (held : Standing (Awaited desired) s) :
    (startMissing entries).Obeys besideTasks (fun _ _ => True) Kept
      (fun _ => Standing (Awaited desired)) s := by
  have steady : Program.Steady besideTasks Kept (Standing (Awaited desired)) :=
    steady_standing fun _ _ alike awaited => awaited.alike alike
  induction entries generalizing s with
  | nil => exact Program.Obeys.ret fun s' moved => steady.stable s s' moved held
  | cons entry entries ih =>
    obtain ⟨key, spec⟩ := entry
    rw [startMissing]
    apply Program.Obeys.bind
    refine (Program.Obeys.change steady steady.stable ?_ held).weaken fun _ s held => ?_
    · intro s held
      refine ⟨True.intro, held.fresh.startProbe key spec, ?_⟩
      intro untorn
      obtain ⟨calm, awaited⟩ := held.calm (Untorn.of_startProbe held.fresh untorn)
      exact ⟨calm.startProbe awaited (asked _ (.head _)), awaited.startProbe key spec⟩
    · exact ih (fun entry later => asked entry (.tail _ later)) held

theorem obeys_given (pools : List CheckedPool) (held : Standing (fun _ => True) s) :
    (Program.exchange fun s : Checking => (s.checker.tasks, s.note (.given pools))).Obeys besideTasks
      (fun _ _ => True) Kept
      (fun running => Standing (Stopping (desiredProbes pools) running running.toList)) s := by
  have steady : Program.Steady besideTasks Kept (Standing fun _ => True) :=
    steady_standing fun _ _ _ more => more
  apply Program.Obeys.exchange
  intro t moved
  have here := steady.stable s t moved held
  refine ⟨steady.fine t here, True.intro, ?_⟩
  intro u later
  refine steady_stopping.stable _ u later ⟨here.fresh, ?_⟩
  intro untorn
  obtain ⟨calm, _⟩ := here.calm untorn
  have gone : ∀ pool key, Gone (t.events ++ [.given pools]) pool key →
      Gone t.events pool key ∧ ¬ Given pools pool key := by
    intro pool key gone
    obtain ⟨before, never⟩ := gone.of_append.resolve_left (by simp)
    exact ⟨before, never pools rfl⟩
  refine ⟨⟨calm.quiet, calm.within, ?_, calm.entered, calm.silent.append (by simp)⟩, ?_, rfl, ?_, ?_⟩
  · exact fun id key spec runs pool listed left =>
      calm.present id key spec runs pool listed (gone pool key left).1
  · intro key spec asked pool listed left
    rw [lookup_desiredProbes] at asked
    exact (gone pool key left).2 (given_iff.mpr ⟨spec, asked, listed⟩)
  · exact fun entry listed => HashMap.mem_toList_iff.mp listed
  · exact fun id key spec runs => .inr (HashMap.mem_toList_iff.mpr (calm.entered id key spec runs))

theorem obeys_reconcileProbes (pools : List CheckedPool) (held : Standing (fun _ => True) s) :
    (reconcileProbes pools).Obeys besideTasks (fun _ _ => True) Kept
      (fun _ => Standing fun _ => True) s := by
  apply Program.Obeys.bind
  refine (obeys_given pools held).weaken fun running s held => ?_
  apply Program.Obeys.bind
  refine (obeys_stopChanged held).weaken fun _ s held => ?_
  apply Program.Obeys.bind
  refine (obeys_retain held).weaken fun _ s held => ?_
  refine (obeys_startMissing (fun entry => HashMap.mem_toList_iff.mp) held).weaken ?_
  exact fun _ s held => ⟨held.fresh, fun untorn => ⟨(held.calm untorn).1, True.intro⟩⟩

end

/-- The calls of `reconcile`. -/
def reconciling : Set (Program Checking Unit) := Set.range reconcileProbes

theorem reconcileProbes_mem (pools : List CheckedPool) : reconcileProbes pools ∈ reconciling :=
  ⟨pools, rfl⟩

/-- Whatever calls there are and whatever the tasks do beside them, at every moment: if each
    loop that was aborted was at an await then, nothing was reported about a backend under a
    pool after the observer was told that it left and before it was given again. -/
theorem silent_after_departure {health : HealthMap} {c : Locked Checking}
    (run : Locked.Steps ProbeStep reconciling ⟨.new health, none⟩ c) (untorn : Untorn c.state) :
    Silent c.state.events := by
  have steady : Program.Steady besideTasks Kept (Standing fun _ => True) :=
    steady_standing fun _ _ _ more => more
  have start : Standing (fun _ => True) (.new health) := by
    refine ⟨fun _ _ => rfl, fun _ => ⟨?_, True.intro⟩⟩
    constructor <;> simp [Checking.new, Checking.live, Silent]
  have obeys : ∀ job ∈ reconciling, ∀ s, Standing (fun _ => True) s →
      job.Obeys besideTasks (fun _ _ => True) Kept (fun _ => Standing fun _ => True) s := by
    rintro _ ⟨pools, rfl⟩ s held
    exact obeys_reconcileProbes pools held
  have kept : Kept c.state :=
    Locked.always (fun _ _ step => Relation.ReflTransGen.single step) steady obeys start run
  exact kept untorn

/-- The pool is given up while the loop of its backend sleeps. -/
theorem silent_after_departure_asleep :
    Silent ((reconcileProbes []).run .ofSingle).2.events := by
  have run : Locked.Steps ProbeStep reconciling ⟨.new (.new true), none⟩
      ⟨((reconcileProbes []).run .ofSingle).2, none⟩ :=
    (Locked.steps_run (reconcileProbes_mem [.single]) _).trans
      (Locked.steps_run (reconcileProbes_mem []) _)
  apply silent_after_departure run
  intro id task known
  by_cases first : id = 0
  · subst first
    cases known
    rfl
  · simp only [show ((reconcileProbes []).run .ofSingle).2.tasks = Function.update
      (Function.update (fun _ => none) 0 _) 0 _ from rfl, Function.update_of_ne first] at known
    cases known

/-- The loop of the backend of the pool. -/
def ProbeTask.ofSingle : ProbeTask :=
  .spawned ("10.0.0.1".toList, 8080) (CheckedPool.single.check, [CheckedPool.single.id])

/-- The pool is given up between the probe of its backend and the report. -/
theorem status_after_departure : ∃ c : Locked Checking,
    Locked.Steps ProbeStep reconciling ⟨.new (.new true), none⟩ c ∧ ¬ Silent c.state.events := by
  have given : Locked.Steps ProbeStep reconciling ⟨.new (.new true), none⟩ ⟨.ofSingle, none⟩ :=
    Locked.steps_run (reconcileProbes_mem [.single]) _
  have woken := given.tail (.env (@ProbeStep.wake _ 0 .ofSingle .pass rfl rfl rfl))
  have finished := woken.tail (.env (@ProbeStep.finish _ 0 _ _ rfl rfl))
  have set := finished.tail (.env (@ProbeStep.set _ 0 _ .healthy rfl rfl))
  have left := set.trans (Locked.steps_run (reconcileProbes_mem []) _)
  have reported := left.tail (.env (@ProbeStep.report _ 0 _ .healthy CheckedPool.single.id []
    rfl rfl))
  refine ⟨_, reported, ?_⟩
  intro silent
  obtain ⟨pools, again, _⟩ := silent [.given [.single], .probeFinished, .given []] [] []
    CheckedPool.single.id ("10.0.0.1".toList, 8080) .healthy rfl
  cases again

end Gfe
