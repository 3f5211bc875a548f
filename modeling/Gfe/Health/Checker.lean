import Gfe.Health.HealthMap

/-! # The health checker

One probe loop per backend, whatever number of pools it is in. Reconciling
works out the loops the pools ask for, stops those that are not asked for as
they run, and starts the missing ones; the result is exactly what was asked
for.
-/

namespace Gfe

variable {key : BackendKey} {checker : HealthChecker}

inductive ProbeKind where
  | tcp
  | grpc (tls : Bool)
  | http (path : Str) (expectedStatus : UInt16) (drainStatus : Option UInt16) (tls : Bool)
  deriving DecidableEq, Repr

structure CheckSpec where
  probe : ProbeKind
  interval : Nat
  timeout : Nat
  healthyThreshold : UInt32
  unhealthyThreshold : UInt32
  deriving DecidableEq, Repr

structure CheckedPool where
  id : Str
  check : CheckSpec
  backends : List BackendKey
  deriving DecidableEq, Repr

/-- What a probe of `check` does for a backend of a pool of `scheme`. -/
def probeKind (check : HealthCheckConfig) (scheme : Scheme) : ProbeKind :=
  let http (tls : Bool) := ProbeKind.http check.path check.expectedStatus check.drainStatus tls
  match check.probeType with
  | .tcp => .tcp
  | .grpc => .grpc (scheme == .https)
  | .http => http (scheme == .https)
  | .https => http true

/-- The pools of a config with the check of each: its own, or the node's
    default one. -/
def checkedPools (pools : List UpstreamPool) (defaults : HealthCheckConfig) : List CheckedPool :=
  pools.map fun pool =>
    let check := pool.healthCheck.getD defaults
    { id := pool.id.id
      check :=
        { probe := probeKind check pool.scheme
          interval := check.interval
          timeout := check.timeout
          healthyThreshold := check.healthyThreshold
          unhealthyThreshold := check.unhealthyThreshold }
      backends := pool.upstreams.map fun upstream => (upstream.host, upstream.port) }

/-- A probe loop, the check it was started with, and the pools it reports
    under. `task` tells one start of a loop from another. -/
structure RunningProbe where
  check : CheckSpec
  pools : List Str
  task : Nat
  deriving DecidableEq

/-- How a loop is asked for: its check and its pools. -/
abbrev ProbeSpec := CheckSpec × List Str

structure HealthChecker where
  tasks : HashMap BackendKey RunningProbe
  nextTask : Nat

/-- The loops `pools` ask for. The first pool's check wins. -/
def desiredProbes (pools : List CheckedPool) : HashMap BackendKey ProbeSpec :=
  pools.foldl (fun desired pool =>
    pool.backends.foldl (fun desired key =>
      desired.update key (pool.check, []) fun spec => (spec.1, spec.2 ++ [pool.id])) desired) ∅

namespace HealthChecker

def new : HealthChecker := ⟨∅, 0⟩

def unchanged (desired : HashMap BackendKey ProbeSpec) (key : BackendKey)
    (running : RunningProbe) : Bool :=
  match desired.lookup key with
  | some (check, pools) => check == running.check && pools == running.pools
  | none => false

/-- The loop of one backend, started unless it runs. -/
def startProbe (checker : HealthChecker) (key : BackendKey) (spec : ProbeSpec) : HealthChecker :=
  match checker.tasks.lookup key with
  | some _ => checker
  | none =>
    { tasks := checker.tasks.insert key ⟨spec.1, spec.2, checker.nextTask⟩
      nextTask := checker.nextTask + 1 }

def reconcile (checker : HealthChecker) (pools : List CheckedPool) : HealthChecker :=
  let desired := desiredProbes pools
  let kept := { checker with tasks := checker.tasks.retain (unchanged desired) }
  desired.toList.foldl (fun checker (key, spec) => checker.startProbe key spec) kept

/-- What the observer is told meanwhile: the pools each stopped loop no longer
    reports its backend under. -/
def backendsLeft (checker : HealthChecker) (pools : List CheckedPool) :
    List (Str × BackendKey) :=
  let desired := desiredProbes pools
  checker.tasks.toList.flatMap fun (key, running) =>
    if unchanged desired key running then []
    else
      let kept := (desired.lookup key).elim [] Prod.snd
      (running.pools.filter fun pool => !kept.contains pool).map fun pool => (pool, key)

/-- How the loop of a backend runs, if there is one. -/
def probing (checker : HealthChecker) (key : BackendKey) : Option ProbeSpec :=
  (checker.tasks.lookup key).map fun running => (running.check, running.pools)

theorem probing_startProbe (checker : HealthChecker) (key other : BackendKey) (spec : ProbeSpec) :
    (checker.startProbe key spec).probing other =
      (checker.probing other).or (if other = key then some spec else none) := by
  unfold startProbe probing
  cases running : checker.tasks.lookup key with
  | some _ =>
    by_cases same : other = key
    · subst same
      simp [running]
    · simp [same]
  | none =>
    simp only [HashMap.lookup_insert]
    by_cases same : other = key
    · subst same
      simp [running]
    · simp [same]

theorem probing_startProbes (specs : List (BackendKey × ProbeSpec)) (checker : HealthChecker)
    (other : BackendKey) :
    (specs.foldl (fun checker (key, spec) => checker.startProbe key spec) checker).probing other =
      (checker.probing other).or ((specs.find? (·.1 = other)).map Prod.snd) := by
  induction specs generalizing checker with
  | nil => simp
  | cons head specs ih =>
    obtain ⟨key, spec⟩ := head
    rw [List.foldl_cons, ih, probing_startProbe, List.find?_cons]
    by_cases same : key = other
    · subst same
      simp
    · simp only [same, Ne.symm same, if_false, Option.or_none, decide_false]

/-- After reconciling, the loops are exactly those asked for. -/
theorem probing_reconcile (checker : HealthChecker) (pools : List CheckedPool)
    (key : BackendKey) :
    (checker.reconcile pools).probing key = (desiredProbes pools).lookup key := by
  rw [reconcile, probing_startProbes, HashMap.find?_toList]
  simp only [probing, HashMap.lookup_retain]
  cases running : checker.tasks.lookup key with
  | none => simp
  | some probe =>
    cases wanted : (desiredProbes pools).lookup key with
    | none => simp [Option.filter, unchanged, wanted]
    | some spec =>
      cases same : unchanged (desiredProbes pools) key probe with
      | false => simp [Option.filter, same]
      | true =>
        simp only [unchanged, wanted, Bool.and_eq_true, beq_iff_eq] at same
        simp [Option.filter, unchanged, wanted, ← same.1, ← same.2]

theorem lookup_startProbes (specs : List (BackendKey × ProbeSpec))
    {running : RunningProbe} (runs : checker.tasks.lookup key = some running) :
    (specs.foldl (fun checker (key, spec) => checker.startProbe key spec) checker).tasks.lookup
      key = some running := by
  induction specs generalizing checker with
  | nil => exact runs
  | cons head specs ih =>
    apply ih
    simp only [startProbe]
    split
    · exact runs
    · rename_i missing
      have differ : key ≠ head.1 := by
        rintro rfl
        rw [missing] at runs
        cases runs
      rwa [HashMap.lookup_insert, if_neg differ]

theorem lookup_reconcile {pools : List CheckedPool}
    {running : RunningProbe} (runs : checker.tasks.lookup key = some running)
    (same : unchanged (desiredProbes pools) key running = true) :
    (checker.reconcile pools).tasks.lookup key = some running := by
  apply lookup_startProbes
  rw [HashMap.lookup_retain, runs, Option.filter_some_pos same]

def taskOf (checker : HealthChecker) (key : BackendKey) : Option Nat :=
  (checker.tasks.lookup key).map RunningProbe.task

theorem startProbe_of_missing
    (missing : checker.tasks.lookup key = none) (spec : ProbeSpec) :
    checker.startProbe key spec =
      ⟨checker.tasks.insert key ⟨spec.1, spec.2, checker.nextTask⟩, checker.nextTask + 1⟩ := by
  rw [startProbe, missing]

theorem taskOf_startProbes (specs : List (BackendKey × ProbeSpec)) (checker : HealthChecker)
    {task : Nat}
    (running : (specs.foldl (fun checker (key, spec) => checker.startProbe key spec)
      checker).taskOf key = some task) :
    checker.taskOf key = some task ∨ checker.nextTask ≤ task := by
  induction specs generalizing checker with
  | nil => exact .inl running
  | cons head specs ih =>
    obtain ⟨other, spec⟩ := head
    cases known : checker.tasks.lookup other with
    | some probe =>
      have same : checker.startProbe other spec = checker := by simp [startProbe, known]
      exact ih checker (by simpa [same] using running)
    | none =>
      simp only [List.foldl_cons, startProbe_of_missing known] at running
      cases ih _ running with
      | inr later => exact .inr ((Nat.le_succ _).trans later)
      | inl here =>
        simp only [taskOf, HashMap.lookup_insert] at here ⊢
        split at here
        · simp only [Option.map_some, Option.some.injEq] at here
          exact .inr (by omega)
        · exact .inl here

theorem taskOf_reconcile (checker : HealthChecker) (pools : List CheckedPool)
    {task : Nat} (running : (checker.reconcile pools).taskOf key = some task) :
    checker.taskOf key = some task ∨ checker.nextTask ≤ task := by
  cases taskOf_startProbes _ _ running with
  | inr later => exact .inr later
  | inl kept =>
    left
    simp only [taskOf, HashMap.lookup_retain, Option.map_eq_some_iff] at kept ⊢
    obtain ⟨probe, found, same⟩ := kept
    exact ⟨probe, (Option.filter_eq_some_iff.mp found).1, same⟩

theorem nextTask_reconcile (checker : HealthChecker) (pools : List CheckedPool) :
    checker.nextTask ≤ (checker.reconcile pools).nextTask := by
  suffices started : ∀ (specs : List (BackendKey × ProbeSpec)) (checker : HealthChecker),
      checker.nextTask ≤
        (specs.foldl (fun checker (key, spec) => checker.startProbe key spec) checker).nextTask from
    started (desiredProbes pools).toList
      { checker with tasks := checker.tasks.retain (unchanged (desiredProbes pools)) }
  intro specs
  induction specs with
  | nil => exact fun checker => le_rfl
  | cons head specs ih =>
    intro checker
    have one : checker.nextTask ≤ (checker.startProbe head.1 head.2).nextTask := by
      unfold startProbe
      split
      · exact le_rfl
      · exact Nat.le_succ _
    exact one.trans (ih _)

end HealthChecker

/-! ## What the pools ask for -/

def memberships (pools : List CheckedPool) (key : BackendKey) : List CheckedPool :=
  pools.flatMap fun pool => (pool.backends.filter (· = key)).map fun _ => pool

/-- One loop per backend of a pool, with the check of its first pool, reporting
    under all of them. -/
def probeFor (pools : List CheckedPool) (key : BackendKey) : Option ProbeSpec :=
  match memberships pools key with
  | [] => none
  | first :: rest => some (first.check, (first :: rest).map CheckedPool.id)

private def ask (desired : HashMap BackendKey ProbeSpec) (member : BackendKey × CheckedPool) :
    HashMap BackendKey ProbeSpec :=
  desired.update member.1 (member.2.check, []) fun spec => (spec.1, spec.2 ++ [member.2.id])

private def members (pools : List CheckedPool) : List (BackendKey × CheckedPool) :=
  pools.flatMap fun pool => pool.backends.map fun key => (key, pool)

private theorem desiredProbes_eq (pools : List CheckedPool) :
    desiredProbes pools = (members pools).foldl ask ∅ := by
  simp only [desiredProbes, members, List.foldl_flatMap, List.foldl_map]
  rfl

private theorem memberships_eq (pools : List CheckedPool) (key : BackendKey) :
    memberships pools key = ((members pools).filter (·.1 = key)).map Prod.snd := by
  simp only [memberships, members, List.filter_flatMap, List.map_flatMap, List.filter_map,
    List.map_map]
  rfl

private theorem lookup_asked (asked : List (BackendKey × CheckedPool)) (key : BackendKey) :
    (asked.foldl ask ∅).lookup key =
      match (asked.filter (·.1 = key)).map Prod.snd with
      | [] => none
      | first :: rest => some (first.check, (first :: rest).map CheckedPool.id) := by
  induction asked using List.reverseRecOn with
  | nil => rfl
  | append_singleton asked member ih =>
    obtain ⟨other, pool⟩ := member
    rw [List.foldl_append, List.foldl_cons, List.foldl_nil, ask, HashMap.lookup_update,
      List.filter_append, List.map_append]
    by_cases same : key = other
    · subst same
      rw [if_pos rfl, ih]
      cases (asked.filter (·.1 = key)).map Prod.snd <;> simp
    · rw [if_neg same, ih]
      simp [Ne.symm same]

theorem lookup_desiredProbes (pools : List CheckedPool) (key : BackendKey) :
    (desiredProbes pools).lookup key = probeFor pools key := by
  rw [desiredProbes_eq, lookup_asked, probeFor, memberships_eq]

theorem mem_backends_of_taskOf {pools : List CheckedPool}
    {task : Nat} (running : (checker.reconcile pools).taskOf key = some task) :
    ∃ pool ∈ pools, key ∈ pool.backends := by
  obtain ⟨probe, found, _⟩ := Option.map_eq_some_iff.mp running
  have probing := HealthChecker.probing_reconcile checker pools key
  rw [HealthChecker.probing, found, lookup_desiredProbes, probeFor] at probing
  cases members : memberships pools key with
  | nil => simp [members] at probing
  | cons first rest =>
    have member : first ∈ memberships pools key := by simp [members]
    simp only [memberships, List.mem_flatMap, List.mem_map, List.mem_filter,
      decide_eq_true_eq] at member
    obtain ⟨pool, listed, other, ⟨inside, same⟩, _⟩ := member
    exact ⟨pool, listed, same ▸ inside⟩

end Gfe
