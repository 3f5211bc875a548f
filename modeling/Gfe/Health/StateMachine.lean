import Gfe.Health.Checker

/-! # The status of a backend

A backend's probes pass, fail or say that it drains. What was seen last is counted,
up to the largest number a counter holds, and the committed status changes when a
count reaches its threshold, or at once when the backend drains.
-/

namespace Gfe

inductive ProbeResult where
  | pass
  | fail
  | drain
  deriving DecidableEq, Repr

structure BackendHealth where
  status : HealthStatus
  consecutiveSuccess : UInt32
  consecutiveFailure : UInt32
  deriving DecidableEq, Repr

/-- `saturating_add(1)`. -/
def countUp (n : UInt32) : UInt32 := if n = 4294967295 then n else n + 1

namespace BackendHealth

/-- Nothing is known of the backend. -/
def initial : BackendHealth := ⟨.unknown, 0, 0⟩

/-- The committed status from now on, and whether it is a new one. -/
def commit (bh : BackendHealth) (reached : Bool) (status : HealthStatus) :
    Option HealthStatus × BackendHealth :=
  if bh.status ≠ status ∧ reached then (some status, { bh with status := status })
  else (none, bh)

/-- Record the outcome of a probe. A status is returned when it is a new one. -/
def record (bh : BackendHealth) (outcome : ProbeResult)
    (healthyThreshold unhealthyThreshold : UInt32) : Option HealthStatus × BackendHealth :=
  match outcome with
  | .drain =>
    { bh with consecutiveSuccess := 0, consecutiveFailure := 0 }.commit true .draining
  | .pass =>
    let bh := { bh with
      consecutiveSuccess := countUp bh.consecutiveSuccess
      consecutiveFailure := 0 }
    bh.commit (healthyThreshold ≤ bh.consecutiveSuccess) .healthy
  | .fail =>
    let bh := { bh with
      consecutiveFailure := countUp bh.consecutiveFailure
      consecutiveSuccess := 0 }
    bh.commit (unhealthyThreshold ≤ bh.consecutiveFailure) .unhealthy

def recordAll (healthyThreshold unhealthyThreshold : UInt32) (outcomes : List ProbeResult) :
    BackendHealth :=
  outcomes.foldl (fun bh outcome => (bh.record outcome healthyThreshold unhealthyThreshold).2) initial

end BackendHealth

/-! ## Histories -/

/-- What the last of these outcomes decides. A run counts from its first outcome on, so it
    is of at least `n` outcomes when it ends in `n` of them. -/
inductive Decides (healthyThreshold unhealthyThreshold : UInt32) :
    List ProbeResult → HealthStatus → Prop where
  | drain (past : List ProbeResult) :
      Decides healthyThreshold unhealthyThreshold (past ++ [.drain]) .draining
  | pass (past : List ProbeResult) (n : Nat) : 0 < n → healthyThreshold.toNat ≤ n →
      Decides healthyThreshold unhealthyThreshold (past ++ List.replicate n .pass) .healthy
  | fail (past : List ProbeResult) (n : Nat) : 0 < n → unhealthyThreshold.toNat ≤ n →
      Decides healthyThreshold unhealthyThreshold (past ++ List.replicate n .fail) .unhealthy

/-- The status a history of outcomes leads to: the one that was decided last, if one was. -/
inductive LeadsTo (healthyThreshold unhealthyThreshold : UInt32) (outcomes : List ProbeResult) :
    HealthStatus → Prop where
  | undecided : (∀ past status, past <+: outcomes →
        ¬ Decides healthyThreshold unhealthyThreshold past status) →
      LeadsTo healthyThreshold unhealthyThreshold outcomes .unknown
  | decided {past : List ProbeResult} {status : HealthStatus} : past <+: outcomes →
      Decides healthyThreshold unhealthyThreshold past status →
      (∀ later status', later <+: outcomes → past.length < later.length →
        ¬ Decides healthyThreshold unhealthyThreshold later status') →
      LeadsTo healthyThreshold unhealthyThreshold outcomes status

section

variable {healthyThreshold unhealthyThreshold : UInt32} {outcomes : List ProbeResult}
  {status status' : HealthStatus}

/-! ### Runs -/

/-- How often an outcome was seen last. -/
def runOf (outcome : ProbeResult) (outcomes : List ProbeResult) : Nat :=
  (outcomes.reverse.takeWhile (· = outcome)).length

@[simp] theorem runOf_nil (outcome : ProbeResult) : runOf outcome [] = 0 := rfl

@[simp] theorem runOf_append_self (outcome : ProbeResult) (outcomes : List ProbeResult) :
    runOf outcome (outcomes ++ [outcome]) = runOf outcome outcomes + 1 := by
  simp [runOf]

theorem runOf_append_of_ne {outcome other : ProbeResult} (differ : other ≠ outcome)
    (outcomes : List ProbeResult) : runOf outcome (outcomes ++ [other]) = 0 := by
  simp [runOf, differ]

theorem le_runOf_iff {outcome : ProbeResult} {n : Nat} :
    n ≤ runOf outcome outcomes ↔ ∃ past, outcomes = past ++ List.replicate n outcome := by
  induction outcomes using List.reverseRecOn generalizing n with
  | nil =>
    cases n with
    | zero => simp
    | succ n => simp [List.replicate_succ]
  | append_singleton outcomes last ih =>
    cases n with
    | zero => simp
    | succ n =>
      by_cases same : last = outcome
      · subst same
        simp [ih, List.replicate_succ', ← List.append_assoc]
      · simp [runOf_append_of_ne same, List.replicate_succ', ← List.append_assoc, same]

/-! ### Decisions -/

theorem decides_iff :
    Decides healthyThreshold unhealthyThreshold outcomes status ↔
      (status = .draining ∧ 0 < runOf .drain outcomes) ∨
      (status = .healthy ∧ 0 < runOf .pass outcomes ∧
        healthyThreshold.toNat ≤ runOf .pass outcomes) ∨
      (status = .unhealthy ∧ 0 < runOf .fail outcomes ∧
        unhealthyThreshold.toNat ≤ runOf .fail outcomes) := by
  constructor
  · intro decides
    cases decides with
    | drain past => simp
    | pass past n some reached =>
      have run : n ≤ runOf .pass (past ++ List.replicate n .pass) := le_runOf_iff.mpr ⟨past, rfl⟩
      exact .inr (.inl ⟨rfl, by omega, by omega⟩)
    | fail past n some reached =>
      have run : n ≤ runOf .fail (past ++ List.replicate n .fail) := le_runOf_iff.mpr ⟨past, rfl⟩
      exact .inr (.inr ⟨rfl, by omega, by omega⟩)
  · rintro (⟨rfl, some⟩ | ⟨rfl, some, reached⟩ | ⟨rfl, some, reached⟩)
    · obtain ⟨past, history⟩ := le_runOf_iff.mp some
      rw [history]
      exact .drain past
    · obtain ⟨past, history⟩ := le_runOf_iff.mp (le_refl (runOf .pass outcomes))
      generalize runOf .pass outcomes = n at *
      rw [history]
      exact .pass past n some reached
    · obtain ⟨past, history⟩ := le_runOf_iff.mp (le_refl (runOf .fail outcomes))
      generalize runOf .fail outcomes = n at *
      rw [history]
      exact .fail past n some reached

theorem decides_drain :
    Decides healthyThreshold unhealthyThreshold (outcomes ++ [.drain]) status ↔ status = .draining := by
  simp [decides_iff, runOf_append_of_ne]

theorem decides_pass :
    Decides healthyThreshold unhealthyThreshold (outcomes ++ [.pass]) status ↔
      status = .healthy ∧ healthyThreshold.toNat ≤ runOf .pass outcomes + 1 := by
  simp [decides_iff, runOf_append_of_ne]

theorem decides_fail :
    Decides healthyThreshold unhealthyThreshold (outcomes ++ [.fail]) status ↔
      status = .unhealthy ∧ unhealthyThreshold.toNat ≤ runOf .fail outcomes + 1 := by
  simp [decides_iff, runOf_append_of_ne]

theorem not_decides_nil : ¬ Decides healthyThreshold unhealthyThreshold [] status := by
  simp [decides_iff]

theorem Decides.unique (one : Decides healthyThreshold unhealthyThreshold outcomes status)
    (other : Decides healthyThreshold unhealthyThreshold outcomes status') : status = status' := by
  cases outcomes using List.reverseRecOn with
  | nil => exact absurd one not_decides_nil
  | append_singleton outcomes last =>
    cases last with
    | drain => rw [decides_drain.mp one, decides_drain.mp other]
    | pass => rw [(decides_pass.mp one).1, (decides_pass.mp other).1]
    | fail => rw [(decides_fail.mp one).1, (decides_fail.mp other).1]

/-! ### The status a history leads to -/

theorem LeadsTo.unique (one : LeadsTo healthyThreshold unhealthyThreshold outcomes status)
    (other : LeadsTo healthyThreshold unhealthyThreshold outcomes status') : status = status' := by
  cases one with
  | undecided never =>
    cases other with
    | undecided => rfl
    | decided past decides _ => exact absurd decides (never _ _ past)
  | @decided first _ before decides last =>
    cases other with
    | undecided never => exact absurd decides (never _ _ before)
    | @decided second _ before' decides' last' =>
      have same : first = second := by
        rcases lt_trichotomy first.length second.length with less | same | more
        · exact absurd decides' (last _ _ before' less)
        · exact (List.prefix_of_prefix_length_le before before' same.le).eq_of_length same
        · exact absurd decides (last' _ _ before more)
      subst same
      exact decides.unique decides'

theorem prefix_append_singleton {past : List ProbeResult} {last : ProbeResult} :
    past <+: outcomes ++ [last] ↔ past <+: outcomes ∨ past = outcomes ++ [last] := by
  rw [List.prefix_concat_iff]
  exact or_comm

theorem LeadsTo.decide {last : ProbeResult}
    (decides : Decides healthyThreshold unhealthyThreshold (outcomes ++ [last]) status) :
    LeadsTo healthyThreshold unhealthyThreshold (outcomes ++ [last]) status := by
  apply LeadsTo.decided List.prefix_rfl decides
  intro later _ before longer
  have := before.length_le
  omega

theorem LeadsTo.keep (before : LeadsTo healthyThreshold unhealthyThreshold outcomes status)
    {last : ProbeResult}
    (nothing : ∀ status, ¬ Decides healthyThreshold unhealthyThreshold (outcomes ++ [last]) status) :
    LeadsTo healthyThreshold unhealthyThreshold (outcomes ++ [last]) status := by
  cases before with
  | undecided never =>
    apply LeadsTo.undecided
    intro past status here
    cases prefix_append_singleton.mp here with
    | inl before => exact never past status before
    | inr all => exact all ▸ nothing status
  | decided here decides last =>
    refine .decided (here.trans (List.prefix_append _ _)) decides ?_
    intro later status' here longer
    cases prefix_append_singleton.mp here with
    | inl before => exact last later status' before longer
    | inr all => exact all ▸ nothing status'

/-! ## Recording -/

theorem toNat_countUp (n : UInt32) : (countUp n).toNat = min (n.toNat + 1) (2 ^ 32 - 1) := by
  have bound := n.toNat_lt
  unfold countUp
  split
  · subst n
    rfl
  · rename_i small
    have : n.toNat ≠ 4294967295 := fun same => small (UInt32.toNat_inj.mp same)
    rw [UInt32.toNat_add, UInt32.toNat_one]
    omega

namespace BackendHealth

variable {bh : BackendHealth}

/-- The counters hold the runs a history ends in, as far as they go. -/
structure Counts (bh : BackendHealth) (outcomes : List ProbeResult) : Prop where
  success : bh.consecutiveSuccess.toNat = min (runOf .pass outcomes) (2 ^ 32 - 1)
  failure : bh.consecutiveFailure.toNat = min (runOf .fail outcomes) (2 ^ 32 - 1)

theorem Counts.initial : Counts initial [] := ⟨rfl, rfl⟩

@[simp] theorem commit_consecutiveSuccess (reached : Bool) (status : HealthStatus) :
    (bh.commit reached status).2.consecutiveSuccess = bh.consecutiveSuccess := by
  unfold commit
  split <;> rfl

@[simp] theorem commit_consecutiveFailure (reached : Bool) (status : HealthStatus) :
    (bh.commit reached status).2.consecutiveFailure = bh.consecutiveFailure := by
  unfold commit
  split <;> rfl

theorem commit_status (reached : Bool) (status : HealthStatus) :
    (bh.commit reached status).2.status = if reached then status else bh.status := by
  unfold commit
  by_cases same : bh.status = status <;> cases reached <;> simp [same]

theorem commit_fst (reached : Bool) (status : HealthStatus) :
    (bh.commit reached status).1 =
      if (bh.commit reached status).2.status = bh.status then none
      else some (bh.commit reached status).2.status := by
  unfold commit
  split
  · rename_i new
    simp [Ne.symm new.1]
  · simp

theorem Counts.record (counts : Counts bh outcomes) (outcome : ProbeResult) :
    Counts (bh.record outcome healthyThreshold unhealthyThreshold).2 (outcomes ++ [outcome]) := by
  obtain ⟨success, failure⟩ := counts
  constructor
  · cases outcome with
    | pass =>
      simp only [BackendHealth.record, commit_consecutiveSuccess, toNat_countUp, success,
        runOf_append_self]
      omega
    | fail | drain => simp [BackendHealth.record, runOf_append_of_ne]
  · cases outcome with
    | pass => simp [BackendHealth.record, runOf_append_of_ne]
    | fail =>
      simp only [BackendHealth.record, commit_consecutiveFailure, toNat_countUp, failure,
        runOf_append_self]
      omega
    | drain => simp [BackendHealth.record, runOf_append_of_ne]

/-- A threshold fits into a counter, so a counter that is full has reached it. -/
theorem threshold_le {threshold counter : UInt32} {n : Nat}
    (count : counter.toNat = min n (2 ^ 32 - 1)) : threshold ≤ countUp counter ↔ threshold.toNat ≤ n + 1 := by
  have bound := threshold.toNat_lt
  rw [UInt32.le_iff_toNat_le, toNat_countUp, count]
  omega

/-- The new status is the one the outcome decides, or the old one. -/
theorem committed_record (counts : Counts bh outcomes)
    (before : LeadsTo healthyThreshold unhealthyThreshold outcomes bh.status)
    (outcome : ProbeResult) :
    LeadsTo healthyThreshold unhealthyThreshold (outcomes ++ [outcome])
      (bh.record outcome healthyThreshold unhealthyThreshold).2.status := by
  cases outcome with
  | drain =>
    rw [record, commit_status, if_pos rfl]
    exact .decide (decides_drain.mpr rfl)
  | pass =>
    rw [record, commit_status]
    simp only [decide_eq_true_eq, threshold_le counts.success]
    split
    · exact .decide (decides_pass.mpr ⟨rfl, ‹_›⟩)
    · exact before.keep fun status decides => absurd (decides_pass.mp decides).2 ‹_›
  | fail =>
    rw [record, commit_status]
    simp only [decide_eq_true_eq, threshold_le counts.failure]
    split
    · exact .decide (decides_fail.mpr ⟨rfl, ‹_›⟩)
    · exact before.keep fun status decides => absurd (decides_fail.mp decides).2 ‹_›

theorem recordAll_append (healthyThreshold unhealthyThreshold : UInt32) (outcomes : List ProbeResult)
    (outcome : ProbeResult) :
    recordAll healthyThreshold unhealthyThreshold (outcomes ++ [outcome]) =
      ((recordAll healthyThreshold unhealthyThreshold outcomes).record outcome healthyThreshold
        unhealthyThreshold).2 := by
  simp [recordAll]

theorem committed_recordAll (healthyThreshold unhealthyThreshold : UInt32)
    (outcomes : List ProbeResult) :
    Counts (recordAll healthyThreshold unhealthyThreshold outcomes) outcomes ∧
      LeadsTo healthyThreshold unhealthyThreshold outcomes
        (recordAll healthyThreshold unhealthyThreshold outcomes).status := by
  induction outcomes using List.reverseRecOn with
  | nil =>
    refine ⟨.initial, .undecided ?_⟩
    intro past status here
    rw [List.prefix_nil.mp here]
    exact not_decides_nil
  | append_singleton outcomes outcome ih =>
    rw [recordAll_append]
    exact ⟨ih.1.record outcome, committed_record ih.1 ih.2 outcome⟩

theorem record_fst (bh : BackendHealth) (outcome : ProbeResult) :
    (bh.record outcome healthyThreshold unhealthyThreshold).1 =
      if (bh.record outcome healthyThreshold unhealthyThreshold).2.status = bh.status then none
      else some (bh.record outcome healthyThreshold unhealthyThreshold).2.status := by
  cases outcome with
  | drain => exact commit_fst _ _
  | pass => exact commit_fst _ _
  | fail => exact commit_fst _ _

/-- The committed status is what the outcomes decided last, and a probe's outcome is
    answered with a status exactly when it changes it. -/
theorem status_follows_outcomes (healthyThreshold unhealthyThreshold : UInt32)
    (outcomes : List ProbeResult) :
    (∀ status, (recordAll healthyThreshold unhealthyThreshold outcomes).status = status ↔
      LeadsTo healthyThreshold unhealthyThreshold outcomes status) ∧
    ∀ outcome, ((recordAll healthyThreshold unhealthyThreshold outcomes).record outcome
        healthyThreshold unhealthyThreshold).1 =
      if (recordAll healthyThreshold unhealthyThreshold (outcomes ++ [outcome])).status =
          (recordAll healthyThreshold unhealthyThreshold outcomes).status then none
      else some (recordAll healthyThreshold unhealthyThreshold (outcomes ++ [outcome])).status := by
  obtain ⟨_, committed⟩ := committed_recordAll healthyThreshold unhealthyThreshold outcomes
  constructor
  · intro status
    constructor
    · intro same
      exact same ▸ committed
    · exact committed.unique
  · intro outcome
    rw [recordAll_append]
    exact record_fst _ _

end BackendHealth

end

end Gfe
