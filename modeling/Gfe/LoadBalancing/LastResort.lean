import Gfe.LoadBalancing.LeastRequest

/-! # Backends that weigh nothing

A backend that weighs nothing is to be selected only if nothing else can be. By turns and
by the ring it is. By load it counts as if it weighed one, so there it depends on whether
another backend is loaded less than all that weigh nothing.
-/

namespace Gfe

open Interleaving

section Built

variable {ι : Type} {crates : Crates} {spec : PoolSpec Scheme} {pool : Pool Scheme} {r : ι}
  {healthy : List Nat}

theorem selects_choose_lastResort (built : pool.Built crates spec) (order : ScoreOrder)
    (unmixed : pool.policy = .leastRequest →
      (∀ i ∈ healthy, pool.weightAt i = 0) ∨ ∀ i ∈ healthy, pool.weightAt i ≠ 0)
    (hashKey : Option UInt64) (within : ∀ i ∈ healthy, i < pool.backends.length)
    (some : healthy ≠ []) :
    Selects r (choose order pool hashKey healthy : Fallible (PoolState ι) Panic Nat)
      (LastResort pool healthy) := by
  cases policy : pool.policy with
  | roundRobin =>
    simp only [choose, policy]
    exact selects_roundRobin_lastResort built.toldUniform within some
  | leastRequest =>
    refine (selects_choose order hashKey within some).weaken ?_
    intro idx member nothing
    exact (unmixed policy).resolve_right fun heavy => heavy idx member nothing
  | ringHash =>
    simp only [choose, policy]
    refine .bind (.ofExcept (built.ring_eq policy ▸ ringPick_buildRing ..) rfl) ?_
    rintro _ rfl
    cases walked : (Ring.round (fun p => p.hash < hashKey.getD 0)
        (ringPoints crates pool.backends)).find? (healthy.contains ·.backend) with
    | some point =>
      have member := Ring.mem_round.mp (List.mem_of_find?_eq_some walked)
      apply Selects.pure
      intro nothing
      exact absurd nothing
        ((weight_pos_iff_on_ring crates pool point.backend).mpr ⟨point, member, rfl⟩)
    | none =>
      -- no healthy backend has a point, so none weighs anything
      refine (selects_roundRobin within some).weaken ?_
      intro idx _ _ i other
      by_contra heavy
      obtain ⟨point, member, rfl⟩ := (weight_pos_iff_on_ring crates pool i).mp heavy
      have missed := List.find?_eq_none.mp walked point (Ring.mem_round.mpr member)
      simp [other] at missed

/-- Of the backends that are selectable none weighs anything, or one that does is loaded less than
    every one that does not; of two with the same load the first is taken. -/
def PrefersWeighted {α : Type} [LinearOrder α] (rank : Score → α) (pool : Pool Scheme)
    (s : PoolState ι) : Prop :=
  (∀ i ∈ pool.healthy s, pool.weightAt i = 0) ∨
    ∃ j ∈ pool.healthy s, pool.weightAt j ≠ 0 ∧ ∀ i ∈ pool.healthy s, pool.weightAt i = 0 →
      rank (pool.scoreAt s j) < rank (pool.scoreAt s i) ∨
        rank (pool.scoreAt s j) = rank (pool.scoreAt s i) ∧ j < i

theorem lastResort_iff_of_least {α : Type} [LinearOrder α] {rank : Score → α} {s : PoolState ι}
    {idx : Nat} (member : idx ∈ pool.healthy s)
    (least : ∀ j ∈ pool.healthy s, rank (pool.scoreAt s idx) ≤ rank (pool.scoreAt s j) ∧
      (j < idx → ¬ rank (pool.scoreAt s j) ≤ rank (pool.scoreAt s idx))) :
    LastResort pool (pool.healthy s) idx ↔ PrefersWeighted rank pool s := by
  constructor
  · intro last
    by_cases nothing : pool.weightAt idx = 0
    · exact .inl (last nothing)
    · refine .inr ⟨idx, member, nothing, ?_⟩
      intro i other light
      obtain ⟨less, before⟩ := least i other
      have apart : i ≠ idx := fun same => nothing (same ▸ light)
      obtain less | same := less.lt_or_eq
      · exact .inl less
      · refine .inr ⟨same, lt_of_le_of_ne (not_lt.mp fun first => before first same.ge) apart.symm⟩
  · rintro (light | ⟨j, other, heavy, first⟩) nothing
    · exact light
    · obtain ⟨less, before⟩ := least j other
      obtain more | ⟨same, earlier⟩ := first idx member nothing
      · exact absurd less more.not_ge
      · exact absurd same.le (before earlier)

theorem Selects.exec {α : Type} {p : Fallible (PoolState ι) Panic α} {good : α → Prop}
    (selects : Selects r p good) (s : PoolState ι) :
    ∃ value s', Fallible.exec p s = (.ok value, s') ∧ good value := by
  have ended := (selects _ s rfl).sound (fun _ _ => False.elim)
    (Program.steps_run (fun _ _ => False) (ExceptT.run p) s)
  obtain ⟨result, s', run⟩ : ∃ result s', Fallible.exec p s = (result, s') := ⟨_, _, rfl⟩
  rw [show (ExceptT.run p).run s = (result, s') from run] at ended
  cases result with
  | error panic => exact ended.elim
  | ok value => exact ⟨value, s', run, ended.1⟩

variable [DecidableEq ι]

/-- What a selection that nobody disturbs chooses among the backends that are selectable. -/
theorem exec_select_lastResort {α : Type} [LinearOrder α] (rank : Score → α)
    (built : pool.Built crates spec) (hashKey : Option UInt64) (r : ι) (s : PoolState ι)
    (some : pool.healthy s ≠ []) :
    ∃ idx guard s', ∃ here : idx < pool.backends.length,
      Fallible.exec (select (fun a b => compare (rank a) (rank b)) pool r hashKey) s =
        (.ok (Option.some ⟨pool.backends[idx], guard⟩), s') ∧
      (LastResort pool (pool.healthy s) idx ↔
        (pool.policy = .leastRequest → PrefersWeighted rank pool s)) := by
  by_cases policy : pool.policy = .leastRequest
  · have follows : ScoreOrder.Follows (fun a b => compare (rank a) (rank b)) pool s
        fun i j => rank (pool.scoreAt s i) ≤ rank (pool.scoreAt s j) :=
      ⟨fun _ _ => compare_gt_iff_gt.trans not_le.symm, fun _ _ => le_total _ _,
        fun _ _ _ => le_trans⟩
    obtain ⟨idx, s', here, member, ended, _, _, _, least⟩ :=
      exec_select_leastRequest built.aligned policy follows r hashKey some
    refine ⟨idx, _, s', here, ended, ?_⟩
    rw [lastResort_iff_of_least member least]
    exact ⟨fun prefers _ => prefers, fun prefers => prefers policy⟩
  · obtain ⟨t, read, _⟩ := exec_healthyIndices_range built.aligned r s
    have within : ∀ i ∈ pool.healthy s, i < pool.backends.length := fun _ => lt_of_mem_healthy
    obtain ⟨idx, u, chosen, member, last⟩ := (((selects_choose _ hashKey within some).and
      (selects_choose_lastResort built (fun a b => compare (rank a) (rank b))
        (fun same => absurd same policy) hashKey within some)) : Selects r _ _).exec t
    obtain ⟨guard, v, ended, _⟩ := exec_select read some chosen (within idx member)
    exact ⟨idx, guard, v, within idx member, ended,
      iff_of_true last fun same => absurd same policy⟩

/-- A selection that nobody disturbs, from any state: a backend that weighs nothing is taken only
    if nothing else is selectable, exactly if the pool does not go by load, or its loads prefer one
    that weighs something. Whatever others do meanwhile, it is so if those that were read as
    selectable all weigh nothing, or all something. -/
theorem weightless_is_last_resort_iff {specs : List (PoolSpec Scheme)}
    {env : World → World → Prop} {w w' : World} {set : PoolSet Scheme}
    (built : Program.Steps env (ExceptT.run (PoolSet.build crates specs), w) (.ret (.ok set), w'))
    {id : Str} (found : set.get id = some pool) (hashKey : Option UInt64) (r : ι) :
    (∀ (α : Type) [LinearOrder α] (rank : Score → α) (s : PoolState ι), ∃ answer s',
      Fallible.exec (select (fun a b => compare (rank a) (rank b)) pool r hashKey) s =
        (.ok answer, s') ∧
      ((∀ selection, answer = some selection → selection.backend.weight = 0 →
          ∀ i ∈ pool.healthy s, pool.weightAt i = 0) ↔
        (pool.policy = .leastRequest → PrefersWeighted rank pool s))) ∧
    ∀ (order : ScoreOrder) (others : PoolState ι → PoolState ι → Prop),
      (∀ s s', others s s' → (s'.ledger r).reads = (s.ledger r).reads) →
      ∀ s s' result, Program.Steps others (ExceptT.run (select order pool r hashKey), s)
        (.ret result, s') →
      ∃ answer reads, result = .ok answer ∧ (s'.ledger r).reads = (s.ledger r).reads ++ reads ∧
        AnswersFrom pool reads answer ∧
        ((pool.policy = .leastRequest → (∀ i, (i, true) ∈ reads → pool.weightAt i = 0) ∨
            ∀ i, (i, true) ∈ reads → pool.weightAt i ≠ 0) →
          ∀ selection, answer = some selection → selection.backend.weight = 0 →
            ∀ i, (i, true) ∈ reads → pool.weightAt i = 0) := by
  obtain ⟨spec, _, _, from_spec⟩ := built_of_get built found
  constructor
  · intro α _ rank s
    by_cases nobody : pool.healthy s = []
    · obtain ⟨t, read, _⟩ := exec_healthyIndices_range from_spec.aligned r s
      refine ⟨none, t, ?_, iff_of_true (by simp) fun _ => .inl (by simp [nobody])⟩
      rw [select, Fallible.exec_bind_ok read, nobody]
      rfl
    · obtain ⟨idx, guard, s', here, ended, last⟩ :=
        exec_select_lastResort rank from_spec hashKey r s nobody
      refine ⟨_, s', ended, ?_⟩
      rw [← last, LastResort, weightAt_of_lt here]
      simp
  · intro order others kept s s' result selected
    have chooses : ∀ healthy, healthy ≠ [] → (∀ i ∈ healthy, i < pool.backends.length) →
        Selects r (choose order pool hashKey healthy : Fallible (PoolState ι) Panic Nat)
          fun idx => idx ∈ healthy ∧ ((pool.policy = .leastRequest →
            (∀ i ∈ healthy, pool.weightAt i = 0) ∨ ∀ i ∈ healthy, pool.weightAt i ≠ 0) →
            LastResort pool healthy idx) := by
      intro healthy some within
      refine (selects_choose order hashKey within some).and ?_
      by_cases unmixed : pool.policy = .leastRequest →
          (∀ i ∈ healthy, pool.weightAt i = 0) ∨ ∀ i ∈ healthy, pool.weightAt i ≠ 0
      · exact (selects_choose_lastResort from_spec order unmixed hashKey within some).weaken
          fun _ last _ => last
      · exact (selects_choose order hashKey within some).weaken fun _ _ held => absurd held unmixed
    have ended := (ensures_selectBy from_spec.aligned order hashKey r chooses s).sound kept selected
    cases result with
    | error panic => exact ended.elim
    | ok answer =>
      obtain ⟨reads, logged, answered, resort⟩ := ended
      refine ⟨answer, reads, rfl, logged, answered, ?_⟩
      intro unmixed selection chosen nothing i read
      obtain ⟨idx, backend, last⟩ := resort selection chosen
      exact last (by simpa using unmixed) (by simp [Pool.weightAt, backend, nothing]) i
        (by simpa using read)

end Built

/-- A backend that weighs nothing, and one that weighs something. -/
def mixedWeights (policy : Policy) : PoolSpec Scheme :=
  ⟨['p'], policy, [⟨['a'], 80, 0⟩, ⟨['b'], 80, 1⟩], none, none, .http⟩

/-- A pool that takes the least loaded backend sends a request to one that weighs nothing,
    though another is selectable. -/
theorem weightless_before_weighted :
    let pool := (mixedWeights .leastRequest).toPool [] [0, 1]
    let start : PoolState Unit := .new pool (fun _ => .healthy) false 0
    let ended := Fallible.exec (select .exact pool () none) start
    ended.1 = .ok (some ⟨⟨['a'], 80, 0⟩, ⟨some (.backend 0)⟩⟩) ∧
      (ended.2.ledger ()).reads = [(0, true), (1, true)] ∧
      pool.backends[1]? = some ⟨['b'], 80, 1⟩ := by
  decide

/-- One that weighs nothing and one that weighs two, in this order. -/
def weightedSecond : PoolSpec Scheme :=
  ⟨['p'], .leastRequest, [⟨['a'], 80, 0⟩, ⟨['b'], 80, 2⟩], none, none, .http⟩

/-- Of two that are idle, the one that weighs two has the lower load. -/
theorem weighted_before_weightless :
    let pool := weightedSecond.toPool [] [0, 1]
    let start : PoolState Unit := .new pool (fun _ => .healthy) false 0
    let load (score : Score) : ℚ := (score.inflight + 1) / score.weight.toNat
    ∃ answer s', Fallible.exec (select (fun a b => compare (load a) (load b)) pool () none) start =
        (.ok answer, s') ∧
      ∀ selection, answer = some selection → selection.backend.weight = 0 →
        ∀ i ∈ pool.healthy start, pool.weightAt i = 0 := by
  intro pool start load
  have built := Program.steps_run (fun _ _ => False)
    (ExceptT.run (PoolSet.build (.indexed []) [weightedSecond]))
    (.starting (.small [] (.error .notFound) []) ∅)
  have found : (PoolSet.mk (AList.insert ['p'] pool ∅)).get ['p'] = some pool := rfl
  obtain ⟨answer, s', ended, last⟩ :=
    (weightless_is_last_resort_iff built found none ()).1 ℚ load start
  refine ⟨answer, s', ended, last.mpr fun _ => .inr ⟨1, by decide, by decide, ?_⟩⟩
  intro i member light
  have first : ∀ i ∈ pool.healthy start, pool.weightAt i = 0 → i = 0 := by decide
  obtain rfl := first i member light
  have lower : load ⟨0, 2⟩ < load ⟨0, 1⟩ := by decide +kernel
  exact .inl lower

end Gfe
