import Gfe.LoadBalancing.Weights
import Gfe.Lib.Shares

/-! # Sharing by load

A pool that takes the least loaded backend hands its requests out by weight. With
nothing finishing, no backend gets ahead of another by more than one request per
its weight, and the shares come out even whenever they can.
-/

namespace Gfe

open Interleaving

section

variable {ι τ : Type} {pool : Pool τ}

/-- Select for these requests one after the other, by their affinity keys. -/
def selectEach [DecidableEq ι] (order : ScoreOrder) (pool : Pool τ) :
    List (ι × Option UInt64) → Fallible (PoolState ι) Panic (List (Option Selection))
  | [] => pure []
  | (r, hashKey) :: rest => do
    let selection ← select order pool r hashKey
    let others ← selectEach order pool rest
    return selection :: others

/-! ## One selection -/

def divisor (weight : UInt32) : UInt32 := if weight = 0 then 1 else weight

theorem divisor_pos (weight : UInt32) : 0 < (divisor weight).toNat := by
  unfold divisor
  split
  · decide
  · rename_i nonzero
    exact Nat.pos_of_ne_zero fun zero => nonzero (UInt32.toNat_inj.mp zero)

/-- The score of a backend, if it is read now. -/
def Pool.scoreAt (pool : Pool τ) (s : PoolState ι) (i : Nat) : Score :=
  ⟨s.inFlight (.backend i), divisor (pool.weightAt i)⟩

theorem exec_score {i : Nat} (within : i < pool.backends.length) (s : PoolState ι) :
    Fallible.exec (score pool i) s = (.ok (pool.scoreAt s i), s) := by
  rw [Pool.scoreAt, weightAt_of_lt within, score, inflightCounter_of_lt within,
    Fallible.exec_bind_ok (Fallible.exec_ofExcept _ _),
    Fallible.exec_bind_ok (Fallible.exec_lift _ _), index_of_lt within,
    Fallible.exec_bind_ok (Fallible.exec_ofExcept _ _)]
  rfl

/-- The order takes the loads of backends as `le` has them. -/
structure ScoreOrder.Follows (order : ScoreOrder) (pool : Pool τ) (s : PoolState ι)
    (le : Nat → Nat → Prop) : Prop where
  gt_iff : ∀ i j, order (pool.scoreAt s i) (pool.scoreAt s j) = .gt ↔ ¬ le i j
  total : ∀ i j, le i j ∨ le j i
  trans : ∀ i j k, le i j → le j k → le i k

/-- A selection by load takes the first of the least loaded backends. -/
theorem exec_leastLoaded {order : ScoreOrder} {s : PoolState ι} {le : Nat → Nat → Prop}
    (follows : order.Follows pool s le) {best : Nat} {rest : List Nat}
    (within : ∀ i ∈ best :: rest, i < pool.backends.length)
    (ascending : (best :: rest).Pairwise (· < ·)) :
    ∃ i ∈ best :: rest, Fallible.exec (leastLoaded order pool best rest) s = (.ok i, s) ∧
      ∀ j ∈ best :: rest, le i j ∧ (j < i → ¬ le j i) := by
  induction rest generalizing best with
  | nil =>
    refine ⟨best, List.mem_cons_self, rfl, ?_⟩
    intro j member
    rw [List.mem_singleton.mp member]
    exact ⟨(follows.total best best).elim id id, fun less => absurd less (lt_irrefl best)⟩
  | cons next rest ih =>
    rw [leastLoaded, Fallible.exec_bind_ok (exec_score (within best List.mem_cons_self) s),
      Fallible.exec_bind_ok (exec_score (within next (by simp)) s)]
    obtain ⟨before, later⟩ := List.pairwise_cons.mp ascending
    by_cases less : le best next
    · rw [if_neg fun replaced => (follows.gt_iff best next).mp replaced less]
      obtain ⟨i, member, ended, least⟩ := @ih best
        (fun j member => within j (by grind)) (by grind)
      refine ⟨i, by grind, ended, ?_⟩
      intro j other
      obtain rfl | other := (by grind : j = next ∨ j ∈ best :: rest)
      · have leads := (least best List.mem_cons_self).1
        refine ⟨follows.trans _ _ _ leads less, ?_⟩
        intro behind back
        have first := before _ List.mem_cons_self
        exact (least best List.mem_cons_self).2 (first.trans behind) (follows.trans _ _ _ less back)
      · exact least j other
    · rw [if_pos ((follows.gt_iff best next).mpr less)]
      obtain ⟨i, member, ended, least⟩ := @ih next
        (fun j member => within j (by grind)) later
      refine ⟨i, by grind, ended, ?_⟩
      intro j other
      obtain rfl | other := List.mem_cons.mp other
      · have leads := (least next List.mem_cons_self).1
        refine ⟨follows.trans _ _ _ leads ((follows.total j next).resolve_left less), ?_⟩
        exact fun _ back => less (follows.trans _ _ _ back leads)
      · exact least j other

def NoMoreLoaded (pool : Pool τ) (s : PoolState ι) (i j : Nat) : Prop :=
  (s.inFlight (.backend i) + 1) * (divisor (pool.weightAt j)).toNat ≤
    (s.inFlight (.backend j) + 1) * (divisor (pool.weightAt i)).toNat

theorem ScoreOrder.exact_follows (pool : Pool τ) (s : PoolState ι) :
    ScoreOrder.exact.Follows pool s (NoMoreLoaded pool s) where
  gt_iff i j := by rw [ScoreOrder.exact, compare_gt_iff_gt, NoMoreLoaded, not_le]; rfl
  total i j := le_total _ _
  trans i j k first second := Shares.trans (by exact_mod_cast divisor_pos _) first second
    (Int.natCast_nonneg _) (Int.natCast_nonneg _)

/-- What health a selection sees, and the loads, are the same. -/
structure PoolState.SameLoads (s s' : PoolState ι) : Prop where
  status : s'.status = s.status
  unknown : s'.unknownIsSelectable = s.unknownIsSelectable
  inFlight : s'.inFlight = s.inFlight

/-- What a selection that reads this handle now takes it for. -/
def PoolState.selects (s : PoolState ι) (handle : HandleId) : Bool :=
  (s.status handle).isSelectable s.unknownIsSelectable

/-- The backends that are selectable now. -/
def Pool.healthy (pool : Pool τ) (s : PoolState ι) : List Nat :=
  (List.range pool.backends.length).filter (pool.selectableAt s.selects)

theorem lt_of_mem_healthy {s : PoolState ι} {i : Nat} (member : i ∈ pool.healthy s) :
    i < pool.backends.length :=
  List.mem_range.mp (List.mem_of_mem_filter member)

def Pool.AllSelectable (pool : Pool τ) (s : PoolState ι) : Prop :=
  ∀ handle ∈ pool.health, (s.status handle).isSelectable s.unknownIsSelectable

theorem healthy_of_allSelectable (aligned : pool.Aligned) {s : PoolState ι}
    (selectable : pool.AllSelectable s) : pool.healthy s = List.range pool.backends.length := by
  apply List.filter_eq_self.mpr
  intro i member
  have known : i < pool.health.length := aligned ▸ List.mem_range.mp member
  simp [Pool.selectableAt, known, PoolState.selects, selectable _ (List.getElem_mem known)]

variable [DecidableEq ι]

theorem exec_healthyIndices {indices : List Nat} (r : ι)
    (within : ∀ i ∈ indices, i < pool.health.length) (s : PoolState ι) :
    ∃ s', Fallible.exec (healthyIndices pool r indices) s =
      (.ok (indices.filter (pool.selectableAt s.selects)), s') ∧ s.SameLoads s' := by
  induction indices generalizing s with
  | nil => exact ⟨s, rfl, rfl, rfl, rfl⟩
  | cons i rest ih =>
    have here := within i List.mem_cons_self
    unfold healthyIndices
    rw [index_of_lt here, Fallible.exec_bind_ok (Fallible.exec_ofExcept _ s),
      Fallible.exec_bind_ok (Fallible.exec_lift _ s)]
    -- what is entered in the ledger is not part of what is read
    obtain ⟨s', later, status, unknown, inFlight⟩ :=
      ih (fun j member => within j (List.mem_cons_of_mem _ member))
        (s.note r fun entry => { entry with reads := entry.reads ++ [(i, s.selects pool.health[i])] })
    refine ⟨s', (Fallible.exec_bind_ok later _).trans ?_, status, unknown, inFlight⟩
    rw [List.filter_cons, Pool.selectableAt, List.getElem?_eq_getElem here]
    rfl

theorem exec_healthyIndices_range (aligned : pool.Aligned) (r : ι) (s : PoolState ι) :
    ∃ s', Fallible.exec (healthyIndices pool r (List.range pool.backends.length)) s =
      (.ok (pool.healthy s), s') ∧ s.SameLoads s' :=
  exec_healthyIndices r (fun _ member => aligned ▸ List.mem_range.mp member) s

/-- What is left to a selection once it has chosen. -/
theorem exec_select {order : ScoreOrder} {r : ι} {hashKey : Option UInt64} {s t u : PoolState ι}
    {i : Nat} (read : Fallible.exec (healthyIndices pool r (List.range pool.backends.length)) s =
      (.ok (pool.healthy s), t)) (some : pool.healthy s ≠ [])
    (chosen : Fallible.exec (choose order pool hashKey (pool.healthy s)) t = (.ok i, u))
    (here : i < pool.backends.length) :
    ∃ guard v, Fallible.exec (select order pool r hashKey) s =
        (.ok (Option.some ⟨pool.backends[i], guard⟩), v) ∧
      (pool.policy = .leastRequest →
        guard = ⟨Option.some (.backend i)⟩ ∧ v = u.take r (.backend i)) := by
  obtain ⟨guard, v, counted, guarded⟩ : ∃ guard v,
      Fallible.exec (countAgainst pool r i) u = (.ok guard, v) ∧ (pool.policy = .leastRequest →
        guard = ⟨Option.some (.backend i)⟩ ∧ v = u.take r (.backend i)) := by
    unfold countAgainst
    split
    · rw [inflightCounter_of_lt here]
      exact ⟨_, _, rfl, fun _ => ⟨rfl, rfl⟩⟩
    · rename_i other
      exact ⟨_, _, rfl, fun policy => absurd policy other⟩
  refine ⟨guard, v, ?_, guarded⟩
  have nonempty : ¬ (pool.healthy s).isEmpty = true := by simpa using some
  rw [select, Fallible.exec_bind_ok read, if_neg nonempty, Fallible.exec_bind_ok chosen,
    Fallible.exec_bind_ok counted, index_of_lt here, Fallible.exec_bind_ok (Fallible.exec_ofExcept _ _)]
  rfl

/-- A selection by load takes the first of the least loaded of the backends that are selectable. -/
theorem exec_select_leastRequest (aligned : pool.Aligned) (policy : pool.policy = .leastRequest)
    {order : ScoreOrder} {s : PoolState ι} {le : Nat → Nat → Prop} (follows : order.Follows pool s le)
    (r : ι) (hashKey : Option UInt64) (some : pool.healthy s ≠ []) :
    ∃ i s', ∃ here : i < pool.backends.length, i ∈ pool.healthy s ∧
      Fallible.exec (select order pool r hashKey) s =
        (.ok (Option.some ⟨pool.backends[i], ⟨Option.some (.backend i)⟩⟩), s') ∧
      s'.status = s.status ∧ s'.unknownIsSelectable = s.unknownIsSelectable ∧
      s'.inFlight = Function.update s.inFlight (.backend i) (s.inFlight (.backend i) + 1) ∧
      ∀ j ∈ pool.healthy s, le i j ∧ (j < i → ¬ le j i) := by
  obtain ⟨t, read, same⟩ := exec_healthyIndices_range aligned r s
  obtain ⟨first, rest, all⟩ := List.exists_cons_of_ne_nil some
  have follows' : order.Follows pool t le := by
    have score : pool.scoreAt t = pool.scoreAt s := by
      funext i
      rw [Pool.scoreAt, same.inFlight, ← Pool.scoreAt]
    exact ⟨score ▸ follows.gt_iff, follows.total, follows.trans⟩
  have ascending : (first :: rest).Pairwise (· < ·) :=
    all ▸ List.Pairwise.filter _ List.pairwise_lt_range
  obtain ⟨i, member, chosen, least⟩ := exec_leastLoaded follows'
    (fun i member => lt_of_mem_healthy (all ▸ member)) ascending
  rw [← all] at member least
  have chooses : Fallible.exec (choose order pool hashKey (pool.healthy s)) t = (.ok i, t) := by
    simp only [choose, policy, all, leastRequest]
    exact chosen
  obtain ⟨guard, v, ended, guarded⟩ := exec_select read some chooses (lt_of_mem_healthy member)
  obtain ⟨rfl, rfl⟩ := guarded policy
  refine ⟨i, _, lt_of_mem_healthy member, member, ended, same.status, same.unknown, ?_, least⟩
  rw [← same.inFlight]
  rfl

/-! ## Many selections -/

def sharesHeld (pool : Pool τ) (s : PoolState ι) (i : Fin pool.backends.length) : Int :=
  s.inFlight (.backend i)

def weights (pool : Pool τ) (i : Fin pool.backends.length) : Int := (pool.backends[i].weight.toNat : Int)

theorem weights_pos (positive : ∀ b ∈ pool.backends, 0 < b.weight)
    (i : Fin pool.backends.length) : 0 < weights pool i := by
  have := UInt32.lt_iff_toNat_lt.mp (positive _ (List.getElem_mem i.isLt))
  simpa [weights] using this

theorem sum_weights (pool : Pool τ) :
    ∑ i, weights pool i = ((pool.backends.map fun b => b.weight.toNat).sum : Nat) := by
  simp only [weights, Fin.getElem_fin]
  rw [Fin.sum_univ_fun_getElem pool.backends fun b => (b.weight.toNat : Int), Nat.cast_list_sum,
    List.map_map]
  rfl

theorem divisor_weightAt (positive : ∀ b ∈ pool.backends, 0 < b.weight)
    (i : Fin pool.backends.length) :
    ((divisor (pool.weightAt i)).toNat : Int) = weights pool i := by
  have heavy := positive _ (List.getElem_mem i.isLt)
  rw [weightAt_of_lt i.isLt, divisor, if_neg (UInt32.pos_iff_ne_zero.mp heavy)]
  rfl

/-- What is answered to a request that goes to the backend at this index. -/
def Pool.answerAt (pool : Pool τ) (i : Nat) : Option Selection :=
  pool.backends[i]?.map fun backend => ⟨backend, ⟨some (.backend i)⟩⟩

theorem exec_selectEach (aligned : pool.Aligned) (policy : pool.policy = .leastRequest)
    (positive : ∀ b ∈ pool.backends, 0 < b.weight) (some : pool.backends ≠ [])
    (requests : List (ι × Option UInt64)) {s : PoolState ι} (selectable : pool.AllSelectable s)
    (fair : Shares.Fair (weights pool) (sharesHeld pool s)) :
    ∃ (chosen : List Nat) (s' : PoolState ι), Fallible.exec (selectEach .exact pool requests) s =
        (.ok (chosen.map pool.answerAt), s') ∧
      chosen.length = requests.length ∧
      (∀ i, (i ∈ chosen → i < pool.backends.length) ∧
        s'.inFlight (.backend i) = s.inFlight (.backend i) + chosen.count i) ∧
      Shares.Fair (weights pool) (sharesHeld pool s') ∧
      ∑ i, sharesHeld pool s' i = ∑ i, sharesHeld pool s i + requests.length := by
  induction requests generalizing s with
  | nil => exact ⟨[], s, rfl, rfl, by simp, fair, by simp⟩
  | cons request rest ih =>
    obtain ⟨r, hashKey⟩ := request
    have all := healthy_of_allSelectable aligned selectable
    obtain ⟨i, t, here, _, selected, status, unknown, counted, least⟩ := exec_select_leastRequest
      aligned policy (ScoreOrder.exact_follows pool s) r hashKey (by simpa [all] using some)
    have loads : sharesHeld pool t =
        Function.update (sharesHeld pool s) ⟨i, here⟩ (sharesHeld pool s ⟨i, here⟩ + 1) := by
      funext j
      by_cases same : j = ⟨i, here⟩
      · subst same
        simp [sharesHeld, counted]
      · have apart : (j : Nat) ≠ i := fun equal => same (Fin.ext equal)
        simp [sharesHeld, counted, same, apart]
    have lightest : Shares.Least (weights pool) (sharesHeld pool s) ⟨i, here⟩ := by
      intro j
      have := (least j (all ▸ List.mem_range.mpr j.isLt)).1
      rwa [NoMoreLoaded, divisor_weightAt positive j, divisor_weightAt positive ⟨i, here⟩] at this
    have still : pool.AllSelectable t := by
      intro handle known
      rw [status, unknown]
      exact selectable handle known
    obtain ⟨chosen, s', ended, length, counts, fair', total⟩ :=
      ih still (loads ▸ fair.give (weights_pos positive) lightest)
    refine ⟨i :: chosen, s', ?_, by simp [length], ?_, fair', ?_⟩
    · rw [selectEach, Fallible.exec_bind_ok selected, Fallible.exec_bind_ok ended]
      simp only [List.map_cons, Pool.answerAt, List.getElem?_eq_getElem here]
      rfl
    · intro j
      refine ⟨by grind, ?_⟩
      rw [(counts j).2, counted, List.count_cons]
      by_cases same : i = j
      · simp [same]
        ring
      · simp [same, Ne.symm same]
    · rw [total, loads, Shares.sum_give]
      push_cast [List.length_cons]
      ring

/-- As long as nothing finishes, a pool that takes the least loaded of its backends, all
    selectable, hands its requests out by weight. -/
theorem least_request_shares_by_weight {crates : Crates} {specs : List (PoolSpec Scheme)}
    {env : World → World → Prop} {w w' : World} {set : PoolSet Scheme}
    (built : Program.Steps env (ExceptT.run (PoolSet.build crates specs), w) (.ret (.ok set), w'))
    {id : Str} {pool : Pool Scheme} (found : set.get id = some pool)
    (policy : pool.policy = .leastRequest) (positive : ∀ b ∈ pool.backends, 0 < b.weight)
    {status : HandleId → HealthStatus} {unknownIsSelectable : Bool}
    (selectable : ∀ handle ∈ pool.health, (status handle).isSelectable unknownIsSelectable)
    (random : UInt64) (requests : List (ι × Option UInt64)) :
    let ended := Fallible.exec (selectEach .exact pool requests)
      (.new pool status unknownIsSelectable random)
    let held := fun i => ended.2.inFlight (.backend i)
    (pool.backends ≠ [] → ∃ chosen : List Nat, ended.1 = .ok (chosen.map pool.answerAt) ∧
      chosen.length = requests.length ∧
      ∀ i, (i ∈ chosen → i < pool.backends.length) ∧ held i = chosen.count i) ∧
    (∀ i j a b, pool.backends[i]? = some a → pool.backends[j]? = some b →
      (held i : Rat) / a.weight.toNat ≤ (held j + 1) / b.weight.toNat) ∧
    ∀ k : Nat, requests.length = k * (pool.backends.map fun b => b.weight.toNat).sum →
      ∀ i b, pool.backends[i]? = some b → held i = k * b.weight.toNat := by
  obtain ⟨spec, _, _, from_spec⟩ := built_of_get built found
  intro ended held
  by_cases empty : pool.backends = []
  · simp [empty]
  have idle : Shares.Fair (weights pool)
      (sharesHeld pool (.new pool status unknownIsSelectable random : PoolState ι)) :=
    .zero (weights_pos positive)
  obtain ⟨chosen, s, ran, length, counts, fair, total⟩ :=
    @exec_selectEach _ _ _ _ from_spec.aligned policy positive empty requests
      (.new pool status unknownIsSelectable random) selectable idle
  have final : ended.2 = s := congrArg Prod.snd ran
  refine ⟨fun _ => ⟨chosen, congrArg Prod.fst ran, length, ?_⟩, ?_, ?_⟩
  · intro i
    refine ⟨(counts i).1, ?_⟩
    rw [show held i = s.inFlight (.backend i) from final ▸ rfl, (counts i).2]
    exact zero_add _
  · intro i j a b first second
    obtain ⟨here, rfl⟩ := List.getElem?_eq_some_iff.mp first
    obtain ⟨there, rfl⟩ := List.getElem?_eq_some_iff.mp second
    have less := fair ⟨i, here⟩ ⟨j, there⟩
    have light := weights_pos positive ⟨i, here⟩
    have heavy := weights_pos positive ⟨j, there⟩
    simp only [weights, sharesHeld, Fin.getElem_fin, ← final] at less light heavy
    rw [div_le_div_iff₀ (by exact_mod_cast light) (by exact_mod_cast heavy)]
    exact_mod_cast less
  · intro k whole i b first
    obtain ⟨here, rfl⟩ := List.getElem?_eq_some_iff.mp first
    have shared : ∑ i, sharesHeld pool s i = k * ∑ i, weights pool i := by
      rw [total, sum_weights, whole]
      simp [sharesHeld, PoolState.new]
    have share := fair.exact (weights_pos positive) shared ⟨i, here⟩
    rw [← final] at share
    exact share

end

/-- Two backends, one of them twice as heavy. -/
def oneToTwo : PoolSpec Scheme :=
  ⟨['p'], .leastRequest, [⟨['a'], 80, 1⟩, ⟨['b'], 80, 2⟩], none, none, .http⟩

def sixRequests : Except Panic (List (Option Selection)) × PoolState Unit :=
  Fallible.exec (selectEach .exact (oneToTwo.toPool [] [0, 1]) (List.replicate 6 ((), none)))
    (.new (oneToTwo.toPool [] [0, 1]) (fun _ => .healthy) false 0)

/-- Two of them are sent to the first backend, and four to the second. -/
theorem six_requests_shared_one_to_two :
    ∃ chosen : List Nat, sixRequests.1 = .ok (chosen.map (oneToTwo.toPool [] [0, 1]).answerAt) ∧
      chosen.length = 6 ∧ chosen.count 0 = 2 ∧ chosen.count 1 = 4 := by
  have built := Program.steps_run (fun _ _ => False)
    (ExceptT.run (PoolSet.build (.indexed []) [oneToTwo]))
    (.starting (.small [] (.error .notFound) []) ∅)
  have found : (PoolSet.mk (AList.insert ['p'] (oneToTwo.toPool [] [0, 1]) ∅)).get ['p'] =
    some (oneToTwo.toPool [] [0, 1]) := rfl
  have selectable : ∀ handle ∈ (oneToTwo.toPool [] [0, 1]).health,
      ((fun _ => .healthy : HandleId → HealthStatus) handle).isSelectable false := by decide
  obtain ⟨answers, _, shared⟩ := least_request_shares_by_weight built found rfl (by decide)
    selectable 0 (List.replicate 6 ((), none))
  obtain ⟨chosen, answered, length, counts⟩ := answers (by decide)
  have first := shared 2 rfl 0 ⟨['a'], 80, 1⟩ rfl
  have second := shared 2 rfl 1 ⟨['b'], 80, 2⟩ rfl
  rw [(counts 0).2] at first
  rw [(counts 1).2] at second
  exact ⟨chosen, answered, length, by exact_mod_cast first, by exact_mod_cast second⟩

end Gfe
