import Gfe.LoadBalancing.Weights
import Gfe.Lib.Tickets

/-! # Taking turns

Any number of selections may be under way in a pool whose backends weigh the same.
Each of them draws a number from the pool's counter, at a moment of its own, and
takes the backend whose turn it is among the selectable ones. However they are
interleaved, the backends come out even.
-/

namespace Gfe

open Interleaving

section

variable {ι τ : Type} {pool : Pool τ} {selectable : HandleId → Bool}

/-- Which backends are selectable does not change. -/
def SelectableAre (pool : Pool τ) (selectable : HandleId → Bool) (s : PoolState ι) : Prop :=
  ∀ handle ∈ pool.health,
    (s.status handle).isSelectable s.unknownIsSelectable = selectable handle

/-- The backends that take turns. -/
def turns (pool : Pool τ) (selectable : HandleId → Bool) : List Nat :=
  (List.range pool.backends.length).filter (pool.selectableAt selectable)

/-- The number `n` is the turn of the backend at this index. -/
def TurnOf (healthy : List Nat) (n : UInt64) (idx : Nat) : Prop :=
  healthy[n.toNat % healthy.length]? = some idx

def AnswersTurn (pool : Pool τ) (healthy : List Nat) (n : UInt64) (answer : Option Selection) :
    Prop :=
  ∃ idx backend, TurnOf healthy n idx ∧ pool.backends[idx]? = some backend ∧
    answer = some ⟨backend, ⟨none⟩⟩

/-- Leaves the round-robin position alone. -/
abbrev Reads (pool : Pool τ) (selectable : HandleId → Bool) {α : Type}
    (p : Fallible (PoolState ι) Panic α) (good : α → Prop) : Prop :=
  p.Quiet (SelectableAre pool selectable) PoolState.counter good

/-- Draws one number from the round-robin position. -/
abbrev Draws (pool : Pool τ) (selectable : HandleId → Bool) {α : Type}
    (p : Fallible (PoolState ι) Panic α) (answer : UInt64 → α → Prop) : Prop :=
  p.Draws (SelectableAre pool selectable) PoolState.counter (· + 1) answer

theorem reads_healthyIndices [DecidableEq ι] (aligned : pool.Aligned) (r : ι) {indices : List Nat}
    (within : ∀ i ∈ indices, i < pool.backends.length) :
    Reads pool selectable (healthyIndices pool r indices)
      (· = indices.filter (pool.selectableAt selectable)) := by
  induction indices with
  | nil => exact .pure rfl
  | cons i rest ih =>
    have known : i < pool.health.length := aligned ▸ within i List.mem_cons_self
    refine .bind (.ofExcept (index_of_lt known) rfl) ?_
    rintro _ rfl
    have read : Reads (ι := ι) pool selectable (monadLift (.exchange fun s =>
        let selectable := (s.status pool.health[i]).isSelectable s.unknownIsSelectable
        (selectable, s.note r fun entry =>
          { entry with reads := entry.reads ++ [(i, selectable)] }) : Program (PoolState ι) Bool))
        (· = selectable pool.health[i]) := by
      apply Fallible.Quiet.lift
      apply Program.Quiet.exchange
      intro s fixed
      exact ⟨fixed, rfl, fixed _ (List.getElem_mem known)⟩
    refine .bind read ?_
    rintro _ rfl
    refine .bind (ih fun j member => within j (List.mem_cons_of_mem _ member)) ?_
    rintro _ rfl
    apply Fallible.Quiet.pure
    simp [List.filter_cons, Pool.selectableAt, known]

theorem draws_inTurn {healthy : List Nat} (some : healthy ≠ []) :
    Draws pool selectable (inTurn healthy : Fallible (PoolState ι) Panic Nat) (TurnOf healthy) := by
  have positive : 0 < healthy.length := List.length_pos_iff.mpr some
  have drawn : Draws (ι := ι) pool selectable (monadLift (.exchange fun s =>
      (s.counter, { s with counter := s.counter + 1 }) : Program (PoolState ι) UInt64))
      fun n drawn => drawn = n := by
    apply Fallible.Draws.lift
    apply Program.Draws.exchange
    intro s fixed
    exact ⟨fixed, rfl, rfl⟩
  refine .bind drawn ?_
  rintro _ n rfl
  refine .bind (.ofExcept (remainder_of_ne positive.ne') rfl) ?_
  rintro _ rfl
  have within := Nat.mod_lt n.toNat positive
  exact .ofExcept (index_of_lt within) (List.getElem?_eq_getElem within)

theorem draws_select [DecidableEq ι] (aligned : pool.Aligned) (policy : pool.policy = .roundRobin)
    (uniform : pool.uniformWeights = true) (some : turns pool selectable ≠ [])
    (order : ScoreOrder) (r : ι) (hashKey : Option UInt64) :
    Draws pool selectable (select order pool r hashKey)
      (AnswersTurn pool (turns pool selectable)) := by
  refine .after (reads_healthyIndices aligned r fun i => List.mem_range.mp) ?_
  rintro _ rfl
  have nonempty : ¬ (turns pool selectable).isEmpty = true := by simpa using some
  rw [← turns, if_neg nonempty]
  have chosen : Draws (ι := ι) pool selectable
      (choose order pool hashKey (turns pool selectable)) (TurnOf (turns pool selectable)) := by
    simp only [choose, policy, roundRobin, uniform, if_true]
    exact draws_inTurn some
  refine .bind chosen ?_
  intro n idx turn
  have within : idx < pool.backends.length := by
    have member : idx ∈ turns pool selectable := List.mem_of_getElem? turn
    exact List.mem_range.mp (List.mem_filter.mp member).1
  have uncounted : countAgainst pool r idx = pure ⟨none⟩ := by
    simp [countAgainst, policy]
  rw [uncounted]
  refine .bind (.pure rfl) ?_
  rintro _ rfl
  refine .bind (.ofExcept (index_of_lt within) rfl) ?_
  rintro _ rfl
  exact .pure ⟨idx, _, turn, List.getElem?_eq_getElem within, rfl⟩

theorem mem_turns (aligned : pool.Aligned) {i : Nat} :
    i ∈ turns pool selectable ↔ pool.selectableAt selectable i = true := by
  unfold turns
  rw [List.mem_filter, List.mem_range]
  refine and_iff_right_of_imp fun here => ?_
  unfold Pool.selectableAt at here
  by_contra beyond
  rw [List.getElem?_eq_none (by rw [aligned]; omega)] at here
  cases here

theorem nodup_turns (pool : Pool τ) (selectable : HandleId → Bool) :
    (turns pool selectable).Nodup :=
  List.nodup_range.filter _

end

theorem toNat_iterate_succ {c : UInt64} {k : Nat} (fits : c.toNat + k < 2 ^ 64) :
    ((· + 1)^[k] c).toNat = c.toNat + k := by
  induction k with
  | zero => rfl
  | succ k ih =>
    rw [Function.iterate_succ_apply', UInt64.toNat_add, ih (by omega), UInt64.toNat_one]
    omega

/-- How often the numbers from `first` on are the turn of a backend. -/
theorem count_turns {healthy : List Nat} (once : healthy.Nodup) {a : Nat} (member : a ∈ healthy)
    (first n : Nat) :
    n / healthy.length ≤
        Nat.count (fun k => healthy[(first + k) % healthy.length]? = some a) n ∧
      Nat.count (fun k => healthy[(first + k) % healthy.length]? = some a) n ≤
        n / healthy.length + 1 := by
  obtain ⟨place, within, rfl⟩ := List.getElem_of_mem member
  have same : ∀ k, healthy[(first + k) % healthy.length]? = some healthy[place] ↔
      (first + k) % healthy.length = place := by
    intro k
    have here : (first + k) % healthy.length < healthy.length := Nat.mod_lt _ (by omega)
    rw [List.getElem?_eq_getElem here, Option.some_inj, once.getElem_inj_iff]
  simp only [same]
  exact count_remainder within first n

theorem Pool.Built.uniform {crates : Crates} {spec : PoolSpec Scheme} {pool : Pool Scheme}
    (built : pool.Built crates spec)
    (equal : ∀ a ∈ pool.backends, ∀ b ∈ pool.backends, a.weight = b.weight) :
    pool.uniformWeights = true := by
  rw [built.backends] at equal
  rw [built.same]
  simp only [PoolSpec.toPool, List.all_eq_true, beq_iff_eq]
  intro b member
  cases backends : spec.backends with
  | nil => simp [backends] at member
  | cons head rest =>
    rw [backends] at equal member
    simpa using equal b member head List.mem_cons_self

section

variable {ι : Type} [DecidableEq ι] [Fintype ι] {crates : Crates} {specs : List (PoolSpec Scheme)}
  {env : World → World → Prop} {w w' : World} {set : PoolSet Scheme}

/-- Once any number of selections are over, however they were interleaved with each other and
    with others that leave the position and what is selectable alone, no selectable backend was
    chosen more than once more than another. -/
theorem turns_come_out_even
    (built : Program.Steps env (ExceptT.run (PoolSet.build crates specs), w) (.ret (.ok set), w'))
    {id : Str} {pool : Pool Scheme} (found : set.get id = some pool)
    (policy : pool.policy = .roundRobin)
    (equal : ∀ a ∈ pool.backends, ∀ b ∈ pool.backends, a.weight = b.weight)
    (order : ScoreOrder) (hashKey : ι → Option UInt64) {selectable : HandleId → Bool}
    {others : PoolState ι → PoolState ι → Prop}
    (kept : ∀ s s', others s s' → SelectableAre pool selectable s →
      SelectableAre pool selectable s' ∧ s'.counter = s.counter)
    {s s' : PoolState ι} (fixed : SelectableAre pool selectable s)
    (room : s.counter.toNat + Fintype.card ι ≤ 2 ^ 64)
    {results : ι → Except Panic (Option Selection)}
    (steps : Crowd.Steps others ⟨fun i => ExceptT.run (select order pool i (hashKey i)), s⟩
      ⟨fun i => .ret (results i), s'⟩)
    (some : ∃ a, pool.selectableAt selectable a = true) :
    ∃ chosen : ι → Nat,
      (∀ i, ∃ backend, pool.backends[chosen i]? = Option.some backend ∧
        results i = .ok (Option.some ⟨backend, ⟨none⟩⟩)) ∧
      ∀ a b, pool.selectableAt selectable a = true → pool.selectableAt selectable b = true →
        (Finset.univ.filter fun i => chosen i = a).card ≤
          (Finset.univ.filter fun i => chosen i = b).card + 1 := by
  obtain ⟨spec, _, _, from_spec⟩ := built_of_get built found
  have aligned := from_spec.aligned
  have nonempty : turns pool selectable ≠ [] := by
    obtain ⟨a, here⟩ := some
    exact List.ne_nil_of_mem ((mem_turns aligned).mpr here)
  have draws : ∀ i, Draws pool selectable (select order pool i (hashKey i))
      (AnswersTurn pool (turns pool selectable)) := by
    intro i
    exact draws_select aligned policy (from_spec.uniform equal) nonempty order i (hashKey i)
  obtain ⟨drawers, once, all, answered⟩ :=
    Crowd.answers_by_number kept fixed draws steps fun i => rfl
  have length : drawers.length = Fintype.card ι := length_of_all once all
  have each : ∀ i, ∃ idx k backend, drawers[k]? = Option.some i ∧
      (turns pool selectable)[(s.counter.toNat + k) % (turns pool selectable).length]? =
        Option.some idx ∧
      pool.backends[idx]? = Option.some backend ∧ results i = .ok (Option.some ⟨backend, ⟨none⟩⟩) := by
    intro i
    obtain ⟨k, place⟩ := List.getElem?_of_mem (all i)
    obtain ⟨_, ended, idx, backend, turn, here, rfl⟩ := answered k i place
    refine ⟨idx, k, backend, place, ?_, here, ended⟩
    have early : k < Fintype.card ι := by
      rw [← length]
      exact (List.getElem?_eq_some_iff.mp place).1
    have fits : s.counter.toNat + k < 2 ^ 64 := by omega
    rwa [TurnOf, toNat_iterate_succ fits] at turn
  choose chosen position backend place turn here ended using each
  refine ⟨chosen, fun i => ⟨backend i, here i, ended i⟩, ?_⟩
  have same : ∀ k i, drawers[k]? = Option.some i → Option.some (chosen i) =
      (turns pool selectable)[(s.counter.toNat + k) % (turns pool selectable).length]? := by
    intro k i drawn
    have first := (List.getElem?_eq_some_iff.mp drawn).1
    rw [(List.getElem?_inj first once).mp (drawn.trans (place i).symm), turn i]
  intro a b first second
  have count : ∀ x, (Finset.univ.filter fun i => chosen i = x).card =
      Nat.count (fun k => (turns pool selectable)[(s.counter.toNat + k) %
        (turns pool selectable).length]? = Option.some x) (Fintype.card ι) := by
    intro x
    rw [← card_by_number once all same (· = Option.some x)]
    simp
  have most := (count_turns (nodup_turns pool selectable) ((mem_turns aligned).mpr first)
    s.counter.toNat (Fintype.card ι)).2
  have least := (count_turns (nodup_turns pool selectable) ((mem_turns aligned).mpr second)
    s.counter.toNat (Fintype.card ι)).1
  rw [count a, count b]
  omega

end

/-- Two backends that weigh the same. -/
def evenPair : PoolSpec Scheme :=
  ⟨['p'], .roundRobin, [⟨['a'], 80, 1⟩, ⟨['b'], 80, 1⟩], none, none, .http⟩

/-- Two selections, with the position as far on as it goes before the second. -/
theorem two_selections_take_turns :
    let pool := evenPair.toPool [] [0, 1]
    let s : PoolState Bool :=
      { PoolState.new pool (fun _ => .healthy) false 0 with counter := 18446744073709551614 }
    ∃ (results : Bool → Except Panic (Option Selection)) (s' : PoolState Bool),
      Crowd.Steps (fun _ _ => False)
      ⟨fun i => ExceptT.run (select .exact pool i none), s⟩ ⟨fun i => .ret (results i), s'⟩ ∧
    ∃ chosen : Bool → Nat,
      (∀ i, ∃ backend, pool.backends[chosen i]? = some backend ∧
        results i = .ok (some ⟨backend, ⟨none⟩⟩)) ∧
      ∀ a b, pool.selectableAt (fun _ => true) a = true →
        pool.selectableAt (fun _ => true) b = true →
        (Finset.univ.filter fun i => chosen i = a).card ≤
          (Finset.univ.filter fun i => chosen i = b).card + 1 := by
  intro pool s
  have built := Program.steps_run (fun _ _ => False)
    (ExceptT.run (PoolSet.build (.indexed []) [evenPair]))
    (.starting (.small [] (.error .notFound) []) ∅)
  have found : (PoolSet.mk (AList.insert ['p'] pool ∅)).get ['p'] = some pool := rfl
  obtain ⟨first, s₁, one⟩ : ∃ first s₁, Crowd.Steps (fun _ _ => False)
      ⟨fun i => ExceptT.run (select .exact pool i none), s⟩
      ⟨Function.update (fun i => ExceptT.run (select .exact pool i none)) false (.ret first), s₁⟩ :=
    ⟨_, _, Crowd.steps_run _ _ s false⟩
  obtain ⟨second, s₂, two⟩ : ∃ second s₂, Crowd.Steps (fun _ _ => False)
      ⟨Function.update (fun i => ExceptT.run (select .exact pool i none)) false (.ret first), s₁⟩
      ⟨Function.update (Function.update (fun i => ExceptT.run (select .exact pool i none)) false
        (.ret first)) true (.ret second), s₂⟩ :=
    ⟨_, _, Crowd.steps_run _ _ s₁ true⟩
  have both : Function.update (Function.update (fun i => ExceptT.run (select .exact pool i none))
      false (.ret first)) true (.ret second) = fun i => .ret (if i then second else first) := by
    funext i
    cases i <;> simp
  rw [both] at two
  have steps := one.trans two
  exact ⟨_, s₂, steps, turns_come_out_even built found rfl (by decide) .exact (fun _ => none)
    (fun _ _ absent => absent.elim) (fun _ _ => rfl) (by decide) steps ⟨0, rfl⟩⟩

end Gfe
