import Gfe.LoadBalancing.Affinity
import Gfe.LoadBalancing.Selection
import Mathlib.Data.Nat.Count

/-! # Weights

What share of the requests a weight stands for. Of the numbers a weighted pick
may draw, each candidate has as many as it weighs, one after the other. A backend
that weighs nothing has none of them, and no point on a ring.
-/

namespace Gfe

/-! ## The draws of a candidate -/

def totalWeight (candidates : List (Nat × UInt32)) : Nat :=
  (candidates.map fun candidate => candidate.2.toNat).sum

@[simp] theorem totalWeight_nil : totalWeight [] = 0 := rfl

@[simp] theorem totalWeight_cons (first : Nat × UInt32) (rest : List (Nat × UInt32)) :
    totalWeight (first :: rest) = first.2.toNat + totalWeight rest := rfl

/-- How much of the weight is that of an index. -/
def weightOf (idx : Nat) (candidates : List (Nat × UInt32)) : Nat :=
  totalWeight (candidates.filter (·.1 = idx))

/-- The draws below all weights that choose an index are as many as it weighs. -/
theorem count_weightedPickFrom (acc idx : Nat) (candidates : List (Nat × UInt32)) :
    Nat.count (fun k => weightedPickFrom acc (acc + k) candidates = some idx)
      (totalWeight candidates) = weightOf idx candidates := by
  induction candidates generalizing acc with
  | nil => rfl
  | cons first rest ih =>
    obtain ⟨i, weight⟩ := first
    -- the draws of the first candidate, then those of the others
    have own : Nat.count
        (fun k => weightedPickFrom acc (acc + k) ((i, weight) :: rest) = some idx) weight.toNat =
          if i = idx then weight.toNat else 0 := by
      have chosen : ∀ k < weight.toNat,
          weightedPickFrom acc (acc + k) ((i, weight) :: rest) = some i := by
        intro k within
        simp [weightedPickFrom, within]
      split
      · rename_i same
        exact Nat.count_iff_forall.mpr fun k within => same ▸ chosen k within
      · rename_i other
        apply Nat.count_iff_forall_not.mpr
        intro k within
        simp [chosen k within, other]
    have later : ∀ k, weightedPickFrom acc (acc + (weight.toNat + k)) ((i, weight) :: rest) =
        weightedPickFrom (acc + weight.toNat) (acc + weight.toNat + k) rest := by
      intro k
      simp [weightedPickFrom, ← Nat.add_assoc]
    rw [totalWeight_cons, Nat.count_add, own]
    simp only [later, ih]
    by_cases same : i = idx <;> simp [weightOf, same]

theorem weightedPickFrom_isSome (acc : Nat) {r : Nat} {candidates : List (Nat × UInt32)}
    (within : r < acc + totalWeight candidates) (beyond : acc ≤ r) :
    ∃ candidate ∈ candidates, weightedPickFrom acc r candidates = some candidate.1 ∧
      candidate.2 ≠ 0 := by
  induction candidates generalizing acc with
  | nil =>
    simp only [totalWeight_nil] at within
    omega
  | cons first rest ih =>
    obtain ⟨i, weight⟩ := first
    simp only [totalWeight_cons] at within
    by_cases here : r < acc + weight.toNat
    · refine ⟨(i, weight), List.mem_cons_self, by simp [weightedPickFrom, here], ?_⟩
      rintro rfl
      simp only [UInt32.toNat_zero] at here
      omega
    · obtain ⟨candidate, member, picked, positive⟩ := ih (acc + weight.toNat) (by omega)
        (by omega)
      exact ⟨candidate, List.mem_cons_of_mem _ member, by simpa [weightedPickFrom, here] using picked,
        positive⟩

theorem weightedPick_eq {candidates : List (Nat × UInt32)} {r : Nat}
    (within : r < totalWeight candidates) :
    weightedPickFrom 0 r candidates = some (weightedPick candidates r) := by
  have within' : r < 0 + totalWeight candidates := by omega
  obtain ⟨candidate, _, picked, _⟩ := weightedPickFrom_isSome 0 within' (Nat.zero_le r)
  rw [weightedPick, picked]
  rfl

theorem weightOf_of_mem {candidates : List (Nat × UInt32)} {idx : Nat} {weight : UInt32}
    (distinct : (candidates.map Prod.fst).Nodup) (member : (idx, weight) ∈ candidates) :
    weightOf idx candidates = weight.toNat := by
  induction candidates with
  | nil => cases member
  | cons first rest ih =>
    rw [List.map_cons, List.nodup_cons] at distinct
    cases member with
    | head =>
      have none : rest.filter (·.1 = idx) = [] := by
        rw [List.filter_eq_nil_iff]
        intro candidate inside
        have : candidate.1 ∈ rest.map Prod.fst := List.mem_map_of_mem inside
        grind
      simp [weightOf, none]
    | tail _ inside =>
      have other : first.1 ≠ idx := by
        intro same
        exact distinct.1 (List.mem_map.mpr ⟨_, inside, same.symm⟩)
      have := ih distinct.2 inside
      simpa [weightOf, other] using this

/-! ### As it is computed

The weights are added up in 64 bits.
-/

/-- The loop of `weighted_pick` in its own arithmetic. -/
def weightedPickWrapping (acc r : UInt64) : List (Nat × UInt32) → Option Nat
  | [] => none
  | (idx, weight) :: rest =>
    let acc := acc + weight.toUInt64
    if r < acc then some idx else weightedPickWrapping acc r rest

theorem weightedPickWrapping_eq {acc r : UInt64} {candidates : List (Nat × UInt32)}
    (fits : acc.toNat + totalWeight candidates < 2 ^ 64) :
    weightedPickWrapping acc r candidates = weightedPickFrom acc.toNat r.toNat candidates := by
  induction candidates generalizing acc with
  | nil => rfl
  | cons first rest ih =>
    obtain ⟨idx, weight⟩ := first
    simp only [totalWeight_cons] at fits
    have sum : (acc + weight.toUInt64).toNat = acc.toNat + weight.toNat := by
      rw [UInt64.toNat_add, UInt32.toNat_toUInt64]
      omega
    rw [weightedPickWrapping, weightedPickFrom, ih (by omega), sum]
    simp [UInt64.lt_iff_toNat_lt, sum]

theorem totalWeight_le (candidates : List (Nat × UInt32)) :
    totalWeight candidates ≤ candidates.length * (2 ^ 32 - 1) := by
  induction candidates with
  | nil => simp
  | cons first rest ih =>
    have := first.2.toNat_lt
    simp only [totalWeight_cons, List.length_cons]
    omega

/-- Over all draws, each candidate is chosen as often as it weighs, one that weighs
    nothing never, and the loop always ends with a choice. The sums of up to `2 ^ 32`
    weights fit in 64 bits. -/
theorem weightedPick_chooses_by_weight (candidates : List (Nat × UInt32))
    (distinct : (candidates.map Prod.fst).Nodup) :
    (∀ idx weight, (idx, weight) ∈ candidates →
      Nat.count (fun r => weightedPick candidates r = idx) (totalWeight candidates) =
        weight.toNat) ∧
    (∀ idx, (idx, 0) ∈ candidates → ∀ r < totalWeight candidates,
      weightedPick candidates r ≠ idx) ∧
    (∀ r < totalWeight candidates, weightedPickFrom 0 r candidates ≠ none) ∧
    (totalWeight candidates < 2 ^ 64 → ∀ r : UInt64,
      weightedPickWrapping 0 r candidates = weightedPickFrom 0 r.toNat candidates) ∧
    (candidates.length ≤ 2 ^ 32 → totalWeight candidates < 2 ^ 64) := by
  have counted : ∀ idx weight, (idx, weight) ∈ candidates →
      Nat.count (fun r => weightedPick candidates r = idx) (totalWeight candidates) =
        weight.toNat := by
    intro idx weight member
    rw [← weightOf_of_mem distinct member, ← count_weightedPickFrom 0, Nat.count_eq_card_filter_range,
      Nat.count_eq_card_filter_range]
    congr 1
    apply Finset.filter_congr
    intro r within
    rw [Nat.zero_add, weightedPick_eq (Finset.mem_range.mp within), Option.some_inj]
  refine ⟨counted, ?_, ?_, ?_, ?_⟩
  · intro idx member
    exact Nat.count_iff_forall_not.mp (counted idx 0 member)
  · intro r within
    simp [weightedPick_eq within]
  · intro fits r
    exact weightedPickWrapping_eq (by simpa using fits)
  · intro short
    have := totalWeight_le candidates
    omega

/-- Two candidates that weigh something, and one between them that does not. -/
theorem weightedPick_of_three :
    let candidates := [(4, 2), (7, 0), (9, 1)]
    (∀ idx weight, (idx, weight) ∈ candidates →
      Nat.count (fun r => weightedPick candidates r = idx) (totalWeight candidates) =
        weight.toNat) ∧ ∀ r < totalWeight candidates, weightedPick candidates r ≠ 7 := by
  intro candidates
  have shares := weightedPick_chooses_by_weight candidates (by decide)
  exact ⟨shares.1, shares.2.1 7 (by decide)⟩

/-! ## A backend that weighs nothing -/

open Interleaving

section Weightless

variable {ι τ : Type} {pool : Pool τ} {r : ι} {healthy : List Nat}

def Pool.weightAt (pool : Pool τ) (i : Nat) : UInt32 :=
  (pool.backends[i]?.map Backend.weight).getD 0

theorem weightAt_of_lt {i : Nat} (within : i < pool.backends.length) :
    pool.weightAt i = pool.backends[i].weight := by
  simp [Pool.weightAt, within]

/-- If this one weighs nothing, none of them does. -/
def LastResort (pool : Pool τ) (healthy : List Nat) (idx : Nat) : Prop :=
  pool.weightAt idx = 0 → ∀ i ∈ healthy, pool.weightAt i = 0

theorem candidates_eq (within : ∀ i ∈ healthy, i < pool.backends.length) :
    candidates pool healthy = .ok (healthy.map fun i => (i, pool.weightAt i)) := by
  induction healthy with
  | nil => rfl
  | cons i rest ih =>
    have here := within i List.mem_cons_self
    rw [candidates, index_of_lt here, ih fun j member => within j (List.mem_cons_of_mem _ member),
      List.map_cons, weightAt_of_lt here]
    rfl

theorem weights_of_totalWeight_zero
    (zero : totalWeight (healthy.map fun i => (i, pool.weightAt i)) = 0) :
    ∀ i ∈ healthy, pool.weightAt i = 0 := by
  intro i member
  have none := List.sum_eq_zero_iff.mp zero (pool.weightAt i).toNat (by
    simp only [List.map_map, List.mem_map]
    exact ⟨i, member, rfl⟩)
  exact UInt32.toNat_inj.mp none

theorem weightAt_weightedPick {draw : Nat}
    (within : draw < totalWeight (healthy.map fun i => (i, pool.weightAt i))) :
    pool.weightAt (weightedPick (healthy.map fun i => (i, pool.weightAt i)) draw) ≠ 0 := by
  have within' : draw < 0 + totalWeight (healthy.map fun i => (i, pool.weightAt i)) := by omega
  obtain ⟨candidate, member, picked, positive⟩ :=
    weightedPickFrom_isSome 0 within' (Nat.zero_le draw)
  obtain ⟨i, _, rfl⟩ := List.mem_map.mp member
  rw [weightedPick_eq within, Option.some_inj] at picked
  rw [picked]
  exact positive

/-- The weights are the same if they are said to be. -/
def Pool.ToldUniform (pool : Pool τ) : Prop :=
  pool.uniformWeights = true → ∀ i j, i < pool.backends.length → j < pool.backends.length →
    pool.weightAt i = pool.weightAt j

theorem selects_roundRobin_lastResort (told : pool.ToldUniform)
    (within : ∀ i ∈ healthy, i < pool.backends.length) (some : healthy ≠ []) :
    Selects r (roundRobin pool healthy : Fallible (PoolState ι) Panic Nat)
      (LastResort pool healthy) := by
  unfold roundRobin
  split
  · rename_i uniform
    refine (selects_inTurn some).weaken ?_
    intro idx member nothing i other
    rw [told uniform i idx (within i other) (within idx member), nothing]
  refine .bind (.ofExcept (candidates_eq within) rfl) ?_
  rintro _ rfl
  dsimp only
  split
  · rename_i zero
    refine (selects_inTurn some).weaken ?_
    intro idx member nothing
    exact weights_of_totalWeight_zero zero
  · rename_i positive
    refine .bind (.read _) ?_
    intro draw _
    refine .bind (.ofExcept (remainder_of_ne positive) rfl) ?_
    rintro _ rfl
    apply Selects.pure
    intro nothing
    exact absurd nothing (weightAt_weightedPick (Nat.mod_lt _ (Nat.pos_of_ne_zero positive)))

end Weightless

section Built

variable {ι : Type} {crates : Crates} {spec : PoolSpec Scheme} {pool : Pool Scheme} {r : ι}
  {healthy : List Nat}

theorem Pool.Built.toldUniform (built : pool.Built crates spec) : pool.ToldUniform := by
  rw [built.same]
  intro uniform i j here there
  have each := List.all_eq_true.mp uniform
  rw [weightAt_of_lt here, weightAt_of_lt there]
  have one := each _ (List.getElem_mem here)
  have other := each _ (List.getElem_mem there)
  simp only [beq_iff_eq] at one other
  exact one.trans other.symm

theorem Pool.Built.ring_eq (built : pool.Built crates spec) (hashed : pool.policy = .ringHash) :
    pool.ring = buildRing crates pool.backends := by
  have made := built.ring
  rw [built.policy] at hashed
  simp only [PoolSpec.ring, hashed, beq_self_eq_true, if_true] at made
  split at made
  · cases made
  · rw [built.backends]
    exact (Except.ok.inj made).symm

/-- A ring has points of the backends that weigh something, and of no others. -/
theorem weight_pos_iff_on_ring (crates : Crates) (pool : Pool Scheme) (i : Nat) :
    pool.weightAt i ≠ 0 ↔ ∃ point ∈ ringPoints crates pool.backends, point.backend = i := by
  constructor
  · intro heavy
    unfold Pool.weightAt at heavy
    cases found : pool.backends[i]? with
    | none => simp [found] at heavy
    | some backend =>
      have weighs : 0 < backend.weight.toNat := by
        simp only [found, Option.map_some, Option.getD_some] at heavy
        exact Nat.pos_of_ne_zero fun zero => heavy (UInt32.toNat_inj.mp zero)
      refine ⟨⟨crates.hash64 backend.authority 0, i, 0⟩, ?_, rfl⟩
      rw [ringPoints, List.mem_insertionSort, List.mem_flatMap]
      have within := (List.getElem?_eq_some_iff.mp found).1
      refine ⟨i, List.mem_range.mpr within, ?_⟩
      simp only [pointsAt, found, List.mem_map, List.mem_range]
      exact ⟨0, by unfold ringReplicas; omega, rfl⟩
  · rintro ⟨point, member, rfl⟩ nothing
    obtain ⟨backend, found, due⟩ := of_decide_eq_true (mem_ringPoints crates pool.backends member)
    have zero : backend.weight = 0 := by simpa [Pool.weightAt, found] using nothing
    simp [zero] at due

end Built

end Gfe
