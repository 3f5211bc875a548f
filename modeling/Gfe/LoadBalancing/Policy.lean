import Gfe.LoadBalancing.Pool
import Gfe.Lib.Ring

/-! # Picking a backend

The arithmetic of the selection policies: the weighted pick and the walk round
the consistent-hash ring. An index out of range and a division by zero are
panics, so that their absence can be spoken about.
-/

namespace Gfe

inductive Panic where
  | divideByZero
  | indexOutOfRange
  | emptyMinimum
  deriving DecidableEq, Repr

/-- `xs[i]`. -/
def index {α : Type} (xs : List α) (i : Nat) : Except Panic α :=
  match xs[i]? with
  | some x => .ok x
  | none => .error .indexOutOfRange

/-- `a % b`. -/
def remainder (a b : Nat) : Except Panic Nat :=
  if b = 0 then .error .divideByZero else .ok (a % b)

theorem index_of_lt {α : Type} {xs : List α} {i : Nat} (within : i < xs.length) :
    index xs i = .ok xs[i] := by
  rw [index, List.getElem?_eq_getElem within]

theorem remainder_of_ne {a b : Nat} (nonzero : b ≠ 0) : remainder a b = .ok (a % b) :=
  if_neg nonzero

/-! ## By weight -/

/-- The first candidate whose weights so far exceed the draw. -/
def weightedPickFrom (acc r : Nat) : List (Nat × UInt32) → Option Nat
  | [] => none
  | (idx, weight) :: rest =>
    let acc := acc + weight.toNat
    if r < acc then some idx else weightedPickFrom acc r rest

/-- `weighted_pick`; the last candidate if the draw is beyond all weights. -/
def weightedPick (candidates : List (Nat × UInt32)) (r : Nat) : Nat :=
  (weightedPickFrom 0 r candidates).getD ((candidates.getLast?.map Prod.fst).getD 0)

theorem weightedPickFrom_mem {acc r : Nat} {candidates : List (Nat × UInt32)} {idx : Nat}
    (picked : weightedPickFrom acc r candidates = some idx) : idx ∈ candidates.map Prod.fst := by
  induction candidates generalizing acc with
  | nil => cases picked
  | cons first rest ih =>
    obtain ⟨index, weight⟩ := first
    rw [List.map_cons, List.mem_cons]
    simp only [weightedPickFrom] at picked
    split at picked
    · cases picked
      exact .inl rfl
    · exact .inr (ih picked)

theorem weightedPick_mem {candidates : List (Nat × UInt32)} (some : candidates ≠ []) (r : Nat) :
    weightedPick candidates r ∈ candidates.map Prod.fst := by
  unfold weightedPick
  cases picked : weightedPickFrom 0 r candidates with
  | some idx => exact weightedPickFrom_mem picked
  | none =>
    rw [List.getLast?_eq_getLast_of_ne_nil some]
    exact List.mem_map_of_mem (List.getLast_mem some)

/-! ## Round the ring -/

/-- The loop of `ring_pick` over these offsets. -/
def walkRing (ring : List (UInt64 × Nat)) (start : Nat) (isHealthy : Nat → Bool) :
    List Nat → Except Panic (Option Nat)
  | [] => .ok none
  | off :: rest => do
    let place ← remainder (start + off) ring.length
    let (_, idx) ← index ring place
    if isHealthy idx then return some idx
    walkRing ring start isHealthy rest

/-- `ring_pick`: from the first point at or after the key. -/
def ringPick (ring : List (UInt64 × Nat)) (key : UInt64) (isHealthy : Nat → Bool) :
    Except Panic (Option Nat) :=
  if ring.isEmpty then .ok none
  else
    let start := Ring.partitionPoint (fun point => point.1 < key) ring
    walkRing ring start isHealthy (List.range ring.length)

theorem walkRing_eq {ring : List (UInt64 × Nat)} (some : ring ≠ []) (start : Nat)
    (isHealthy : Nat → Bool) (offs : List Nat) :
    walkRing ring start isHealthy offs =
      .ok (((offs.filterMap fun off => ring[(start + off) % ring.length]?).find?
        (isHealthy ·.2)).map Prod.snd) := by
  have positive : 0 < ring.length := List.length_pos_iff.mpr some
  induction offs with
  | nil => rfl
  | cons off rest ih =>
    have within : (start + off) % ring.length < ring.length := Nat.mod_lt _ positive
    have step : walkRing ring start isHealthy (off :: rest) =
        if isHealthy ring[(start + off) % ring.length].2 then
          .ok (.some ring[(start + off) % ring.length].2)
        else walkRing ring start isHealthy rest := by
      rw [walkRing, remainder_of_ne positive.ne']
      change (index ring _ >>= _) = _
      rw [index_of_lt within]
      rfl
    rw [step, ih, List.filterMap_cons, List.getElem?_eq_getElem within, List.find?_cons]
    cases isHealthy ring[(start + off) % ring.length].2 <;> rfl

/-- On a ring in the order of its points, the walk meets the points at or after
    the key, then the others. -/
theorem ringPick_eq {ring : List (UInt64 × Nat)} (sorted : ring.Pairwise fun a b => a.1 ≤ b.1)
    (key : UInt64) (isHealthy : Nat → Bool) :
    ringPick ring key isHealthy =
      .ok (((Ring.round (fun point => point.1 < key) ring).find? (isHealthy ·.2)).map
        Prod.snd) := by
  unfold ringPick
  split
  · rename_i empty
    rw [List.isEmpty_iff.mp empty]
    rfl
  · rename_i nonempty
    have parted : Ring.Partitioned (fun point => decide (point.1 < key)) ring :=
      sorted.imp fun order before => by
        simp only [decide_eq_true_eq] at before ⊢
        exact UInt64.lt_of_le_of_lt order before
    rw [walkRing_eq (by simpa using nonempty), Ring.filterMap_range_rotate,
      Ring.rotate_partitionPoint parted]

end Gfe
