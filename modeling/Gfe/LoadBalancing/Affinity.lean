import Gfe.LoadBalancing.Policy

/-! # Affinity of the hash ring

Which backend a key is sent to, when weights change and when backends fail. A
ring for smaller weights, and the points of the healthy backends of a ring, are
the same ring with points left out: the order of the others stays, whatever the
hash function does, and so a key moves only where a point appears or goes.
-/

namespace Gfe

variable {a b : List Backend}

/-- A point of a ring, with the number of the replica it stands for. -/
structure RingPoint where
  hash : UInt64
  backend : Nat
  replica : Nat

namespace RingPoint

instance (backends : List Backend) (point : RingPoint) : Decidable
    (∃ backend, backends[point.backend]? = some backend ∧
      point.replica < ringReplicas * backend.weight.toNat) :=
  match found : backends[point.backend]? with
  | some backend => decidable_of_iff (point.replica < ringReplicas * backend.weight.toNat) (by simp)
  | none => isFalse (by simp)

def due (backends : List Backend) (point : RingPoint) : Bool :=
  decide (∃ backend, backends[point.backend]? = some backend ∧
    point.replica < ringReplicas * backend.weight.toNat)

theorem due_iff {backends : List Backend} {point : RingPoint} {backend : Backend}
    (found : backends[point.backend]? = some backend) :
    point.due backends = true ↔ point.replica < ringReplicas * backend.weight.toNat := by
  simp [due, found]

end RingPoint

def pointsAt (crates : Crates) (backends : List Backend) (i : Nat) : List RingPoint :=
  match backends[i]? with
  | some backend => (List.range (ringReplicas * backend.weight.toNat)).map fun replica =>
    ⟨crates.hash64 backend.authority replica, i, replica⟩
  | none => []

def ringPoints (crates : Crates) (backends : List Backend) : List RingPoint :=
  ((List.range backends.length).flatMap (pointsAt crates backends)).insertionSort
    fun a b => a.hash ≤ b.hash

section

variable (crates : Crates) (backends : List Backend)

instance : Std.Total fun a b : RingPoint => a.hash ≤ b.hash :=
  ⟨fun a b => UInt64.le_total a.hash b.hash⟩

instance : IsTrans RingPoint fun a b => a.hash ≤ b.hash := ⟨fun _ _ _ => UInt64.le_trans⟩

theorem zipIdx_eq_map_range {α : Type} (xs : List α) :
    xs.zipIdx.map Prod.snd = List.range xs.length := by
  rw [List.zipIdx_map_snd, List.range_eq_range']

theorem buildRing_eq :
    buildRing crates backends = (ringPoints crates backends).map fun p => (p.hash, p.backend) := by
  have points : (backends.zipIdx.flatMap fun entry =>
        (List.range (ringReplicas * entry.1.weight.toNat)).map fun replica =>
          (crates.hash64 entry.1.authority replica, entry.2)) =
      ((List.range backends.length).flatMap (pointsAt crates backends)).map
        fun p => (p.hash, p.backend) := by
    rw [← zipIdx_eq_map_range, List.flatMap_map, List.map_flatMap]
    apply List.flatMap_congr
    intro entry member
    obtain ⟨backend, i⟩ := entry
    rw [List.mem_zipIdx_iff_getElem?] at member
    simp only [pointsAt, member, List.map_map]
    rfl
  change List.insertionSort _ (backends.zipIdx.flatMap fun entry =>
    (List.range (ringReplicas * entry.1.weight.toNat)).map fun replica =>
      (crates.hash64 entry.1.authority replica, entry.2)) = _
  rw [points, ringPoints]
  exact (List.map_insertionSort (fun a b : RingPoint => a.hash ≤ b.hash)
    (fun a b : UInt64 × Nat => a.1 ≤ b.1) _ _ fun _ _ _ _ => Iff.rfl).symm

theorem pairwise_buildRing : (buildRing crates backends).Pairwise fun a b => a.1 ≤ b.1 := by
  rw [buildRing_eq, List.pairwise_map]
  exact List.pairwise_insertionSort (fun a b : RingPoint => a.hash ≤ b.hash) _

theorem ringPick_buildRing (key : UInt64) (isHealthy : Nat → Bool) :
    ringPick (buildRing crates backends) key isHealthy =
      .ok (((Ring.round (fun p => p.hash < key) (ringPoints crates backends)).find?
        (isHealthy ·.backend)).map (·.backend)) := by
  rw [ringPick_eq (pairwise_buildRing crates backends), buildRing_eq, Ring.round_map,
    List.find?_map, Option.map_map]
  rfl

theorem mem_ringPoints {point : RingPoint} (member : point ∈ ringPoints crates backends) :
    point.due backends = true := by
  rw [ringPoints, List.mem_insertionSort, List.mem_flatMap] at member
  obtain ⟨i, _, member⟩ := member
  unfold pointsAt at member
  split at member
  · rename_i backend found
    obtain ⟨replica, within, rfl⟩ := List.mem_map.mp member
    exact (RingPoint.due_iff found).mpr (List.mem_range.mp within)
  · cases member

end

/-! ## Weights -/

def SameBackends (a b : List Backend) : Prop :=
  List.Forall₂ (fun x y => x.host = y.host ∧ x.port = y.port) a b

/-- The same backends, with weights no larger. -/
def Lighter (a b : List Backend) : Prop :=
  List.Forall₂ (fun x y => x.host = y.host ∧ x.port = y.port ∧ x.weight ≤ y.weight) a b

theorem Lighter.getElem? (lighter : Lighter a b) {i : Nat} {y : Backend}
    (found : b[i]? = some y) : ∃ x, a[i]? = some x ∧ x.host = y.host ∧ x.port = y.port ∧
      x.weight ≤ y.weight := by
  obtain ⟨length, each⟩ := List.forall₂_iff_get.mp lighter
  obtain ⟨within, rfl⟩ := List.getElem?_eq_some_iff.mp found
  exact ⟨_, List.getElem?_eq_getElem (length ▸ within), each i (length ▸ within) within⟩

theorem filter_range_of_le {n m : Nat} (order : n ≤ m) :
    (List.range m).filter (· < n) = List.range n := by
  obtain ⟨k, rfl⟩ := Nat.exists_eq_add_of_le order
  rw [List.range_add, List.filter_append]
  have first : (List.range n).filter (· < n) = List.range n :=
    List.filter_eq_self.mpr fun i member => decide_eq_true (List.mem_range.mp member)
  have last : ((List.range k).map (n + ·)).filter (· < n) = [] := by
    simp
  rw [first, last, List.append_nil]

theorem ringPoints_lighter (crates : Crates) (lighter : Lighter a b) :
    ringPoints crates a = (ringPoints crates b).filter (·.due a) := by
  have length : a.length = b.length := lighter.length_eq
  rw [ringPoints, ringPoints, Ring.filter_insertionSort, List.filter_flatMap, length]
  congr 1
  apply List.flatMap_congr
  intro i within
  obtain ⟨y, found⟩ : ∃ y, b[i]? = some y :=
    ⟨_, List.getElem?_eq_getElem (List.mem_range.mp within)⟩
  obtain ⟨x, here, host, port, weight⟩ := lighter.getElem? found
  have authority : x.authority = y.authority := by
    simp only [Backend.authority, host, port]
  have order : ringReplicas * x.weight.toNat ≤ ringReplicas * y.weight.toNat :=
    Nat.mul_le_mul_left _ weight
  simp only [pointsAt, here, found, List.filter_map, authority]
  congr 1
  rw [← filter_range_of_le order]
  apply List.filter_congr
  intro replica _
  simp only [Function.comp_apply, RingPoint.due, here, Option.some.injEq, exists_eq_left']

/-- With larger weights a key stays, or goes to a backend that gained weight. -/
theorem ringPick_lighter (crates : Crates) (lighter : Lighter a b)
    (key : UInt64) (isHealthy : Nat → Bool) :
    ringPick (buildRing crates a) key isHealthy = ringPick (buildRing crates b) key isHealthy ∨
      ∃ i x y, ringPick (buildRing crates b) key isHealthy = .ok (some i) ∧ a[i]? = some x ∧
        b[i]? = some y ∧ x.weight < y.weight := by
  rw [ringPick_buildRing, ringPick_buildRing, ringPoints_lighter crates lighter, Ring.round_filter]
  rcases Ring.find?_filter_or (·.due a) (isHealthy ·.backend)
      (Ring.round (fun p => p.hash < key) (ringPoints crates b)) with same | ⟨point, found, left⟩
  · rw [same]
    exact .inl rfl
  · right
    have due := mem_ringPoints crates b (Ring.mem_round.mp (List.mem_of_find?_eq_some found))
    obtain ⟨y, here, within⟩ := of_decide_eq_true due
    obtain ⟨x, there, _, _, weight⟩ := lighter.getElem? here
    have beyond := mt (RingPoint.due_iff there).mpr (by simp [left])
    refine ⟨point.backend, x, y, by rw [found]; rfl, there, here, ?_⟩
    rw [UInt32.lt_iff_toNat_lt]
    exact Nat.lt_of_mul_lt_mul_left (Nat.lt_of_le_of_lt (Nat.le_of_not_lt beyond) within)

/-- The same backends, each with the smaller of two weights. -/
def lighterOf (a b : List Backend) : List Backend :=
  a.zipWith (fun x y => { x with weight := if x.weight ≤ y.weight then x.weight else y.weight }) b

theorem lighterOf_lighter (same : SameBackends a b) :
    Lighter (lighterOf a b) a ∧ Lighter (lighterOf a b) b := by
  induction same with
  | nil => exact ⟨.nil, .nil⟩
  | @cons x y _ _ head _ ih =>
    have smaller : (if x.weight ≤ y.weight then x.weight else y.weight) ≤ x.weight ∧
        (if x.weight ≤ y.weight then x.weight else y.weight) ≤ y.weight := by
      simp only [UInt32.le_iff_toNat_le]
      split <;> omega
    exact ⟨.cons ⟨rfl, rfl, smaller.1⟩ ih.1, .cons ⟨head.1, head.2, smaller.2⟩ ih.2⟩

theorem weight_ne_of_lighterOf {i : Nat} {m : Backend}
    (low : (lighterOf a b)[i]? = some m) :
    ∃ x y, a[i]? = some x ∧ b[i]? = some y ∧
      (m.weight < x.weight ∨ m.weight < y.weight → x.weight ≠ y.weight) := by
  rw [lighterOf, List.getElem?_zipWith_eq_some] at low
  obtain ⟨x, y, here, there, rfl⟩ := low
  refine ⟨x, y, here, there, ?_⟩
  intro rose equal
  rw [equal] at rose
  simp at rose

/-- For every hash function: when the pick for a key differs between two weights
    of the same backends, it comes from or goes to a backend whose weight
    changed; and if no weight fell, it goes to one whose weight rose. -/
theorem ring_moves_keys_of_changed_weights (crates : Crates) (a b : List Backend)
    (same : SameBackends a b) (isHealthy : Nat → Bool) (key : UInt64)
    (moved : ringPick (buildRing crates a) key isHealthy ≠
      ringPick (buildRing crates b) key isHealthy) :
    (∃ i x y, (ringPick (buildRing crates a) key isHealthy = .ok (some i) ∨
        ringPick (buildRing crates b) key isHealthy = .ok (some i)) ∧
      a[i]? = some x ∧ b[i]? = some y ∧ x.weight ≠ y.weight) ∧
    (Lighter a b → ∃ i x y, ringPick (buildRing crates b) key isHealthy = .ok (some i) ∧
      a[i]? = some x ∧ b[i]? = some y ∧ x.weight < y.weight) := by
  constructor
  · -- Both rings are compared with the one for the smaller of the two weights.
    obtain ⟨left, right⟩ := lighterOf_lighter same
    rcases ringPick_lighter crates left key isHealthy with stays | ⟨i, m, x, picked, low, here, rose⟩
    · rcases ringPick_lighter crates right key isHealthy with also | ⟨i, m, y, picked, low, here, rose⟩
      · exact absurd (stays.symm.trans also) moved
      · obtain ⟨x, y', first, second, changed⟩ := weight_ne_of_lighterOf low
        cases here.symm.trans second
        exact ⟨i, x, y, .inr picked, first, here, changed (.inr rose)⟩
    · obtain ⟨x', y, first, second, changed⟩ := weight_ne_of_lighterOf low
      cases here.symm.trans first
      exact ⟨i, x, y, .inl picked, here, second, changed (.inl rose)⟩
  · intro lighter
    exact (ringPick_lighter crates lighter key isHealthy).resolve_left moved

/-- Two backends of the same weight, and the second with twice that. -/
def evenTwo : List Backend := [⟨['h'], 80, 1⟩, ⟨['i'], 80, 1⟩]

def unevenTwo : List Backend := [⟨['h'], 80, 1⟩, ⟨['i'], 80, 2⟩]

/-- A key of the first backend goes to the second, whose weight rose. -/
theorem ring_moves_key_to_heavier_backend :
    ringPick (buildRing (.indexed []) evenTwo) 200 (fun _ => true) = .ok (some 0) ∧
    ∃ i x y, ringPick (buildRing (.indexed []) unevenTwo) 200 (fun _ => true) = .ok (some i) ∧
      evenTwo[i]? = some x ∧ unevenTwo[i]? = some y ∧ x.weight < y.weight := by
  have first : ringPick (buildRing (.indexed []) evenTwo) 200 (fun _ => true) = .ok (some 0) := by
    decide +kernel
  have second : ringPick (buildRing (.indexed []) unevenTwo) 200 (fun _ => true) = .ok (some 1) := by
    decide +kernel
  have moved : ringPick (buildRing (.indexed []) evenTwo) 200 (fun _ => true) ≠
      ringPick (buildRing (.indexed []) unevenTwo) 200 (fun _ => true) := by
    rw [first, second]
    decide
  exact ⟨first, (ring_moves_keys_of_changed_weights (.indexed []) evenTwo unevenTwo
    (.cons ⟨rfl, rfl⟩ (.cons ⟨rfl, rfl⟩ .nil)) (fun _ => true) 200 moved).2
      (.cons ⟨rfl, rfl, by decide⟩ (.cons ⟨rfl, rfl, by decide⟩ .nil))⟩

/-! ## Health -/

/-- The same backends, those that are not healthy without weight. -/
def silenced (isHealthy : Nat → Bool) (backends : List Backend) : List Backend :=
  backends.zipIdx.map fun (backend, i) => if isHealthy i then backend else { backend with weight := 0 }

theorem getElem?_silenced (isHealthy : Nat → Bool) (backends : List Backend) (i : Nat) :
    (silenced isHealthy backends)[i]? = backends[i]?.map fun backend =>
      if isHealthy i then backend else { backend with weight := 0 } := by
  rw [silenced, List.getElem?_map, List.getElem?_zipIdx, Option.map_map]
  simp only [Function.comp_def, Nat.zero_add]

theorem silenced_lighter (isHealthy : Nat → Bool) (backends : List Backend) :
    Lighter (silenced isHealthy backends) backends := by
  rw [Lighter, List.forall₂_iff_get]
  refine ⟨by simp [silenced], ?_⟩
  intro i within within'
  have here := getElem?_silenced isHealthy backends i
  rw [List.getElem?_eq_getElem within, List.getElem?_eq_getElem within', Option.map_some,
    Option.some.injEq] at here
  rw [List.get_eq_getElem, List.get_eq_getElem, here]
  cases isHealthy i <;> simp [UInt32.le_iff_toNat_le]

/-- Without the points of the backends that are not healthy, the ring is the one
    for those without weight. -/
theorem ringPoints_silenced (crates : Crates) (isHealthy : Nat → Bool) (backends : List Backend) :
    ringPoints crates (silenced isHealthy backends) =
      (ringPoints crates backends).filter (isHealthy ·.backend) := by
  rw [ringPoints_lighter crates (silenced_lighter isHealthy backends)]
  apply List.filter_congr
  intro point member
  obtain ⟨backend, found, within⟩ := of_decide_eq_true (mem_ringPoints crates backends member)
  have here := getElem?_silenced isHealthy backends point.backend
  rw [found, Option.map_some] at here
  rw [Bool.eq_iff_iff, RingPoint.due_iff here]
  cases isHealthy point.backend <;> simp [within]

/-- A key skips the backends that are not healthy as if they had no point; it
    finds none exactly if no healthy backend has a point; and it stays when other
    backends fail or recover: between two health states of which one has all the
    healthy backends of the other, the pick differs only if it is, with more of
    them, one of those the other does not have. -/
theorem ring_skips_unhealthy (crates : Crates) (backends : List Backend) (key : UInt64)
    (isHealthy : Nat → Bool) :
    ringPick (buildRing crates backends) key isHealthy =
        ringPick (buildRing crates (silenced isHealthy backends)) key (fun _ => true) ∧
      (ringPick (buildRing crates backends) key isHealthy = .ok none ↔
        ∀ point ∈ buildRing crates backends, isHealthy point.2 = false) ∧
      ∀ fewer : Nat → Bool, (∀ i, fewer i = true → isHealthy i = true) →
        ringPick (buildRing crates backends) key fewer =
            ringPick (buildRing crates backends) key isHealthy ∨
          ∃ i, ringPick (buildRing crates backends) key isHealthy = .ok (some i) ∧
            isHealthy i = true ∧ fewer i = false := by
  simp only [ringPick_buildRing, ringPoints_silenced, Ring.round_filter]
  generalize walk : Ring.round (fun p => decide (p.hash < key)) (ringPoints crates backends) = points
  refine ⟨?_, ?_, ?_⟩
  · simp [List.find?_filter]
  · have onRing : ∀ p, p ∈ points ↔ p ∈ ringPoints crates backends := by
      rw [← walk]
      exact fun _ => Ring.mem_round
    simp [buildRing_eq, onRing]
  · intro fewer part
    have restrict : points.find? (fewer ·.backend) =
        (points.filter (fewer ·.backend)).find? (isHealthy ·.backend) := by
      rw [List.find?_filter]
      congr 1
      funext point
      cases healthy : fewer point.backend with
      | false => simp
      | true => simp [part _ healthy]
    rcases Ring.find?_filter_or (fewer ·.backend) (isHealthy ·.backend) points with
      same | ⟨point, found, gone⟩
    · rw [restrict, same]
      exact .inl rfl
    · right
      have healthy := List.find?_some found
      exact ⟨point.backend, by rw [found]; rfl, healthy, gone⟩

/-- Two backends whose points collide: the first one has the key, and keeps it
    when the other fails. -/
theorem ring_keeps_key_when_other_fails :
    let ring := buildRing (.indexed []) [⟨['g'], 80, 1⟩, ⟨['h'], 80, 1⟩]
    ringPick ring 0 (· == 0) = ringPick ring 0 (fun _ => true) := by
  intro ring
  have picked : ringPick ring 0 (fun _ => true) = .ok (some 0) := by decide +kernel
  rcases (ring_skips_unhealthy (.indexed []) [⟨['g'], 80, 1⟩, ⟨['h'], 80, 1⟩] 0
      fun _ => true).2.2 (· == 0) (fun _ _ => rfl) with same | ⟨i, other, _, gone⟩
  · exact same
  · cases picked.symm.trans other
    cases gone

end Gfe
