import Gfe.LoadBalancing.Policy
import Gfe.RateLimiting.TokenBucket
import Gfe.Reload.Apply

/-! # Selecting a backend

What a pool changes while it serves, and how it selects a backend by its policy.
Health is read one backend at a time, so it may change between any two reads,
and an index out of range, a division by zero and an empty minimum are panics.
-/

namespace Gfe

open Interleaving

/-! ## What a pool changes -/

/-- A counter of requests in flight: the pool's own, or that of a backend. -/
inductive Counter where
  | pool
  | backend (index : Nat)
  deriving DecidableEq, Repr

/-- Counts a request in a counter, if in any, until it is dropped. -/
structure InflightGuard where
  counter : Option Counter
  deriving DecidableEq, Repr

structure Selection where
  backend : Backend
  guard : InflightGuard
  deriving DecidableEq, Repr

/-- Which cap of a pool a request was refused under. -/
inductive Limit where
  | maxInFlight
  | maxRequestsPerSecond
  deriving DecidableEq, Repr

instance lawfulBEqAnswer : LawfulBEq (Except Limit Unit) := inferInstance

/-- What one request did with a pool. Not part of the program. -/
structure Entry where
  /-- The backends whose health it read, and whether as selectable. -/
  reads : List (Nat × Bool)
  /-- How often it was counted in each counter, -/
  taken : Counter → Nat
  /-- and how often it was taken off again. -/
  dropped : Counter → Nat
  /-- The place it holds under the cap of the pool: what the pool's counter
      showed when it was counted. -/
  place : Option Int
  /-- What it was answered when it asked to be admitted. -/
  answers : List (Except Limit Unit)

/-- A request that asked for a share of the rate. -/
structure Asked (ι : Type) where
  request : ι
  now : Instant
  permitted : Bool
  deriving DecidableEq

/-- What changes while a pool serves. The requests are named by `ι`. -/
structure PoolState (ι : Type) where
  /-- The status behind every health handle. -/
  status : HandleId → HealthStatus
  unknownIsSelectable : Bool
  /-- The round-robin position. -/
  counter : UInt64
  /-- `in_flight` of the pool and `inflight` of its backends. They count requests in memory, each
      of which takes one off only after it has put one on, so 64 bits hold them. -/
  inFlight : Counter → Int
  rate : Option TokenBucket
  /-- The number that is drawn next. -/
  random : UInt64
  /-- Who asked for a share of the rate, in order. Like the ledger, this is not
      part of the program. -/
  asked : List (Asked ι)
  ledger : ι → Entry

variable {ι τ : Type}

/-- A pool that has served nothing yet. -/
def PoolState.new (pool : Pool τ) (status : HandleId → HealthStatus) (unknownIsSelectable : Bool)
    (random : UInt64) : PoolState ι where
  status := status
  unknownIsSelectable := unknownIsSelectable
  counter := 0
  inFlight _ := 0
  rate := pool.rate.map fun perSecond => .new perSecond perSecond
  random := random
  asked := []
  ledger _ := ⟨[], fun _ => 0, fun _ => 0, none, []⟩

section Selecting

variable [DecidableEq ι]

namespace PoolState

/-- Enter something in the ledger. -/
def note (r : ι) (update : Entry → Entry) (s : PoolState ι) : PoolState ι :=
  { s with ledger := Function.update s.ledger r (update (s.ledger r)) }

@[simp] theorem ledger_note (r : ι) (update : Entry → Entry) (s : PoolState ι) :
    (s.note r update).ledger r = update (s.ledger r) :=
  Function.update_self ..

theorem ledger_note_of_ne {q r : ι} (other : q ≠ r) (update : Entry → Entry) (s : PoolState ι) :
    (s.note r update).ledger q = s.ledger q :=
  Function.update_of_ne other ..

@[simp] theorem inFlight_note (r : ι) (update : Entry → Entry) (s : PoolState ι) :
    (s.note r update).inFlight = s.inFlight := rfl

def take (r : ι) (counter : Counter) (s : PoolState ι) : PoolState ι :=
  { s with inFlight := Function.update s.inFlight counter (s.inFlight counter + 1) }.note r
    fun entry => { entry with
      taken := Function.update entry.taken counter (entry.taken counter + 1) }

/-- Take a request off. -/
def release (r : ι) (counter : Counter) (s : PoolState ι) : PoolState ι :=
  { s with inFlight := Function.update s.inFlight counter (s.inFlight counter - 1) }.note r
    fun entry => { entry with
      dropped := Function.update entry.dropped counter (entry.dropped counter + 1)
      place := if counter = Counter.pool then none else entry.place }

end PoolState

/-- Drop a guard: the counter goes down. -/
def InflightGuard.drop (r : ι) (guard : InflightGuard) : Program (PoolState ι) Unit :=
  match guard.counter with
  | none => pure ()
  | some counter => .write (·.release r counter)

/-! ## Selecting -/

/-- The backends that are read as selectable. -/
def healthyIndices (pool : Pool τ) (r : ι) :
    List Nat → Fallible (PoolState ι) Panic (List Nat)
  | [] => pure []
  | i :: rest => do
    let handle ← Fallible.ofExcept (index pool.health i)
    let selectable ← (.exchange fun s =>
      let selectable := (s.status handle).isSelectable s.unknownIsSelectable
      (selectable, s.note r fun entry =>
        { entry with reads := entry.reads ++ [(i, selectable)] }) : Program (PoolState ι) Bool)
    let others ← healthyIndices pool r rest
    return if selectable then i :: others else others

def Pool.selectableAt (pool : Pool τ) (selectable : HandleId → Bool) (i : Nat) : Bool :=
  pool.health[i]?.any selectable

def inTurn (healthy : List Nat) : Fallible (PoolState ι) Panic Nat := do
  let n ← (.exchange fun s => (s.counter, { s with counter := s.counter + 1 }) :
    Program (PoolState ι) UInt64)
  let place ← Fallible.ofExcept (remainder n.toNat healthy.length)
  Fallible.ofExcept (index healthy place)

/-- The healthy backends with their weights. -/
def candidates (pool : Pool τ) : List Nat → Except Panic (List (Nat × UInt32))
  | [] => .ok []
  | i :: rest => do
    let backend ← index pool.backends i
    let others ← candidates pool rest
    return (i, backend.weight) :: others

def roundRobin (pool : Pool τ) (healthy : List Nat) : Fallible (PoolState ι) Panic Nat := do
  if pool.uniformWeights then
    inTurn healthy
  else do
    let weighted ← Fallible.ofExcept (candidates pool healthy)
    let total := (weighted.map fun candidate => candidate.2.toNat).sum
    if total = 0 then
      inTurn healthy
    else do
      let draw ← (.read fun s => s.random : Program (PoolState ι) UInt64)
      let r ← Fallible.ofExcept (remainder draw.toNat total)
      return weightedPick weighted r

/-- The load of a backend: its requests in flight, over its weight. -/
structure Score where
  inflight : Int
  weight : UInt32

/-- The order of `(inflight + 1) / weight`, as the floats that stand for them
    are ordered. -/
abbrev ScoreOrder := Score → Score → Ordering

/-- The order of the loads as fractions. -/
def ScoreOrder.exact : ScoreOrder := fun a b =>
  compare ((a.inflight + 1) * b.weight.toNat) ((b.inflight + 1) * a.weight.toNat)

/-- `self.inflight[i]`; a pool has one counter for each backend. -/
def inflightCounter (pool : Pool τ) (i : Nat) : Except Panic Counter :=
  if i < pool.backends.length then .ok (.backend i) else .error .indexOutOfRange

def score (pool : Pool τ) (i : Nat) : Fallible (PoolState ι) Panic Score := do
  let counter ← Fallible.ofExcept (inflightCounter pool i)
  let inflight ← (.read fun s => s.inFlight counter : Program (PoolState ι) Int)
  let backend ← Fallible.ofExcept (index pool.backends i)
  return ⟨inflight, if backend.weight = 0 then 1 else backend.weight⟩

/-- The first of the least loaded backends, both read again at each comparison. -/
def leastLoaded (order : ScoreOrder) (pool : Pool τ) (best : Nat) :
    List Nat → Fallible (PoolState ι) Panic Nat
  | [] => pure best
  | next :: rest => do
    let a ← score pool best
    let b ← score pool next
    leastLoaded order pool (if order a b = .gt then next else best) rest

def leastRequest (order : ScoreOrder) (pool : Pool τ) (healthy : List Nat) :
    Fallible (PoolState ι) Panic Nat :=
  match healthy with
  | [] => throw .emptyMinimum
  | first :: rest => leastLoaded order pool first rest

/-- The backend the policy chooses among the healthy ones. -/
def choose (order : ScoreOrder) (pool : Pool τ) (hashKey : Option UInt64) (healthy : List Nat) :
    Fallible (PoolState ι) Panic Nat :=
  match pool.policy with
  | .roundRobin => roundRobin pool healthy
  | .leastRequest => leastRequest order pool healthy
  | .ringHash => do
    match ← Fallible.ofExcept (ringPick pool.ring (hashKey.getD 0) healthy.contains) with
    | some idx => return idx
    | none => roundRobin pool healthy

/-- Count the request against the backend, if the policy needs to know. -/
def countAgainst (pool : Pool τ) (r : ι) (idx : Nat) :
    Fallible (PoolState ι) Panic InflightGuard := do
  if pool.policy = .leastRequest then
    let counter ← Fallible.ofExcept (inflightCounter pool idx)
    (.write (·.take r counter) : Program (PoolState ι) Unit)
    return ⟨some counter⟩
  else return ⟨none⟩

def select (order : ScoreOrder) (pool : Pool τ) (r : ι) (hashKey : Option UInt64) :
    Fallible (PoolState ι) Panic (Option Selection) := do
  let healthy ← healthyIndices pool r (List.range pool.backends.length)
  if healthy.isEmpty then return none
  let idx ← choose order pool hashKey healthy
  let guard ← countAgainst pool r idx
  let backend ← Fallible.ofExcept (index pool.backends idx)
  return some ⟨backend, guard⟩

end Selecting

/-! ## No step panics -/

/-- Others leave alone what the ledger says the request read. -/
def readsOf (r : ι) : Rely (PoolState ι) := .keeping fun s => (s.ledger r).reads

/-- Ends well, with a result that satisfies `good`, and reads nothing more. -/
def Selects (r : ι) {α : Type} (p : Fallible (PoolState ι) Panic α) (good : α → Prop) : Prop :=
  ∀ reads s, (s.ledger r).reads = reads →
    p.Ensures (readsOf r) (fun value s => good value ∧ (s.ledger r).reads = reads)
      (fun _ _ => False) s

namespace Selects

variable {α β : Type} {r : ι} {p : Fallible (PoolState ι) Panic α} {good : α → Prop}

theorem pure {value : α} (here : good value) : Selects r (Pure.pure value) good := by
  intro reads s start
  apply Fallible.Ensures.pure
  intro s' moved
  exact ⟨here, moved.trans start⟩

theorem ofExcept {result : Except Panic α} {value : α} (ended : result = .ok value)
    (here : good value) : Selects r (Fallible.ofExcept result) good := by
  subst ended
  exact pure here

theorem read (view : PoolState ι → α) :
    Selects r (monadLift (.read view : Program (PoolState ι) α)) fun _ => True := by
  intro reads s start
  apply Fallible.Ensures.lift
  apply Program.Ensures.read
  intro t u first second
  exact ⟨trivial, (second.trans first).trans start⟩

theorem exchange {change : PoolState ι → α × PoolState ι}
    (kept : ∀ s, ((change s).2.ledger r).reads = (s.ledger r).reads) :
    Selects r (monadLift (.exchange change : Program (PoolState ι) α)) fun _ => True := by
  intro reads s start
  apply Fallible.Ensures.lift
  apply Program.Ensures.exchange
  intro t u first second
  exact ⟨trivial, second.trans ((kept t).trans (first.trans start))⟩

theorem write {update : PoolState ι → PoolState ι}
    (kept : ∀ s, ((update s).ledger r).reads = (s.ledger r).reads) :
    Selects r (monadLift (.write update : Program (PoolState ι) Unit)) fun _ => True := by
  intro reads s start
  apply Fallible.Ensures.lift
  apply Program.Ensures.write
  intro t u first second
  exact ⟨trivial, second.trans ((kept t).trans (first.trans start))⟩

theorem bind {f : α → Fallible (PoolState ι) Panic β} {good' : β → Prop} (first : Selects r p good)
    (rest : ∀ value, good value → Selects r (f value) good') : Selects r (p >>= f) good' := by
  intro reads s start
  apply Fallible.Ensures.bind
  refine (first reads s start).weaken ?_ fun _ _ => id
  intro value s' held
  exact rest value held.1 reads s' held.2

theorem and {good' : α → Prop} (first : Selects r p good) (second : Selects r p good') :
    Selects r p fun value => good value ∧ good' value := by
  intro reads s start
  refine ((first reads s start).and (second reads s start)).weaken ?_ fun _ _ => And.left
  rintro value s' ⟨⟨here, logged⟩, here', _⟩
  exact ⟨⟨here, here'⟩, logged⟩

theorem weaken {good' : α → Prop} (selects : Selects r p good)
    (imp : ∀ value, good value → good' value) : Selects r p good' := by
  intro reads s start
  refine (selects reads s start).weaken ?_ fun _ _ => id
  rintro value s' ⟨here, logged⟩
  exact ⟨imp value here, logged⟩

end Selects

def Pool.Aligned (pool : Pool τ) : Prop := pool.health.length = pool.backends.length

section Panics

variable {pool : Pool τ} {r : ι} {healthy : List Nat}

theorem selects_inTurn (some : healthy ≠ []) :
    Selects r (inTurn healthy : Fallible (PoolState ι) Panic Nat) (· ∈ healthy) := by
  have positive : 0 < healthy.length := List.length_pos_iff.mpr some
  refine .bind (.exchange fun _ => rfl) ?_
  intro n _
  refine .bind (.ofExcept (remainder_of_ne positive.ne') rfl) ?_
  rintro place rfl
  exact .ofExcept (index_of_lt (Nat.mod_lt _ positive)) (List.getElem_mem _)

theorem candidates_ok (within : ∀ i ∈ healthy, i < pool.backends.length) :
    ∃ weighted, candidates pool healthy = .ok weighted ∧ weighted.map Prod.fst = healthy := by
  induction healthy with
  | nil => exact ⟨[], rfl, rfl⟩
  | cons i rest ih =>
    obtain ⟨others, ended, same⟩ := ih fun j member => within j (List.mem_cons_of_mem _ member)
    have here := within i List.mem_cons_self
    refine ⟨(i, pool.backends[i].weight) :: others, ?_, ?_⟩
    · rw [candidates, index_of_lt here, ended]
      rfl
    · rw [List.map_cons, same]

theorem selects_roundRobin (within : ∀ i ∈ healthy, i < pool.backends.length)
    (some : healthy ≠ []) :
    Selects r (roundRobin pool healthy : Fallible (PoolState ι) Panic Nat) (· ∈ healthy) := by
  unfold roundRobin
  split
  · exact selects_inTurn some
  obtain ⟨weighted, ended, same⟩ := candidates_ok within
  refine .bind (.ofExcept ended rfl) ?_
  rintro _ rfl
  dsimp only
  split
  · exact selects_inTurn some
  · rename_i positive
    have nonempty : weighted ≠ [] := by
      rintro rfl
      exact some same.symm
    refine .bind (.read _) ?_
    intro draw _
    refine .bind (.ofExcept (remainder_of_ne positive) rfl) ?_
    rintro _ rfl
    exact .pure (same ▸ weightedPick_mem nonempty _)

theorem inflightCounter_of_lt {i : Nat} (within : i < pool.backends.length) :
    inflightCounter pool i = .ok (.backend i) :=
  if_pos within

theorem selects_score {i : Nat} (within : i < pool.backends.length) :
    Selects r (score pool i : Fallible (PoolState ι) Panic Score) fun _ => True := by
  refine .bind (.ofExcept (inflightCounter_of_lt within) rfl) ?_
  rintro _ rfl
  refine .bind (.read _) ?_
  intro inflight _
  refine .bind (.ofExcept (index_of_lt within) rfl) ?_
  rintro _ rfl
  exact .pure trivial

theorem selects_leastLoaded (order : ScoreOrder) {best : Nat} {rest : List Nat}
    (within : ∀ i ∈ best :: rest, i < pool.backends.length) :
    Selects r (leastLoaded order pool best rest : Fallible (PoolState ι) Panic Nat)
      (· ∈ best :: rest) := by
  induction rest generalizing best with
  | nil => exact .pure List.mem_cons_self
  | cons next rest ih =>
    refine .bind (selects_score (within best List.mem_cons_self)) ?_
    intro a _
    refine .bind (selects_score (within next (by simp))) ?_
    intro b _
    -- the winner is one of the two, so it stays among the backends of the list
    have among : ∀ i ∈ (if order a b = .gt then next else best) :: rest,
        i ∈ best :: next :: rest := by
      intro i member
      split at member <;> simp only [List.mem_cons] at member ⊢ <;> tauto
    intro reads s start
    refine (ih (fun i member => within i (among i member)) reads s start).weaken ?_ fun _ _ => id
    intro i s' held
    exact ⟨among i held.1, held.2⟩

theorem ringPick_ok (ring : List (UInt64 × Nat)) (key : UInt64) (isHealthy : Nat → Bool) :
    ∃ found, ringPick ring key isHealthy = .ok found ∧ ∀ i ∈ found, isHealthy i = true := by
  unfold ringPick
  split
  · exact ⟨none, rfl, fun _ absent => by cases absent⟩
  · rename_i nonempty
    refine ⟨_, walkRing_eq (by simpa using nonempty) _ _ _, ?_⟩
    intro i found
    obtain ⟨point, met, rfl⟩ := Option.map_eq_some_iff.mp found
    exact List.find?_some (p := fun point : UInt64 × Nat => isHealthy point.2) met

theorem selects_choose (order : ScoreOrder) (hashKey : Option UInt64)
    (within : ∀ i ∈ healthy, i < pool.backends.length) (some : healthy ≠ []) :
    Selects r (choose order pool hashKey healthy : Fallible (PoolState ι) Panic Nat)
      (· ∈ healthy) := by
  unfold choose
  split
  · exact selects_roundRobin within some
  · cases healthy with
    | nil => exact absurd rfl some
    | cons best rest => exact selects_leastLoaded order within
  · obtain ⟨found, ended, healthyOne⟩ :=
      ringPick_ok pool.ring (hashKey.getD 0) healthy.contains
    refine .bind (.ofExcept ended rfl) ?_
    rintro _ rfl
    cases found with
    | none => exact selects_roundRobin within some
    | some i => exact .pure (List.contains_iff_mem.mp (healthyOne i rfl))

theorem selects_countAgainst [DecidableEq ι] {idx : Nat} (within : idx < pool.backends.length) :
    Selects r (countAgainst pool r idx) fun _ => True := by
  unfold countAgainst
  split
  · refine .bind (.ofExcept (inflightCounter_of_lt within) rfl) ?_
    rintro _ rfl
    refine .bind (.write ?_) fun _ _ => .pure trivial
    intro s
    simp [PoolState.take]
  · exact .pure trivial

theorem ensures_healthyIndices [DecidableEq ι]
    (aligned : pool.Aligned) {indices : List Nat}
    (within : ∀ i ∈ indices, i < pool.backends.length) {before : List (Nat × Bool)}
    {s : PoolState ι} (start : (s.ledger r).reads = before) :
    (healthyIndices pool r indices).Ensures (readsOf r)
      (fun healthy s => ∃ reads, (s.ledger r).reads = before ++ reads ∧
        reads.map Prod.fst = indices ∧ healthy = (reads.filter (·.2)).map Prod.fst)
      (fun _ _ => False) s := by
  induction indices generalizing before s with
  | nil =>
    apply Fallible.Ensures.pure
    intro s' moved
    exact ⟨[], by rw [List.append_nil, ← start]; exact moved, rfl, rfl⟩
  | cons i rest ih =>
    have known : i < pool.health.length := aligned ▸ within i List.mem_cons_self
    apply Fallible.Ensures.bind
    rw [index_of_lt known]
    apply Fallible.Ensures.pure
    intro t first
    apply Fallible.Ensures.bind
    apply Fallible.Ensures.lift
    apply Program.Ensures.exchange
    intro u v second third
    have kept : (u.ledger r).reads = before := (second.trans first).trans start
    have logged : (v.ledger r).reads =
        before ++ [(i, (u.status pool.health[i]).isSelectable u.unknownIsSelectable)] :=
      third.trans (by simp [kept])
    apply Fallible.Ensures.bind
    refine (ih (fun j member => within j (List.mem_cons_of_mem _ member)) logged).weaken ?_
      fun _ _ => id
    rintro healthy s' ⟨reads, now, same, rfl⟩
    apply Fallible.Ensures.pure
    intro s'' moved
    refine ⟨_ :: reads, (moved.trans now).trans (List.append_assoc ..), by simp [same], ?_⟩
    rw [List.filter_cons]
    split <;> simp [*]

/-- What a selection that read these may answer: each backend was read once, and
    it is one of those read as selectable, none only if there is none. -/
def AnswersFrom (pool : Pool τ) (reads : List (Nat × Bool)) (answer : Option Selection) : Prop :=
  reads.map Prod.fst = List.range pool.backends.length ∧
    (answer.isSome ↔ ∃ i, (i, true) ∈ reads) ∧
    ∀ selection, answer = some selection →
      ∃ i, (i, true) ∈ reads ∧ pool.backends[i]? = some selection.backend

/-- What a selection guarantees of its choice, whatever the policy guarantees of it
    among the backends that were read as selectable. -/
theorem ensures_selectBy [DecidableEq ι] (aligned : pool.Aligned) (order : ScoreOrder)
    (hashKey : Option UInt64) (r : ι) {good : List Nat → Nat → Prop}
    (chooses : ∀ healthy, healthy ≠ [] → (∀ i ∈ healthy, i < pool.backends.length) →
      Selects r (choose order pool hashKey healthy : Fallible (PoolState ι) Panic Nat)
        fun idx => idx ∈ healthy ∧ good healthy idx) (s : PoolState ι) :
    (select order pool r hashKey).Ensures (readsOf r)
      (fun answer t => ∃ reads, (t.ledger r).reads = (s.ledger r).reads ++ reads ∧
        AnswersFrom pool reads answer ∧ ∀ selection, answer = some selection →
          ∃ i, pool.backends[i]? = some selection.backend ∧
            good ((reads.filter (·.2)).map Prod.fst) i) (fun _ _ => False) s := by
  apply Fallible.Ensures.bind
  refine (ensures_healthyIndices aligned (fun i => List.mem_range.mp) rfl).weaken ?_ fun _ _ => id
  rintro healthy t ⟨reads, logged, once, rfl⟩
  have read : ∀ i ∈ (reads.filter (·.2)).map Prod.fst,
      (i, true) ∈ reads ∧ i < pool.backends.length := by
    intro i member
    obtain ⟨⟨j, selectable⟩, picked, rfl⟩ := List.mem_map.mp member
    obtain ⟨logged, rfl⟩ := List.mem_filter.mp picked
    exact ⟨logged, List.mem_range.mp (once ▸ List.mem_map_of_mem logged)⟩
  split
  · rename_i empty
    apply Fallible.Ensures.pure
    intro t' moved
    have none : ∀ i, (i, true) ∉ reads := by simpa using empty
    exact ⟨reads, moved.trans logged, ⟨once, by simpa using none, by simp⟩, by simp⟩
  · rename_i nonempty
    have rest : Selects r (do
        let idx ← choose order pool hashKey ((reads.filter (·.2)).map Prod.fst)
        let guard ← countAgainst pool r idx
        let backend ← Fallible.ofExcept (index pool.backends idx)
        return some (Selection.mk backend guard)) fun answer =>
          AnswersFrom pool reads answer ∧ ∀ selection, answer = some selection →
            ∃ i, pool.backends[i]? = some selection.backend ∧
              good ((reads.filter (·.2)).map Prod.fst) i := by
      refine .bind (chooses _ (fun empty => nonempty (by rw [empty]; rfl))
        fun i member => (read i member).2) ?_
      rintro idx ⟨member, here⟩
      obtain ⟨logged, within⟩ := read idx member
      refine .bind (selects_countAgainst within) ?_
      intro guard _
      refine .bind (.ofExcept (index_of_lt within) rfl) ?_
      rintro _ rfl
      have found : pool.backends[idx]? = some pool.backends[idx] := List.getElem?_eq_getElem within
      apply Selects.pure
      refine ⟨⟨once, ⟨fun _ => ⟨idx, logged⟩, fun _ => rfl⟩, ?_⟩, ?_⟩
      · rintro _ ⟨⟩
        exact ⟨idx, logged, found⟩
      · rintro _ ⟨⟩
        exact ⟨idx, found, here⟩
    refine (rest _ t logged).weaken ?_ fun _ _ => id
    intro answer t' held
    exact ⟨reads, held.2, held.1⟩

theorem ensures_select [DecidableEq ι] (aligned : pool.Aligned) (order : ScoreOrder)
    (hashKey : Option UInt64) (r : ι) (s : PoolState ι) :
    (select order pool r hashKey).Ensures (readsOf r)
      (fun answer t => ∃ reads, (t.ledger r).reads = (s.ledger r).reads ++ reads ∧
        AnswersFrom pool reads answer) (fun _ _ => False) s := by
  have chooses : ∀ healthy, healthy ≠ [] → (∀ i ∈ healthy, i < pool.backends.length) →
      Selects r (choose order pool hashKey healthy : Fallible (PoolState ι) Panic Nat)
        fun idx => idx ∈ healthy ∧ True := by
    intro healthy some within
    simpa using selects_choose order hashKey within some
  refine (ensures_selectBy aligned order hashKey r chooses s).weaken ?_ fun _ _ => id
  rintro answer t ⟨reads, logged, answered, _⟩
  exact ⟨reads, logged, answered⟩

end Panics

/-! ## Pools as they are built -/

theorem ensures_takeHandles (rely : Rely World) (backends : List Backend) (w : World) :
    (takeHandles backends).Ensures rely (fun handles _ => handles.length = backends.length) w := by
  induction backends generalizing w with
  | nil => exact fun _ _ => rfl
  | cons backend rest ih =>
    apply Program.Ensures.bind
    apply Program.Ensures.exchange
    intro _ u _ _
    apply Program.Ensures.bind
    refine (ih u).weaken ?_
    intro handles _ same
    exact fun _ _ => congrArg (· + 1) same

structure Pool.Built (crates : Crates) (spec : PoolSpec Scheme) (pool : Pool Scheme) : Prop where
  ring : spec.ring crates = .ok pool.ring
  same : pool = spec.toPool pool.ring pool.health
  handles : pool.health.length = spec.backends.length

namespace Pool.Built

variable {crates : Crates} {spec : PoolSpec Scheme} {pool : Pool Scheme}

theorem backends (built : pool.Built crates spec) : pool.backends = spec.backends := by
  rw [built.same]
  rfl

theorem policy (built : pool.Built crates spec) : pool.policy = spec.policy := by
  rw [built.same]
  rfl

theorem aligned (built : pool.Built crates spec) : pool.Aligned := by
  rw [Pool.Aligned, built.handles, built.backends]

end Pool.Built

theorem ensures_poolNew (rely : Rely World) (crates : Crates) (spec : PoolSpec Scheme) (w : World) :
    (Pool.new crates spec).Ensures rely (fun pool _ => pool.Built crates spec)
      (fun _ _ => True) w := by
  apply Fallible.Ensures.bind
  refine .ofExcept ?_ fun _ _ _ _ => trivial
  intro ring made w' _
  apply Fallible.Ensures.bind
  apply Fallible.Ensures.lift
  refine (ensures_takeHandles rely spec.backends w').weaken ?_
  intro handles _ same
  exact fun _ _ => ⟨made, rfl, same⟩

structure PoolsOf (crates : Crates) (specs : List (PoolSpec Scheme))
    (pools : HashMap Str (Pool Scheme)) : Prop where
  built : ∀ id pool, pools.lookup id = some pool →
    ∃ spec ∈ specs, spec.id = id ∧ pool.Built crates spec
  all : ∀ spec ∈ specs, (pools.lookup spec.id).isSome

theorem PoolsOf.empty (crates : Crates) : PoolsOf crates [] ∅ where
  built id pool known := by
    rw [AList.lookup_empty] at known
    cases known
  all spec absent := by cases absent

theorem PoolsOf.insert {crates : Crates} {specs : List (PoolSpec Scheme)}
    {pools : HashMap Str (Pool Scheme)} (before : PoolsOf crates specs pools)
    {spec : PoolSpec Scheme} {pool : Pool Scheme} (built : pool.Built crates spec) :
    PoolsOf crates (specs ++ [spec]) (pools.insert spec.id pool) where
  built id other known := by
    rw [HashMap.lookup_insert] at known
    split at known
    · rename_i same
      cases known
      exact ⟨spec, by simp, same.symm, built⟩
    · obtain ⟨spec', member, rest⟩ := before.built id other known
      exact ⟨spec', by simp [member], rest⟩
  all spec' member := by
    rw [HashMap.lookup_insert]
    split
    · rfl
    · rename_i other
      simp only [List.mem_append, List.mem_singleton] at member
      cases member with
      | inl old => exact before.all spec' old
      | inr new => exact absurd (congrArg PoolSpec.id new) other

theorem ensures_addPools (rely : Rely World) (crates : Crates) (specs : List (PoolSpec Scheme))
    {done : List (PoolSpec Scheme)} {pools : HashMap Str (Pool Scheme)}
    (before : PoolsOf crates done pools) (w : World) :
    (PoolSet.addPools crates pools specs).Ensures rely
      (fun pools _ => PoolsOf crates (done ++ specs) pools) (fun _ _ => True) w := by
  induction specs generalizing done pools w with
  | nil =>
    rw [List.append_nil]
    exact fun _ _ => before
  | cons spec rest ih =>
    apply Fallible.Ensures.bind
    refine (ensures_poolNew rely crates spec w).weaken ?_ fun _ _ => id
    intro pool w' built
    rw [List.append_cons]
    exact ih (before.insert built) w'

theorem ensures_poolSetBuild (rely : Rely World) (crates : Crates)
    (specs : List (PoolSpec Scheme)) (w : World) :
    (PoolSet.build crates specs).Ensures rely (fun set _ => PoolsOf crates specs set.pools)
      (fun _ _ => True) w := by
  apply Fallible.Ensures.bind
  refine (ensures_addPools rely crates specs (.empty crates) w).weaken ?_ fun _ _ held => held
  intro pools _ all
  exact fun _ _ => all

theorem built_of_get {crates : Crates} {specs : List (PoolSpec Scheme)}
    {env : World → World → Prop} {w w' : World} {set : PoolSet Scheme}
    (built : Program.Steps env (ExceptT.run (PoolSet.build crates specs), w) (.ret (.ok set), w'))
    {id : Str} {pool : Pool Scheme} (found : set.get id = some pool) :
    ∃ spec ∈ specs, spec.id = id ∧ pool.Built crates spec := by
  have ensured := ensures_poolSetBuild (.within fun _ => True) crates specs w
  exact (ensured.sound (fun _ _ _ held => held) built).built id pool found

variable [DecidableEq ι]

/-- Whatever others do to the pool between any two of its steps, selecting never
    panics: it reads each backend once, returns one of those it read as
    selectable, and none only if there is none. -/
theorem select_returns_selectable {crates : Crates} {specs : List (PoolSpec Scheme)}
    {env : World → World → Prop} {w w' : World} {set : PoolSet Scheme}
    (built : Program.Steps env (ExceptT.run (PoolSet.build crates specs), w) (.ret (.ok set), w'))
    {id : Str} {pool : Pool Scheme} (found : set.get id = some pool) (order : ScoreOrder)
    (hashKey : Option UInt64) (r : ι) {others : PoolState ι → PoolState ι → Prop}
    (kept : ∀ s s', others s s' → (s'.ledger r).reads = (s.ledger r).reads)
    {s s' : PoolState ι} {result : Except Panic (Option Selection)}
    (selected : Program.Steps others (ExceptT.run (select order pool r hashKey), s)
      (.ret result, s')) :
    ∃ answer reads, result = .ok answer ∧ (s'.ledger r).reads = (s.ledger r).reads ++ reads ∧
      AnswersFrom pool reads answer := by
  obtain ⟨spec, _, _, from_spec⟩ := built_of_get built found
  have ended := (ensures_select from_spec.aligned order hashKey r s).sound kept selected
  cases result with
  | error panic => exact ended.elim
  | ok answer =>
    obtain ⟨reads, logged, answered⟩ := ended
    exact ⟨answer, reads, rfl, logged, answered⟩

/-- A pool whose ring is empty, because its only backend weighs nothing. -/
def weightless : PoolSpec Scheme := ⟨['p'], .ringHash, [⟨['h'], 80, 0⟩], none, none, .http⟩

/-- An empty ring, and a backend that was not probed yet. -/
theorem select_on_empty_ring :
    let pool := weightless.toPool [] [0]
    let start : PoolState Unit := .new pool (fun _ => .unknown) true 0
    let ended := Fallible.exec (select (fun _ _ => .eq) pool () none) start
    ∃ answer reads, ended.1 = .ok answer ∧ (ended.2.ledger ()).reads = [] ++ reads ∧
      AnswersFrom pool reads answer := by
  intro pool start ended
  let w : World := .starting (.small [] (.error .notFound) []) ∅
  have built := Program.steps_run (fun _ _ => False)
    (ExceptT.run (PoolSet.build (.indexed []) [weightless])) w
  have found : (PoolSet.mk (AList.insert ['p'] pool ∅)).get ['p'] = some pool := rfl
  have kept : ∀ s s' : PoolState Unit, s'.ledger = s.ledger →
      (s'.ledger ()).reads = (s.ledger ()).reads := fun _ _ same => by rw [same]
  exact select_returns_selectable built found (fun _ _ => .eq) none () kept
    (Program.steps_run _ _ start)

end Gfe
