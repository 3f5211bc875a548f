import Gfe.Config.Address
import Gfe.Health.HealthMap
import Gfe.Tls.CertStore

/-! # Pools of backends

A pool is an immutable snapshot of what was asked for: its backends with a
health handle each, and the consistent-hash ring of a `ring_hash` pool, whose
size is bounded when the pool is built.
-/

namespace Gfe

inductive Policy where
  | roundRobin
  | leastRequest
  | ringHash
  deriving DecidableEq, Repr

structure Backend where
  host : Str
  port : UInt16
  weight : UInt32
  deriving DecidableEq, Repr

namespace Backend

def key (backend : Backend) : BackendKey := (backend.host, backend.port)

/-- `host:port`, with an IPv6 literal in brackets. -/
def authority (backend : Backend) : Str :=
  let port := Nat.toDigits 10 backend.port.toNat
  if (Address.parseIpv6Addr backend.host).isSome then
    ['['] ++ backend.host ++ [']', ':'] ++ port
  else backend.host ++ [':'] ++ port

end Backend

/-- What a pool is built from. The payload is the caller's own. -/
structure PoolSpec (τ : Type) where
  id : Str
  policy : Policy
  backends : List Backend
  maxInFlight : Option NonZeroU32
  maxRequestsPerSecond : Option NonZeroU32
  payload : τ
  deriving DecidableEq

inductive PoolError where
  | ringTooLarge (pool : Str) (points : Nat)
  deriving DecidableEq, Repr

def ringReplicas : Nat := 160

def maxRingPoints : Nat := 1000000

/-- The ring: `ringReplicas` points per unit of weight, in the order of their
    hashes, points of equal hash in the order of the backends. -/
def buildRing (crates : Crates) (backends : List Backend) : List (UInt64 × Nat) :=
  let points := backends.zipIdx.flatMap fun (backend, index) =>
    (List.range (ringReplicas * backend.weight.toNat)).map fun replica =>
      (crates.hash64 backend.authority replica, index)
  points.insertionSort fun a b => a.1 ≤ b.1

structure Pool (τ : Type) where
  id : Str
  policy : Policy
  backends : List Backend
  payload : τ
  /-- The health of each backend, aligned with `backends`. -/
  health : List HandleId
  ring : List (UInt64 × Nat)
  uniformWeights : Bool
  maxInFlight : Option NonZeroU32
  rate : Option NonZeroU32
  deriving DecidableEq

namespace PoolSpec

variable {τ : Type}

/-- The ring of a `ring_hash` pool, unless it would be too large; any other
    pool has an empty one. -/
def ring (crates : Crates) (spec : PoolSpec τ) : Except PoolError (List (UInt64 × Nat)) :=
  if spec.policy == .ringHash then
    let points := ringReplicas * (spec.backends.map fun backend => backend.weight.toNat).sum
    if points > maxRingPoints then .error (.ringTooLarge spec.id points)
    else .ok (buildRing crates spec.backends)
  else .ok []

def toPool (spec : PoolSpec τ) (ring : List (UInt64 × Nat)) (health : List HandleId) : Pool τ where
  id := spec.id
  policy := spec.policy
  backends := spec.backends
  payload := spec.payload
  health := health
  ring := ring
  uniformWeights :=
    let first := (spec.backends.head?.map Backend.weight).getD 1
    spec.backends.all (·.weight == first)
  maxInFlight := spec.maxInFlight
  rate := spec.maxRequestsPerSecond

end PoolSpec

structure PoolSet (τ : Type) where
  pools : HashMap Str (Pool τ)
  deriving DecidableEq

namespace PoolSet

variable {τ : Type}

def empty : PoolSet τ := ⟨∅⟩

def get (set : PoolSet τ) (id : Str) : Option (Pool τ) := set.pools.lookup id

def allBackends (set : PoolSet τ) : List BackendKey :=
  set.pools.values.flatMap fun pool => pool.backends.map Backend.key

def len (set : PoolSet τ) : Nat := set.pools.entries.length

end PoolSet

/-- The pools of a config, as they are built. -/
def poolSpecs (pools : List UpstreamPool) : List (PoolSpec Scheme) :=
  pools.map fun pool =>
    { id := pool.id.id
      policy :=
        match pool.lbPolicy with
        | .roundRobin => .roundRobin
        | .leastRequest => .leastRequest
        | .ringHash => .ringHash
      backends := pool.upstreams.map fun upstream =>
        ⟨upstream.host, upstream.port, upstream.weight⟩
      maxInFlight := pool.maxInFlight
      maxRequestsPerSecond := pool.maxRequestsPerSecond
      payload := pool.scheme }

end Gfe
