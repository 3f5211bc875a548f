import Gfe.Lib.Text

/-! # The dynamic config

The data a node serves from, as its JSON file spells it. Identifiers keep types
of their own, durations are in nanoseconds, and an absent cap is `none`.
-/

namespace Gfe

/-- A file name on the node's disk. -/
structure Path where
  name : Str
  deriving DecidableEq, Repr

inductive IpAddr where
  | v4 (bits : BitVec 32)
  | v6 (bits : BitVec 128)
  deriving DecidableEq, Repr

/-- An IPv4 address mapped into IPv6 (`::ffff:a.b.c.d`) is that IPv4 address. -/
def IpAddr.toCanonical : IpAddr → IpAddr
  | .v4 bits => .v4 bits
  | .v6 bits =>
    if bits.extractLsb' 32 96 = 0xffff#96 then .v4 (bits.extractLsb' 0 32) else .v6 bits

structure SocketAddr where
  ip : IpAddr
  port : UInt16
  deriving DecidableEq, Repr

/-! ## Certificates and listeners -/

structure CertEntry where
  /-- Exact names and single-label wildcards (`*.example.org`). -/
  sni : List Str
  default : Bool
  certFile : Path
  keyFile : Path
  deriving DecidableEq, Repr

structure ListenerId where
  id : Str
  deriving DecidableEq, Repr

inductive ListenProtocol where
  | http
  | https
  deriving DecidableEq, Repr

structure Listener where
  id : ListenerId
  address : IpAddr
  port : UInt16
  protocol : ListenProtocol
  deriving DecidableEq, Repr

/-! ## Routes -/

structure RouteId where
  id : Str
  deriving DecidableEq, Repr

structure RedirectAction where
  scheme : Str
  status : UInt16
  deriving DecidableEq, Repr

structure FixedAction where
  status : UInt16
  body : Str
  deriving DecidableEq, Repr

inductive RouteAction where
  /-- Forward to the pool of this id. -/
  | forward (pool : Str)
  | redirect (action : RedirectAction)
  | fixed (action : FixedAction)
  deriving DecidableEq, Repr

structure Route where
  id : RouteId
  listener : ListenerId
  /-- An exact name, a single-label wildcard, or `*` for any host. -/
  host : Str
  pathPrefix : Str
  action : RouteAction
  deriving DecidableEq, Repr

/-! ## Pools -/

structure PoolId where
  id : Str
  deriving DecidableEq, Repr

inductive Scheme where
  | http
  | https
  | h2c
  deriving DecidableEq, Repr

inductive LbPolicy where
  | roundRobin
  | leastRequest
  | ringHash
  deriving DecidableEq, Repr

structure Upstream where
  host : Str
  port : UInt16
  weight : UInt32
  deriving DecidableEq, Repr

inductive ProbeType where
  | http
  | https
  | tcp
  | grpc
  deriving DecidableEq, Repr

structure HealthCheckConfig where
  probeType : ProbeType
  interval : Nat
  timeout : Nat
  healthyThreshold : UInt32
  unhealthyThreshold : UInt32
  path : Str
  expectedStatus : UInt16
  drainStatus : Option UInt16
  deriving DecidableEq, Repr

/-- The check of a node that configures none: `GET /healthz` every five
    seconds. -/
def HealthCheckConfig.standard : HealthCheckConfig where
  probeType := .http
  interval := 5000000000
  timeout := 2000000000
  healthyThreshold := 2
  unhealthyThreshold := 3
  path := ['/', 'h', 'e', 'a', 'l', 't', 'h', 'z']
  expectedStatus := 200
  drainStatus := none

/-- A cap that is at least one. -/
abbrev NonZeroU32 := { n : UInt32 // n ≠ 0 }

theorem one_ne_zero_u32 : (1 : UInt32) ≠ 0 := by decide

structure UpstreamPool where
  id : PoolId
  scheme : Scheme
  lbPolicy : LbPolicy
  upstreams : List Upstream
  healthCheck : Option HealthCheckConfig
  maxInFlight : Option NonZeroU32
  maxRequestsPerSecond : Option NonZeroU32
  deriving DecidableEq, Repr

structure DynamicConfig where
  certificates : List CertEntry
  listeners : List Listener
  routes : List Route
  pools : List UpstreamPool
  deriving DecidableEq, Repr

end Gfe
