import Gfe.Config.AddressText
import Gfe.Config.Duration
import Gfe.Lib.Json

/-! # The dynamic config as JSON

What the fields of a config are read from and written as. A key that is not known or
comes twice is refused, and each field that may be left out has its default. The
last-known-good cache is written this way, so what is written must be read as what
it was: of what can be in a config that only needs an argument for durations.
-/

namespace Gfe

open Json

/-! ## Values -/

def readU16 (value : Value) : Option UInt16 := (readUnsigned (2 ^ 16) value).map UInt16.ofNat

def writeU16 (n : UInt16) : Value := .integer n.toNat

def readU32 (value : Value) : Option UInt32 := (readUnsigned (2 ^ 32) value).map UInt32.ofNat

def writeU32 (n : UInt32) : Value := .integer n.toNat

def readNonZeroU32 (value : Value) : Option NonZeroU32 := do
  let n ← readU32 value
  if some : n ≠ 0 then return ⟨n, some⟩ else none

def writeNonZeroU32 (n : NonZeroU32) : Value := writeU32 n

def readPath (value : Value) : Option Path := (readString value).map Path.mk

def writePath (path : Path) : Value := .string path.name

def readIpAddr (value : Value) : Option IpAddr := (readString value).bind Address.parseIpAddr

def writeIpAddr (address : IpAddr) : Value := .string (Address.displayIpAddr address)

def deserializeDuration (value : Value) : Option Nat :=
  (readString value).bind fun s => (parseDuration s).toOption

def writeDuration (duration : Nat) : Value := .string (serializeDuration duration)

theorem readsBack_u16 (n : UInt16) : ReadsBack writeU16 readU16 n := by
  unfold ReadsBack readU16 writeU16
  rw [readUnsigned_integer n.toNat_lt]
  simp

theorem readsBack_u32 (n : UInt32) : ReadsBack writeU32 readU32 n := by
  unfold ReadsBack readU32 writeU32
  rw [readUnsigned_integer n.toNat_lt]
  simp

theorem readsBack_nonZeroU32 (n : NonZeroU32) : ReadsBack writeNonZeroU32 readNonZeroU32 n := by
  have read : readU32 (writeU32 n) = some n.val := readsBack_u32 n
  simp [ReadsBack, readNonZeroU32, writeNonZeroU32, read, n.property]

theorem readsBack_ipAddr (address : IpAddr) : ReadsBack writeIpAddr readIpAddr address :=
  Address.parseIpAddr_displayIpAddr address

theorem readsBack_duration {duration : Nat} (units : InUnits duration) :
    ReadsBack writeDuration deserializeDuration duration := by
  simp [ReadsBack, writeDuration, deserializeDuration, readString,
    parseDuration_serializeDuration units, Except.toOption]

/-! ## Certificates and listeners -/

inductive CertEntry.Key where
  | sni
  | default
  | certFile
  | keyFile
  deriving DecidableEq

def CertEntry.names : Names CertEntry.Key where
  keys := [.sni, .default, .certFile, .keyFile]
  name
    | .sni => "sni".toList
    | .default => "default".toList
    | .certFile => "cert_file".toList
    | .keyFile => "key_file".toList
  all key := by cases key <;> decide
  distinct := by decide +kernel

def CertEntry.deserialize (value : Value) : Option CertEntry := do
  let fields ← readFields names value
  let sni ← defaulted [] (readList readString) .sni fields
  let default ← defaulted false readBool .default fields
  let certFile ← required readPath .certFile fields
  let keyFile ← required readPath .keyFile fields
  return ⟨sni, default, certFile, keyFile⟩

def CertEntry.serialize (entry : CertEntry) : Value :=
  writeFields names [
    (.sni, writeList .string entry.sni),
    (.default, .bool entry.default),
    (.certFile, writePath entry.certFile),
    (.keyFile, writePath entry.keyFile)]

theorem CertEntry.readsBack (entry : CertEntry) : ReadsBack serialize deserialize entry := by
  have sni : readList readString (writeList .string entry.sni) = some entry.sni :=
    ReadsBack.list fun _ _ => rfl
  unfold ReadsBack serialize deserialize
  rw [readFields_writeFields names (by simp)]
  simp [sni, readBool, readPath, readString, writePath]

def ListenProtocol.name : ListenProtocol → Str
  | .http => "http".toList
  | .https => "https".toList

def ListenProtocol.names : Names ListenProtocol where
  keys := [.http, .https]
  name := name
  all key := by cases key <;> decide
  distinct := by decide +kernel

def ListenerId.deserialize (value : Value) : Option ListenerId := (readString value).map ListenerId.mk

def ListenerId.serialize (id : ListenerId) : Value := .string id.id

inductive Listener.Key where
  | id
  | address
  | port
  | protocol
  deriving DecidableEq

def Listener.names : Names Listener.Key where
  keys := [.id, .address, .port, .protocol]
  name
    | .id => "id".toList
    | .address => "address".toList
    | .port => "port".toList
    | .protocol => "protocol".toList
  all key := by cases key <;> decide
  distinct := by decide +kernel

def Listener.deserialize (value : Value) : Option Listener := do
  let fields ← readFields names value
  let id ← required ListenerId.deserialize .id fields
  let address ← required readIpAddr .address fields
  let port ← required readU16 .port fields
  let protocol ← required (readEnum ListenProtocol.names) .protocol fields
  return ⟨id, address, port, protocol⟩

def Listener.serialize (listener : Listener) : Value :=
  writeFields names [
    (.id, listener.id.serialize),
    (.address, writeIpAddr listener.address),
    (.port, writeU16 listener.port),
    (.protocol, writeEnum ListenProtocol.names listener.protocol)]

theorem Listener.readsBack (listener : Listener) : ReadsBack serialize deserialize listener := by
  have address : readIpAddr (writeIpAddr listener.address) = some listener.address :=
    readsBack_ipAddr listener.address
  have port : readU16 (writeU16 listener.port) = some listener.port := readsBack_u16 listener.port
  have protocol : readEnum ListenProtocol.names (writeEnum ListenProtocol.names listener.protocol) =
      some listener.protocol := ReadsBack.enum _ _
  unfold ReadsBack serialize deserialize
  rw [readFields_writeFields names (by simp)]
  simp [ListenerId.deserialize, ListenerId.serialize, readString, address, port, protocol]

/-! ## Routes -/

inductive RedirectAction.Key where
  | scheme
  | status
  deriving DecidableEq

def RedirectAction.names : Names RedirectAction.Key where
  keys := [.scheme, .status]
  name
    | .scheme => "scheme".toList
    | .status => "status".toList
  all key := by cases key <;> decide
  distinct := by decide +kernel

def RedirectAction.deserialize (value : Value) : Option RedirectAction := do
  let fields ← readFields names value
  let scheme ← required readString .scheme fields
  let status ← defaulted 308 readU16 .status fields
  return ⟨scheme, status⟩

def RedirectAction.serialize (action : RedirectAction) : Value :=
  writeFields names [(.scheme, .string action.scheme), (.status, writeU16 action.status)]

theorem RedirectAction.readsBack (action : RedirectAction) :
    ReadsBack serialize deserialize action := by
  have status : readU16 (writeU16 action.status) = some action.status := readsBack_u16 action.status
  unfold ReadsBack serialize deserialize
  rw [readFields_writeFields names (by simp)]
  simp [readString, status]

inductive FixedAction.Key where
  | status
  | body
  deriving DecidableEq

def FixedAction.names : Names FixedAction.Key where
  keys := [.status, .body]
  name
    | .status => "status".toList
    | .body => "body".toList
  all key := by cases key <;> decide
  distinct := by decide +kernel

def FixedAction.deserialize (value : Value) : Option FixedAction := do
  let fields ← readFields names value
  let status ← required readU16 .status fields
  let body ← defaulted [] readString .body fields
  return ⟨status, body⟩

def FixedAction.serialize (action : FixedAction) : Value :=
  writeFields names [(.status, writeU16 action.status), (.body, .string action.body)]

theorem FixedAction.readsBack (action : FixedAction) : ReadsBack serialize deserialize action := by
  have status : readU16 (writeU16 action.status) = some action.status := readsBack_u16 action.status
  unfold ReadsBack serialize deserialize
  rw [readFields_writeFields names (by simp)]
  simp [readString, status]

inductive RouteAction.Variant where
  | forward
  | redirect
  | fixed
  deriving DecidableEq

def RouteAction.names : Names RouteAction.Variant where
  keys := [.forward, .redirect, .fixed]
  name
    | .forward => "forward".toList
    | .redirect => "redirect".toList
    | .fixed => "fixed".toList
  all key := by cases key <;> decide
  distinct := by decide +kernel

def RouteAction.deserialize (value : Value) : Option RouteAction :=
  match readVariant names value with
  | some (.forward, some content) => (readString content).map .forward
  | some (.redirect, some content) => (RedirectAction.deserialize content).map .redirect
  | some (.fixed, some content) => (FixedAction.deserialize content).map .fixed
  | _ => none

def RouteAction.serialize : RouteAction → Value
  | .forward pool => writeVariant names .forward (.string pool)
  | .redirect action => writeVariant names .redirect action.serialize
  | .fixed action => writeVariant names .fixed action.serialize

theorem RouteAction.readsBack (action : RouteAction) : ReadsBack serialize deserialize action := by
  unfold ReadsBack serialize deserialize
  cases action with
  | forward pool => simp [readVariant_writeVariant, readString]
  | redirect action =>
    have back : RedirectAction.deserialize action.serialize = some action := action.readsBack
    simp [readVariant_writeVariant, back]
  | fixed action =>
    have back : FixedAction.deserialize action.serialize = some action := action.readsBack
    simp [readVariant_writeVariant, back]

def RouteId.deserialize (value : Value) : Option RouteId := (readString value).map RouteId.mk

def RouteId.serialize (id : RouteId) : Value := .string id.id

inductive Route.Key where
  | id
  | listener
  | host
  | pathPrefix
  | action
  deriving DecidableEq

def Route.names : Names Route.Key where
  keys := [.id, .listener, .host, .pathPrefix, .action]
  name
    | .id => "id".toList
    | .listener => "listener".toList
    | .host => "host".toList
    | .pathPrefix => "path_prefix".toList
    | .action => "action".toList
  all key := by cases key <;> decide
  distinct := by decide +kernel

def Route.deserialize (value : Value) : Option Route := do
  let fields ← readFields names value
  let id ← required RouteId.deserialize .id fields
  let listener ← required ListenerId.deserialize .listener fields
  let host ← required readString .host fields
  let pathPrefix ← defaulted ['/'] readString .pathPrefix fields
  let action ← required RouteAction.deserialize .action fields
  return ⟨id, listener, host, pathPrefix, action⟩

def Route.serialize (route : Route) : Value :=
  writeFields names [
    (.id, route.id.serialize),
    (.listener, route.listener.serialize),
    (.host, .string route.host),
    (.pathPrefix, .string route.pathPrefix),
    (.action, route.action.serialize)]

theorem Route.readsBack (route : Route) : ReadsBack serialize deserialize route := by
  have action : RouteAction.deserialize route.action.serialize = some route.action :=
    route.action.readsBack
  unfold ReadsBack serialize deserialize
  rw [readFields_writeFields names (by simp)]
  simp [RouteId.deserialize, RouteId.serialize, ListenerId.deserialize, ListenerId.serialize,
    readString, action]

/-! ## Health checks -/

def ProbeType.name : ProbeType → Str
  | .http => "http".toList
  | .https => "https".toList
  | .tcp => "tcp".toList
  | .grpc => "grpc".toList

def ProbeType.names : Names ProbeType where
  keys := [.http, .https, .tcp, .grpc]
  name := name
  all key := by cases key <;> decide
  distinct := by decide +kernel

inductive HealthCheckConfig.Key where
  | probeType
  | interval
  | timeout
  | healthyThreshold
  | unhealthyThreshold
  | path
  | expectedStatus
  | drainStatus
  deriving DecidableEq

def HealthCheckConfig.names : Names HealthCheckConfig.Key where
  keys := [.probeType, .interval, .timeout, .healthyThreshold, .unhealthyThreshold, .path,
    .expectedStatus, .drainStatus]
  name
    | .probeType => "type".toList
    | .interval => "interval".toList
    | .timeout => "timeout".toList
    | .healthyThreshold => "healthy_threshold".toList
    | .unhealthyThreshold => "unhealthy_threshold".toList
    | .path => "path".toList
    | .expectedStatus => "expected_status".toList
    | .drainStatus => "drain_status".toList
  all key := by cases key <;> decide
  distinct := by decide +kernel

def HealthCheckConfig.deserialize (value : Value) : Option HealthCheckConfig := do
  let fields ← readFields names value
  let probeType ← defaulted standard.probeType (readEnum ProbeType.names) .probeType fields
  let interval ← defaulted standard.interval deserializeDuration .interval fields
  let timeout ← defaulted standard.timeout deserializeDuration .timeout fields
  let healthyThreshold ← defaulted standard.healthyThreshold readU32 .healthyThreshold fields
  let unhealthyThreshold ← defaulted standard.unhealthyThreshold readU32 .unhealthyThreshold fields
  let path ← defaulted standard.path readString .path fields
  let expectedStatus ← defaulted standard.expectedStatus readU16 .expectedStatus fields
  let drainStatus ← defaulted standard.drainStatus (readOption readU16) .drainStatus fields
  return ⟨probeType, interval, timeout, healthyThreshold, unhealthyThreshold, path, expectedStatus,
    drainStatus⟩

def HealthCheckConfig.serialize (check : HealthCheckConfig) : Value :=
  writeFields names [
    (.probeType, writeEnum ProbeType.names check.probeType),
    (.interval, writeDuration check.interval),
    (.timeout, writeDuration check.timeout),
    (.healthyThreshold, writeU32 check.healthyThreshold),
    (.unhealthyThreshold, writeU32 check.unhealthyThreshold),
    (.path, .string check.path),
    (.expectedStatus, writeU16 check.expectedStatus),
    (.drainStatus, writeOption writeU16 check.drainStatus)]

/-- Its durations are counts of a unit. -/
def HealthCheckConfig.InUnits (check : HealthCheckConfig) : Prop :=
  Gfe.InUnits check.interval ∧ Gfe.InUnits check.timeout

theorem HealthCheckConfig.readsBack {check : HealthCheckConfig} (units : check.InUnits) :
    ReadsBack serialize deserialize check := by
  have probeType : readEnum ProbeType.names (writeEnum ProbeType.names check.probeType) =
      some check.probeType := ReadsBack.enum _ _
  have interval : deserializeDuration (writeDuration check.interval) = some check.interval :=
    readsBack_duration units.1
  have timeout : deserializeDuration (writeDuration check.timeout) = some check.timeout :=
    readsBack_duration units.2
  have threshold (n : UInt32) : readU32 (writeU32 n) = some n := readsBack_u32 n
  have expected : readU16 (writeU16 check.expectedStatus) = some check.expectedStatus :=
    readsBack_u16 check.expectedStatus
  have drain : readOption readU16 (writeOption writeU16 check.drainStatus) = some check.drainStatus :=
    ReadsBack.option (fun _ _ => nofun) fun n _ => readsBack_u16 n
  unfold ReadsBack serialize deserialize
  rw [readFields_writeFields names (by simp)]
  simp [probeType, interval, timeout, threshold, readString, expected, drain]

theorem yields_duration : Yields deserializeDuration InUnits := by
  intro value duration result
  unfold deserializeDuration at result
  cases text : readString value with
  | none => simp [text] at result
  | some s =>
    cases read : parseDuration s with
    | error message => simp [text, read, Except.toOption] at result
    | ok n =>
      simp only [text, read, Except.toOption, Option.bind_some, Option.some.injEq] at result
      rw [← result]
      exact inUnits_of_parseDuration read

theorem HealthCheckConfig.yields : Yields deserialize InUnits := by
  intro value check result
  simp only [deserialize, Option.bind_eq_bind, Option.bind_eq_some_iff, Option.pure_def] at result
  obtain ⟨fields, -, probeType, -, interval, first, timeout, second, rest⟩ := result
  have interval : Gfe.InUnits interval :=
    yields_duration.defaulted ⟨5, by decide, by decide⟩ first
  have timeout : Gfe.InUnits timeout :=
    yields_duration.defaulted ⟨2, by decide, by decide⟩ second
  obtain ⟨_, -, _, -, _, -, _, -, _, -, same⟩ := rest
  cases same
  exact ⟨interval, timeout⟩

/-! ## Pools -/

def Scheme.name : Scheme → Str
  | .http => "http".toList
  | .https => "https".toList
  | .h2c => "h2c".toList

def Scheme.names : Names Scheme where
  keys := [.http, .https, .h2c]
  name := name
  all key := by cases key <;> decide
  distinct := by decide +kernel

def LbPolicy.name : LbPolicy → Str
  | .roundRobin => "round_robin".toList
  | .leastRequest => "least_request".toList
  | .ringHash => "ring_hash".toList

def LbPolicy.names : Names LbPolicy where
  keys := [.roundRobin, .leastRequest, .ringHash]
  name := name
  all key := by cases key <;> decide
  distinct := by decide +kernel

def PoolId.deserialize (value : Value) : Option PoolId := (readString value).map PoolId.mk

def PoolId.serialize (id : PoolId) : Value := .string id.id

inductive Upstream.Key where
  | host
  | port
  | weight
  deriving DecidableEq

def Upstream.names : Names Upstream.Key where
  keys := [.host, .port, .weight]
  name
    | .host => "host".toList
    | .port => "port".toList
    | .weight => "weight".toList
  all key := by cases key <;> decide
  distinct := by decide +kernel

def Upstream.deserialize (value : Value) : Option Upstream := do
  let fields ← readFields names value
  let host ← required readString .host fields
  let port ← required readU16 .port fields
  let weight ← defaulted 1 readU32 .weight fields
  return ⟨host, port, weight⟩

def Upstream.serialize (upstream : Upstream) : Value :=
  writeFields names [
    (.host, .string upstream.host),
    (.port, writeU16 upstream.port),
    (.weight, writeU32 upstream.weight)]

theorem Upstream.readsBack (upstream : Upstream) : ReadsBack serialize deserialize upstream := by
  have port : readU16 (writeU16 upstream.port) = some upstream.port := readsBack_u16 upstream.port
  have weight : readU32 (writeU32 upstream.weight) = some upstream.weight :=
    readsBack_u32 upstream.weight
  unfold ReadsBack serialize deserialize
  rw [readFields_writeFields names (by simp)]
  simp [readString, port, weight]

inductive UpstreamPool.Key where
  | id
  | scheme
  | lbPolicy
  | upstreams
  | healthCheck
  | maxInFlight
  | maxRequestsPerSecond
  deriving DecidableEq

def UpstreamPool.names : Names UpstreamPool.Key where
  keys := [.id, .scheme, .lbPolicy, .upstreams, .healthCheck, .maxInFlight, .maxRequestsPerSecond]
  name
    | .id => "id".toList
    | .scheme => "scheme".toList
    | .lbPolicy => "lb_policy".toList
    | .upstreams => "upstreams".toList
    | .healthCheck => "health_check".toList
    | .maxInFlight => "max_in_flight".toList
    | .maxRequestsPerSecond => "max_requests_per_second".toList
  all key := by cases key <;> decide
  distinct := by decide +kernel

def UpstreamPool.deserialize (value : Value) : Option UpstreamPool := do
  let fields ← readFields names value
  let id ← required PoolId.deserialize .id fields
  let scheme ← defaulted .http (readEnum Scheme.names) .scheme fields
  let lbPolicy ← defaulted .roundRobin (readEnum LbPolicy.names) .lbPolicy fields
  let upstreams ← required (readList Upstream.deserialize) .upstreams fields
  let healthCheck ← defaulted none (readOption HealthCheckConfig.deserialize) .healthCheck fields
  let maxInFlight ← defaulted none (readOption readNonZeroU32) .maxInFlight fields
  let maxRequestsPerSecond ←
    defaulted none (readOption readNonZeroU32) .maxRequestsPerSecond fields
  return ⟨id, scheme, lbPolicy, upstreams, healthCheck, maxInFlight, maxRequestsPerSecond⟩

/-- A field that is left out when there is nothing in it. -/
def writeSome {κ α : Type} (key : κ) (write : α → Value) : Option α → List (κ × Value)
  | none => []
  | some x => [(key, write x)]

def UpstreamPool.serialize (pool : UpstreamPool) : Value :=
  writeFields names ([
    (.id, pool.id.serialize),
    (.scheme, writeEnum Scheme.names pool.scheme),
    (.lbPolicy, writeEnum LbPolicy.names pool.lbPolicy),
    (.upstreams, writeList Upstream.serialize pool.upstreams),
    (.healthCheck, writeOption HealthCheckConfig.serialize pool.healthCheck)] ++
    writeSome .maxInFlight writeNonZeroU32 pool.maxInFlight ++
    writeSome .maxRequestsPerSecond writeNonZeroU32 pool.maxRequestsPerSecond)

def UpstreamPool.InUnits (pool : UpstreamPool) : Prop := ∀ check ∈ pool.healthCheck, check.InUnits

theorem UpstreamPool.readsBack {pool : UpstreamPool} (units : pool.InUnits) :
    ReadsBack serialize deserialize pool := by
  have scheme : readEnum Scheme.names (writeEnum Scheme.names pool.scheme) = some pool.scheme :=
    ReadsBack.enum _ _
  have lbPolicy : readEnum LbPolicy.names (writeEnum LbPolicy.names pool.lbPolicy) =
      some pool.lbPolicy := ReadsBack.enum _ _
  have upstreams : readList Upstream.deserialize (writeList Upstream.serialize pool.upstreams) =
      some pool.upstreams := ReadsBack.list fun upstream _ => upstream.readsBack
  have healthCheck : readOption HealthCheckConfig.deserialize
      (writeOption HealthCheckConfig.serialize pool.healthCheck) = some pool.healthCheck :=
    ReadsBack.option (fun _ _ => nofun) fun check given => HealthCheckConfig.readsBack (units check given)
  have cap (n : NonZeroU32) : readOption readNonZeroU32 (writeNonZeroU32 n) = some (some n) := by
    have back : readNonZeroU32 (writeNonZeroU32 n) = some n := readsBack_nonZeroU32 n
    have some : writeNonZeroU32 n ≠ .null := nofun
    rw [readOption_of_ne_null some, back]
    rfl
  obtain ⟨id, poolScheme, policy, backends, check, maxInFlight, maxRequestsPerSecond⟩ := pool
  unfold ReadsBack serialize deserialize
  -- each cap is written or left out
  cases maxInFlight <;> cases maxRequestsPerSecond <;>
    · rw [readFields_writeFields names (by simp [writeSome])]
      simp [PoolId.deserialize, PoolId.serialize, readString, writeSome, scheme, lbPolicy, upstreams,
        healthCheck, cap]

theorem UpstreamPool.yields : Yields deserialize InUnits := by
  intro value pool result
  simp only [deserialize, Option.bind_eq_bind, Option.bind_eq_some_iff, Option.pure_def] at result
  obtain ⟨fields, -, _, -, _, -, _, -, _, -, check, given, _, -, _, -, same⟩ := result
  cases same
  exact HealthCheckConfig.yields.option.defaulted (by simp) given

/-! ## The config -/

inductive DynamicConfig.Key where
  | certificates
  | listeners
  | routes
  | pools
  deriving DecidableEq

def DynamicConfig.names : Names DynamicConfig.Key where
  keys := [.certificates, .listeners, .routes, .pools]
  name
    | .certificates => "certificates".toList
    | .listeners => "listeners".toList
    | .routes => "routes".toList
    | .pools => "pools".toList
  all key := by cases key <;> decide
  distinct := by decide +kernel

def DynamicConfig.deserialize (value : Value) : Option DynamicConfig := do
  let fields ← readFields names value
  let certificates ← defaulted [] (readList CertEntry.deserialize) .certificates fields
  let listeners ← defaulted [] (readList Listener.deserialize) .listeners fields
  let routes ← defaulted [] (readList Route.deserialize) .routes fields
  let pools ← defaulted [] (readList UpstreamPool.deserialize) .pools fields
  return ⟨certificates, listeners, routes, pools⟩

def DynamicConfig.serialize (config : DynamicConfig) : Value :=
  writeFields names [
    (.certificates, writeList CertEntry.serialize config.certificates),
    (.listeners, writeList Listener.serialize config.listeners),
    (.routes, writeList Route.serialize config.routes),
    (.pools, writeList UpstreamPool.serialize config.pools)]

def DynamicConfig.InUnits (config : DynamicConfig) : Prop := ∀ pool ∈ config.pools, pool.InUnits

/-- What is written for a config is read as that config. -/
theorem DynamicConfig.readsBack {config : DynamicConfig} (units : config.InUnits) :
    ReadsBack serialize deserialize config := by
  have certificates : readList CertEntry.deserialize
      (writeList CertEntry.serialize config.certificates) = some config.certificates :=
    ReadsBack.list fun entry _ => entry.readsBack
  have listeners : readList Listener.deserialize (writeList Listener.serialize config.listeners) =
      some config.listeners := ReadsBack.list fun listener _ => listener.readsBack
  have routes : readList Route.deserialize (writeList Route.serialize config.routes) =
      some config.routes := ReadsBack.list fun route _ => route.readsBack
  have pools : readList UpstreamPool.deserialize (writeList UpstreamPool.serialize config.pools) =
      some config.pools := ReadsBack.list fun pool member => UpstreamPool.readsBack (units pool member)
  unfold ReadsBack serialize deserialize
  rw [readFields_writeFields names (by simp)]
  simp [certificates, listeners, routes, pools]

theorem DynamicConfig.yields : Yields deserialize InUnits := by
  intro value config result
  simp only [deserialize, Option.bind_eq_bind, Option.bind_eq_some_iff, Option.pure_def] at result
  obtain ⟨fields, -, _, -, _, -, _, -, pools, given, same⟩ := result
  cases same
  exact UpstreamPool.yields.list.defaulted (by simp) given

end Gfe
