import Gfe.Config.Duration
import Gfe.Config.Validate

/-! # The bootstrap config

What a node is, read once when it starts. The file gives its timeouts as texts; a key that is
absent has its default. A config is checked as it is loaded, and the first problem found is
the one reported, with the key it is about. What is left out is not looked at by the check.
-/

namespace Gfe.Bootstrap

open Text

/-! ## Sections -/

structure LimitsConfig where
  maxConnections : Nat
  maxConnectionsListener : Nat
  maxHeaderBytes : Nat
  maxH2ConcurrentStreams : UInt32
  maxUpstreamConnections : Nat
  deriving DecidableEq

def LimitsConfig.standard : LimitsConfig where
  maxConnections := 100000
  maxConnectionsListener := 50000
  maxHeaderBytes := 65536
  maxH2ConcurrentStreams := 256
  maxUpstreamConnections := 20000

/-- In nanoseconds. -/
structure TimeoutsConfig where
  tlsHandshake : Nat
  requestHeader : Nat
  upstreamConnect : Nat
  upstreamFirstByte : Nat
  requestTotal : Nat
  clientIdle : Nat
  drainDeadline : Nat
  deriving DecidableEq

def seconds (count : Nat) : Nat := count * 1000000000

def TimeoutsConfig.standard : TimeoutsConfig where
  tlsHandshake := seconds 10
  requestHeader := seconds 10
  upstreamConnect := seconds 3
  upstreamFirstByte := seconds 30
  requestTotal := seconds 60
  clientIdle := seconds 75
  drainDeadline := seconds 30

/-- The files of a client identity. -/
structure UpstreamConfig where
  clientCertFile : Option Path
  clientKeyFile : Option Path
  deriving DecidableEq

structure NodeConfig where
  limits : LimitsConfig
  timeouts : TimeoutsConfig
  upstream : UpstreamConfig
  healthCheckDefaults : HealthCheckConfig
  deriving DecidableEq

/-! ## The check -/

inductive NodeConfigProblem where
  | headerBytesTooSmall (bytes : Nat)
  | healthCheckDefaults (problem : HealthCheckProblem)
  | limitZero (name : Str)
  | timeoutZero (name : Str)
  | certWithoutKey
  | keyWithoutCert
  deriving DecidableEq

/-- `MIN_HEADER_BYTES` -/
def minHeaderBytes : Nat := 8192

def LimitsConfig.entries (limits : LimitsConfig) : List (Str × Nat) :=
  [("max_connections".toList, limits.maxConnections),
    ("max_connections_listener".toList, limits.maxConnectionsListener),
    ("max_h2_concurrent_streams".toList, limits.maxH2ConcurrentStreams.toNat),
    ("max_upstream_connections".toList, limits.maxUpstreamConnections)]

def TimeoutsConfig.entries (timeouts : TimeoutsConfig) : List (Str × Nat) :=
  [("tls_handshake".toList, timeouts.tlsHandshake),
    ("request_header".toList, timeouts.requestHeader),
    ("upstream_connect".toList, timeouts.upstreamConnect),
    ("upstream_first_byte".toList, timeouts.upstreamFirstByte),
    ("request_total".toList, timeouts.requestTotal),
    ("client_idle".toList, timeouts.clientIdle),
    ("drain_deadline".toList, timeouts.drainDeadline)]

/-- Half a client identity is none. -/
def validateUpstream (upstream : UpstreamConfig) : Except NodeConfigProblem Unit :=
  match upstream.clientCertFile, upstream.clientKeyFile with
  | some _, none => .error .certWithoutKey
  | none, some _ => .error .keyWithoutCert
  | _, _ => .ok ()

/-- The timeouts a file sets. -/
structure TimeoutsSection where
  tlsHandshake : Option Str
  requestHeader : Option Str
  upstreamConnect : Option Str
  upstreamFirstByte : Option Str
  requestTotal : Option Str
  clientIdle : Option Str
  drainDeadline : Option Str

/-- A timeout that may be absent. -/
def deserializeDuration (standard : Nat) : Option Str → Except Str Nat
  | none => .ok standard
  | some text => parseDuration text

def TimeoutsSection.deserialize (file : TimeoutsSection) : Except Str TimeoutsConfig := do
  let standard := TimeoutsConfig.standard
  let tlsHandshake ← deserializeDuration standard.tlsHandshake file.tlsHandshake
  let requestHeader ← deserializeDuration standard.requestHeader file.requestHeader
  let upstreamConnect ← deserializeDuration standard.upstreamConnect file.upstreamConnect
  let upstreamFirstByte ← deserializeDuration standard.upstreamFirstByte file.upstreamFirstByte
  let requestTotal ← deserializeDuration standard.requestTotal file.requestTotal
  let clientIdle ← deserializeDuration standard.clientIdle file.clientIdle
  let drainDeadline ← deserializeDuration standard.drainDeadline file.drainDeadline
  return ⟨tlsHandshake, requestHeader, upstreamConnect, upstreamFirstByte, requestTotal, clientIdle,
    drainDeadline⟩

/-- Nothing is wrong with the config. -/
structure Sensible (config : NodeConfig) : Prop where
  header : minHeaderBytes ≤ config.limits.maxHeaderBytes
  check : validateHealthCheck config.healthCheckDefaults = .ok ()
  limits : ∀ entry ∈ config.limits.entries, entry.2 ≠ 0
  timeouts : ∀ entry ∈ config.timeouts.entries, entry.2 ≠ 0
  identity : config.upstream.clientCertFile.isSome = config.upstream.clientKeyFile.isSome

/-- The key that a problem names is wrong in this config. -/
def NodeConfigProblem.Holds (config : NodeConfig) : NodeConfigProblem → Prop
  | .headerBytesTooSmall bytes => config.limits.maxHeaderBytes = bytes ∧ bytes < minHeaderBytes
  | .healthCheckDefaults problem => validateHealthCheck config.healthCheckDefaults = .error problem
  | .limitZero name => (name, 0) ∈ config.limits.entries
  | .timeoutZero name => (name, 0) ∈ config.timeouts.entries
  | .certWithoutKey =>
    config.upstream.clientCertFile.isSome ∧ config.upstream.clientKeyFile = none
  | .keyWithoutCert =>
    config.upstream.clientCertFile = none ∧ config.upstream.clientKeyFile.isSome

structure Accepted (config : NodeConfig) : Prop where
  sensible : Sensible config
  inUnits : ∀ entry ∈ config.timeouts.entries, InUnits entry.2

end Gfe.Bootstrap
