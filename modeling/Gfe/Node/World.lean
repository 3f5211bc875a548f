import Gfe.Config.Validate
import Gfe.Health.Checker
import Gfe.Listen.Listeners
import Gfe.LoadBalancing.Pool
import Gfe.Lib.Fallible
import Gfe.Routing.Table

/-! # A node and what surrounds it

The state the control plane works on: what the node serves from and remembers,
the files and sockets of its host, and a journal. The journal is not part of
the program; it records when files changed and when the node read them, so that
what a run did can be spoken about.
-/

namespace Gfe

open Interleaving

/-! ## Errors -/

inductive ConfigError where
  | read (path : Path) (error : IoError)
  | parse (path : Path)
  | invalidDynamicConfig (problem : ConfigProblem)
  deriving DecidableEq, Repr

inductive StageError where
  | namedTwice (address : SocketAddr)
  | adopted (address : SocketAddr) (error : IoError)
  | binding (address : SocketAddr) (error : IoError)
  deriving DecidableEq, Repr

/-- Why the sockets of a config could not be had, and the listeners it adds. -/
structure BindError where
  error : StageError
  added : List (ListenerId × SocketAddr)
  deriving DecidableEq, Repr

inductive ReloadError where
  | config (error : ConfigError)
  | certificates (error : TlsError)
  | pools (error : PoolError)
  | bind (error : BindError)
  | neitherUsable (deployed : ReloadError) (path : Path) (cache : ReloadError)
  deriving DecidableEq, Repr

/-! ## The node -/

/-- Routes and pools, swapped as one. -/
structure Routing where
  routes : RouteTable
  pools : PoolSet Scheme

structure Control where
  configReloadErrors : Nat
  configReloadFailed : Int
  configFromCache : Int
  activeRoutes : Int
  activePools : Int
  certExpiryTimestamp : HashMap Str Int

/-- What the reloads share. -/
structure Tracked where
  certFiles : CertFiles
  following : Bool

/-- What the control plane logs. -/
inductive LogLine where
  | startingFromCache (unusable : ReloadError)
  | cacheNotWritten (error : IoError)
  | certificatesChanged
  | hotReloaded
  | rejected (error : ReloadError)
  deriving DecidableEq, Repr

structure Node where
  resolver : CertStore
  routing : Routing
  health : HealthMap
  listeners : Listeners Listener
  /-- The address of each listener, by id, as last committed. -/
  addresses : HashMap ListenerId SocketAddr
  checker : HealthChecker
  tracked : Tracked
  control : Control
  /-- Newest first. -/
  log : List LogLine

structure NodeConfig where
  configFile : Path
  localCache : Option Path
  healthCheckDefaults : HealthCheckConfig

/-- A node before its first config, with the sockets handed to it. -/
def Node.new (inherited : HashMap SocketAddr SocketId) : Node where
  resolver := .empty
  routing := ⟨.empty, .empty⟩
  health := .new true
  listeners := { Listeners.empty with adopted := inherited }
  addresses := ∅
  checker := .new
  tracked := ⟨⟨[]⟩, false⟩
  control := ⟨0, 0, 0, 0, 0, ∅⟩
  log := []

/-! ## The host -/

structure FileState where
  stamp : Stamp
  content : Except IoError Bytes

structure Host where
  file : Path → FileState
  /-- The last-known-good cache, a file of the node's own. -/
  cache : Except IoError Bytes
  /-- Why the cache cannot be written, if it cannot. -/
  cacheError : Option IoError
  /-- Why an address cannot be bound, if it cannot. -/
  bindError : SocketAddr → Option IoError
  /-- Why a socket that was handed over cannot be listened on, if it cannot. -/
  listenError : SocketId → Option IoError
  nextSocket : SocketId

structure Journal where
  /-- Counts the changes of files. -/
  now : Nat
  /-- When each file last changed. -/
  changedAt : Path → Nat
  /-- When the node last read its config file. -/
  configReadAt : Nat
  /-- When the node last remembered how the files of a config look. -/
  rememberedAt : Nat
  /-- The config being served. -/
  serving : Option DynamicConfig
  /-- Counts the snapshots of routes and pools that were stored. -/
  installs : Nat
  /-- Whether the checks of the config the node started on were begun. -/
  checksBegun : Bool
  /-- The handles the probe loops looked up, with the backend and the loop. -/
  taken : List (BackendKey × Nat × HandleId)

structure World where
  host : Host
  node : Node
  journal : Journal

/-! ## Actions -/

namespace World

def setNode (update : Node → Node) (w : World) : World := { w with node := update w.node }

def setHost (update : Host → Host) (w : World) : World := { w with host := update w.host }

def setJournal (update : Journal → Journal) (w : World) : World :=
  { w with journal := update w.journal }

@[simp] theorem setNode_node (update : Node → Node) (w : World) :
    (w.setNode update).node = update w.node := rfl

@[simp] theorem setNode_host (update : Node → Node) (w : World) :
    (w.setNode update).host = w.host := rfl

end World

/-- A file is replaced, by something outside the node. -/
def World.replace (w : World) (path : Path) (file : FileState) : World :=
  (w.setHost fun h => { h with file := Function.update h.file path file }).setJournal
    fun j => { j with now := j.now + 1, changedAt := Function.update j.changedAt path (j.now + 1) }

def updateNode (update : Node → Node) : Program World Unit := .write (World.setNode update)

def readNode {α : Type} (view : Node → α) : Program World α := .read fun w => view w.node

theorem readOnly_readNode {α : Type} (view : Node → α) : (readNode view).ReadOnly :=
  Program.Moves.read (fun _ => rfl) fun w => view w.node

/-- `stamp`: how a file looks now. -/
def stamp (path : Path) : Program World Stamp := .read fun w => (w.host.file path).stamp

/-- `std::fs::read`. -/
def readFile (path : Path) : Program World (Except IoError Bytes) :=
  .read fun w => (w.host.file path).content

def readConfigFile (path : Path) : Program World (Except IoError Bytes) :=
  .exchange fun w =>
    ((w.host.file path).content, w.setJournal fun j => { j with configReadAt := j.now })

def readCacheFile : Program World (Except IoError Bytes) := .read fun w => w.host.cache

/-- `cache::write`: the whole file is replaced, or nothing changes. -/
def writeCacheFile (crates : Crates) (config : DynamicConfig) :
    Program World (Except IoError Unit) :=
  .exchange fun w =>
    match crates.configToJson config with
    | none => (.error (.other 0), w)
    | some json =>
      match w.host.cacheError with
      | some error => (.error error, w)
      | none => (.ok (), w.setHost fun h => { h with cache := .ok json })

def bindSocket (address : SocketAddr) : Program World (Except IoError SocketId) :=
  .exchange fun w =>
    match w.host.bindError address with
    | some error => (.error error, w)
    | none =>
      (.ok w.host.nextSocket, w.setHost fun h => { h with nextSocket := h.nextSocket + 1 })

/-- Accept on a socket that was handed over. -/
def listenOn (socket : SocketId) : Program World (Except IoError SocketId) :=
  .read fun w =>
    match w.host.listenError socket with
    | some error => .error error
    | none => .ok socket

def takeAdopted (address : SocketAddr) : Program World (Option SocketId) :=
  .exchange fun w =>
    (w.node.listeners.adopted.lookup address, w.setNode fun n => { n with
      listeners := { n.listeners with adopted := n.listeners.adopted.erase address } })

def takeHandle (key : BackendKey) : Program World HandleId :=
  .exchange fun w =>
    let (handle, health) := w.node.health.handle key
    (handle, w.setNode fun n => { n with health := health })

/-! ## Small hosts -/

def Listener.loopback (id : Str) (port : UInt16) : Listener := ⟨⟨id⟩, .v4 0x7f000001, port, .http⟩

def onPorts (ports : List UInt16) : DynamicConfig where
  certificates := []
  listeners := ports.map fun port => .loopback (Nat.toDigits 10 port.toNat) port
  routes := []
  pools := []

def certified : DynamicConfig :=
  { onPorts [80] with certificates := [⟨[['h']], false, ⟨['x']⟩, ⟨['y']⟩⟩] }

/-- The settings of a node that follows the file `c`. -/
def NodeConfig.small (localCache : Option Path) : NodeConfig := ⟨⟨['c']⟩, localCache, .standard⟩

/-- A host with these files and this cache, on which the addresses `taken` are
    in use. -/
def Host.small (files : List (Path × FileState)) (cache : Except IoError Bytes)
    (taken : List SocketAddr) : Host where
  file path := ((files.find? (·.1 = path)).map Prod.snd).getD ⟨none, .error .notFound⟩
  cache := cache
  cacheError := none
  bindError address := if address ∈ taken then some .addrInUse else none
  listenError _ := none
  nextSocket := 100

def Journal.blank : Journal := ⟨0, fun _ => 0, 0, 0, none, 0, false, []⟩

def World.starting (host : Host) (inherited : HashMap SocketAddr SocketId) : World :=
  ⟨host, .new inherited, .blank⟩

/-! ## Logging -/

def logLine (line : LogLine) : Program World Unit :=
  updateNode fun n => { n with log := line :: n.log }

end Gfe
