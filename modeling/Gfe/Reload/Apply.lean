import Gfe.Node.World

/-! # Applying a config

The steps of a reload, in the order the source takes them: look at the
certificate files, prepare everything that can fail short of binding, get the
sockets, and only then swap. Each action is one step other threads can come
between.
-/

namespace Gfe

open Interleaving

/-! ## Loading -/

def parseConfig (crates : Crates) (path : Path) (content : Except IoError Bytes) :
    Except ConfigError DynamicConfig :=
  match content with
  | .error error => .error (.read path error)
  | .ok bytes =>
    match crates.utf8 bytes with
    | none => .error (.read path .invalidData)
    | some text =>
      match crates.configFromJson text with
      | none => .error (.parse path)
      | some config => .ok config

def loadDynamicConfig (crates : Crates) (path : Path) :
    Fallible World ConfigError DynamicConfig := do
  let content ← readConfigFile path
  Fallible.ofExcept (parseConfig crates path content)

def loadCache (crates : Crates) (path : Path) : Fallible World ConfigError DynamicConfig := do
  let content ← readCacheFile
  Fallible.ofExcept (parseConfig crates path content)

/-! ## Certificates -/

def certSpecs (entries : List CertEntry) : List CertSpec :=
  entries.map fun entry => ⟨entry.sni, entry.default, entry.certFile, entry.keyFile⟩

/-- Look at files one after the other. -/
def lookAt : List Path → Program World (List (Path × Stamp))
  | [] => pure []
  | path :: rest => do
    let seen ← stamp path
    let others ← lookAt rest
    return (path, seen) :: others

namespace CertFiles

def snapshot (specs : List CertSpec) : Program World CertFiles := do
  return ⟨← lookAt (certPaths specs)⟩

/-- Whether a file looks different now; the first that does is enough. -/
def anyChanged : List (Path × Stamp) → Program World Bool
  | [] => pure false
  | (path, seen) :: rest => do
    let now ← stamp path
    if now ≠ seen then return true
    anyChanged rest

def changedOnDisk (files : CertFiles) : Program World Bool := anyChanged files.seen

def refresh (files : CertFiles) : Program World CertFiles := do
  return ⟨← lookAt (files.seen.map Prod.fst)⟩

end CertFiles

/-- One of the two files of an entry. -/
def readPem (path : Path) : Fallible World TlsError Bytes := do
  match ← readFile path with
  | .ok bytes => return bytes
  | .error error => throw (.read path error)

def loadCertFiles (crates : Crates) (certPath keyPath : Path) :
    Fallible World TlsError LoadedCert := do
  let certPem ← readPem certPath
  let keyPem ← readPem keyPath
  match loadCertPem crates certPem keyPem with
  | .ok loaded => return loaded
  | .error reason => throw (.invalidFiles certPath keyPath reason)

namespace CertStore

/-- Load the entries from position `index` on into `store`. -/
def addEntries (crates : Crates) (store : CertStore) (defaultFile : Option Path) (index : Nat) :
    List CertSpec → Fallible World TlsError CertStore
  | [] => pure store
  | spec :: rest => do
    let loaded ← Fallible.mapError (.entry (entryNames spec))
      (loadCertFiles crates spec.certFile spec.keyFile)
    let (store, defaultFile) ← Fallible.ofExcept (store.addEntry defaultFile spec index loaded)
    addEntries crates store defaultFile (index + 1) rest

def build (crates : Crates) (specs : List CertSpec) : Fallible World TlsError CertStore := do
  let store ← addEntries crates .empty none 0 specs
  return store.order

end CertStore

/-! ## Pools -/

def takeHandles : List Backend → Program World (List HandleId)
  | [] => pure []
  | backend :: rest => do
    let handle ← takeHandle backend.key
    let others ← takeHandles rest
    return handle :: others

def Pool.new (crates : Crates) (spec : PoolSpec Scheme) :
    Fallible World PoolError (Pool Scheme) := do
  let ring ← Fallible.ofExcept (spec.ring crates)
  let health ← takeHandles spec.backends
  return spec.toPool ring health

namespace PoolSet

def addPools (crates : Crates) (pools : HashMap Str (Pool Scheme)) :
    List (PoolSpec Scheme) → Fallible World PoolError (HashMap Str (Pool Scheme))
  | [] => pure pools
  | spec :: rest => do
    let pool ← Pool.new crates spec
    addPools crates (pools.insert spec.id pool) rest

def build (crates : Crates) (specs : List (PoolSpec Scheme)) :
    Fallible World PoolError (PoolSet Scheme) := do
  return ⟨← addPools crates ∅ specs⟩

end PoolSet

/-! ## Preparing -/

structure Prepared where
  certificates : CertStore
  routes : RouteTable
  pools : PoolSet Scheme
  /-- The config it was prepared from. -/
  source : DynamicConfig

def prepare (crates : Crates) (config : DynamicConfig) : Fallible World ReloadError Prepared := do
  Fallible.mapError (fun problem => .config (.invalidDynamicConfig problem))
    (Fallible.ofExcept (validate config))
  let certificates ← Fallible.mapError .certificates
    (CertStore.build crates (certSpecs config.certificates))
  let routes := RouteTable.compile config
  let pools ← Fallible.mapError .pools (PoolSet.build crates (poolSpecs config.pools))
  return ⟨certificates, routes, pools, config⟩

/-! ## Sockets -/

namespace Listeners

def getSocket (address : SocketAddr) : Fallible World StageError SocketId := do
  match ← takeAdopted address with
  | some socket =>
    match ← listenOn socket with
    | .ok socket => return socket
    | .error error => throw (.adopted address error)
  | none =>
    match ← bindSocket address with
    | .ok socket => return socket
    | .error error => throw (.binding address error)

/-- The sockets of the addresses that are not in `running`. -/
def getSockets (running : HashMap SocketAddr RunningListener)
    (bound : HashMap SocketAddr SocketId) :
    List SocketAddr → Fallible World StageError (HashMap SocketAddr SocketId)
  | [] => pure bound
  | address :: rest => do
    if (running.lookup address).isSome then getSockets running bound rest
    else do
      let socket ← getSocket address
      getSockets running (bound.insert address socket) rest

def stage (desired : List (SocketAddr × Listener)) :
    Fallible World StageError (Staged Listener) := do
  match once : namedTwice [] (desired.map Prod.fst) with
  | some address => throw (.namedTwice address)
  | none =>
    let running ← (readNode fun n => n.listeners.running : Program World _)
    let bound ← getSockets running ∅ (desired.map Prod.fst)
    return ⟨desired, bound, (nodup_of_namedTwice once).1⟩

def updateListeners (update : Listeners Listener → Listeners Listener) : Program World Unit :=
  updateNode fun n => { n with listeners := update n.listeners }

def placeAll (bound : HashMap SocketAddr SocketId) :
    List (SocketAddr × Listener) → Program World Unit
  | [] => pure ()
  | (address, listener) :: rest => do
    updateListeners (·.place bound address listener)
    placeAll bound rest

def commit (staged : Staged Listener) : Program World Unit := do
  updateListeners (·.retainNamed staged.desired)
  placeAll staged.bound staged.desired
  updateListeners fun listeners => { listeners with adopted := ∅ }

end Listeners

/-- The node's listeners: sockets by address, with the ids of the config kept
    beside them. -/
structure EdgeStaged where
  inner : Staged Listener
  addresses : HashMap ListenerId SocketAddr

namespace Edge

def addresses (listeners : List Listener) : HashMap ListenerId SocketAddr :=
  .collect (listeners.map fun listener => (listener.id, listener.socketAddr))

def added (running : HashMap ListenerId SocketAddr) (desired : List Listener) :
    List (ListenerId × SocketAddr) :=
  (desired.filter fun listener => !running.values.contains listener.socketAddr).map
    fun listener => (listener.id, listener.socketAddr)

def stage (desired : List Listener) : Fallible World BindError EdgeStaged := do
  let running ← (readNode Node.addresses : Program World _)
  let inner ← Fallible.mapError (fun error => ⟨error, added running desired⟩)
    (Listeners.stage (desired.map fun listener => (listener.socketAddr, listener)))
  return ⟨inner, addresses desired⟩

def commit (staged : EdgeStaged) : Program World Unit := do
  Listeners.commit staged.inner
  updateNode fun n => { n with addresses := staged.addresses }

end Edge

/-! ## Swapping -/

/-- The metrics that describe a config. -/
def describe (prepared : Prepared) (removedSnis : List Str) (control : Control) : Control :=
  let set := prepared.certificates.expiries.foldl
    (fun (exported : HashMap Str Int) expiry => exported.insert expiry.1 expiry.2)
    control.certExpiryTimestamp
  { control with
    activeRoutes := prepared.routes.routeCount
    activePools := prepared.pools.len
    certExpiryTimestamp := removedSnis.foldl (fun exported sni => exported.erase sni) set }

def install (prepared : Prepared) : Program World Unit := do
  let current ← readNode Node.resolver
  let removedSnis := (current.expiries.map Prod.fst).filter fun sni =>
    !(prepared.certificates.expiries.map Prod.fst).contains sni
  updateNode fun n => { n with resolver := prepared.certificates }
  .write fun w =>
    (w.setNode fun n => { n with routing := ⟨prepared.routes, prepared.pools⟩ }).setJournal
      fun j => { j with serving := some prepared.source, installs := j.installs + 1 }
  updateNode fun n => { n with health := n.health.retain prepared.pools.allBackends }
  updateNode fun n => { n with control := describe prepared removedSnis n.control }

/-- What follows when nothing can fail any more. -/
def swapIn (prepared : Prepared) (staged : EdgeStaged) : Program World Unit := do
  install prepared
  Edge.commit staged

/-- Remember how the files of a config look. -/
def remember (files : CertFiles) : Program World Unit :=
  .write fun w =>
    (w.setNode fun n => { n with tracked := { n.tracked with certFiles := files } }).setJournal
      fun j => { j with rememberedAt := j.now }

def apply (crates : Crates) (config : DynamicConfig) : Fallible World ReloadError Unit := do
  let files ← CertFiles.snapshot (certSpecs config.certificates)
  remember files
  let prepared ← prepare crates config
  let staged ← Fallible.mapError .bind (Edge.stage config.listeners)
  swapIn prepared staged

end Gfe
