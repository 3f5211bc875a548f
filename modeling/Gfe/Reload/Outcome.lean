import Gfe.Reload.Moves

/-! # What an undisturbed reload comes to

When nothing comes between the steps of a reload, what it makes of a config is
a function of the config, the files on disk and the sockets that can be had.
These functions are spelled out here, and the steps of a reload are shown to
compute them.
-/

namespace Gfe

open Interleaving

variable {made : CertStore × HashMap Str (Pool Scheme)} {config : DynamicConfig} {crates : Crates}

/-! ## Files -/

/-- How files look. -/
def stampsOn (file : Path → FileState) (paths : List Path) : List (Path × Stamp) :=
  paths.map fun path => (path, (file path).stamp)

theorem run_lookAt (paths : List Path) (w : World) :
    (lookAt paths).run w = (stampsOn w.host.file paths, w) := by
  induction paths with
  | nil => rfl
  | cons path rest ih =>
    have looked : (stamp path).run w = ((w.host.file path).stamp, w) := rfl
    simp only [lookAt, Program.run_bind, looked, ih]
    rfl

theorem run_changedOnDisk (files : CertFiles) (w : World) :
    files.changedOnDisk.run w =
      (files.seen.any fun entry => (w.host.file entry.1).stamp ≠ entry.2, w) := by
  obtain ⟨seen⟩ := files
  unfold CertFiles.changedOnDisk
  induction seen with
  | nil => rfl
  | cons entry rest ih =>
    obtain ⟨path, seen⟩ := entry
    have looked : (stamp path).run w = ((w.host.file path).stamp, w) := rfl
    simp only [CertFiles.anyChanged, Program.run_bind, looked]
    by_cases changed : (w.host.file path).stamp ≠ seen
    · rw [if_pos changed, List.any_cons, decide_eq_true changed, Bool.true_or]
      rfl
    · rw [if_neg changed, List.any_cons, decide_eq_false changed, Bool.false_or]
      exact ih

/-- Some file looks different from what is remembered. -/
def World.stale (w : World) : Bool :=
  w.node.tracked.certFiles.seen.any fun entry => (w.host.file entry.1).stamp ≠ entry.2

/-- The entry of two files on disk. -/
def loadOn (crates : Crates) (file : Path → FileState) (certPath keyPath : Path) :
    Except TlsError LoadedCert := do
  let certPem ← (file certPath).content.mapError (.read certPath)
  let keyPem ← (file keyPath).content.mapError (.read keyPath)
  (loadCertPem crates certPem keyPem).mapError (.invalidFiles certPath keyPath)

namespace CertStore

def addEntriesOn (crates : Crates) (file : Path → FileState) (store : CertStore)
    (defaultFile : Option Path) (index : Nat) : List CertSpec → Except TlsError CertStore
  | [] => .ok store
  | spec :: rest => do
    let loaded ← (loadOn crates file spec.certFile spec.keyFile).mapError
      (.entry (entryNames spec))
    let (store, defaultFile) ← store.addEntry defaultFile spec index loaded
    addEntriesOn crates file store defaultFile (index + 1) rest

/-- The store of these entries by the files on disk. -/
def onDisk (crates : Crates) (file : Path → FileState) (specs : List CertSpec) :
    Except TlsError CertStore := do
  let store ← addEntriesOn crates file .empty none 0 specs
  return store.order

end CertStore

theorem exec_readPem (path : Path) (w : World) :
    Fallible.exec (readPem path) w =
      ((w.host.file path).content.mapError (TlsError.read path), w) := by
  unfold readPem
  rw [Fallible.exec_bind_ok (Fallible.exec_lift (readFile path) w)]
  have read : ((readFile path).run w).1 = (w.host.file path).content := rfl
  rw [read]
  cases (w.host.file path).content <;> rfl

theorem exec_loadCertFiles (crates : Crates) (certPath keyPath : Path) (w : World) :
    Fallible.exec (loadCertFiles crates certPath keyPath) w =
      (loadOn crates w.host.file certPath keyPath, w) := by
  refine Fallible.exec_bind_pure (exec_readPem certPath w) fun certPem => ?_
  refine Fallible.exec_bind_pure (exec_readPem keyPath w) fun keyPem => ?_
  cases loadCertPem crates certPem keyPem <;> rfl

theorem exec_addEntries (crates : Crates) (specs : List CertSpec) (store : CertStore)
    (defaultFile : Option Path) (index : Nat) (w : World) :
    Fallible.exec (CertStore.addEntries crates store defaultFile index specs) w =
      (CertStore.addEntriesOn crates w.host.file store defaultFile index specs, w) := by
  induction specs generalizing store defaultFile index with
  | nil => rfl
  | cons spec rest ih =>
    refine Fallible.exec_bind_pure ?_ fun loaded =>
      Fallible.exec_bind_pure (Fallible.exec_ofExcept _ w) fun added => ih added.1 added.2 _
    rw [Fallible.exec_mapError, exec_loadCertFiles]

theorem exec_build (crates : Crates) (specs : List CertSpec) (w : World) :
    Fallible.exec (CertStore.build crates specs) w =
      (CertStore.onDisk crates w.host.file specs, w) :=
  Fallible.exec_bind_pure (exec_addEntries crates specs .empty none 0 w) fun _ => rfl

/-! ## Pools -/

def Pool.bare (pool : Pool Scheme) : Pool Scheme := { pool with health := [] }

/-- The pools of a config without their handles. -/
def barePools (crates : Crates) (pools : HashMap Str (Pool Scheme)) :
    List (PoolSpec Scheme) → Except PoolError (HashMap Str (Pool Scheme))
  | [] => .ok pools
  | spec :: rest => do
    let ring ← spec.ring crates
    barePools crates (pools.insert spec.id (spec.toPool ring [])) rest

def SamePools (pools bare : HashMap Str (Pool Scheme)) : Prop :=
  ∀ id, (pools.lookup id).map Pool.bare = bare.lookup id

theorem exec_addPools (crates : Crates) (specs : List (PoolSpec Scheme))
    {pools bare : HashMap Str (Pool Scheme)} (same : SamePools pools bare) (w : World) :
    Fallible.Agree (fun bare pools => SamePools pools bare) (barePools crates bare specs)
      (Fallible.exec (PoolSet.addPools crates pools specs) w).1 := by
  induction specs generalizing pools bare w with
  | nil => exact .ok same
  | cons spec rest ih =>
    have built : Fallible.Agree (fun ring pool => ∃ health, pool = spec.toPool ring health)
        (spec.ring crates) (Fallible.exec (Pool.new crates spec) w).1 := by
      rw [← bind_pure (spec.ring crates)]
      refine .bind (.refl (spec.ring crates)) ?_
      rintro ring _ rfl
      rw [Fallible.exec_bind_ok (Fallible.exec_lift _ _)]
      exact .ok ⟨_, rfl⟩
    refine .bind built ?_
    rintro ring _ ⟨health, rfl⟩
    apply ih
    intro id
    simp only [HashMap.lookup_insert]
    split
    · rfl
    · exact same id

/-! ## Preparing -/

/-- What a config is prepared to by the files on disk: its certificates, and its
    pools without their handles. -/
def prepareOn (crates : Crates) (file : Path → FileState) (config : DynamicConfig) :
    Except ReloadError (CertStore × HashMap Str (Pool Scheme)) := do
  (validate config).mapError fun problem => .config (.invalidDynamicConfig problem)
  let certificates ← (CertStore.onDisk crates file (certSpecs config.certificates)).mapError
    .certificates
  let pools ← (barePools crates ∅ (poolSpecs config.pools)).mapError .pools
  return (certificates, pools)

/-- Preparing and its model come to the same. -/
def Prepared.Is (prepared : Prepared) (config : DynamicConfig)
    (made : CertStore × HashMap Str (Pool Scheme)) : Prop :=
  prepared.certificates = made.1 ∧ prepared.routes = RouteTable.compile config ∧
    SamePools prepared.pools.pools made.2 ∧ prepared.source = config

theorem exec_prepare (crates : Crates) (config : DynamicConfig) (w : World) :
    Fallible.Agree (fun made prepared => prepared.Is config made)
      (prepareOn crates w.host.file config) (Fallible.exec (prepare crates config) w).1 := by
  refine .bind (.mapError _ (.refl (validate config))) fun _ _ _ => ?_
  have certificates : Fallible.Agree (fun a b => a = b)
      (CertStore.onDisk crates w.host.file (certSpecs config.certificates))
      (Fallible.exec (CertStore.build crates (certSpecs config.certificates)) w).1 := by
    rw [exec_build]
    exact .refl _
  refine .bind (.mapError _ certificates) ?_
  rintro store _ rfl
  have pools : ∀ w, Fallible.Agree (fun bare pools => SamePools pools.pools bare)
      (barePools crates ∅ (poolSpecs config.pools))
      (Fallible.exec (PoolSet.build crates (poolSpecs config.pools)) w).1 := by
    intro w
    rw [← bind_pure (barePools crates ∅ (poolSpecs config.pools))]
    refine .bind (exec_addPools crates (poolSpecs config.pools) (fun _ => rfl) w) ?_
    exact fun bare pools same => .ok same
  refine .bind (.mapError _ (pools _)) fun bare pools same => ?_
  exact .ok ⟨rfl, rfl, same, rfl⟩

theorem exec_prepare_state (crates : Crates) (config : DynamicConfig) (w : World) :
    ∃ health, (Fallible.exec (prepare crates config) w).2 =
      w.setNode fun n => { n with health := health } := by
  have moved := (moves_prepare crates config).exec w
  generalize (Fallible.exec (prepare crates config) w).2 = w' at moved
  induction moved with
  | refl => exact ⟨w.node.health, rfl⟩
  | tail _ last ih =>
    obtain ⟨health, rfl⟩ := ih
    cases last with
    | idle => exact ⟨health, rfl⟩
    | enter key => exact ⟨_, rfl⟩

/-! ## Sockets -/

def World.canListen (w : World) (address : SocketAddr) : Bool :=
  match w.node.listeners.adopted.lookup address with
  | some socket => (w.host.listenError socket).isNone
  | none => (w.host.bindError address).isNone

/-- The addresses that are tried in turn, up to the first that fails. -/
def triedUntil (can : SocketAddr → Bool) : List SocketAddr → List SocketAddr
  | [] => []
  | address :: rest => address :: if can address then triedUntil can rest else []

theorem triedUntil_congr {can can' : SocketAddr → Bool} {addresses : List SocketAddr}
    (same : ∀ address ∈ addresses, can address = can' address) :
    triedUntil can addresses = triedUntil can' addresses := by
  induction addresses with
  | nil => rfl
  | cons address rest ih =>
    rw [triedUntil, triedUntil, same address List.mem_cons_self,
      ih fun other member => same other (List.mem_cons_of_mem _ member)]

def World.take (w : World) (address : SocketAddr) : World :=
  w.setNode fun n => { n with
    listeners := { n.listeners with adopted := n.listeners.adopted.erase address } }

theorem exec_getSocket (address : SocketAddr) (w : World) :
    Fallible.exec (Listeners.getSocket address) w =
      match w.node.listeners.adopted.lookup address with
      | some socket =>
        match w.host.listenError socket with
        | some error => (.error (.adopted address error), w.take address)
        | none => (.ok socket, w.take address)
      | none =>
        match w.host.bindError address with
        | some error => (.error (.binding address error), w.take address)
        | none => (.ok w.host.nextSocket,
            (w.take address).setHost fun h => { h with nextSocket := h.nextSocket + 1 }) := by
  unfold Listeners.getSocket
  have taken : (takeAdopted address).run w =
      (w.node.listeners.adopted.lookup address, w.take address) := rfl
  rw [Fallible.exec_bind_ok (Fallible.exec_lift (takeAdopted address) w), taken]
  cases adopted : w.node.listeners.adopted.lookup address with
  | some socket =>
    dsimp only
    cases failed : w.host.listenError socket with
    | some error =>
      have refused : (listenOn socket).run (w.take address) = (.error error, w.take address) := by
        simp only [listenOn, Program.run_read, World.take, World.setNode_host, failed]
      rw [Fallible.exec_bind_ok (Fallible.exec_lift _ _), refused]
      rfl
    | none =>
      have listening : (listenOn socket).run (w.take address) = (.ok socket, w.take address) := by
        simp only [listenOn, Program.run_read, World.take, World.setNode_host, failed]
      rw [Fallible.exec_bind_ok (Fallible.exec_lift _ _), listening]
      rfl
  | none =>
    dsimp only
    cases failed : w.host.bindError address with
    | some error =>
      have refused : (bindSocket address).run (w.take address) =
          (.error error, w.take address) := by
        simp only [bindSocket, Program.run_exchange, World.take, World.setNode_host, failed]
      rw [Fallible.exec_bind_ok (Fallible.exec_lift _ _), refused]
      rfl
    | none =>
      have bound : (bindSocket address).run (w.take address) = (.ok w.host.nextSocket,
          (w.take address).setHost fun h => { h with nextSocket := h.nextSocket + 1 }) := by
        simp only [bindSocket, Program.run_exchange, World.take, World.setNode_host, failed]
      rw [Fallible.exec_bind_ok (Fallible.exec_lift _ _), bound]
      rfl

theorem canListen_take {w w' : World} {address other : SocketAddr} (differ : other ≠ address)
    (adopted : w'.node.listeners.adopted = w.node.listeners.adopted.erase address)
    (binding : w'.host.bindError = w.host.bindError)
    (listening : w'.host.listenError = w.host.listenError) :
    w'.canListen other = w.canListen other := by
  rw [World.canListen, World.canListen, adopted, binding, listening, HashMap.lookup_erase,
    if_neg differ]

/-- A socket is had exactly when it can be, and it is the adopted one if there
    is one. -/
theorem getSocket_cases (address : SocketAddr) (w : World) :
    ∃ w' : World, w'.node.listeners.adopted = w.node.listeners.adopted.erase address ∧
      (∀ other, other ≠ address → w'.canListen other = w.canListen other) ∧
      (w.canListen address = true ∧ (∃ socket,
          Fallible.exec (Listeners.getSocket address) w = (.ok socket, w') ∧
          ∀ adopted, w.node.listeners.adopted.lookup address = some adopted → socket = adopted) ∨
        w.canListen address = false ∧
          ∃ error, Fallible.exec (Listeners.getSocket address) w = (.error error, w')) := by
  have same : ∀ other, other ≠ address → (w.take address).canListen other = w.canListen other :=
    fun other differ => canListen_take differ rfl rfl rfl
  rw [exec_getSocket]
  cases adopted : w.node.listeners.adopted.lookup address with
  | some socket =>
    dsimp only
    cases failed : w.host.listenError socket with
    | some error =>
      exact ⟨w.take address, rfl, same, .inr ⟨by simp [World.canListen, adopted, failed], _, rfl⟩⟩
    | none =>
      refine ⟨w.take address, rfl, same, .inl ⟨by simp [World.canListen, adopted, failed],
        socket, rfl, ?_⟩⟩
      rintro _ ⟨⟩
      rfl
  | none =>
    dsimp only
    cases failed : w.host.bindError address with
    | some error =>
      exact ⟨w.take address, rfl, same, .inr ⟨by simp [World.canListen, adopted, failed], _, rfl⟩⟩
    | none =>
      refine ⟨_, rfl, ?_, .inl ⟨by simp [World.canListen, adopted, failed], _, rfl, nofun⟩⟩
      exact fun other differ => canListen_take differ rfl rfl rfl

/-- What is known about the sockets of some addresses once they were tried. -/
structure Tried (w : World) (fresh : List SocketAddr) (bound : HashMap SocketAddr SocketId)
    (result : Except StageError (HashMap SocketAddr SocketId) × World) : Prop where
  adopted : ∀ address, result.2.node.listeners.adopted.lookup address =
    if address ∈ triedUntil w.canListen fresh then none
    else w.node.listeners.adopted.lookup address
  failed : fresh.all w.canListen = false → ∃ error, result.1 = .error error
  got : fresh.all w.canListen = true → ∃ bound', result.1 = .ok bound' ∧
    ∀ address, if address ∈ fresh then
        ∃ socket, bound'.lookup address = some socket ∧
          ∀ adopted, w.node.listeners.adopted.lookup address = some adopted → socket = adopted
      else bound'.lookup address = bound.lookup address

theorem exec_getSockets (running : HashMap SocketAddr RunningListener) (addresses : List SocketAddr)
    (nodup : addresses.Nodup) (bound : HashMap SocketAddr SocketId) (w : World) :
    Tried w (addresses.filter fun address => (running.lookup address).isNone) bound
      (Fallible.exec (Listeners.getSockets running bound addresses) w) := by
  induction addresses generalizing bound w with
  | nil =>
    refine ⟨fun _ => rfl, nofun, fun _ => ⟨bound, rfl, fun address => ?_⟩⟩
    rw [if_neg (by simp)]
  | cons address rest ih =>
    obtain ⟨unique, nodup⟩ := List.nodup_cons.mp nodup
    unfold Listeners.getSockets
    cases kept : running.lookup address with
    | some listener =>
      simp only [List.filter_cons, kept, Option.isSome_some, Option.isNone_some, if_true,
        Bool.false_eq_true, if_false]
      exact ih nodup bound w
    | none =>
      simp only [List.filter_cons, kept, Option.isSome_none, Option.isNone_none, if_true,
        Bool.false_eq_true, if_false]
      set fresh := rest.filter fun address => (running.lookup address).isNone
      have absent : address ∉ fresh := fun member => unique (List.mem_filter.mp member).1
      obtain ⟨w', adopted, same, ⟨can, socket, got, own⟩ | ⟨cannot, error, failed⟩⟩ :=
        getSocket_cases address w
      · rw [Fallible.exec_bind_ok got]
        have agree : ∀ other ∈ fresh, w'.canListen other = w.canListen other :=
          fun other member => same other fun equal => absent (equal ▸ member)
        have all : fresh.all w'.canListen = fresh.all w.canListen := by
          rw [Bool.eq_iff_iff, List.all_eq_true, List.all_eq_true]
          exact forall₂_congr fun other member => by rw [agree other member]
        obtain ⟨tried, broken, gotRest⟩ := ih nodup (bound.insert address socket) w'
        constructor
        · intro other
          rw [tried, adopted, HashMap.lookup_erase, triedUntil_congr agree, triedUntil, if_pos can]
          by_cases equal : other = address
          · simp [equal]
          · simp [equal]
        · intro anyFails
          rw [List.all_cons, can, Bool.true_and, ← all] at anyFails
          exact broken anyFails
        · intro allCan
          rw [List.all_cons, can, Bool.true_and, ← all] at allCan
          obtain ⟨bound', ended, lookups⟩ := gotRest allCan
          refine ⟨bound', ended, fun other => ?_⟩
          have found := lookups other
          by_cases equal : other = address
          · subst equal
            rw [if_neg absent, HashMap.lookup_insert, if_pos rfl] at found
            rw [if_pos List.mem_cons_self]
            exact ⟨socket, found, own⟩
          · simp only [List.mem_cons, equal, false_or]
            simpa only [adopted, HashMap.lookup_erase, HashMap.lookup_insert, equal, if_false]
              using found
      · rw [Fallible.exec_bind_error failed]
        constructor
        · intro other
          rw [adopted, HashMap.lookup_erase]
          simp only [triedUntil, cannot, Bool.false_eq_true, if_false, List.mem_singleton]
        · exact fun _ => ⟨error, rfl⟩
        · intro allCan
          rw [List.all_cons, cannot] at allCan
          cases allCan

def byAddress (listeners : List Listener) : List (SocketAddr × Listener) :=
  listeners.map fun listener => (listener.socketAddr, listener)

theorem map_fst_byAddress (listeners : List Listener) :
    (byAddress listeners).map Prod.fst = listeners.map Listener.socketAddr := by
  simp [byAddress, Function.comp_def]

theorem exec_stage (listeners : List Listener) (w : World)
    (nodup : (listeners.map Listener.socketAddr).Nodup) :
    Fallible.exec (Edge.stage listeners) w =
      match Fallible.exec (Listeners.getSockets w.node.listeners.running ∅
          (listeners.map Listener.socketAddr)) w with
      | (.ok bound, w') => (.ok ⟨⟨byAddress listeners, bound, map_fst_byAddress listeners ▸ nodup⟩,
          Edge.addresses listeners⟩, w')
      | (.error error, w') =>
        (.error ⟨error, Edge.added w.node.addresses listeners⟩, w') := by
  have once : namedTwice [] ((byAddress listeners).map Prod.fst) = none :=
    namedTwice_of_nodup (map_fst_byAddress listeners ▸ nodup) (by simp)
  have staged : Fallible.exec (Listeners.stage (byAddress listeners)) w =
      match Fallible.exec (Listeners.getSockets w.node.listeners.running ∅
          (listeners.map Listener.socketAddr)) w with
      | (.ok bound, w') =>
        (.ok ⟨byAddress listeners, bound, map_fst_byAddress listeners ▸ nodup⟩, w')
      | (.error error, w') => (.error error, w') := by
    unfold Listeners.stage
    split
    · rename_i twice
      rw [once] at twice
      cases twice
    · have read : (readNode fun n => n.listeners.running).run w = (w.node.listeners.running, w) := rfl
      rw [Fallible.exec_bind_ok (Fallible.exec_lift _ w), read, Fallible.exec_bind]
      have named : ∀ running, Listeners.getSockets running ∅ ((byAddress listeners).map Prod.fst) =
          Listeners.getSockets running ∅ (listeners.map Listener.socketAddr) := by
        rw [map_fst_byAddress]
        exact fun _ => rfl
      rw [named]
      cases Fallible.exec (Listeners.getSockets w.node.listeners.running ∅
          (listeners.map Listener.socketAddr)) w with
      | mk result w' => cases result <;> rfl
  have ended := Fallible.exec_mapError
    (fun error => BindError.mk error (Edge.added w.node.addresses listeners))
    (Listeners.stage (byAddress listeners)) w
  unfold Edge.stage
  rw [Fallible.exec_bind_ok (Fallible.exec_lift _ w)]
  rw [staged] at ended
  revert ended
  cases Fallible.exec (Listeners.getSockets w.node.listeners.running ∅
      (listeners.map Listener.socketAddr)) w with
  | mk result w' =>
    intro ended
    cases result with
    | error error => exact Fallible.exec_bind_error ended _
    | ok bound => exact Fallible.exec_bind_ok ended _

/-! ## Swapping -/

theorem run_placeAll (bound : HashMap SocketAddr SocketId) (desired : List (SocketAddr × Listener))
    (w : World) :
    ((Listeners.placeAll bound desired).run w).2 =
      w.setNode fun n => { n with listeners := n.listeners.placeEach bound desired } := by
  induction desired generalizing w with
  | nil => rfl
  | cons entry rest ih => exact ih _

theorem run_swapIn (prepared : Prepared) (staged : EdgeStaged) (w : World) :
    ∃ health control, ((swapIn prepared staged).run w).2 =
      (w.setNode fun n => { n with
        resolver := prepared.certificates
        routing := ⟨prepared.routes, prepared.pools⟩
        health := health
        listeners := { (n.listeners.retainNamed staged.inner.desired).placeEach staged.inner.bound
          staged.inner.desired with adopted := ∅ }
        addresses := staged.addresses
        control := control }).setJournal fun j =>
          { j with serving := some prepared.source, installs := j.installs + 1 } := by
  refine ⟨((swapIn prepared staged).run w).2.node.health,
    ((swapIn prepared staged).run w).2.node.control, ?_⟩
  simp only [swapIn, Edge.commit, Listeners.commit, Program.run_bind, run_placeAll]
  rfl

/-! ## Applying -/

/-- The world once the files of a config are remembered. -/
def World.noted (w : World) (config : DynamicConfig) : World :=
  (w.setNode fun n => { n with tracked := { n.tracked with
    certFiles := ⟨stampsOn w.host.file (certPaths (certSpecs config.certificates))⟩ } }).setJournal
      fun j => { j with rememberedAt := j.now }

/-- Applying a config, part after part. -/
theorem exec_apply (crates : Crates) (config : DynamicConfig) (w : World) :
    Fallible.exec (apply crates config) w =
      match Fallible.exec (prepare crates config) (w.noted config) with
      | (.error error, w') => (.error error, w')
      | (.ok prepared, w') =>
        match Fallible.exec (Edge.stage config.listeners) w' with
        | (.error error, w'') => (.error (.bind error), w'')
        | (.ok staged, w'') => (.ok (), ((swapIn prepared staged).run w'').2) := by
  have looked : (CertFiles.snapshot (certSpecs config.certificates)).run w =
      (⟨stampsOn w.host.file (certPaths (certSpecs config.certificates))⟩, w) := by
    simp only [CertFiles.snapshot, Program.run_bind, run_lookAt]
    rfl
  have noted : (remember ⟨stampsOn w.host.file (certPaths (certSpecs config.certificates))⟩).run w =
      ((), w.noted config) := rfl
  unfold apply
  rw [Fallible.exec_bind_ok (Fallible.exec_lift _ w), looked,
    Fallible.exec_bind_ok (Fallible.exec_lift _ w), noted, Fallible.exec_bind]
  cases Fallible.exec (prepare crates config) (w.noted config) with
  | mk result w' =>
    cases result with
    | error error => rfl
    | ok prepared =>
      dsimp only
      rw [Fallible.exec_bind, Fallible.exec_mapError]
      cases Fallible.exec (Edge.stage config.listeners) w' with
      | mk result w'' =>
        cases result with
        | error error => rfl
        | ok staged => exact Fallible.exec_lift _ _

theorem exec_stage_state (listeners : List Listener) (w : World) :
    ∃ adopted next, (Fallible.exec (Edge.stage listeners) w).2 =
      (w.setNode fun n => { n with listeners := { n.listeners with adopted := adopted } }).setHost
        fun h => { h with nextSocket := next } := by
  have moved := (moves_stage listeners).exec w
  generalize (Fallible.exec (Edge.stage listeners) w).2 = w' at moved
  induction moved with
  | refl => exact ⟨w.node.listeners.adopted, w.host.nextSocket, rfl⟩
  | tail _ last ih =>
    obtain ⟨adopted, next, rfl⟩ := ih
    cases last with
    | idle => exact ⟨adopted, next, rfl⟩
    | take address => exact ⟨adopted.erase address, next, rfl⟩
    | bind => exact ⟨adopted, next + 1, rfl⟩

def namedFiles (config : DynamicConfig) : List Path := certPaths (certSpecs config.certificates)

/-- What a node serves: handles and sockets are its own business. -/
structure Service where
  certificates : CertStore
  routes : RouteTable
  pools : Str → Option (Pool Scheme)
  listening : SocketAddr → Option Listener

def World.service (w : World) : Service where
  certificates := w.node.resolver
  routes := w.node.routing.routes
  pools id := (w.node.routing.pools.get id).map Pool.bare
  listening := w.node.listeners.attachedAt

def serviceOf (config : DynamicConfig) (made : CertStore × HashMap Str (Pool Scheme)) : Service where
  certificates := made.1
  routes := RouteTable.compile config
  pools id := made.2.lookup id
  listening address := config.listeners.find? (·.socketAddr = address)

structure Applied (w : World) (config : DynamicConfig)
    (made : CertStore × HashMap Str (Pool Scheme)) (w' : World) : Prop where
  service : w'.service = serviceOf config made
  serving : w'.journal.serving = some config
  /-- A socket that is listened on stays, and one that was handed over is used. -/
  sockets : ∀ address, if address ∈ config.listeners.map Listener.socketAddr then
      ∃ socket, w'.node.listeners.socketAt address = some socket ∧
        ∀ old, (w.node.listeners.socketAt address).or
          (w.node.listeners.adopted.lookup address) = some old → socket = old
    else w'.node.listeners.socketAt address = none
  settled : w'.node.listeners.adopted = ∅
  tracked : w'.node.tracked = (w.noted config).node.tracked
  files : w'.host.file = w.host.file
  log : w'.node.log = w.node.log

def World.attempted (w : World) (config : DynamicConfig) (health : HealthMap)
    (adopted : HashMap SocketAddr SocketId) (next : SocketId) : World :=
  ((w.noted config).setNode fun n => { n with
    health := health
    listeners := { n.listeners with adopted := adopted } }).setHost
      fun h => { h with nextSocket := next }

def World.fresh (w : World) (config : DynamicConfig) : List SocketAddr :=
  (config.listeners.map Listener.socketAddr).filter fun address =>
    (w.node.listeners.running.lookup address).isNone

theorem find?_byAddress (listeners : List Listener) (address : SocketAddr) :
    ((byAddress listeners).find? (·.1 = address)).map Prod.snd =
      listeners.find? (·.socketAddr = address) := by
  simp [byAddress, List.find?_map, Function.comp_def]

/-- A config that is swapped in once all its sockets are there is applied. -/
theorem applied_swapIn {w : World} {prepared : Prepared}
    (same : prepared.Is config made)
    {staged : EdgeStaged} (desired : staged.inner.desired = byAddress config.listeners)
    (sockets : ∀ address, if address ∈ w.fresh config then
        ∃ socket, staged.inner.bound.lookup address = some socket ∧
          ∀ adopted, w.node.listeners.adopted.lookup address = some adopted → socket = adopted
      else staged.inner.bound.lookup address = none)
    (health : HealthMap) (adopted : HashMap SocketAddr SocketId) (next : SocketId) :
    Applied w config made
      ((swapIn prepared staged).run (w.attempted config health adopted next)).2 := by
  obtain ⟨certificates, routes, pools, source⟩ := same
  obtain ⟨health', control, final⟩ := run_swapIn prepared staged
    (w.attempted config health adopted next)
  rw [final]
  set listeners := ({ w.node.listeners with adopted := adopted } : Listeners Listener)
  have named : staged.inner.desired.map Prod.fst = config.listeners.map Listener.socketAddr := by
    rw [desired, map_fst_byAddress]
  -- every address of the config has a socket, old or new
  have socketOf : ∀ address ∈ staged.inner.desired.map Prod.fst, ∃ socket,
      (listeners.socketAt address).or (staged.inner.bound.lookup address) = some socket ∧
        ∀ old, (w.node.listeners.socketAt address).or
          (w.node.listeners.adopted.lookup address) = some old → socket = old := by
    intro address member
    have got := sockets address
    change ∃ socket, (w.node.listeners.socketAt address).or _ = some socket ∧ _
    cases running : w.node.listeners.running.lookup address with
    | some kept => exact ⟨kept.socket, by simp [Listeners.socketAt, running]⟩
    | none =>
      have fresh : address ∈ w.fresh config :=
        List.mem_filter.mpr ⟨named ▸ member, by simp [running]⟩
      rw [if_pos fresh] at got
      simpa [Listeners.socketAt, running] using got
  refine ⟨?_, congrArg some source, ?_, rfl, rfl, rfl, rfl⟩
  · have listening : ((listeners.retainNamed staged.inner.desired).placeEach staged.inner.bound
        staged.inner.desired).attachedAt =
          fun address => config.listeners.find? (·.socketAddr = address) := by
      funext address
      rw [Listeners.attachedAt_committed _ _ _ staged.inner.nodup fun address member =>
        (socketOf address member).imp fun _ got => got.1, desired, find?_byAddress]
    have samePools : (fun id => (prepared.pools.get id).map Pool.bare) =
        fun id => made.2.lookup id := funext pools
    rw [World.service, serviceOf, ← certificates, ← routes, ← samePools, ← listening]
    rfl
  · intro address
    have committed := Listeners.socketAt_committed listeners staged.inner.bound
      staged.inner.desired address
    rw [← named]
    split
    · rename_i member
      obtain ⟨socket, got, own⟩ := socketOf address member
      rw [if_pos member, got] at committed
      exact ⟨socket, committed, own⟩
    · rename_i missing
      rw [if_neg missing] at committed
      exact committed

theorem nodup_of_prepareOn {file : Path → FileState}
    (usable : prepareOn crates file config = .ok made) :
    (config.listeners.map Listener.socketAddr).Nodup := by
  apply nodup_socketAddr_of_validate
  unfold prepareOn at usable
  cases accepted : validate config with
  | ok _ => rfl
  | error problem =>
    rw [accepted] at usable
    cases usable

theorem exec_prepare_cases (crates : Crates) (config : DynamicConfig) (w : World) :
    ∃ health, let w' := w.setNode fun n => { n with health := health }
      (∃ error, prepareOn crates w.host.file config = .error error ∧
        Fallible.exec (prepare crates config) w = (.error error, w')) ∨
      ∃ made prepared, prepareOn crates w.host.file config = .ok made ∧ prepared.Is config made ∧
        Fallible.exec (prepare crates config) w = (.ok prepared, w') := by
  obtain ⟨health, state⟩ := exec_prepare_state crates config w
  refine ⟨health, ?_⟩
  have agree := exec_prepare crates config w
  rw [← state]
  revert agree
  cases Fallible.exec (prepare crates config) w with
  | mk result w' =>
    generalize prepareOn crates w.host.file config = model
    rintro (error | ⟨same⟩)
    · exact .inl ⟨error, rfl, rfl⟩
    · exact .inr ⟨_, _, rfl, same, rfl⟩

theorem exec_apply_refused {w : World}
    {error : ReloadError} (refused : prepareOn crates w.host.file config = .error error) :
    ∃ health, Fallible.exec (apply crates config) w =
      (.error error, w.attempted config health w.node.listeners.adopted w.host.nextSocket) := by
  rw [exec_apply]
  obtain ⟨health, ⟨_, model, ended⟩ | ⟨_, _, model, _⟩⟩ :=
    exec_prepare_cases crates config (w.noted config)
  · cases refused.symm.trans model
    rw [ended]
    exact ⟨health, rfl⟩
  · cases refused.symm.trans model

theorem exec_apply_prepared {w : World}
    (usable : prepareOn crates w.host.file config = .ok made) :
    if (w.fresh config).all w.canListen then
      ∃ w', Fallible.exec (apply crates config) w = (.ok (), w') ∧ Applied w config made w'
    else ∃ error health adopted next,
      Fallible.exec (apply crates config) w =
        (.error (.bind error), w.attempted config health adopted next) ∧
      ∀ address, adopted.lookup address =
        if address ∈ triedUntil w.canListen (w.fresh config) then none
        else w.node.listeners.adopted.lookup address := by
  have nodup := nodup_of_prepareOn usable
  rw [exec_apply]
  obtain ⟨health, ⟨_, model, _⟩ | ⟨_, prepared, model, same, ended⟩⟩ :=
    exec_prepare_cases crates config (w.noted config)
  · cases usable.symm.trans model
  cases usable.symm.trans model
  rw [ended]
  set w₁ := (w.noted config).setNode fun n => { n with health := health }
  obtain ⟨adopted, next, state⟩ := exec_stage_state config.listeners w₁
  have tried : Tried w (w.fresh config) ∅ (Fallible.exec (Listeners.getSockets
      w₁.node.listeners.running ∅ (config.listeners.map Listener.socketAddr)) w₁) := by
    have tried := exec_getSockets w₁.node.listeners.running _ nodup ∅ w₁
    exact ⟨tried.adopted, tried.failed, tried.got⟩
  dsimp only
  rw [exec_stage _ _ nodup] at state ⊢
  revert state tried
  cases Fallible.exec (Listeners.getSockets w₁.node.listeners.running ∅
      (config.listeners.map Listener.socketAddr)) w₁ with
  | mk result w₂ =>
    intro state tried
    have after : w₂ = w.attempted config health adopted next := by
      cases result <;> exact state
    subst after
    split
    · rename_i allCan
      obtain ⟨bound, rfl, sockets⟩ := tried.got allCan
      exact ⟨_, rfl, applied_swapIn (w := w) same rfl sockets health adopted next⟩
    · rename_i anyFails
      obtain ⟨error, rfl⟩ := tried.failed (Bool.eq_false_iff.mpr anyFails)
      exact ⟨_, health, adopted, next, rfl, tried.adopted⟩

/-! ## The deployed config and the cache -/

def World.deployedConfig (crates : Crates) (settings : NodeConfig) (w : World) :
    Except ConfigError DynamicConfig :=
  parseConfig crates settings.configFile (w.host.file settings.configFile).content

def World.configRead (w : World) : World := w.setJournal fun j => { j with configReadAt := j.now }

def applyLoaded (crates : Crates) (loaded : Except ConfigError DynamicConfig) (w : World) :
    Except ReloadError DynamicConfig × World :=
  match loaded with
  | .error error => (.error (.config error), w)
  | .ok config =>
    match Fallible.exec (apply crates config) w with
    | (.error error, w') => (.error error, w')
    | (.ok (), w') => (.ok config, w')

theorem exec_applyLoaded (crates : Crates) {load : Fallible World ConfigError DynamicConfig}
    {loaded : Except ConfigError DynamicConfig} {w w' : World}
    (ended : Fallible.exec load w = (loaded, w')) :
    Fallible.exec (do
        let config ← Fallible.mapError .config load
        apply crates config
        return config : Fallible World ReloadError DynamicConfig) w = applyLoaded crates loaded w' := by
  have mapped := Fallible.exec_mapError ReloadError.config load w
  rw [ended] at mapped
  unfold applyLoaded
  cases loaded with
  | error error => exact Fallible.exec_bind_error mapped _
  | ok config =>
    rw [Fallible.exec_bind_ok mapped, Fallible.exec_bind]
    dsimp only
    cases Fallible.exec (apply crates config) w' with
    | mk result w'' => cases result <;> rfl

inductive LoadEnd (crates : Crates) (w : World) : Except ConfigError DynamicConfig →
    Except ReloadError DynamicConfig × World → Prop where
  | unreadable (error : ConfigError) : LoadEnd crates w (.error error) (.error (.config error), w)
  | failed (config : DynamicConfig) (error : ReloadError) (health : HealthMap)
      (adopted : HashMap SocketAddr SocketId) (next : SocketId) :
      LoadEnd crates w (.ok config) (.error error, w.attempted config health adopted next)
  | applied {config : DynamicConfig} {made : CertStore × HashMap Str (Pool Scheme)} {w' : World} :
      prepareOn crates w.host.file config = .ok made → Applied w config made w' →
      LoadEnd crates w (.ok config) (.ok config, w')

theorem loadEnd_applyLoaded (crates : Crates) (loaded : Except ConfigError DynamicConfig)
    (w : World) : LoadEnd crates w loaded (applyLoaded crates loaded w) := by
  cases loaded with
  | error error => exact .unreadable error
  | ok config =>
    unfold applyLoaded
    dsimp only
    cases usable : prepareOn crates w.host.file config with
    | error error =>
      obtain ⟨health, refused⟩ := exec_apply_refused usable
      rw [refused]
      exact .failed config error health _ _
    | ok made =>
      have outcome := exec_apply_prepared usable
      split at outcome
      · obtain ⟨w', ended, applied⟩ := outcome
        rw [ended]
        exact .applied usable applied
      · obtain ⟨error, health, adopted, next, failed, _⟩ := outcome
        rw [failed]
        exact .failed config _ health adopted next

theorem exec_applyDeployed (crates : Crates) (settings : NodeConfig) (w : World) :
    Fallible.exec (applyDeployed crates settings) w =
      applyLoaded crates (w.deployedConfig crates settings) w.configRead :=
  exec_applyLoaded crates ((Fallible.exec_bind_ok (Fallible.exec_lift _ w) _).trans rfl)

theorem exec_applyCached (crates : Crates) (path : Path) (w : World) :
    Fallible.exec (applyCached crates path) w =
      applyLoaded crates (parseConfig crates path w.host.cache) w :=
  exec_applyLoaded crates ((Fallible.exec_bind_ok (Fallible.exec_lift _ w) _).trans rfl)

/-- The world once a config from the cache is applied: counted as a failure, and
    followed. -/
def World.startedFromCache (w : World) : World :=
  w.setNode fun n => { n with
    control := { n.control with
      configReloadErrors := n.control.configReloadErrors + 1
      configReloadFailed := 1
      configFromCache := 1 }
    tracked := { n.tracked with following := true } }

theorem exec_applyInitial_unusable {settings : NodeConfig} {w w' : World}
    {path : Path} {unusable : ReloadError} (cacheFile : settings.localCache = some path)
    (ended : Fallible.exec (applyDeployed crates settings) w = (.error unusable, w')) :
    Fallible.exec (applyInitial crates settings) w =
      match Fallible.exec (applyCached crates path)
          (w'.setNode fun n => { n with log := .startingFromCache unusable :: n.log }) with
      | (.error error, w'') => (.error (.neitherUsable unusable path error), w'')
      | (.ok config, w'') => (.ok config, w''.startedFromCache) := by
  have attempted : Fallible.exec (Fallible.attempt (applyDeployed crates settings) :
      Fallible World ReloadError _) w = (.ok (.error unusable), w') := by
    rw [Fallible.exec_attempt, ended]
  unfold applyInitial
  rw [Fallible.exec_bind_ok attempted]
  dsimp only
  split
  · rename_i path' named
    cases cacheFile.symm.trans named
    rw [Fallible.exec_bind_ok (Fallible.exec_lift _ w'), Fallible.exec_bind, Fallible.exec_mapError]
    have logged : (logLine (.startingFromCache unusable)).run w' =
        ((), w'.setNode fun n => { n with log := .startingFromCache unusable :: n.log }) := rfl
    rw [logged]
    dsimp only
    cases Fallible.exec (applyCached crates path)
        (w'.setNode fun n => { n with log := .startingFromCache unusable :: n.log }) with
    | mk result w'' =>
      cases result with
      | error error => rfl
      | ok config => rfl
  · rename_i missing
    exact absurd cacheFile (missing path)

end Gfe
