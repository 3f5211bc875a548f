import Gfe.Reload.Outcome

/-! # Starting on inherited sockets

A node that replaces another one is handed the listening sockets of the other,
each good for one use. When the deployed config cannot be used, the cached one
is tried next, with the sockets the first attempt left over.
-/

namespace Gfe

open Interleaving

/-- The addresses whose handed-over sockets a deployed config that cannot be
    applied uses up: none if it fails before its sockets are got, else those of
    its listeners up to the first that cannot be bound. -/
def lostSockets (crates : Crates) (settings : NodeConfig) (w : World) : List SocketAddr :=
  match w.deployedConfig crates settings with
  | .error _ => []
  | .ok deployed =>
    match prepareOn crates w.host.file deployed with
    | .error _ => []
    | .ok _ => triedUntil w.canListen (w.fresh deployed)

/-- The node serves a config on the sockets it was handed. -/
structure ServesInherited (w : World) (config : DynamicConfig)
    (made : CertStore × HashMap Str (Pool Scheme)) (w' : World) : Prop where
  service : w'.service = serviceOf config made
  serving : w'.journal.serving = some config
  sockets : ∀ address ∈ config.listeners.map Listener.socketAddr,
    w'.node.listeners.socketAt address = w.node.listeners.adopted.lookup address

/-- What the first attempt leaves to the second. -/
structure LeftBy (w : World) (lost : List SocketAddr) (w' : World) : Prop where
  running : w'.node.listeners.running = w.node.listeners.running
  adopted : ∀ address, w'.node.listeners.adopted.lookup address =
    if address ∈ lost then none else w.node.listeners.adopted.lookup address
  files : w'.host.file = w.host.file
  cache : w'.host.cache = w.host.cache
  binding : w'.host.bindError = w.host.bindError
  listening : w'.host.listenError = w.host.listenError

theorem leftBy_applyDeployed {crates : Crates} {settings : NodeConfig} {w w' : World}
    {unusable : ReloadError}
    (ended : Fallible.exec (applyDeployed crates settings) w = (.error unusable, w')) :
    LeftBy w (lostSockets crates settings w) w' := by
  rw [exec_applyDeployed] at ended
  unfold applyLoaded at ended
  unfold lostSockets
  cases deployed : w.deployedConfig crates settings with
  | error error =>
    rw [deployed] at ended
    cases ended
    exact ⟨rfl, fun _ => rfl, rfl, rfl, rfl, rfl⟩
  | ok config =>
    rw [deployed] at ended
    dsimp only at ended ⊢
    cases usable : prepareOn crates w.host.file config with
    | error error =>
      obtain ⟨health, refused⟩ := exec_apply_refused (w := w.configRead) usable
      rw [refused] at ended
      cases ended
      exact ⟨rfl, fun _ => rfl, rfl, rfl, rfl, rfl⟩
    | ok made =>
      have outcome := exec_apply_prepared (w := w.configRead) usable
      split at outcome
      · obtain ⟨after, applied, _⟩ := outcome
        rw [applied] at ended
        cases ended
      · obtain ⟨error, health, adopted, next, failed, lost⟩ := outcome
        rw [failed] at ended
        cases ended
        exact ⟨rfl, lost, rfl, rfl, rfl, rfl⟩

theorem fresh_of_none_running {w : World} (none_running : w.node.listeners.running = ∅)
    (config : DynamicConfig) : w.fresh config = config.listeners.map Listener.socketAddr := by
  unfold World.fresh
  rw [none_running, List.filter_eq_self]
  exact fun _ _ => rfl

/-- The cached config finds its sockets exactly if none of them is lost. -/
theorem all_canListen_iff {w w' : World} {lost : List SocketAddr} {cached : DynamicConfig}
    (left : LeftBy w lost w')
    (replaced : ∀ address socket, w.node.listeners.adopted.lookup address = some socket →
      w.host.bindError address ≠ none ∧ w.host.listenError socket = none)
    (inherited : ∀ address ∈ cached.listeners.map Listener.socketAddr,
      (w.node.listeners.adopted.lookup address).isSome = true) :
    (cached.listeners.map Listener.socketAddr).all w'.canListen = true ↔
      ∀ address ∈ lost, address ∉ cached.listeners.map Listener.socketAddr := by
  have can : ∀ address ∈ cached.listeners.map Listener.socketAddr,
      (w'.canListen address = true ↔ address ∉ lost) := by
    intro address member
    obtain ⟨socket, adopted⟩ := Option.isSome_iff_exists.mp (inherited address member)
    obtain ⟨bound, listens⟩ := replaced address socket adopted
    rw [World.canListen, left.adopted, left.binding, left.listening, adopted]
    by_cases gone : address ∈ lost
    · simpa [gone] using bound
    · simpa [gone] using listens
  rw [List.all_eq_true]
  constructor
  · intro all address gone member
    exact (can address member).mp (all address member) gone
  · intro apart address member
    exact (can address member).mpr fun gone => apart address gone member

/-- A node is started with the sockets of the node it replaces, which still
    listens; its deployed config cannot be used, and its cached config can and
    finds all its addresses among the sockets. It starts and serves the cached
    config on them exactly if the deployed config has used none of them up. -/
theorem inherited_start_iff (crates : Crates) (settings : NodeConfig) (w : World) (path : Path)
    (cached : DynamicConfig) (made : CertStore × HashMap Str (Pool Scheme))
    (unusable : ReloadError) (cacheFile : settings.localCache = some path)
    (none_running : w.node.listeners.running = ∅)
    (replaced : ∀ address socket, w.node.listeners.adopted.lookup address = some socket →
      w.host.bindError address ≠ none ∧ w.host.listenError socket = none)
    (rejected : (Fallible.exec (applyDeployed crates settings) w).1 = .error unusable)
    (readable : parseConfig crates path w.host.cache = .ok cached)
    (prepares : prepareOn crates w.host.file cached = .ok made)
    (inherited : ∀ address ∈ cached.listeners.map Listener.socketAddr,
      (w.node.listeners.adopted.lookup address).isSome = true) :
    ((Fallible.exec (applyInitial crates settings) w).1 = .ok cached ∧
        ServesInherited w cached made (Fallible.exec (applyInitial crates settings) w).2) ↔
      ∀ address ∈ lostSockets crates settings w,
        address ∉ cached.listeners.map Listener.socketAddr := by
  obtain ⟨w₁, ended⟩ : ∃ w₁, Fallible.exec (applyDeployed crates settings) w =
      (.error unusable, w₁) := ⟨_, Prod.ext rejected rfl⟩
  have left := leftBy_applyDeployed ended
  set w₂ := w₁.setNode fun n => { n with log := .startingFromCache unusable :: n.log }
  have left₂ : LeftBy w (lostSockets crates settings w) w₂ :=
    ⟨left.running, left.adopted, left.files, left.cache, left.binding, left.listening⟩
  rw [exec_applyInitial_unusable cacheFile ended, exec_applyCached, left₂.cache, readable,
    applyLoaded, ← all_canListen_iff left₂ replaced inherited]
  have usable : prepareOn crates w₂.host.file cached = .ok made := by
    rw [left₂.files]
    exact prepares
  have outcome := exec_apply_prepared usable
  rw [fresh_of_none_running (left₂.running.trans none_running)] at outcome
  split at outcome
  · rename_i allCan
    obtain ⟨w₃, applied, outcome⟩ := outcome
    rw [applied]
    refine ⟨fun _ => allCan, fun _ => ⟨rfl, outcome.service, outcome.serving, ?_⟩⟩
    intro address member
    have kept : w₂.node.listeners.adopted.lookup address =
        w.node.listeners.adopted.lookup address := by
      rw [left₂.adopted, if_neg]
      exact fun gone =>
        (all_canListen_iff left₂ replaced inherited).mp allCan address gone member
    obtain ⟨old, adopted⟩ := Option.isSome_iff_exists.mp (inherited address member)
    have sockets := outcome.sockets address
    rw [if_pos member] at sockets
    obtain ⟨socket, used, own⟩ := sockets
    have idle : w₂.node.listeners.socketAt address = none := by
      rw [Listeners.socketAt, left₂.running, none_running]
      rfl
    rw [adopted, ← own old (by rw [idle, kept, adopted]; rfl)]
    exact used
  · rename_i anyFails
    obtain ⟨error, health, adopted, next, failed, _⟩ := outcome
    rw [failed]
    constructor
    · intro started
      cases started.1
    · intro allCan
      exact absurd allCan anyFails

/-! ## An upgrade that fails -/

def upgradeCrates : Crates := .indexed [onPorts [80, 81], onPorts [80]]

/-- An upgrade with a socket on port 80 handed over, the config of port 80 in
    the cache, and ports 80 and 81 in use. -/
def upgrading (files : List (Path × FileState)) : World :=
  .starting (.small files (.ok [1]) ((onPorts [80, 81]).listeners.map Listener.socketAddr))
    ((∅ : HashMap SocketAddr SocketId).insert (Listener.loopback [] 80).socketAddr 7)

theorem upgrading_replaced (files : List (Path × FileState)) (address : SocketAddr)
    (socket : SocketId) (adopted : (upgrading files).node.listeners.adopted.lookup address =
      some socket) :
    (upgrading files).host.bindError address ≠ none ∧
      (upgrading files).host.listenError socket = none := by
  have found : AList.lookup address ((∅ : HashMap SocketAddr SocketId).insert
      (Listener.loopback [] 80).socketAddr 7) = some socket := adopted
  rw [HashMap.lookup_insert] at found
  split at found
  · rename_i same
    subst same
    have taken : (Listener.loopback [] 80).socketAddr ∈
        (onPorts [80, 81]).listeners.map Listener.socketAddr := by decide
    have refused : (upgrading files).host.bindError (Listener.loopback [] 80).socketAddr =
        some .addrInUse := by
      simp only [upgrading, World.starting, Host.small, taken, if_true]
    exact ⟨refused ▸ Option.some_ne_none _, rfl⟩
  · cases found

theorem inherited_start_without_config :
    (Fallible.exec (applyInitial upgradeCrates (.small (some ⟨['l']⟩))) (upgrading [])).1 =
        .ok (onPorts [80]) ∧
      ServesInherited (upgrading []) (onPorts [80]) (.empty, ∅)
        (Fallible.exec (applyInitial upgradeCrates (.small (some ⟨['l']⟩))) (upgrading [])).2 :=
  (inherited_start_iff upgradeCrates (.small (some ⟨['l']⟩)) (upgrading []) ⟨['l']⟩ (onPorts [80])
    (.empty, ∅) (.config (.read ⟨['c']⟩ .notFound)) rfl rfl (upgrading_replaced [])
    (by decide +kernel) (by decide +kernel) rfl (by decide +kernel)).mpr (by decide +kernel)

/-- The deployed config adds port 81, which is in use. Trying it uses up the
    socket of port 80, and then the cached config cannot be applied either. -/
theorem inherited_start_fails :
    let w := upgrading [(⟨['c']⟩, ⟨none, .ok [0]⟩)]
    w.node.listeners.running = ∅ ∧
      (∀ address socket, w.node.listeners.adopted.lookup address = some socket →
        w.host.bindError address ≠ none ∧ w.host.listenError socket = none) ∧
      (∃ unusable,
        (Fallible.exec (applyDeployed upgradeCrates (.small (some ⟨['l']⟩))) w).1 = .error unusable) ∧
      parseConfig upgradeCrates ⟨['l']⟩ w.host.cache = .ok (onPorts [80]) ∧
      prepareOn upgradeCrates w.host.file (onPorts [80]) = .ok (.empty, ∅) ∧
      (∀ address ∈ (onPorts [80]).listeners.map Listener.socketAddr,
        (w.node.listeners.adopted.lookup address).isSome = true) ∧
      ∃ error, (Fallible.exec (applyInitial upgradeCrates (.small (some ⟨['l']⟩))) w).1 = .error error := by
  exact ⟨rfl, upgrading_replaced _, ⟨_, rfl⟩, by decide +kernel, rfl, by decide +kernel, ⟨_, rfl⟩⟩

end Gfe
