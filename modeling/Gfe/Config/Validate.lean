import Gfe.Config.Address

/-! # Validating a dynamic config

A config that matches the schema is still checked as a whole before anything is
swapped. The first problem found is the one reported, so every check is a step
of one left-to-right pass; an error carries what its message names.
-/

namespace Gfe

variable {config : DynamicConfig}

def Listener.socketAddr (listener : Listener) : SocketAddr := ⟨listener.address, listener.port⟩

/-- The field of a health check that makes no sense. -/
inductive HealthCheckProblem where
  | timeoutZero
  | intervalTooShort (interval : Nat)
  | pathWithoutSlash (path : Str)
  | expectedStatus (status : UInt16)
  | drainStatus (status : UInt16)
  deriving DecidableEq, Repr

inductive ConfigProblem where
  | noListeners
  | duplicateListenerId (id : ListenerId)
  | reusedAddress (id : ListenerId) (address : SocketAddr)
  | duplicatePoolId (id : PoolId)
  | noUpstreams (id : PoolId)
  | invalidUpstream (id : PoolId) (host : Str) (port : UInt16)
  | upstreamBrackets (id : PoolId) (host : Str)
  | upstreamHost (id : PoolId) (host : Str)
  | upstreamWeight (id : PoolId) (host : Str) (port : UInt16) (weight : UInt32)
  | healthCheck (id : PoolId) (problem : HealthCheckProblem)
  | duplicateRouteId (id : RouteId)
  | unknownListener (id : RouteId) (listener : ListenerId)
  | unknownPool (id : RouteId) (pool : Str)
  | emptyHost (id : RouteId)
  | manyDefaultCertificates
  | httpsWithoutCertificates
  deriving DecidableEq, Repr

def maxUpstreamWeight : UInt32 := 1000

/-- 100 ms, in nanoseconds. -/
def minHealthCheckInterval : Nat := 100000000

def isHttpStatus (status : UInt16) : Bool := 100 ≤ status && status ≤ 599

/-- The labels of a name: what stands between its dots. -/
def labels (host : Str) : List Str := host.splitOn '.'

def isHostname (host : Str) : Bool :=
  Text.len host ≤ 253 && (labels host).all fun label =>
    1 ≤ Text.len label && Text.len label ≤ 63 &&
      label.all (fun c => c.isAlphanum || c == '-' || c == '_') &&
      !Text.startsWith label ['-'] && !Text.endsWith label ['-']

def validateHealthCheck (check : HealthCheckConfig) : Except HealthCheckProblem Unit := do
  if check.timeout == 0 then throw .timeoutZero
  if check.interval < minHealthCheckInterval then throw (.intervalTooShort check.interval)
  if !Text.startsWith check.path ['/'] then throw (.pathWithoutSlash check.path)
  if !isHttpStatus check.expectedStatus then throw (.expectedStatus check.expectedStatus)
  if let some status := check.drainStatus then
    if !isHttpStatus status then throw (.drainStatus status)

def validateListeners : (ids : List ListenerId) → (addresses : List SocketAddr) →
    List Listener → Except ConfigProblem Unit
  | _, _, [] => .ok ()
  | ids, addresses, listener :: rest =>
    if listener.id ∈ ids then .error (.duplicateListenerId listener.id)
    else if listener.socketAddr ∈ addresses then
      .error (.reusedAddress listener.id listener.socketAddr)
    else validateListeners (listener.id :: ids) (listener.socketAddr :: addresses) rest

def validateUpstream (pool : PoolId) (upstream : Upstream) : Except ConfigProblem Unit := do
  if upstream.host.isEmpty || upstream.port == 0 then
    throw (.invalidUpstream pool upstream.host upstream.port)
  if upstream.host.any fun c => c == '[' || c == ']' then
    throw (.upstreamBrackets pool upstream.host)
  if (Address.parseIpAddr upstream.host).isNone && !isHostname upstream.host then
    throw (.upstreamHost pool upstream.host)
  if upstream.weight > maxUpstreamWeight then
    throw (.upstreamWeight pool upstream.host upstream.port upstream.weight)

def validatePool (pool : UpstreamPool) : Except ConfigProblem Unit := do
  if pool.upstreams.isEmpty then throw (.noUpstreams pool.id)
  pool.upstreams.forM (validateUpstream pool.id)
  if let some check := pool.healthCheck then
    (validateHealthCheck check).mapError (.healthCheck pool.id)

def validatePools : (ids : List PoolId) → List UpstreamPool → Except ConfigProblem Unit
  | _, [] => .ok ()
  | ids, pool :: rest =>
    if pool.id ∈ ids then .error (.duplicatePoolId pool.id)
    else do
      validatePool pool
      validatePools (pool.id :: ids) rest

def validateRoute (config : DynamicConfig) (route : Route) : Except ConfigProblem Unit := do
  if route.listener ∉ config.listeners.map Listener.id then
    throw (.unknownListener route.id route.listener)
  if let .forward pool := route.action then
    if (⟨pool⟩ : PoolId) ∉ config.pools.map UpstreamPool.id then
      throw (.unknownPool route.id pool)
  if route.host.isEmpty then throw (.emptyHost route.id)

def validateRoutes (config : DynamicConfig) :
    (ids : List RouteId) → List Route → Except ConfigProblem Unit
  | _, [] => .ok ()
  | ids, route :: rest =>
    if route.id ∈ ids then .error (.duplicateRouteId route.id)
    else do
      validateRoute config route
      validateRoutes config (route.id :: ids) rest

def validateCertificates (config : DynamicConfig) : Except ConfigProblem Unit := do
  if (config.certificates.filter (·.default)).length > 1 then throw .manyDefaultCertificates
  if config.listeners.any (·.protocol == .https) && config.certificates.isEmpty then
    throw .httpsWithoutCertificates

def validate (config : DynamicConfig) : Except ConfigProblem Unit := do
  if config.listeners.isEmpty then throw .noListeners
  validateListeners [] [] config.listeners
  validatePools [] config.pools
  validateRoutes config [] config.routes
  validateCertificates config

theorem validateListeners_ok {ids : List ListenerId} {addresses : List SocketAddr}
    {listeners : List Listener} (accepted : validateListeners ids addresses listeners = .ok ()) :
    (listeners.map Listener.socketAddr).Nodup ∧
      ∀ address ∈ listeners.map Listener.socketAddr, address ∉ addresses := by
  induction listeners generalizing ids addresses with
  | nil => simp
  | cons listener rest ih =>
    unfold validateListeners at accepted
    split at accepted
    · cases accepted
    · split at accepted
      · cases accepted
      · rename_i fresh
        obtain ⟨nodup, apart⟩ := ih accepted
        constructor
        · refine List.nodup_cons.mpr ⟨?_, nodup⟩
          intro again
          exact apart _ again List.mem_cons_self
        · intro address member
          rcases List.mem_cons.mp member with rfl | member
          · exact fresh
          · intro seen
            exact apart address member (List.mem_cons_of_mem _ seen)

theorem validatePools_ok {ids : List PoolId} {pools : List UpstreamPool}
    (accepted : validatePools ids pools = .ok ()) :
    (pools.map UpstreamPool.id).Nodup ∧ ∀ id ∈ pools.map UpstreamPool.id, id ∉ ids := by
  induction pools generalizing ids with
  | nil => simp
  | cons pool rest ih =>
    unfold validatePools at accepted
    split at accepted
    · cases accepted
    · rename_i fresh
      cases checked : validatePool pool with
      | error problem =>
        rw [checked] at accepted
        cases accepted
      | ok _ =>
        rw [checked] at accepted
        obtain ⟨nodup, apart⟩ := ih accepted
        simp only [List.map_cons, List.nodup_cons, List.mem_cons, forall_eq_or_imp]
        refine ⟨⟨fun again => apart _ again List.mem_cons_self, nodup⟩, fresh, ?_⟩
        exact fun id member seen => apart id member (List.mem_cons_of_mem _ seen)

theorem ok_of_bind {ε α β : Type} {first : Except ε α} {next : α → Except ε β} {result : β}
    (accepted : (first >>= next) = .ok result) : ∃ value, first = .ok value ∧ next value = .ok result := by
  cases first with
  | error error => cases accepted
  | ok value => exact ⟨value, rfl, accepted⟩

theorem validatePool_of_validatePools {ids : List PoolId} {pools : List UpstreamPool}
    (accepted : validatePools ids pools = .ok ()) :
    ∀ pool ∈ pools, validatePool pool = .ok () := by
  induction pools generalizing ids with
  | nil => simp
  | cons pool rest ih =>
    unfold validatePools at accepted
    split at accepted
    · cases accepted
    · obtain ⟨_, here, later⟩ := ok_of_bind accepted
      intro other member
      cases List.mem_cons.mp member with
      | inl first => exact first ▸ here
      | inr later' => exact ih later other later'

theorem upstreams_of_validatePool {pool : UpstreamPool} (accepted : validatePool pool = .ok ()) :
    pool.upstreams ≠ [] := by
  intro none
  simp only [validatePool, none, List.isEmpty_nil, if_true] at accepted
  cases accepted

theorem validateRoute_of_validateRoutes {ids : List RouteId}
    {routes : List Route} (accepted : validateRoutes config ids routes = .ok ()) :
    ∀ route ∈ routes, validateRoute config route = .ok () := by
  induction routes generalizing ids with
  | nil => simp
  | cons route rest ih =>
    unfold validateRoutes at accepted
    split at accepted
    · cases accepted
    · obtain ⟨_, here, later⟩ := ok_of_bind accepted
      intro other member
      cases List.mem_cons.mp member with
      | inl first => exact first ▸ here
      | inr later' => exact ih later other later'

theorem pool_of_validateRoute {route : Route} {pool : Str}
    (accepted : validateRoute config route = .ok ()) (forwards : route.action = .forward pool) :
    ⟨pool⟩ ∈ config.pools.map UpstreamPool.id := by
  by_contra absent
  simp only [validateRoute, forwards, absent, not_false_eq_true, if_true] at accepted
  split at accepted
  · cases accepted
  · cases accepted

/-- What passes as a whole passes in all its parts. -/
theorem parts_of_validate (accepted : validate config = .ok ()) :
    validateListeners [] [] config.listeners = .ok () ∧ validatePools [] config.pools = .ok () ∧
      validateRoutes config [] config.routes = .ok () := by
  unfold validate at accepted
  split at accepted
  · cases accepted
  · obtain ⟨_, listeners, accepted⟩ := ok_of_bind accepted
    obtain ⟨_, pools, accepted⟩ := ok_of_bind accepted
    obtain ⟨_, routes, _⟩ := ok_of_bind accepted
    exact ⟨listeners, pools, routes⟩

theorem nodup_socketAddr_of_validate (accepted : validate config = .ok ()) :
    (config.listeners.map Listener.socketAddr).Nodup :=
  (validateListeners_ok (parts_of_validate accepted).1).1

theorem nodup_poolId_of_validate (accepted : validate config = .ok ()) :
    (config.pools.map UpstreamPool.id).Nodup :=
  (validatePools_ok (parts_of_validate accepted).2.1).1

end Gfe
