import Gfe.Handler.Decision
import Gfe.LoadBalancing.Weights
import Gfe.Routing.Specificity

/-! # What an accepted config can serve

Validation checks the raw config; routes, pools and rings are compiled from it by
different steps, and requests look things up in what came out much later. A config
that is accepted leaves nothing for them to miss: every route has its pool in the
snapshot it is stored in, every pool has a backend, every ring has the points its
weights ask for, and no listener's address is named twice.
-/

namespace Gfe

open Interleaving

/-! ## Complete snapshots -/

structure Pool.Complete (pool : Pool Scheme) : Prop where
  backends : pool.backends ≠ []
  bounded : pool.ring.length ≤ maxRingPoints
  points : pool.policy = .ringHash →
    pool.ring.length = ringReplicas * (pool.backends.map fun backend => backend.weight.toNat).sum

/-- A snapshot that has the pool of every route that forwards. -/
structure Routing.Complete (routing : Routing) : Prop where
  resolves : ∀ listener host path route id,
    routing.routes.matchRequest listener host path = some route → route.action = .forward id →
    ∃ pool, routing.pools.get id = some pool
  pools : ∀ id pool, routing.pools.get id = some pool → pool.Complete

theorem Routing.Complete.routed_ne_poolNotFound {routing : Routing} (complete : routing.Complete)
    (listener : Option Listener) (host path : Str) (route : CompiledRoute) :
    routed routing listener host path ≠ .poolNotFound route := by
  unfold routed
  cases listener with
  | none => simp
  | some listener =>
    cases found : routing.routes.matchRequest listener.id host path with
    | none => simp [found]
    | some route =>
      simp only [Option.bind_some, found]
      cases action : route.action with
      | redirect redirect => simp
      | fixed fixed => simp
      | forward id =>
        obtain ⟨pool, known⟩ := complete.resolves _ _ _ _ _ found action
        simp [known]

theorem Routing.complete_empty : (⟨.empty, ⟨∅⟩⟩ : Routing).Complete where
  resolves listener host path route id found := by
    rw [RouteTable.matchRequest, RouteTable.empty, AList.lookup_empty] at found
    cases found
  pools id pool known := by
    rw [PoolSet.get, AList.lookup_empty] at known
    cases known

/-! ## Rings -/

theorem length_buildRing (crates : Crates) (backends : List Backend) :
    (buildRing crates backends).length =
      ringReplicas * (backends.map fun backend => backend.weight.toNat).sum := by
  have lengths : (backends.zipIdx.map fun entry : Backend × Nat =>
      ringReplicas * entry.1.weight.toNat) =
      backends.map fun backend => ringReplicas * backend.weight.toNat := by
    rw [← List.zipIdx_map_fst 0 backends, List.map_map, List.zipIdx_map_fst]
    rfl
  rw [← List.sum_map_mul_left, ← lengths]
  simp [buildRing, List.length_flatMap]

theorem Pool.Built.complete {crates : Crates} {spec : PoolSpec Scheme} {pool : Pool Scheme}
    (built : pool.Built crates spec) (some : spec.backends ≠ []) : pool.Complete := by
  have made := built.ring
  refine ⟨built.backends ▸ some, ?_, ?_⟩
  · unfold PoolSpec.ring at made
    split at made
    · dsimp only at made
      split at made
      · cases made
      · rename_i small
        rw [← Except.ok.inj made, length_buildRing]
        omega
    · rw [← Except.ok.inj made]
      exact Nat.zero_le _
  · intro hashed
    rw [built.ring_eq hashed, length_buildRing]

/-! ## Routes -/

theorem exists_of_matchRequest {config : DynamicConfig} {listener : ListenerId} {host path : Str}
    {compiled : CompiledRoute}
    (found : (RouteTable.compile config).matchRequest listener host path = some compiled) :
    ∃ route ∈ config.routes, compiled = .ofRoute route := by
  rw [RouteTable.matchRequest_compile, ListenerRoutes.matchRequest_ofRoutes] at found
  obtain ⟨route, best, rfl⟩ := Option.map_eq_some_iff.mp found
  have member := List.argmax_mem best
  rw [List.mem_filter, List.mem_filter] at member
  exact ⟨route, member.1.1, rfl⟩

/-- Routes and pools that are compiled from a config that passes. -/
theorem complete_of_validate {crates : Crates} {config : DynamicConfig} {pools : PoolSet Scheme}
    (accepted : validate config = .ok ())
    (built : PoolsOf crates (poolSpecs config.pools) pools.pools) :
    (⟨RouteTable.compile config, pools⟩ : Routing).Complete := by
  obtain ⟨_, poolsPass, routesPass⟩ := parts_of_validate accepted
  constructor
  · intro listener host path compiled id found forwards
    obtain ⟨route, member, rfl⟩ := exists_of_matchRequest found
    have passes := validateRoute_of_validateRoutes routesPass route member
    obtain ⟨pool, configured, same⟩ :=
      List.mem_map.mp (pool_of_validateRoute passes forwards)
    have known := built.all _ (List.mem_map_of_mem configured)
    rw [congrArg PoolId.id same] at known
    exact Option.isSome_iff_exists.mp known
  · intro id pool known
    obtain ⟨spec, member, _, made⟩ := built.built id pool known
    obtain ⟨configured, inside, rfl⟩ := List.mem_map.mp member
    have some := upstreams_of_validatePool
      (validatePool_of_validatePools poolsPass configured inside)
    exact made.complete (by simpa using some)

/-! ## Preparing and staging -/

theorem ensures_prepare (rely : Rely World) (crates : Crates) (config : DynamicConfig)
    (w : World) :
    (prepare crates config).Ensures rely
      (fun prepared _ => validate config = .ok () ∧
        (⟨prepared.routes, prepared.pools⟩ : Routing).Complete) (fun _ _ => True) w := by
  apply Fallible.Ensures.bind
  apply Fallible.Ensures.mapError
  refine .ofExcept ?_ fun _ _ _ _ => True.intro
  intro _ accepted w' _
  apply Fallible.Ensures.bindAny
  intro certificates w
  apply Fallible.Ensures.bind
  apply Fallible.Ensures.mapError
  refine (ensures_poolSetBuild rely crates _ w).weaken ?_ fun _ _ held => held
  intro pools w built
  exact .pure fun _ _ => ⟨accepted, complete_of_validate accepted built⟩

def StageError.NamedOnce (error : StageError) : Prop := ∀ address, error ≠ .namedTwice address

theorem ensures_getSocket (rely : Rely World) (address : SocketAddr) (w : World) :
    (Listeners.getSocket address).Ensures rely (fun _ _ => True) (fun error _ => error.NamedOnce)
      w := by
  apply Fallible.Ensures.bindLift
  intro adopted w
  cases adopted with
  | none =>
    apply Fallible.Ensures.bindLift
    intro bound w
    cases bound with
    | ok socket => exact .pure fun _ _ => True.intro
    | error error => exact .throw fun _ _ _ => by simp
  | some socket =>
    apply Fallible.Ensures.bindLift
    intro listening w
    cases listening with
    | ok socket => exact .pure fun _ _ => True.intro
    | error error => exact .throw fun _ _ _ => by simp

theorem ensures_getSockets (rely : Rely World) (running : HashMap SocketAddr RunningListener)
    (addresses : List SocketAddr) (bound : HashMap SocketAddr SocketId) (w : World) :
    (Listeners.getSockets running bound addresses).Ensures rely (fun _ _ => True)
      (fun error _ => error.NamedOnce) w := by
  induction addresses generalizing bound w with
  | nil => exact .pure fun _ _ => True.intro
  | cons address rest ih =>
    unfold Listeners.getSockets
    split
    · exact ih bound w
    · apply Fallible.Ensures.bind
      refine (ensures_getSocket rely address w).weaken ?_ fun _ _ held => held
      intro socket w _
      exact ih _ w

theorem ensures_edgeStage (rely : Rely World) {listeners : List Listener}
    (distinct : (listeners.map Listener.socketAddr).Nodup) (w : World) :
    (Edge.stage listeners).Ensures rely (fun _ _ => True) (fun error _ => error.error.NamedOnce)
      w := by
  have once : namedTwice []
      ((listeners.map fun listener => (listener.socketAddr, listener)).map Prod.fst) = none := by
    rw [List.map_map]
    exact namedTwice_of_nodup distinct (by simp)
  apply Fallible.Ensures.bindLift
  intro running w
  apply Fallible.Ensures.bind
  apply Fallible.Ensures.mapError
  unfold Listeners.stage
  split
  · rename_i address twice
    rw [once] at twice
    cases twice
  · apply Fallible.Ensures.bindLift
    intro here w
    apply Fallible.Ensures.bind
    refine (ensures_getSockets rely here _ ∅ w).weaken ?_ fun _ _ held => held
    intro bound w _
    exact .pure fun _ _ => .pure fun _ _ => True.intro

/-! ## Requests -/

theorem pool_is_found {http : Http} (conn : ConnInfo) (request : RequestHead http)
    {env : World → World → Prop}
    (kept : ∀ w w', env w w' → w.node.routing.Complete → w'.node.routing.Complete)
    {w w' : World} (complete : w.node.routing.Complete) {decision : Decision}
    (steps : Program.Steps env (handle conn request, w) (.ret decision, w'))
    (route : CompiledRoute) : decision ≠ .poolNotFound route := by
  have ensured := handle_ensures conn request (fun _ => True) Routing.Complete (fun _ => True)
    (w := w) ⟨True.intro, complete, True.intro⟩
  have stays : ∀ w w', env w w' → (Rely.within fun w : World => True ∧
      w.node.routing.Complete ∧ True).may w w' :=
    fun w w' moved held => ⟨True.intro, kept w w' moved held.2.1, True.intro⟩
  obtain ⟨certificates, routing, listener, _, complete, _, rfl⟩ := ensured.sound stays steps
  unfold decisionOf
  split
  · simp
  · split
    · exact complete.routed_ne_poolNotFound listener _ _ route
    · simp

/-- Whatever else the node does while a config is prepared: if it is accepted, the snapshot made
    of it is complete, so no request finds its pool missing, however it is placed among the
    configs that follow, and its listeners are staged without an address being named twice. -/
theorem accepted_config_is_complete (crates : Crates) (config : DynamicConfig)
    {env : World → World → Prop} {w w' : World} {prepared : Prepared}
    (accepted : Program.Steps env (ExceptT.run (prepare crates config), w)
      (.ret (.ok prepared), w')) :
    (⟨prepared.routes, prepared.pools⟩ : Routing).Complete ∧
    (∀ (http : Http) (conn : ConnInfo) (request : RequestHead http) (env : World → World → Prop)
      (v v' : World) (decision : Decision),
      (∀ u u', env u u' → u.node.routing.Complete → u'.node.routing.Complete) →
      v.node.routing = ⟨prepared.routes, prepared.pools⟩ →
      Program.Steps env (handle conn request, v) (.ret decision, v') →
      ∀ route, decision ≠ .poolNotFound route) ∧
    ∀ (env : World → World → Prop) (v v' : World) (error : BindError),
      Program.Steps env (ExceptT.run (Edge.stage config.listeners), v) (.ret (.error error), v') →
      ∀ address, error.error ≠ .namedTwice address := by
  have any : ∀ env : World → World → Prop, ∀ w w', env w w' →
      (Rely.within fun _ : World => True).may w w' := fun _ _ _ _ held => held
  obtain ⟨passes, complete⟩ :=
    (ensures_prepare (.within fun _ => True) crates config w).sound (any env) accepted
  refine ⟨complete, ?_, ?_⟩
  · intro http conn request env v v' decision kept serving steps
    exact pool_is_found conn request kept (serving ▸ complete) steps
  · intro env v v' error steps
    exact (ensures_edgeStage (.within fun _ => True) (nodup_socketAddr_of_validate passes) v).sound
      (any env) steps

/-- A route that forwards to a pool with a ring. -/
def hashedPool : DynamicConfig where
  certificates := []
  listeners := [.loopback ['l'] 80]
  routes := [⟨⟨['r']⟩, ⟨['l']⟩, ['*'], ['/'], .forward ['p']⟩]
  pools := [⟨⟨['p']⟩, .http, .ringHash, [⟨['x'], 80, 1⟩], none, none, none⟩]

theorem hashed_pool_is_complete :
    ∃ prepared w', Program.Steps (fun _ _ => False)
        (ExceptT.run (prepare (.indexed []) hashedPool),
          World.starting (.small [] (.error .notFound) []) ∅) (.ret (.ok prepared), w') ∧
      (⟨prepared.routes, prepared.pools⟩ : Routing).Complete := by
  have ok : (Fallible.exec (prepare (.indexed []) hashedPool)
      (World.starting (.small [] (.error .notFound) []) ∅)).1.isOk = true := by
    decide +kernel
  have run := Program.steps_run (fun _ _ => False) (ExceptT.run (prepare (.indexed []) hashedPool))
    (World.starting (.small [] (.error .notFound) []) ∅)
  cases result : (Program.run (ExceptT.run (prepare (.indexed []) hashedPool))
      (World.starting (.small [] (.error .notFound) []) ∅)).1 with
  | error error =>
    rw [Fallible.exec, result] at ok
    cases ok
  | ok prepared =>
    rw [result] at run
    exact ⟨prepared, _, run, (accepted_config_is_complete _ _ run).1⟩

end Gfe
