import Gfe.Handler.Host
import Gfe.Lib.Parallel
import Gfe.Reload.Apply

/-! # Deciding a request while a reload swaps the config

A request reads three things one after the other: the certificate store, the
routing snapshot, and the listener its connection was accepted on. A reload
writes them one after the other. The decision can be the one of any mixture of
old and new; when all the mixtures agree with the old or the new config is
worked out exactly.
-/

namespace Gfe

open Interleaving

variable {http : Http}

/-- What becomes of a request, up to handing it to a pool. -/
inductive Decision where
  | hostRefused (error : HostError)
  | noRoute
  | poolNotFound (route : CompiledRoute)
  /-- A redirect or a fixed answer. -/
  | answered (route : CompiledRoute)
  | forwarded (route : CompiledRoute) (pool : Pool Scheme)
  deriving DecidableEq

/-- A connection: the cell of the listener it was accepted on, and its SNI. -/
structure ConnInfo where
  listener : CellId
  sni : Option Str

def routed (routing : Routing) (listener : Option Listener) (host path : Str) : Decision :=
  match listener.bind fun listener => routing.routes.matchRequest listener.id host path with
  | none => .noRoute
  | some route =>
    match route.action with
    | .forward pool =>
      match routing.pools.get pool with
      | some pool => .forwarded route pool
      | none => .poolNotFound route
    | _ => .answered route

/-- `route`: the snapshot is loaded first, the listener's id after it. -/
def routeRequest (conn : ConnInfo) (host path : Str) : Program World Decision := do
  let routing ← readNode Node.routing
  let listener ← readNode fun n => n.listeners.attached conn.listener
  return routed routing listener host path

/-- The first half of `Proxy::handle`: the host of a request, if the connection
    may be used for it. -/
def checkHost {http : Http} (conn : ConnInfo) (request : RequestHead http) :
    Program World (Except HostError Str) :=
  match requestHost request.uri request.headers request.version conn.sni with
  | .error error => pure (.error error)
  | .ok host =>
    match conn.sni with
    | none => pure (.ok host)
    | some sni => do
      let certificates ← readNode Node.resolver
      return coveredBySni (some sni) host certificates

/-- `Proxy::handle`, up to the decision. -/
def handle {http : Http} (conn : ConnInfo) (request : RequestHead http) :
    Program World Decision := do
  match ← checkHost conn request with
  | .error error => return .hostRefused error
  | .ok host => routeRequest conn host request.uri.path

/-! ## What a request reads -/

/-- The three things, as they are at one moment. -/
structure Sight where
  certificates : CertStore
  routing : Routing
  listener : Option Listener

def World.sight (w : World) (conn : ConnInfo) : Sight :=
  ⟨w.node.resolver, w.node.routing, w.node.listeners.attached conn.listener⟩

/-- Whether the host rules let a request through, by one certificate store. -/
def admits (sni : Option Str) (host : Str) (certificates : CertStore) : Bool :=
  match coveredBySni sni host certificates with
  | .ok _ => true
  | .error _ => false

/-- The decision when the three reads find these. -/
def decisionOf {http : Http} (conn : ConnInfo) (request : RequestHead http)
    (certificates : CertStore) (routing : Routing) (listener : Option Listener) : Decision :=
  match requestHost request.uri request.headers request.version conn.sni with
  | .error error => .hostRefused error
  | .ok host =>
    if admits conn.sni host certificates then routed routing listener host request.uri.path
    else .hostRefused (.misdirected host)

theorem coveredBySni_eq (sni : Option Str) (host : Str) (certificates : CertStore) :
    coveredBySni sni host certificates =
      if admits sni host certificates then .ok host else .error (.misdirected host) := by
  unfold admits coveredBySni
  cases sni with
  | none => rfl
  | some sni => by_cases refused : (!Text.eqIgnoreAsciiCase sni host &&
      !certificates.sameCertificate sni host) = true <;> simp [refused]

theorem checkHost_readOnly (conn : ConnInfo) (request : RequestHead http) :
    (checkHost conn request).ReadOnly := by
  unfold checkHost
  cases requestHost request.uri request.headers request.version conn.sni with
  | error error => exact .ret _
  | ok host =>
    cases conn.sni with
    | none => exact .ret _
    | some sni => exact .bind (readOnly_readNode _) fun _ => .ret _

theorem handle_readOnly (conn : ConnInfo) (request : RequestHead http) :
    (handle conn request).ReadOnly := by
  refine .bind (checkHost_readOnly conn request) ?_
  rintro (error | host)
  · exact .ret _
  · exact .bind (readOnly_readNode _) fun _ => .bind (readOnly_readNode _) fun _ => .ret _

/-- Whatever the reads find, the decision is the one of what they found. -/
theorem handle_ensures (conn : ConnInfo) (request : RequestHead http)
    (certificates : CertStore → Prop) (routing : Routing → Prop)
    (listener : Option Listener → Prop) {w : World}
    (held : certificates w.node.resolver ∧ routing w.node.routing ∧
      listener (w.node.listeners.attached conn.listener)) :
    (handle conn request).Ensures (.within fun w => certificates w.node.resolver ∧
        routing w.node.routing ∧ listener (w.node.listeners.attached conn.listener))
      (fun decision _ => ∃ c r l, certificates c ∧ routing r ∧ listener l ∧
        decision = decisionOf conn request c r l) w := by
  set inv : World → Prop := fun w => certificates w.node.resolver ∧ routing w.node.routing ∧
    listener (w.node.listeners.attached conn.listener)
  have route : ∀ host c (w : World), certificates c → inv w →
      requestHost request.uri request.headers request.version conn.sni = .ok host →
      admits conn.sni host c = true →
      (routeRequest conn host request.uri.path).Ensures (.within inv)
        (fun decision _ => ∃ c r l, certificates c ∧ routing r ∧ listener l ∧
          decision = decisionOf conn request c r l) w := by
    intro host c w known held named admitted
    apply Program.Ensures.bind
    apply Program.Ensures.read
    intro x y toX toY
    have atX : inv x := toX held
    apply Program.Ensures.bind
    apply Program.Ensures.read
    intro z u toZ _
    have atZ : inv z := toZ (toY atX)
    refine Program.Ensures.ret fun _ _ => ⟨c, _, _, known, atX.2.1, atZ.2.2, ?_⟩
    simp [decisionOf, named, admitted]
  unfold handle checkHost
  cases named : requestHost request.uri request.headers request.version conn.sni with
  | error error =>
    exact Program.Ensures.ret fun _ _ => ⟨_, _, _, held.1, held.2.1, held.2.2, by
      simp [decisionOf, named]⟩
  | ok host =>
    cases sni : conn.sni with
    | none =>
      apply route host _ w held.1 held named
      simp [admits, coveredBySni, sni]
    | some name =>
      apply Program.Ensures.bind
      apply Program.Ensures.read
      intro x y toX toY
      have atX : inv x := toX held
      rw [← sni, coveredBySni_eq]
      by_cases admitted : admits conn.sni host x.node.resolver = true
      · rw [if_pos admitted]
        exact route host _ y atX.1 (toY atX) named admitted
      · rw [if_neg admitted]
        exact Program.Ensures.ret fun _ _ => ⟨_, _, _, atX.1, atX.2.1, atX.2.2, by
          simp [decisionOf, named, admitted]⟩

/-- The reads can be placed at any three points of the reload, in order. -/
theorem handle_reaches (conn : ConnInfo) (request : RequestHead http)
    {q qx qy qz : Program World Unit} {w x y z : World}
    (first : Program.Alone (q, w) (qx, x)) (second : Program.Alone (qx, x) (qy, y))
    (third : Program.Alone (qy, y) (qz, z)) :
    ∃ rest w', Together (handle conn request, q, w)
      (.ret (decisionOf conn request (x.sight conn).certificates (y.sight conn).routing
        (z.sight conn).listener), rest, w') := by
  have route : ∀ host, requestHost request.uri request.headers request.version conn.sni = .ok host →
      admits conn.sni host x.node.resolver = true →
      Together (routeRequest conn host request.uri.path, qx, x)
        (.ret (decisionOf conn request x.node.resolver y.node.routing
          (z.node.listeners.attached conn.listener)), qz, z) := by
    intro host named admitted
    have decided : decisionOf conn request x.node.resolver y.node.routing
        (z.node.listeners.attached conn.listener) =
        routed y.node.routing (z.node.listeners.attached conn.listener) host request.uri.path := by
      simp [decisionOf, named, admitted]
    rw [decided]
    exact (Together.read _ _ second).trans (Together.read _ _ third)
  unfold handle checkHost
  cases named : requestHost request.uri request.headers request.version conn.sni with
  | error error =>
    refine ⟨q, w, ?_⟩
    simp only [decisionOf, named]
    exact .refl
  | ok host =>
    cases sni : conn.sni with
    | none =>
      refine ⟨qz, z, (Together.right _ first).trans (route host named ?_)⟩
      simp [admits, coveredBySni, sni]
    | some name =>
      by_cases admitted : admits conn.sni host x.node.resolver = true
      · refine ⟨qz, z, (Together.read _ _ first).trans ?_⟩
        rw [← sni, coveredBySni_eq, if_pos admitted]
        exact route host named admitted
      · refine ⟨qx, x, (Together.read _ _ first).trans ?_⟩
        rw [← sni, coveredBySni_eq, if_neg admitted]
        have decided : decisionOf conn request (x.sight conn).certificates
            (y.sight conn).routing (z.sight conn).listener =
            .hostRefused (.misdirected host) := by
          simp only [decisionOf, named]
          exact if_neg admitted
        rw [decided]
        exact .refl

/-! ## What a reload writes -/

theorem placeAll_other (bound : HashMap SocketAddr SocketId)
    (desired : List (SocketAddr × Listener)) (conn : ConnInfo) {address : SocketAddr}
    (absent : address ∉ desired.map Prod.fst) (w : World) {running : RunningListener}
    (found : w.node.listeners.running.lookup address = some running)
    (own : running.cell = conn.listener) :
    (Listeners.placeAll bound desired).Always (fun w' => w'.sight conn = w.sight conn) w := by
  induction desired generalizing w with
  | nil => exact (rfl : w.sight conn = w.sight conn)
  | cons head rest ih =>
    obtain ⟨other, listener⟩ := head
    obtain ⟨differ, absent⟩ := not_or.mp (List.mem_cons.not.mp absent)
    obtain ⟨kept, same⟩ := w.node.listeners.place_other bound listener differ found
    have sight : (w.setNode fun n => { n with
        listeners := n.listeners.place bound other listener }).sight conn = w.sight conn := by
      rw [own] at same
      simp only [World.sight, World.setNode_node, same]
    apply Program.Always.bind
    · exact .write rfl sight
    · exact (ih absent _ kept).weaken fun w' held => held.trans sight

theorem placeAll_always (bound : HashMap SocketAddr SocketId)
    (desired : List (SocketAddr × Listener)) (nodup : (desired.map Prod.fst).Nodup)
    (conn : ConnInfo) (w : World) :
    (Listeners.placeAll bound desired).Always (fun w' => w'.sight conn = w.sight conn ∨
      w'.sight conn = ((Listeners.placeAll bound desired).run w).2.sight conn) w := by
  induction desired generalizing w with
  | nil => exact .inl (rfl : w.sight conn = w.sight conn)
  | cons head rest ih =>
    obtain ⟨address, listener⟩ := head
    obtain ⟨absent, nodup⟩ := List.nodup_cons.mp nodup
    set placed := w.setNode fun n => { n with
      listeners := n.listeners.place bound address listener }
    have run : (Listeners.placeAll bound ((address, listener) :: rest)).run w =
        (Listeners.placeAll bound rest).run placed := rfl
    rw [run]
    rcases w.node.listeners.attached_place bound address listener conn.listener with
      same | ⟨running, found, own⟩
    · have sight : placed.sight conn = w.sight conn := by
        simp only [World.sight, placed, World.setNode_node, same]
      apply Program.Always.bind
      · exact .write (.inl rfl) (.inl sight)
      · exact (ih nodup placed).weaken fun w' held => held.imp_left fun same => same.trans sight
    · -- this was the one change; the rest leaves it
      have rest := placeAll_other bound rest conn absent placed found own
      apply Program.Always.bind
      · exact .write (.inl rfl) (.inr rest.run.symm)
      · exact rest.weaken fun w' held => .inr (held.trans rest.run.symm)

/-- Bringing the listeners up to date changes what a connection sees at most
    once, and neither certificates nor routing. -/
theorem commit_always (staged : EdgeStaged) (conn : ConnInfo) (w : World) :
    (Edge.commit staged).Always (fun w' => w'.sight conn = w.sight conn ∨
      w'.sight conn = ((Edge.commit staged).run w).2.sight conn) w := by
  set retained := w.setNode fun n => { n with
    listeners := n.listeners.retainNamed staged.inner.desired }
  set placed := ((Listeners.placeAll staged.inner.bound staged.inner.desired).run retained).2
  have committed : ((Listeners.commit staged.inner).run w).2.sight conn = placed.sight conn := by
    simp only [Listeners.commit, Program.run_bind]
    rfl
  have final : ((Edge.commit staged).run w).2.sight conn = placed.sight conn := by
    simp only [Edge.commit, Program.run_bind]
    exact committed
  rw [final]
  apply Program.Always.bind
  · apply Program.Always.bind
    · exact .write (.inl rfl) (.inl rfl)
    apply Program.Always.bind
    · exact placeAll_always staged.inner.bound staged.inner.desired staged.inner.nodup conn retained
    · exact .write (.inr rfl) (.inr rfl)
  · exact .write (.inr committed) (.inr committed)

theorem placeAll_keeps (bound : HashMap SocketAddr SocketId)
    (desired : List (SocketAddr × Listener)) (w : World) :
    ((Listeners.placeAll bound desired).run w).2.node.resolver = w.node.resolver ∧
      ((Listeners.placeAll bound desired).run w).2.node.routing = w.node.routing := by
  induction desired generalizing w with
  | nil => exact ⟨rfl, rfl⟩
  | cons head rest ih => exact ih _

theorem swapIn_swapped (prepared : Prepared) (staged : EdgeStaged) (w : World) :
    ((swapIn prepared staged).run w).2.node.resolver = prepared.certificates ∧
      ((swapIn prepared staged).run w).2.node.routing = ⟨prepared.routes, prepared.pools⟩ := by
  simp only [swapIn, Edge.commit, Listeners.commit, Program.run_bind]
  exact placeAll_keeps staged.inner.bound staged.inner.desired _

def Between (old new seen : Sight) : Prop :=
  (seen.certificates = old.certificates ∨ seen.certificates = new.certificates) ∧
    (seen.routing = old.routing ∨ seen.routing = new.routing) ∧
    (seen.listener = old.listener ∨ seen.listener = new.listener)

theorem swapIn_always (prepared : Prepared) (staged : EdgeStaged) (conn : ConnInfo) (w : World) :
    (swapIn prepared staged).Always (fun w' => Between (w.sight conn)
      (((swapIn prepared staged).run w).2.sight conn) (w'.sight conn)) w := by
  obtain ⟨certificates, routing⟩ := swapIn_swapped prepared staged w
  set final := ((swapIn prepared staged).run w).2 with finalDef
  set installed := ((install prepared).run w).2 with installedDef
  have committed : ((Edge.commit staged).run installed).2 = final := rfl
  have first : Between (w.sight conn) (final.sight conn) (installed.sight conn) :=
    ⟨.inr certificates.symm, .inr routing.symm, .inl rfl⟩
  apply Program.Always.bind
  · -- the two swaps, and what no request reads
    refine ⟨⟨.inl rfl, .inl rfl, .inl rfl⟩, ⟨.inl rfl, .inl rfl, .inl rfl⟩,
      ⟨.inr certificates.symm, .inl rfl, .inl rfl⟩, first, first, first⟩
  · refine (commit_always staged conn installed).weaken ?_
    rintro w' (seen | seen)
    · rw [seen]
      exact first
    · rw [seen, committed]
      exact ⟨.inr rfl, .inr rfl, .inr rfl⟩

theorem swapIn_moments (prepared : Prepared) (staged : EdgeStaged) (conn : ConnInfo) (w : World) :
    ∃ q₁ q₂ w₁ w₂,
      Program.Alone (swapIn prepared staged, w) (q₁, w₁) ∧ Program.Alone (q₁, w₁) (q₂, w₂) ∧
      Program.Alone (q₂, w₂) (.ret (), ((swapIn prepared staged).run w).2) ∧
      w₁.sight conn = ⟨(((swapIn prepared staged).run w).2.sight conn).certificates,
        (w.sight conn).routing, (w.sight conn).listener⟩ ∧
      w₂.sight conn = ⟨(((swapIn prepared staged).run w).2.sight conn).certificates,
        (((swapIn prepared staged).run w).2.sight conn).routing, (w.sight conn).listener⟩ := by
  obtain ⟨certificates, routing⟩ := swapIn_swapped prepared staged w
  refine ⟨_, _, _, _, .tail (.single (.act _ _ _)) (.act _ _ _), .single (.act _ _ _),
    Program.steps_run _ _ _, ?_, ?_⟩
  · simp only [World.sight, certificates]
    rfl
  · simp only [World.sight, certificates, routing]
    rfl

/-! ## Which decisions there are -/

theorem handle_run (conn : ConnInfo) (request : RequestHead http) (w : World) :
    ((handle conn request).run w).1 = decisionOf conn request (w.sight conn).certificates
      (w.sight conn).routing (w.sight conn).listener := by
  obtain ⟨c, r, l, rfl, rfl, rfl, decided⟩ := (handle_ensures conn request
    (· = w.node.resolver) (· = w.node.routing) (· = w.node.listeners.attached conn.listener)
    ⟨rfl, rfl, rfl⟩).run
  exact decided

/-- A request beside a reload can be decided by every mixture of old and new,
    and in no other way. -/
theorem decided_iff (prepared : Prepared) (staged : EdgeStaged) (conn : ConnInfo)
    (request : RequestHead http) (w : World) (decision : Decision) :
    (∃ rest w', Together (handle conn request, swapIn prepared staged, w)
        (.ret decision, rest, w')) ↔
      ∃ seen, Between (w.sight conn) (((swapIn prepared staged).run w).2.sight conn) seen ∧
        decision = decisionOf conn request seen.certificates seen.routing seen.listener := by
  constructor
  · rintro ⟨rest, w', steps⟩
    set old := w.sight conn
    set new := ((swapIn prepared staged).run w).2.sight conn
    obtain ⟨c, r, l, certificates, routing, listener, decided⟩ :=
      Together.sound (handle_readOnly conn request) (swapIn_always prepared staged conn w)
        (handle_ensures conn request
          (fun c => c = old.certificates ∨ c = new.certificates)
          (fun r => r = old.routing ∨ r = new.routing)
          (fun l => l = old.listener ∨ l = new.listener) ⟨.inl rfl, .inl rfl, .inl rfl⟩) steps
    exact ⟨⟨c, r, l⟩, ⟨certificates, routing, listener⟩, decided⟩
  · rintro ⟨⟨c, r, l⟩, ⟨certificates, routing, listener⟩, rfl⟩
    obtain ⟨q₁, q₂, w₁, w₂, first, second, third, sight₁, sight₂⟩ :=
      swapIn_moments prepared staged conn w
    have both := first.trans second
    -- the certificates are read before the first swap or after it, the routing
    -- before the second or after it, the listener right then or at the end
    rcases certificates with rfl | rfl <;> rcases routing with rfl | rfl <;>
      rcases listener with rfl | rfl
    · exact handle_reaches conn request .refl .refl .refl
    · exact handle_reaches conn request .refl .refl (both.trans third)
    · simpa only [sight₂] using handle_reaches conn request .refl both .refl
    · simpa only [sight₂] using handle_reaches conn request .refl both third
    · simpa only [sight₁] using handle_reaches conn request first .refl .refl
    · simpa only [sight₁] using handle_reaches conn request first .refl (second.trans third)
    · simpa only [sight₁, sight₂] using handle_reaches conn request first second .refl
    · simpa only [sight₁, sight₂] using handle_reaches conn request first second third

/-- No mixture of old and new decides differently from both: the host rules
    settle it, or the routing of one config finds by the listener of the other
    what one of the two finds by its own. -/
def Undivided {http : Http} (conn : ConnInfo) (request : RequestHead http) (old new : Sight) :
    Prop :=
  match requestHost request.uri request.headers request.version conn.sni with
  | .error _ => True
  | .ok host =>
    let find (routing : Routing) (listener : Option Listener) : Decision :=
      routed routing listener host request.uri.path
    match admits conn.sni host old.certificates, admits conn.sni host new.certificates with
    | false, false => True
    | true, true =>
      (find old.routing new.listener = find old.routing old.listener ∨
        find old.routing new.listener = find new.routing new.listener) ∧
      (find new.routing old.listener = find old.routing old.listener ∨
        find new.routing old.listener = find new.routing new.listener)
    | _, _ =>
      find old.routing new.listener = find old.routing old.listener ∧
      find new.routing old.listener = find old.routing old.listener ∧
      find new.routing new.listener = find old.routing old.listener

theorem routed_ne_hostRefused (routing : Routing) (listener : Option Listener) (host path : Str)
    (error : HostError) : routed routing listener host path ≠ .hostRefused error := by
  unfold routed
  split
  · exact Decision.noConfusion
  · split
    · split <;> exact Decision.noConfusion
    · exact Decision.noConfusion

/-- A request that is decided while a reload swaps its config in gets the
    decision of the old config or that of the new one, however the two are
    interleaved, exactly when the mixtures of the two are `Undivided`. -/
theorem decided_by_one_config_iff {http : Http} (prepared : Prepared) (staged : EdgeStaged)
    (conn : ConnInfo) (request : RequestHead http) (w : World) :
    (∀ decision rest w', Together (handle conn request, swapIn prepared staged, w)
        (.ret decision, rest, w') →
      decision = ((handle conn request).run w).1 ∨
        decision = ((handle conn request).run ((swapIn prepared staged).run w).2).1) ↔
      Undivided conn request (w.sight conn)
        (((swapIn prepared staged).run w).2.sight conn) := by
  set old := w.sight conn
  set new := ((swapIn prepared staged).run w).2.sight conn
  rw [handle_run, handle_run]
  have mixtures : (∀ decision rest w', Together (handle conn request, swapIn prepared staged, w)
        (.ret decision, rest, w') →
      decision = decisionOf conn request old.certificates old.routing old.listener ∨
        decision = decisionOf conn request new.certificates new.routing new.listener) ↔
      ∀ c ∈ [old.certificates, new.certificates], ∀ r ∈ [old.routing, new.routing],
        ∀ l ∈ [old.listener, new.listener],
          decisionOf conn request c r l =
              decisionOf conn request old.certificates old.routing old.listener ∨
            decisionOf conn request c r l =
              decisionOf conn request new.certificates new.routing new.listener := by
    simp only [List.mem_cons, List.not_mem_nil, or_false]
    constructor
    · intro all c certificates r routing l listener
      obtain ⟨rest, w', steps⟩ := (decided_iff prepared staged conn request w _).mpr
        ⟨⟨c, r, l⟩, ⟨certificates, routing, listener⟩, rfl⟩
      exact all _ rest w' steps
    · intro all decision rest w' steps
      obtain ⟨seen, between, rfl⟩ :=
        (decided_iff prepared staged conn request w decision).mp ⟨rest, w', steps⟩
      exact all _ between.1 _ between.2.1 _ between.2.2
  rw [mixtures]
  unfold Undivided
  cases named : requestHost request.uri request.headers request.version conn.sni with
  | error error => simp [decisionOf, named]
  | ok host =>
    have apart := fun routing listener error =>
      routed_ne_hostRefused routing listener host request.uri.path error
    have apart' := fun routing listener error => (apart routing listener error).symm
    cases before : admits conn.sni host old.certificates with
    | false =>
      cases after : admits conn.sni host new.certificates with
      | false => simp [decisionOf, named, before, after]
      | true =>
        simp [decisionOf, named, before, after, apart, apart']
        grind
    | true =>
      cases after : admits conn.sni host new.certificates with
      | false => simp [decisionOf, named, before, after, apart, apart']
      | true => simp [decisionOf, named, before, after]

/-- One listener on one address, with a route that answers every request. -/
def oneListener (id : Str) : DynamicConfig where
  certificates := []
  listeners := [.loopback id 80]
  routes := [⟨⟨['r']⟩, ⟨id⟩, ['*'], ['/'], .fixed ⟨200, []⟩⟩]
  pools := []

def hostRequest : RequestHead .plain where
  uri := ⟨none, ['/'], some ['/']⟩
  headers := [(hostHeader, [104])]
  version := .http11

/-- A config that only renames its listener is swapped in for one that answers
    the same request: by the new routing and the old name there is no route. -/
theorem renamed_listener_mixes :
    ∃ w prepared w₁ staged w₂ route route',
      Fallible.exec (apply (.indexed []) (oneListener ['a']))
        (World.starting (.small [] (.error .notFound) []) ∅) = (.ok (), w) ∧
      Fallible.exec (prepare (.indexed []) (oneListener ['b'])) w = (.ok prepared, w₁) ∧
      Fallible.exec (Edge.stage (oneListener ['b']).listeners) w₁ = (.ok staged, w₂) ∧
      ((handle ⟨0, none⟩ hostRequest).run w₂).1 = .answered route ∧
      ((handle ⟨0, none⟩ hostRequest).run ((swapIn prepared staged).run w₂).2).1 =
        .answered route' ∧
      ∃ rest w', Together (handle ⟨0, none⟩ hostRequest, swapIn prepared staged, w₂)
        (.ret .noRoute, rest, w') := by
  have stale : ∀ conn prepared staged (w : World),
      decisionOf conn hostRequest (w.sight conn).certificates
        (((swapIn prepared staged).run w).2.sight conn).routing (w.sight conn).listener =
        .noRoute →
      ∃ rest w', Together (handle conn hostRequest, swapIn prepared staged, w)
        (.ret .noRoute, rest, w') :=
    fun conn prepared staged w found => (decided_iff prepared staged conn hostRequest w _).mpr
      ⟨⟨(w.sight conn).certificates, (((swapIn prepared staged).run w).2.sight conn).routing,
        (w.sight conn).listener⟩, ⟨.inl rfl, .inr rfl, .inl rfl⟩, found.symm⟩
  refine ⟨_, _, _, _, _, _, _, rfl, rfl, rfl, rfl, rfl, stale _ _ _ _ ?_⟩
  rfl

end Gfe
