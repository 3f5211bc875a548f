import Gfe.Reload.Startup

/-! # A rejected reload changes nothing that is served

Everything a reload does before it can no longer fail leaves the service alone:
certificates, routes and pools, sockets with what is attached to them, probe
loops and the cache stay as they are, and the health map only gains unknown
backends. The files may change at any moment meanwhile.
-/

namespace Gfe

open Interleaving

variable {w w' : World}

/-- The service as it was: all a rejected reload may add is unknown backends. -/
structure SameService (before after : World) : Prop where
  resolver : after.node.resolver = before.node.resolver
  routing : after.node.routing = before.node.routing
  listeners : after.node.listeners = before.node.listeners
  addresses : after.node.addresses = before.node.addresses
  checker : after.node.checker = before.node.checker
  cache : after.host.cache = before.host.cache
  health : before.node.health.Grows after.node.health

namespace SameService

theorem refl (w : World) : SameService w w :=
  ⟨rfl, rfl, rfl, rfl, rfl, rfl, .refl _⟩

theorem trans {first second third : World} (one : SameService first second)
    (two : SameService second third) : SameService first third where
  resolver := two.resolver.trans one.resolver
  routing := two.routing.trans one.routing
  listeners := two.listeners.trans one.listeners
  addresses := two.addresses.trans one.addresses
  checker := two.checker.trans one.checker
  cache := two.cache.trans one.cache
  health := one.health.trans two.health

end SameService

/-- While a reload runs, others leave the node and its cache alone. -/
def outside : Rely World := .keeping fun w => (w.node, w.host.cache)

theorem outside_node (moved : outside.may w w') : w'.node = w.node :=
  congrArg Prod.fst (show (w'.node, w'.host.cache) = (w.node, w.host.cache) from moved)

theorem outside_cache (moved : outside.may w w') : w'.host.cache = w.host.cache :=
  congrArg Prod.snd (show (w'.node, w'.host.cache) = (w.node, w.host.cache) from moved)

theorem outside_sameService (moved : outside.may w w') : SameService w w' := by
  have node := outside_node moved
  refine ⟨?_, ?_, ?_, ?_, ?_, outside_cache moved, ?_⟩
  all_goals rw [node]
  exact .refl _

section Keeping

/-- The service is that of `before`, whose adopted sockets are settled. -/
def Serves (before : World) (w : World) : Prop :=
  SameService before w ∧ before.node.listeners.adopted = ∅

variable {before : World}

theorem stable_serves : outside.Stable (Serves before) := by
  intro w w' moved held
  exact ⟨held.1.trans (outside_sameService moved), held.2⟩

/-- Nothing before the swap touches the service: with no adopted sockets left
    there is none to take, and a backend that is entered is unknown. -/
theorem serves_of_tentative (moved : Tentative w w') (held : Serves before w) :
    Serves before w' := by
  obtain ⟨same, settled⟩ := held
  refine ⟨?_, settled⟩
  cases moved with
  | load | remember => exact same.trans ⟨rfl, rfl, rfl, rfl, rfl, rfl, .refl _⟩
  | prepare prepared =>
    cases prepared with
    | idle => exact same
    | enter key =>
      exact same.trans ⟨rfl, rfl, rfl, rfl, rfl, rfl, HealthMap.handle_grows w.node.health key⟩
  | stage staged =>
    cases staged with
    | idle => exact same
    | take address =>
      have listeners := Listeners.erase_adopted_of_settled
        (show w.node.listeners.adopted = ∅ by rw [same.listeners, settled]) address
      exact same.trans ⟨rfl, rfl, listeners, rfl, rfl, rfl, .refl _⟩
    | bind => exact same.trans ⟨rfl, rfl, rfl, rfl, rfl, rfl, .refl _⟩

theorem serves_of_reporting (moved : Reporting w w') (held : Serves before w) :
    Serves before w' := by
  refine ⟨held.1.trans ?_, held.2⟩
  cases moved <;> exact ⟨rfl, rfl, rfl, rfl, rfl, rfl, .refl _⟩

theorem serves_of_polling (moved : Polling w w') (held : Serves before w) :
    Serves before w' := by
  cases moved with
  | idle => exact held
  | accept files => exact ⟨held.1.trans ⟨rfl, rfl, rfl, rfl, rfl, rfl, .refl _⟩, held.2⟩
  | report reported => exact serves_of_reporting reported held

theorem ensures_logLine (line : LogLine) (w : World) :
    (logLine line).Ensures outside (fun _ w => w.node.log.head? = some line) w := by
  apply Program.Ensures.write
  intro t u _ moved
  rw [outside_node moved]
  rfl

def KeptIfRejected (before w : World) : Prop :=
  ∀ error, w.node.log.head? = some (.rejected error) → Serves before w

theorem kept_reloadLocked (crates : Crates) (settings : NodeConfig) {w : World}
    (held : Serves before w) :
    (reloadLocked crates settings).Ensures outside (fun _ => KeptIfRejected before) w := by
  apply Program.Ensures.bind
  refine Program.Ensures.weaken (ensures_applyDeployed crates settings stable_serves
    (fun _ _ => serves_of_tentative) (fun _ _ => True)
    (fun _ prepared staged w _ _ => Program.Ensures.trivial _ w) held) ?_
  rintro (error | config) w ended
  · -- the counters and the log are not part of the service
    refine Program.Ensures.weaken (moves_report.keeps stable_serves
      (fun _ _ => serves_of_reporting) w ended) ?_
    exact fun _ w held _ _ => held
  · apply Program.Ensures.bind
    refine (Program.Ensures.trivial _ w).weaken fun _ w _ => ?_
    apply Program.Ensures.bind
    refine (Program.Ensures.trivial _ w).weaken fun _ w _ => ?_
    apply Program.Ensures.bind
    refine (Program.Ensures.trivial _ w).weaken fun _ w _ => ?_
    refine (ensures_logLine .hotReloaded w).weaken fun _ w accepted error rejected => ?_
    rw [accepted] at rejected
    cases rejected

end Keeping

/-- A reload of a running node that ends in a rejection, whatever triggered it,
    whatever was wrong and however the files changed meanwhile, leaves the
    service as it was; the health map only gains unknown backends, and no
    backend's status reads differently. -/
theorem rejected_reload_keeps_service (crates : Crates) (settings : NodeConfig)
    (job : Program World Unit)
    (triggered : job = reload crates settings ∨ job = reloadIfCertificatesChanged crates settings)
    (others : World → World → Prop)
    (outsiders : ∀ w w', others w w' → w'.node = w.node ∧ w'.host.cache = w.host.cache)
    (before after : World) (settled : before.node.listeners.adopted = ∅)
    (run : Program.Steps others (job, before) (.ret (), after)) (error : ReloadError)
    (rejected : after.node.log.head? = some (.rejected error)) :
    SameService before after ∧
      ∀ key, after.node.health.get key = before.node.health.get key := by
  have allowed : ∀ w w', others w w' → outside.may w w' := by
    intro w w' moved
    obtain ⟨node, cache⟩ := outsiders w w' moved
    exact Prod.ext node cache
  have start : Serves before before := ⟨.refl before, settled⟩
  have ensured : job.Ensures outside (fun _ => KeptIfRejected before) before := by
    have idle : ∀ w, Serves before w → KeptIfRejected before w := fun _ held _ _ => held
    rcases triggered with rfl | rfl
    · exact ensures_reload crates settings stable_serves idle
        (fun _ => kept_reloadLocked crates settings) start
    · exact ensures_poll crates settings stable_serves stable_serves
        (fun files _ => serves_of_polling (.accept files))
        (fun _ => serves_of_polling (.report (.log _))) idle
        (fun _ => kept_reloadLocked crates settings) start
  have same := (ensured.sound allowed run error rejected).1
  exact ⟨same, fun key => same.health.get_eq key⟩

/-- Another backend, and two listeners more. -/
def grown : DynamicConfig :=
  { poolOn ['y'] with
    listeners := [.loopback ['l'] 80, .loopback ['m'] 81, .loopback ['n'] 82] }

/-- A node that serves and probes one backend and has cached its config, on a host where
    another process has port 82. -/
def crowded : World :=
  beginChecks (.small (some ⟨['k']⟩)) (poolOn ['x'])
    (Fallible.exec (applyInitial (.indexed [poolOn ['x'], grown]) (.small (some ⟨['k']⟩)))
      (World.starting { deployed 0 with
        bindError := fun address => if address.port = 82 then some .addrInUse else none } ∅)).2

/-- The new config binds port 81, then fails at port 82. -/
theorem rejected_reload_at_second_bind :
    let before := { crowded with host := { crowded.host with file := (deployed 1).file } }
    let after := ((reload (.indexed [poolOn ['x'], grown]) (.small (some ⟨['k']⟩))).run before).2
    before.host.cache = .ok [0] ∧ before.node.checker.taskOf (['x'], 80) = some 0 ∧
      (before.node.listeners.attached 0).isSome ∧ after.host.nextSocket = before.host.nextSocket + 1 ∧
      ∃ added, after.node.log.head? =
          some (.rejected (.bind ⟨.binding ⟨.v4 0x7f000001, 82⟩ .addrInUse, added⟩)) ∧
        SameService before after := by
  intro before after
  have rejected : after.node.log.head? = some (.rejected (.bind _)) := rfl
  have same := rejected_reload_keeps_service _ _ _ (.inl rfl) (fun _ _ => False)
    (fun _ _ none => none.elim) before after rfl (Program.steps_run _ _ _) _ rejected
  exact ⟨rfl, by decide +kernel, by decide +kernel, by decide +kernel, _, rejected, same.1⟩

end Gfe
