import Gfe.Reload.Handles

/-! # Backends that are forgotten

A reload that is accepted forgets the health of the backends it does not serve, and
stops their probe loops only later. A loop that records a status looks its handle up,
and looking up enters a backend that is not known. So a loop whose turn ends after its
backend was forgotten brings it back, and nothing takes it away again before the next
accepted reload. Without such a turn the map has served backends only.
-/

namespace Gfe

open Interleaving

/-- The map has served backends only. -/
def Pruned (w : World) : Prop :=
  ∀ key handle, w.node.health.entries.lookup key = some handle →
    key ∈ w.node.routing.pools.allBackends

/-- What goes on beside the control plane while no loop records a status of a backend that was
    forgotten: it is known, or it is served. -/
inductive Remembering (w : World) : World → Prop where
  | take {key : BackendKey} {task : Nat} : task < w.node.checker.nextTask →
      ((w.node.health.entries.lookup key).isSome ∨ key ∈ w.node.routing.pools.allBackends) →
      Remembering w (w.takes key task)
  | store (handle : HandleId) (status : HealthStatus) : Remembering w (w.stores handle status)
  | elsewhere {w' : World} : w'.node = w.node → Remembering w w'

/-- What such moves leave alone. -/
def besideForgotten : Rely World where
  may w w' := w'.node.routing = w.node.routing ∧ w'.node.log = w.node.log ∧ (Pruned w → Pruned w')
  refl _ := ⟨rfl, rfl, id⟩
  trans := by
    rintro u v w ⟨routing, log, pruned⟩ ⟨routing', log', pruned'⟩
    exact ⟨routing'.trans routing, log'.trans log, pruned' ∘ pruned⟩

section

variable {w w' : World}

theorem Pruned.of_same (pruned : Pruned w) (routing : w'.node.routing = w.node.routing)
    (entries : w'.node.health.entries = w.node.health.entries) : Pruned w' := by
  unfold Pruned
  rw [routing, entries]
  exact pruned

theorem HealthMap.known_handle {health : HealthMap} {key other : BackendKey} {handle : HandleId}
    (known : (health.handle key).2.entries.lookup other = some handle) :
    other = key ∨ health.entries.lookup other = some handle := by
  unfold HealthMap.handle at known
  split at known
  · exact .inr known
  · simp only [HealthMap.enter, HashMap.lookup_insert] at known
    split at known
    · exact .inl ‹_›
    · exact .inr known

theorem Remembering.beside (moved : Remembering w w') : besideForgotten.may w w' := by
  cases moved with
  | @take key task _ remembered =>
    refine ⟨rfl, rfl, ?_⟩
    intro pruned other handle known
    obtain rfl | before := HealthMap.known_handle known
    · obtain known | served := remembered
      · obtain ⟨handle, found⟩ := Option.isSome_iff_exists.mp known
        exact pruned other handle found
      · exact served
    · exact pruned other handle before
  | store handle status => exact ⟨rfl, rfl, fun pruned => pruned.of_same rfl rfl⟩
  | elsewhere same =>
    have kept : Pruned w → Pruned w' := fun pruned => pruned.of_same (by rw [same]) (by rw [same])
    exact ⟨by rw [same], by rw [same], kept⟩

theorem stable_pruned : besideForgotten.Stable Pruned := fun _ _ moved pruned => moved.2.2 pruned

theorem pruned_of_settling (moved : Settling w w') (pruned : Pruned w) : Pruned w' := by
  cases moved <;> exact pruned.of_same rfl rfl

theorem pruned_of_caching (moved : Caching w w') (pruned : Pruned w) : Pruned w' := by
  cases moved with
  | report reported => cases reported <;> exact pruned.of_same rfl rfl
  | _ => exact pruned.of_same rfl rfl

theorem Pruned.retain {pools : PoolSet Scheme} (served : w.node.routing.pools = pools) :
    Pruned (w.setNode fun n => { n with health := n.health.retain pools.allBackends }) := by
  intro key handle known
  have kept : Option.filter (fun _ => pools.allBackends.contains key)
      (w.node.health.entries.lookup key) = some handle :=
    (HashMap.lookup_retain (fun key _ => pools.allBackends.contains key) _ key).symm.trans known
  have inside := (Option.filter_eq_some_iff.mp kept).2
  rw [← served] at inside
  exact List.contains_iff_mem.mp inside

theorem ensures_swapInPruned (prepared : Prepared) (staged : EdgeStaged) (w : World) :
    (swapIn prepared staged).Ensures besideForgotten (fun _ => Pruned) w := by
  have anything : besideForgotten.Stable fun _ => True := fun _ _ _ held => held
  have routed : besideForgotten.Stable fun w => w.node.routing.pools = prepared.pools := by
    intro w w' moved held
    rw [moved.1]
    exact held
  apply Program.obeys_iff_ensures.mp
  apply obeys_swapIn prepared staged (steady_of_stable anything) (steady_of_stable anything)
    (steady_of_stable routed) (steady_of_stable stable_pruned)
  · exact fun _ _ => True.intro
  · exact fun _ _ => ⟨True.intro, True.intro⟩
  · exact fun _ _ => ⟨True.intro, rfl⟩
  · exact fun _ served => ⟨True.intro, .retain served⟩
  · exact fun _ _ moved pruned => ⟨True.intro, pruned_of_settling moved pruned⟩
  · exact True.intro

def PrunedIfAccepted (w : World) : Prop := w.node.log.head? = some .hotReloaded → Pruned w

theorem pruned_reloadLocked (crates : Crates) (settings : NodeConfig) (w : World) :
    (reloadLocked crates settings).Ensures besideForgotten (fun _ => PrunedIfAccepted) w := by
  have anything : besideForgotten.Stable fun _ => True := fun _ _ _ held => held
  have said : ∀ line w, (logLine line).Ensures besideForgotten
      (fun _ w => w.node.log.head? = some line) w := by
    intro line w
    apply Program.Ensures.write
    intro t u _ moved
    rw [moved.2.1]
    rfl
  apply Program.Ensures.bind
  refine Program.Ensures.weaken (ensures_applyDeployed crates settings anything
    (fun _ _ _ held => held) (fun _ => Pruned)
    (fun _ prepared staged w _ _ => ensures_swapInPruned prepared staged w) True.intro) ?_
  rintro (error | config) w ended
  · apply Program.Ensures.bindAny
    intro _ w
    apply Program.Ensures.bindAny
    intro _ w
    refine (said (.rejected error) w).weaken fun _ w rejected accepted => ?_
    rw [rejected] at accepted
    cases accepted
  · apply Program.Ensures.bind
    have reconciles : (reconcile settings config).Ensures besideForgotten (fun _ => Pruned) w := by
      apply Program.Ensures.write
      intro t u first second
      exact stable_pruned _ _ second ((stable_pruned _ _ first ended).of_same rfl rfl)
    refine reconciles.weaken fun _ w pruned => ?_
    refine Program.Ensures.weaken ((moves_conclude crates settings config).keeps stable_pruned
      (fun _ _ => pruned_of_caching) w pruned) ?_
    exact fun _ w pruned _ => pruned

end

/-- Once a reload is accepted and over, if no loop has recorded a status of a backend that was
    forgotten, the map has served backends only, and any other starts as unknown when it is
    entered again. -/
theorem accepted_reload_forgets (crates : Crates) (settings : NodeConfig) {before after : World}
    (run : Program.Steps Remembering (reloadLocked crates settings, before) (.ret (), after))
    (accepted : after.node.log.head? = some .hotReloaded) :
    Pruned after ∧ ∀ key, key ∉ after.node.routing.pools.allBackends →
      (after.node.health.handle key).2.get key = .unknown := by
  have promise := (pruned_reloadLocked crates settings before).sound
    (fun _ _ moved => Remembering.beside moved) run
  have pruned : Pruned after := promise accepted
  refine ⟨pruned, ?_⟩
  intro key unserved
  have unknown : after.node.health.entries.lookup key = none := by
    by_contra known
    obtain ⟨handle, found⟩ := Option.ne_none_iff_exists'.mp known
    exact unserved (pruned key handle found)
  simp [HealthMap.handle, unknown, HealthMap.enter, HealthMap.get]

theorem accepted_reload_forgets_replaced :
    Pruned ((reloadLocked twoPools (.small none)).run replaced).2 :=
  (accepted_reload_forgets twoPools (.small none) (Program.steps_run Remembering _ replaced)
    (by decide +kernel)).1

/-- A loop that runs records a status of its backend. -/
inductive Recording (w : World) : World → Prop where
  | record {key : BackendKey} {task : Nat} (status : HealthStatus) :
      w.node.checker.taskOf key = some task →
      Recording w ((w.takes key task).stores (w.node.health.handle key).1 status)

/-- The reload of that config, up to where it has forgotten the backend and not yet stopped its
    loop. -/
def forgetting : Program World Unit × World := (reloadLocked twoPools (.small none)).advance 9 replaced

/-- The loop's probe has passed, and its turn ends there. -/
def recorded : World :=
  (forgetting.2.takes (['x'], 80) 0).stores (forgetting.2.node.health.handle (['x'], 80)).1 .healthy

/-- The backend that was removed is known and healthy after the reload, with its loop stopped. -/
theorem forgotten_backend_comes_back :
    ∃ w, Program.Steps Recording (reloadLocked twoPools (.small none), replaced) (.ret (), w) ∧
      w.node.log.head? = some .hotReloaded ∧ (['x'], 80) ∉ w.node.routing.pools.allBackends ∧
      w.node.checker.taskOf (['x'], 80) = none ∧ w.node.health.get (['x'], 80) = .healthy := by
  have forgets := Program.steps_advance Recording 9 (reloadLocked twoPools (.small none)) replaced
  have records : Recording forgetting.2 recorded := .record .healthy (by decide +kernel)
  have run := (forgets.tail (.env records)).trans (Program.steps_run Recording forgetting.1 recorded)
  refine ⟨_, run, ?_⟩
  decide +kernel

end Gfe
