import Gfe.Reload.Accepted
import Gfe.Reload.Specs
import Gfe.Reload.Startup

/-! # What is served at every moment

A config that is accepted makes a complete snapshot, and only accepted ones are
swapped in. So the snapshot requests are routed by is complete from the start of
the node on, through every reload, whichever way it ends and whatever runs beside
it.
-/

namespace Gfe

open Interleaving

/-- What is served has the pool of every route. -/
abbrev Routable (w : World) : Prop := w.node.routing.Complete

/-- Nothing but a swap stores routes and pools. -/
def besideRouting : Rely World := .keeping fun w => w.node.routing

/-- A move that keeps the snapshot complete. -/
abbrev KeepsRoutable (w w' : World) : Prop := Routable w → Routable w'

theorem steady_routable : Program.Steady besideRouting Routable Routable :=
  ⟨Rely.stable_keeping, fun _ routable => routable⟩

/-! ## Moves beside the swap -/

section Moves

variable {w w' : World}

theorem routable_of_same (same : w'.node.routing = w.node.routing) (routable : Routable w) :
    KeepsRoutable w w' ∧ Routable w' := by
  have there : Routable w' := by
    unfold Routable
    rwa [same]
  exact ⟨fun _ => there, there⟩

theorem routing_of_tentative (moved : Tentative w w') : w'.node.routing = w.node.routing := by
  cases moved with
  | load => rfl
  | remember files => rfl
  | prepare prepared => cases prepared <;> rfl
  | stage staged => cases staged <;> rfl

theorem routing_of_settling (moved : Settling w w') : w'.node.routing = w.node.routing := by
  cases moved <;> rfl

theorem routing_of_caching (moved : Caching w w') : w'.node.routing = w.node.routing := by
  cases moved with
  | report reported => cases reported <;> rfl
  | _ => rfl

theorem routable_of_tentative (w w' : World) (moved : Tentative w w') (routable : Routable w) :
    KeepsRoutable w w' ∧ Routable w' :=
  routable_of_same (routing_of_tentative moved) routable

theorem routable_of_caching (w w' : World) (moved : Caching w w') (routable : Routable w) :
    KeepsRoutable w w' ∧ Routable w' :=
  routable_of_same (routing_of_caching moved) routable

end Moves

/-! ## Reloads -/

section Reloads

variable (crates : Crates) (settings : NodeConfig) {w : World}

/-- The snapshot a config is prepared to be served by. -/
abbrev Prepared.Ready (prepared : Prepared) : Prop :=
  (⟨prepared.routes, prepared.pools⟩ : Routing).Complete

theorem obeys_swapInServed {prepared : Prepared} (ready : prepared.Ready) (staged : EdgeStaged)
    (routable : Routable w) :
    (swapIn prepared staged).Obeys besideRouting KeepsRoutable Routable (fun _ => Routable) w := by
  apply obeys_swapIn prepared staged steady_routable steady_routable steady_routable steady_routable
  · exact fun _ _ held => held
  · exact fun w held => routable_of_same rfl held
  · exact fun w _ => ⟨fun _ => ready, ready⟩
  · exact fun w held => routable_of_same rfl held
  · exact fun w w' moved held => routable_of_same (routing_of_settling moved) held
  · exact routable

theorem obeys_prepareServed (config : DynamicConfig) (routable : Routable w) :
    Fallible.Obeys besideRouting KeepsRoutable Routable (prepare crates config)
      (fun prepared w => prepared.Ready ∧ Routable w) (fun _ => Routable) w := by
  have quiet := Fallible.Obeys.ofMoves (moves_prepare crates config) steady_routable
    (fun w w' moved => routable_of_tentative w w' (.prepare moved)) routable
  apply (quiet.and (ensures_prepare besideRouting crates config w)).weaken
  · exact fun _ _ ended => ⟨ended.2.2, ended.1⟩
  · exact fun _ _ ended => ended.1

theorem obeys_applyServed (config : DynamicConfig) (routable : Routable w) :
    Fallible.Obeys besideRouting KeepsRoutable Routable (apply crates config) (fun _ => Routable)
      (fun _ => Routable) w :=
  obeys_apply crates config steady_routable routable_of_tentative (fun prepared _ => prepared.Ready)
    (fun _ _ _ _ ready => ready) (fun _ _ _ _ ready => ready)
    (fun _ held => obeys_prepareServed crates config held) Routable
    (fun _ staged _ ready held => obeys_swapInServed ready staged held) routable

theorem obeys_applyLoadedServed {load : Fallible World ConfigError DynamicConfig}
    (loads : Fallible.Moves Tentative load) (routable : Routable w) :
    Fallible.Obeys besideRouting KeepsRoutable Routable (do
      let config ← Fallible.mapError .config load
      apply crates config
      return config) (fun _ => Routable) (fun _ => Routable) w :=
  obeys_applyLoaded crates loads steady_routable routable_of_tentative (fun _ => Routable)
    (fun config _ held => obeys_applyServed crates config held) routable

theorem obeys_reloadLockedServed (routable : Routable w) :
    (reloadLocked crates settings).Obeys besideRouting KeepsRoutable Routable
      (fun _ => Routable) w := by
  have deployed := obeys_applyLoadedServed crates
    (moves_loadDynamicConfig crates settings.configFile) routable
  apply Program.Obeys.bind
  apply Program.Obeys.weaken deployed
  intro result w ended
  cases result with
  | error error =>
    exact Program.Obeys.ofMoves moves_report steady_routable
      (fun w w' moved => routable_of_caching w w' (.report moved)) ended
  | ok config =>
    have reconciles : (reconcile settings config).Obeys besideRouting KeepsRoutable Routable
        (fun _ => Routable) w :=
      Program.Obeys.change steady_routable steady_routable.stable
        (fun _ held => routable_of_same rfl held) ended
    apply Program.Obeys.bind
    apply reconciles.weaken
    intro _ w held
    exact Program.Obeys.ofMoves (moves_conclude crates settings config) steady_routable
      routable_of_caching held

theorem obeys_reloadServed (routable : Routable w) :
    (reload crates settings).Obeys besideRouting KeepsRoutable Routable (fun _ => Routable) w :=
  obeys_reload crates settings steady_routable (fun _ _ held => held) (fun _ held => held)
    (fun _ held => obeys_reloadLockedServed crates settings held) routable

theorem obeys_pollServed (routable : Routable w) :
    (reloadIfCertificatesChanged crates settings).Obeys besideRouting KeepsRoutable Routable
      (fun _ => Routable) w :=
  obeys_poll crates settings steady_routable steady_routable (fun _ _ held => held)
    (fun _ _ held => routable_of_same rfl held) (fun _ held => routable_of_same rfl held)
    (fun _ held => held) (fun _ held => obeys_reloadLockedServed crates settings held) routable

theorem obeys_applyInitialServed (routable : Routable w) :
    Fallible.Obeys besideRouting KeepsRoutable Routable (applyInitial crates settings)
      (fun _ => Routable) (fun _ => Routable) w := by
  apply obeys_firstConfig crates settings steady_routable routable_of_caching
  · exact fun w held => obeys_applyLoadedServed crates (moves_loadDynamicConfig crates _) held
  · exact fun path w held => obeys_applyLoadedServed crates (moves_loadCache crates path) held
  · intro w held
    exact Program.Obeys.change steady_routable steady_routable.stable
      (fun _ held => routable_of_same rfl held) held
  · exact routable

end Reloads

/-! ## Every run of a node -/

section Runs

variable {crates : Crates} {settings : NodeConfig} {others : World → World → Prop}

/-- A node's states from the moment it is new. -/
def Startup.Reached (crates : Crates) (settings : NodeConfig) (others : World → World → Prop)
    (s : Startup) : Prop :=
  ∃ w inherited, w.node = .new inherited ∧
    Relation.ReflTransGen (Startup.Step crates settings others) ⟨w, .waiting, none⟩ s

/-- In every state of every run what is served is complete, and every step of a reload, or of a
    start that is under way, leaves it so. -/
theorem Startup.Reached.minds (apart : ∀ w w', others w w' → w'.node.routing = w.node.routing)
    {s : Startup} (reached : s.Reached crates settings others) :
    s.Minds besideRouting besideRouting KeepsRoutable Routable Routable Routable := by
  obtain ⟨w, inherited, fresh, run⟩ := reached
  induction run with
  | refl =>
    change Routable w
    rw [Routable, fresh]
    exact Routing.complete_empty
  | tail _ step ih =>
    have kept := Minds.step steady_routable steady_routable (fun _ held => held) apart apart
      (fun config w => ⟨rfl, fun held => held⟩)
      (fun _ held => obeys_reloadServed crates settings held)
      (fun _ held => obeys_applyInitialServed crates settings held)
      (fun _ held => obeys_reloadServed crates settings held)
      (fun _ held => obeys_pollServed crates settings held) step ih
    exact kept.1

theorem Startup.Reached.routable
    (apart : ∀ w w', others w w' → w'.node.routing = w.node.routing)
    {s : Startup} (reached : s.Reached crates settings others) : Routable s.world :=
  Minds.now steady_routable steady_routable (reached.minds apart)

/-- No request misses its pool: not before the first config, not while one is swapped for
    another, and not after one is rejected. -/
theorem pool_is_found_in_every_run
    (apart : ∀ w w', others w w' → w'.node.routing = w.node.routing) {http : Http}
    (conn : ConnInfo) (request : RequestHead http) {s : Startup}
    (reached : s.Reached crates settings others) {w : World} {decision : Decision}
    (steps : Program.Steps (fun u u' => ∃ t t' : Startup, t.Reached crates settings others ∧
        Startup.Step crates settings others t t' ∧ t.world = u ∧ t'.world = u')
      (handle conn request, s.world) (.ret decision, w)) (route : CompiledRoute) :
    decision ≠ .poolNotFound route := by
  apply pool_is_found conn request _ (reached.routable apart) steps
  rintro _ _ ⟨t, t', ⟨w, inherited, fresh, run⟩, step, rfl, rfl⟩ _
  have later : t'.Reached crates settings others := ⟨w, inherited, fresh, run.tail step⟩
  exact later.routable apart

end Runs

/-- What a run of the node does to the world, a request that waits meanwhile meets. -/
theorem Startup.steps_beside {α : Type} (p : Program World α) {crates : Crates}
    {settings : NodeConfig} {others : World → World → Prop} {s s' : Startup}
    (reached : s.Reached crates settings others)
    (run : Relation.ReflTransGen (Startup.Step crates settings others) s s') :
    Program.Steps (fun u u' => ∃ t t' : Startup, t.Reached crates settings others ∧
        Startup.Step crates settings others t t' ∧ t.world = u ∧ t'.world = u')
      (p, s.world) (p, s'.world) := by
  induction run with
  | refl => exact .refl
  | tail before step ih =>
    obtain ⟨w, inherited, fresh, start⟩ := reached
    exact ih.tail (.env ⟨_, _, ⟨w, inherited, fresh, start.trans before⟩, step, rfl, rfl⟩)

/-- A request has passed the host rules when a reload puts another backend in its pool. -/
theorem pool_is_found_in_every_run_replaced :
    let asked := (handle ⟨0, none⟩ hostRequest).advance 1 replaced
    let reloaded := ((reload twoPools (.small none)).run replaced).2
    asked.2 = replaced ∧ reloaded.journal.serving = some (poolOn ['y']) ∧
      (∃ route pool, (asked.1.run reloaded).1 = .forwarded route pool) ∧
      ∀ route, (asked.1.run reloaded).1 ≠ .poolNotFound route := by
  intro asked reloaded
  have reached : Startup.Reached twoPools (.small none) _ ⟨replaced, .started, none⟩ :=
    ⟨_, ∅, rfl, Startup.untimed Startup.runs_replaced⟩
  have meanwhile := Startup.steps_beside asked.1 reached
    (Startup.untimed (Startup.runs_triggered _ replaced))
  have steps := (Program.steps_advance _ 1 (handle ⟨0, none⟩ hostRequest) replaced).trans
    (meanwhile.trans (Program.steps_run _ _ _))
  refine ⟨rfl, by decide +kernel, ?_, pool_is_found_in_every_run (fun _ _ moved => ?_) ⟨0, none⟩
    hostRequest reached steps⟩
  · exact ⟨_, _, rfl⟩
  · rw [moved.1]

end Gfe
