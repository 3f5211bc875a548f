import Gfe.LoadBalancing.Selection
import Gfe.Reload.Handles

/-! # What becomes of a status that is recorded

A selection reads the handles its pool took when it was built. What a probe loop
records for a backend that is served reaches every pool the backend is in, and a
backend that stays keeps its status, whatever is reloaded meanwhile.
-/

namespace Gfe

open Interleaving

variable {key : BackendKey}

/-! ## What a selection sees -/

/-- A selection that reads the handles of a pool reads this status for a backend. -/
def Sees (health : HealthMap) (pool : Pool Scheme) (key : BackendKey) (status : HealthStatus) :
    Prop :=
  ∀ i : Nat, pool.backends[i]?.map Backend.key = some key →
    pool.health[i]?.map health.status = some status

variable {w w' : World}

theorem Aligned.lookup {health : HealthMap} {pool : Pool Scheme} (aligned : Aligned health pool)
    {i : Nat} (served : pool.backends[i]?.map Backend.key = some key) :
    ∃ handle, pool.health[i]? = some handle ∧ health.entries.lookup key = some handle := by
  obtain ⟨backend, found, same⟩ := Option.map_eq_some_iff.mp served
  subst same
  obtain ⟨inside, here⟩ := List.getElem?_eq_some_iff.mp found
  subst here
  have inside' : i < pool.health.length := aligned.length_eq ▸ inside
  exact ⟨_, List.getElem?_eq_getElem inside', aligned.get inside inside'⟩

/-- What is written to the map's handle of a backend is what is read for it. -/
theorem Aligned.sees {pool : Pool Scheme} {handle : HandleId}
    (aligned : Aligned w.node.health pool) (current : key ∈ pool.backends.map Backend.key →
      w.node.health.entries.lookup key = some handle) (status : HealthStatus) :
    Sees (w.stores handle status).node.health pool key status := by
  intro i served
  obtain ⟨own, there, known⟩ := aligned.lookup served
  have same : w.node.health.entries.lookup key = some handle := by
    apply current
    obtain ⟨backend, found, same⟩ := Option.map_eq_some_iff.mp served
    exact List.mem_map.mpr ⟨backend, List.mem_of_getElem? found, same⟩
  rw [known] at same
  cases same
  simp [there, World.stores, World.setNode]

theorem Bound.served (bound : Bound w)
    (served : key ∈ w.node.routing.pools.allBackends) :
    ∃ handle, w.node.health.entries.lookup key = some handle := by
  obtain ⟨pool, member, inside⟩ := List.mem_flatMap.mp served
  obtain ⟨backend, here, same⟩ := List.mem_map.mp inside
  obtain ⟨i, inside, there⟩ := List.getElem_of_mem here
  have found : pool.backends[i]?.map Backend.key = some key := by
    simp [List.getElem?_eq_getElem inside, there, same]
  obtain ⟨handle, _, known⟩ := (bound.aligned pool member).lookup found
  exact ⟨handle, known⟩

/-- A backend keeps its handle in a step, and the status is the one it had unless
    the step is a probe that writes it. -/
def KeepsStatus (w w' : World) (key : BackendKey) : Prop :=
  ∃ handle, w.node.health.entries.lookup key = some handle ∧
    w'.node.health.entries.lookup key = some handle ∧
    (w'.node.health.status handle = w.node.health.status handle ∨
      ∃ status, w' = w.stores handle status)

theorem keepsStatus_of_tending {handle handle' : HandleId} (tends : Tending w w')
    (before : w.node.health.entries.lookup key = some handle)
    (after : w'.node.health.entries.lookup key = some handle') : KeepsStatus w w' key := by
  have same : handle' = handle := by
    cases tends.entries key handle' after with
    | inl old => simpa [before] using old.symm
    | inr none => simp [before] at none
  subst same
  exact ⟨handle', before, after, .inl (tends.status handle' (w.node.health.issued key _ before))⟩

theorem keepsStatus_of_probing {handle : HandleId} (moved : Probing w w')
    (before : w.node.health.entries.lookup key = some handle) : KeepsStatus w w' key := by
  cases moved with
  | take other started =>
    have grows := w.node.health.handle_grows other
    exact ⟨handle, before, grows.kept key handle before,
      .inl (grows.status handle (w.node.health.issued key handle before))⟩
  | store other status =>
    refine ⟨handle, before, before, ?_⟩
    by_cases same : other = handle
    · subst same
      exact .inr ⟨status, rfl⟩
    · exact .inl (Function.update_of_ne (Ne.symm same) ..)
  | elsewhere same taken => exact ⟨handle, before, same ▸ before, .inl (by rw [same])⟩

/-! ## Every run of a node -/

section Runs

variable {crates : Crates} {settings : NodeConfig}

/-- What holds of a node at every moment, reloads and probes under way or not. -/
abbrev Startup.Tied (s : Startup) : Prop :=
  s.Minds beforeChecks besideProbes Tending Bound Early Wired

theorem Startup.Tied.step {s s' : Startup} (tied : s.Tied) (step : Step crates settings Probing s s') :
    s'.Tied ∧ (Tending s.world s'.world ∨ Probing s.world s'.world) :=
  Minds.step steady_early steady_wired (fun _ => Tends.refl _) (fun _ _ => beforeChecks_of_probing)
    (fun _ _ moved => (beforeChecks_of_probing moved).1)
    (fun config w => ⟨besideProbes_beginChecks settings config w, Tends.refl _⟩)
    (fun _ early => obeys_reloadEarly crates settings early)
    (fun _ early => obeys_applyInitial crates settings early)
    (fun _ wired => obeys_reloadHandles crates settings wired)
    (fun _ wired => obeys_pollHandles crates settings wired) step tied

theorem Startup.tied_of_run {inherited : HashMap SocketAddr SocketId} {s : Startup}
    (fresh : w.node = .new inherited) (untaken : w.journal.taken = [])
    (run : Relation.ReflTransGen (Step crates settings Probing) ⟨w, .waiting, none⟩ s) : s.Tied := by
  induction run with
  | refl =>
    refine (⟨⟨?_, ?_, ?_⟩, ?_, ?_⟩ : Early w)
    · rw [fresh]
      exact nofun
    · rw [untaken]
      exact nofun
    · rw [untaken]
      exact nofun
    · rw [fresh]
      rfl
    · rw [fresh]
      rfl
  | tail _ step ih => exact (ih.step step).1

theorem Startup.Tied.bound {s : Startup} (tied : s.Tied) : Bound s.world :=
  Minds.now steady_early steady_wired tied

/-- At every moment of a node's life, the pools being served have the handles of
    the map. What a loop that runs for a backend records is what every selection
    sees next: it was looked up before, or the loop records it in one go. A backend
    that is served before and after a step keeps its handle, and its status unless
    the step writes it. -/
theorem statuses_reach_served_pools (crates : Crates) (settings : NodeConfig) {w : World}
    {inherited : HashMap SocketAddr SocketId} (fresh : w.node = .new inherited)
    (untaken : w.journal.taken = []) {s : Startup}
    (run : Relation.ReflTransGen (Startup.Step crates settings Probing) ⟨w, .waiting, none⟩ s) :
    (∀ pool ∈ s.world.node.routing.pools.pools.values, Aligned s.world.node.health pool) ∧
    (∀ key task handle status, (key, task, handle) ∈ s.world.journal.taken →
      s.world.node.checker.taskOf key = some task →
      ∀ pool ∈ s.world.node.routing.pools.pools.values,
        Sees (s.world.stores handle status).node.health pool key status) ∧
    (∀ key task status, ∀ pool ∈ s.world.node.routing.pools.pools.values,
      Sees ((s.world.takes key task).stores (s.world.node.health.handle key).1 status).node.health
        pool key status) ∧
    (∀ s', Startup.Step crates settings Probing s s' →
      ∀ key ∈ s.world.node.routing.pools.allBackends,
        key ∈ s'.world.node.routing.pools.allBackends → KeepsStatus s.world s'.world key) := by
  have tied := Startup.tied_of_run fresh untaken run
  have bound := tied.bound
  refine ⟨bound.aligned, ?_, ?_, ?_⟩
  · intro key task handle status taken running pool member
    apply (bound.aligned pool member).sees
    intro inside
    exact bound.current key task handle taken running
      (List.mem_flatMap.mpr ⟨pool, member, inside⟩)
  · intro key task status pool member
    have entered := Tied.enter bound key
    have aligned : Aligned (s.world.takes key task).node.health pool := entered.aligned pool member
    apply aligned.sees
    exact fun _ => lookup_handle s.world.node.health key
  · intro s' step key before after
    obtain ⟨tied', moved⟩ := tied.step step
    obtain ⟨handle, known⟩ := bound.served before
    cases moved with
    | inl tends =>
      obtain ⟨handle', known'⟩ := tied'.bound.served after
      exact keepsStatus_of_tending tends known known'
    | inr probed => exact keepsStatus_of_probing probed known

/-- A node that serves one backend, whose probe has looked its handle up. -/
def probed : World :=
  (beginChecks (.small none) (poolOn ['x'])
    (Fallible.exec (applyInitial twoPools (.small none)) (World.starting (deployed 0) ∅)).2).takes
      (['x'], 80) 0

theorem runs_probed :
    Relation.ReflTransGen (Startup.Step twoPools (.small none) Probing)
      ⟨World.starting (deployed 0) ∅, .waiting, none⟩ ⟨probed, .started, none⟩ := by
  have plain := Startup.runs_plain Probing applyInitial_twoPools (by decide +kernel)
  apply Relation.ReflTransGen.tail (Relation.ReflTransGen.mono (fun _ _ step => step.1) _ _ plain)
  apply Startup.Step.others
  apply Probing.take
  decide +kernel

theorem probe_reaches_pool :
    probed.node.routing.pools.allBackends = [(['x'], 80)] ∧
      ∀ pool ∈ probed.node.routing.pools.pools.values,
        Sees (probed.stores 0 .unhealthy).node.health pool (['x'], 80) .unhealthy := by
  refine ⟨by decide +kernel, fun pool member => ?_⟩
  exact (statuses_reach_served_pools twoPools (.small none) rfl rfl runs_probed).2.1 _ 0 0 _
    (by decide +kernel) (by decide +kernel) pool member

end Runs

end Gfe
