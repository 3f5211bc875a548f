import Gfe.Reload.Controller

/-! # A node that leaves

The drain of a node first stops following the config: it takes the lock of the
reloads to say so, and then stops the health checks. Reloads come from the watcher
of the config file and from the poll of the certificate files, before and after:
neither is waited for. A probe loop is a task: stopping it keeps it from being
polled again, and it goes on to its next wait if it is being polled.
-/

namespace Gfe

open Interleaving

/-- `stop_all`. -/
def HealthChecker.stopAll (checker : HealthChecker) : HealthChecker := { checker with tasks := ∅ }

/-- `serve_until_drained` takes every listener out of the set. -/
def Listeners.emptied {τ : Type} (listeners : Listeners τ) : Listeners τ :=
  { listeners with running := ∅, issued := nofun, distinct := Listeners.distinct_empty }

inductive DrainPhase where
  | serving
  /-- `Controller::shutdown` has said that changes are not followed. -/
  | unfollowing
  /-- It has returned. -/
  | shut
  | triggered
  /-- No listener is left. -/
  | emptied
  deriving DecidableEq

/-- Whether `Controller::shutdown` has returned. -/
def DrainPhase.isShut : DrainPhase → Bool
  | .serving | .unfollowing => false
  | _ => true

structure Leaving where
  world : World
  /-- The reload that holds the lock, if one does. -/
  reload : Option (Program World Unit)
  /-- The probe loops that are being polled. -/
  polled : List Nat
  phase : DrainPhase

/-- What everyone else leaves alone. -/
structure KeepsConfig (w w' : World) : Prop where
  resolver : w'.node.resolver = w.node.resolver
  routing : w'.node.routing = w.node.routing
  listeners : w'.node.listeners = w.node.listeners
  checker : w'.node.checker = w.node.checker
  tracked : w'.node.tracked = w.node.tracked

namespace Leaving

variable (crates : Crates) (settings : NodeConfig)

inductive Step : Leaving → Leaving → Prop where
  | others {w w' reload polled phase} : KeepsConfig w w' →
      Step ⟨w, reload, polled, phase⟩ ⟨w', reload, polled, phase⟩
  /-- The watcher is dropped on a thread of its own, at any time later. -/
  | trigger {w polled phase} : Step ⟨w, none, polled, phase⟩
      ⟨w, some (Gfe.reload crates settings), polled, phase⟩
  /-- The poll may have been waiting for the lock when it was aborted. -/
  | poll {w polled phase} : Step ⟨w, none, polled, phase⟩
      ⟨w, some (reloadIfCertificatesChanged crates settings), polled, phase⟩
  | act {w update next polled phase} : Step ⟨w, some (.act update next), polled, phase⟩
      ⟨update w, some (next w), polled, phase⟩
  | release {w polled phase} : Step ⟨w, some (.ret ()), polled, phase⟩ ⟨w, none, polled, phase⟩
  | unfollow {w polled} : Step ⟨w, none, polled, .serving⟩
      ⟨w.setNode fun n => { n with tracked := { n.tracked with following := false } }, none, polled,
        .unfollowing⟩
  | stopAll {w reload polled} : Step ⟨w, reload, polled, .unfollowing⟩
      ⟨w.setNode fun n => { n with checker := n.checker.stopAll }, reload, polled, .shut⟩
  | drain {w reload polled} : Step ⟨w, reload, polled, .shut⟩ ⟨w, reload, polled, .triggered⟩
  | empty {w reload polled} : Step ⟨w, reload, polled, .triggered⟩
      ⟨w.setNode fun n => { n with listeners := n.listeners.emptied }, reload, polled, .emptied⟩
  | wake {w reload polled phase key running} : w.node.checker.tasks.lookup key = some running →
      running.task ∉ polled → Step ⟨w, reload, polled, phase⟩ ⟨w, reload, running.task :: polled, phase⟩
  | yield {w reload polled phase task} :
      Step ⟨w, reload, polled, phase⟩ ⟨w, reload, polled.erase task, phase⟩

def Runs : Leaving → Leaving → Prop := Relation.ReflTransGen (Step crates settings)

variable {crates settings}

/-! ## Once changes are not followed -/

/-- A reload that came too late. -/
inductive Late (crates : Crates) (settings : NodeConfig) : Program World Unit → Prop where
  | reload : Late crates settings (Gfe.reload crates settings)
  | poll : Late crates settings (reloadIfCertificatesChanged crates settings)
  | done : Late crates settings (.ret ())

theorem Late.act {update : World → World} {next : World → Program World Unit} {w : World}
    (late : Late crates settings (.act update next)) (unfollowed : w.node.tracked.following = false) :
    update w = w ∧ Late crates settings (next w) := by
  generalize same : Program.act update next = p at late
  cases late with
  | reload =>
    cases same
    refine ⟨rfl, ?_⟩
    change Late crates settings (if w.node.tracked.following = true then _ else pure ())
    rw [unfollowed]
    exact .done
  | poll =>
    cases same
    refine ⟨rfl, ?_⟩
    change Late crates settings (if (!w.node.tracked.following) = true then pure () else _)
    rw [unfollowed]
    exact .done
  | done => cases same

/-- What holds once changes are not followed. -/
structure Unfollowed (crates : Crates) (settings : NodeConfig) (s : Leaving) : Prop where
  following : s.world.node.tracked.following = false
  late : ∀ job, s.reload = some job → Late crates settings job

/-- What holds in each phase. -/
structure Sound (crates : Crates) (settings : NodeConfig) (s : Leaving) : Prop where
  unfollowed : s.phase ≠ .serving → Unfollowed crates settings s
  shut : s.phase.isShut = true → s.world.node.checker.tasks = ∅
  emptied : s.phase = .emptied → s.world.node.listeners.running = ∅

variable {s s' : Leaving}

theorem Sound.step (sound : s.Sound crates settings) (step : Step crates settings s s') :
    s'.Sound crates settings := by
  obtain ⟨unfollowed, shut, emptied⟩ := sound
  cases step with
  | others kept =>
    refine ⟨fun away => ?_, fun here => ?_, fun here => ?_⟩
    · obtain ⟨following, late⟩ := unfollowed away
      refine ⟨?_, late⟩
      rw [show _ = _ from kept.tracked]
      exact following
    · rw [show _ = _ from kept.checker]
      exact shut here
    · rw [show _ = _ from kept.listeners]
      exact emptied here
  | trigger =>
    refine ⟨fun away => ⟨(unfollowed away).following, ?_⟩, shut, emptied⟩
    intro job same
    cases same
    exact .reload
  | poll =>
    refine ⟨fun away => ⟨(unfollowed away).following, ?_⟩, shut, emptied⟩
    intro job same
    cases same
    exact .poll
  | @act w update next polled phase =>
    by_cases serving : phase = .serving
    · rw [serving]
      exact ⟨fun away => absurd rfl away, nofun, nofun⟩
    · obtain ⟨following, late⟩ := unfollowed serving
      obtain ⟨same, late⟩ := (late _ rfl).act following
      refine ⟨fun _ => ⟨?_, ?_⟩, fun here => ?_, fun here => ?_⟩
      · rw [same]
        exact following
      · intro job ended
        cases ended
        exact late
      · rw [same]
        exact shut here
      · rw [same]
        exact emptied here
  | release =>
    refine ⟨fun away => ⟨(unfollowed away).following, ?_⟩, shut, emptied⟩
    intro job same
    cases same
  | unfollow =>
    refine ⟨fun _ => ⟨rfl, ?_⟩, nofun, nofun⟩
    intro job same
    cases same
  | stopAll =>
    obtain ⟨following, late⟩ := unfollowed nofun
    exact ⟨fun _ => ⟨following, late⟩, fun _ => rfl, nofun⟩
  | drain =>
    obtain ⟨following, late⟩ := unfollowed nofun
    exact ⟨fun _ => ⟨following, late⟩, fun _ => shut rfl, nofun⟩
  | empty =>
    obtain ⟨following, late⟩ := unfollowed nofun
    exact ⟨fun _ => ⟨following, late⟩, fun _ => shut rfl, fun _ => rfl⟩
  | wake | yield =>
    exact ⟨fun away => ⟨(unfollowed away).following, (unfollowed away).late⟩, shut, emptied⟩

theorem sound_of_runs {w : World} (run : Runs crates settings ⟨w, none, [], .serving⟩ s) :
    s.Sound crates settings := by
  induction run with
  | refl => exact ⟨fun away => absurd rfl away, nofun, nofun⟩
  | tail _ step ih => exact ih.step step

/-- What is left as it was once `Controller::shutdown` has returned. -/
structure Frozen (s s' : Leaving) : Prop where
  shut : s'.phase.isShut = true
  resolver : s'.world.node.resolver = s.world.node.resolver
  routing : s'.world.node.routing = s.world.node.routing
  listeners : s'.world.node.listeners = s.world.node.listeners ∨
    s'.world.node.listeners = s.world.node.listeners.emptied
  /-- No loop is polled again. -/
  polled : ∀ task ∈ s'.polled, task ∈ s.polled
  emptied : s.phase = .emptied → s'.phase = .emptied

theorem frozen_step (sound : s.Sound crates settings) (shut : s.phase.isShut = true)
    (step : Step crates settings s s') : Frozen s s' := by
  cases step with
  | others kept =>
    exact ⟨shut, kept.resolver, kept.routing, .inl kept.listeners, fun _ here => here, id⟩
  | trigger | poll => exact ⟨shut, rfl, rfl, .inl rfl, fun _ here => here, id⟩
  | @act w update next polled phase =>
    have away : phase ≠ .serving := by
      intro serving
      rw [serving] at shut
      cases shut
    obtain ⟨following, late⟩ := sound.unfollowed away
    have same := ((late _ rfl).act following).1
    refine ⟨shut, ?_, ?_, .inl ?_, fun _ here => here, id⟩
    · rw [same]
    · rw [same]
    · rw [same]
  | release => exact ⟨shut, rfl, rfl, .inl rfl, fun _ here => here, id⟩
  | unfollow => cases shut
  | stopAll => cases shut
  | drain => exact ⟨rfl, rfl, rfl, .inl rfl, fun _ here => here, nofun⟩
  | empty => exact ⟨rfl, rfl, rfl, .inr rfl, fun _ here => here, nofun⟩
  | wake running _ =>
    rw [show _ = _ from sound.shut shut] at running
    cases running
  | yield => exact ⟨shut, rfl, rfl, .inl rfl, fun _ here => List.mem_of_mem_erase here, id⟩

theorem Frozen.trans {s₁ s₂ s₃ : Leaving} (first : Frozen s₁ s₂) (second : Frozen s₂ s₃) :
    Frozen s₁ s₃ := by
  refine ⟨second.shut, second.resolver.trans first.resolver, second.routing.trans first.routing, ?_,
    fun task here => first.polled task (second.polled task here),
    fun here => second.emptied (first.emptied here)⟩
  cases second.listeners with
  | inl same =>
    rw [same]
    exact first.listeners
  | inr emptied =>
    rw [emptied]
    cases first.listeners with
    | inl same => rw [same]; exact .inr rfl
    | inr emptied => rw [emptied]; exact .inr rfl

theorem frozen_of_runs {w : World} (run : Runs crates settings ⟨w, none, [], .serving⟩ s)
    (shut : s.phase.isShut = true) (later : Runs crates settings s s') : Frozen s s' := by
  induction later with
  | refl => exact ⟨shut, rfl, rfl, .inl rfl, fun _ here => here, id⟩
  | tail before step ih =>
    exact ih.trans (frozen_step (sound_of_runs (run.trans before)) ih.shut step)

end Leaving

open Leaving

/-- Once `Controller::shutdown` has returned, whatever the watcher and the poll do: the
    certificates, the routes, the pools and the sockets are those there were, the set
    that the drain has emptied stays empty, there is no probe loop, and none is polled
    that was not being polled. -/
theorem nothing_is_applied_after_shutdown {crates : Crates} {settings : NodeConfig} {w : World}
    {s s' : Leaving} (run : Leaving.Runs crates settings ⟨w, none, [], .serving⟩ s)
    (shut : s.phase.isShut = true) (later : Leaving.Runs crates settings s s') :
    s'.world.node.resolver = s.world.node.resolver ∧
    s'.world.node.routing = s.world.node.routing ∧
    (s'.world.node.listeners = s.world.node.listeners ∨
      s'.world.node.listeners = s.world.node.listeners.emptied) ∧
    (s.phase = .emptied → s'.world.node.listeners.running = ∅) ∧
    s'.world.node.checker.tasks = ∅ ∧ ∀ task ∈ s'.polled, task ∈ s.polled := by
  have frozen := frozen_of_runs run shut later
  have sound := sound_of_runs (run.trans later)
  refine ⟨frozen.resolver, frozen.routing, frozen.listeners, fun here => ?_, sound.shut frozen.shut,
    frozen.polled⟩
  exact sound.emptied (frozen.emptied here)

/-- A node that follows its config and checks one backend. -/
def probingNode : World :=
  (World.starting (.small [] (.error .notFound) []) ∅).setNode fun n => { n with
    tracked := ⟨⟨[]⟩, true⟩
    checker := n.checker.startProbe (['b'], 80) (⟨.tcp, 1, 1, 1, 1⟩, [['p']]) }

/-- The config file changes once the drain has emptied the set. -/
theorem late_change_is_ignored :
    ∃ s s' : Leaving,
      Leaving.Runs (.indexed []) (.small none) ⟨probingNode, none, [], .serving⟩ s ∧
      s.phase = .emptied ∧ Leaving.Step (.indexed []) (.small none) s s' ∧ s'.reload ≠ none ∧
      s'.world.node.listeners.running = ∅ := by
  have emptied : Leaving.Runs (.indexed []) (.small none) ⟨probingNode, none, [], .serving⟩ _ :=
    .tail (.tail (.tail (.single .unfollow) .stopAll) .drain) .empty
  refine ⟨_, _, emptied, rfl, .trigger, nofun, ?_⟩
  exact (nothing_is_applied_after_shutdown emptied rfl (.single .trigger)).2.2.2.1 rfl

/-- A loop is being polled when `Controller::shutdown` returns. -/
theorem probe_outlives_shutdown :
    ∃ s : Leaving, Leaving.Runs (.indexed []) (.small none) ⟨probingNode, none, [], .serving⟩ s ∧
      s.phase = .shut ∧ s.polled = [0] := by
  have probing : probingNode.node.checker.tasks.lookup (['b'], 80) =
      some ⟨⟨.tcp, 1, 1, 1, 1⟩, [['p']], 0⟩ := by
    decide +kernel
  exact ⟨_, .tail (.tail (.single (.wake probing List.not_mem_nil)) .unfollow) .stopAll, rfl, rfl⟩

end Gfe
