import Gfe.Reload.Specs

/-! # Starting beside the first reloads

The watcher of the config file is installed before the first config is applied,
so its reloads run beside the starting thread. Applying a config is done under
the lock of the reloads; the starting thread gives the lock back before it
brings the health checks in step with the config it applied.
-/

namespace Gfe

open Interleaving

variable {others : World → World → Prop} {config : DynamicConfig} {s s' : Startup}

section Startup

variable (crates : Crates) (settings : NodeConfig)

inductive StartPhase where
  | waiting
  | applying (rest : Program World (Except ReloadError DynamicConfig))
  /-- The lock is given back. -/
  | applied (config : DynamicConfig)
  | started
  | failed (error : ReloadError)

structure Startup where
  world : World
  phase : StartPhase
  /-- The reload that holds the lock, if one does. -/
  reload : Option (Program World Unit)

/-- The starting thread reconciles the checker with the config it applied. -/
def beginChecks (config : DynamicConfig) (w : World) : World :=
  ((reconcile settings config).run w).2.setJournal fun j => { j with checksBegun := true }

inductive Startup.Step (others : World → World → Prop) : Startup → Startup → Prop where
  | others {w w' phase reload} : others w w' → Step others ⟨w, phase, reload⟩ ⟨w', phase, reload⟩
  | lock {w} : Step others ⟨w, .waiting, none⟩
      ⟨w, .applying (ExceptT.run (applyInitial crates settings)), none⟩
  | apply {w update next} : Step others ⟨w, .applying (.act update next), none⟩
      ⟨update w, .applying (next w), none⟩
  | applied {w config} : Step others ⟨w, .applying (.ret (.ok config)), none⟩
      ⟨w, .applied config, none⟩
  | failed {w error} : Step others ⟨w, .applying (.ret (.error error)), none⟩
      ⟨w, .failed error, none⟩
  | check {w config reload} : Step others ⟨w, .applied config, reload⟩
      ⟨beginChecks settings config w, .started, reload⟩
  /-- The config file changed; while the first config is being applied the
      watcher waits. -/
  | trigger {w phase} : (∀ rest, phase ≠ .applying rest) →
      Step others ⟨w, phase, none⟩ ⟨w, phase, some (Gfe.reload crates settings)⟩
  /-- The poll of the certificate files begins after the start. -/
  | poll {w} : Step others ⟨w, .started, none⟩
      ⟨w, .started, some (reloadIfCertificatesChanged crates settings)⟩
  | act {w phase update next} : Step others ⟨w, phase, some (.act update next)⟩
      ⟨update w, phase, some (next w)⟩
  | release {w phase} : Step others ⟨w, phase, some (.ret ())⟩ ⟨w, phase, none⟩

/-! ## An invariant of a start -/

/-- What holds at every moment of a start: `calm` before the first config, `inv`
    once it is applied, and a program under way is on the way there. -/
def Startup.Holds (rely : Rely World) (calm inv : World → Prop) (s : Startup) : Prop :=
  match s.phase with
  | .waiting =>
    match s.reload with
    | none => calm s.world
    | some job => job.Ensures rely (fun _ => calm) s.world
  | .applying rest =>
    s.reload = none ∧ rest.Ensures rely (fun result w => ∀ config, result = .ok config → inv w) s.world
  | .applied _ | .started =>
    match s.reload with
    | none => inv s.world
    | some job => job.Ensures rely (fun _ => inv) s.world
  | .failed _ => True

variable {crates settings}

theorem Startup.Holds.step {rely : Rely World}
    {calm inv : World → Prop} (allowed : ∀ w w', others w w' → rely.may w w')
    (checks : ∀ config w, rely.may w (beginChecks settings config w))
    (stableCalm : rely.Stable calm) (stable : rely.Stable inv)
    (early : ∀ w, calm w → (Gfe.reload crates settings).Ensures rely (fun _ => calm) w)
    (first : ∀ w, calm w → Fallible.Ensures rely (applyInitial crates settings) (fun _ => inv)
      (fun _ _ => True) w)
    (triggered : ∀ w, inv w → (Gfe.reload crates settings).Ensures rely (fun _ => inv) w)
    (polled : ∀ w, inv w →
      (reloadIfCertificatesChanged crates settings).Ensures rely (fun _ => inv) w)
    (step : Step crates settings others s s') (holds : s.Holds rely calm inv) :
    s'.Holds rely calm inv := by
  cases step with
  | @others w w' phase reload moved =>
    have may := allowed w w' moved
    cases phase with
    | waiting =>
      cases reload with
      | none => exact stableCalm w w' may holds
      | some job => exact Program.Ensures.move holds may
    | applying rest => exact ⟨holds.1, holds.2.move may⟩
    | applied | started =>
      cases reload with
      | none => exact stable w w' may holds
      | some job => exact Program.Ensures.move holds may
    | failed error => exact True.intro
  | lock =>
    refine ⟨rfl, Program.Ensures.weaken (first _ holds) ?_⟩
    rintro _ w ended config rfl
    exact ended
  | apply => exact ⟨rfl, holds.2 _ (rely.refl _)⟩
  | applied => exact holds.2 _ (rely.refl _) _ rfl
  | failed => exact True.intro
  | @check w config reload =>
    cases reload with
    | none => exact stable w _ (checks config w) holds
    | some job => exact Program.Ensures.move holds (checks config w)
  | @trigger w phase elsewhere =>
    cases phase with
    | waiting => exact early w holds
    | applying rest => exact absurd rfl (elsewhere rest)
    | applied | started => exact triggered w holds
    | failed error => exact True.intro
  | poll => exact polled _ holds
  | @act w phase update next =>
    cases phase with
    | waiting => exact holds _ (rely.refl _)
    | applying rest => cases holds.1
    | applied | started => exact holds _ (rely.refl _)
    | failed error => exact True.intro
  | @release w phase =>
    cases phase with
    | waiting => exact holds _ (rely.refl _)
    | applying rest => cases holds.1
    | applied | started => exact holds _ (rely.refl _)
    | failed error => exact True.intro

/-! ## At every moment of a start -/

/-- As `Startup.Holds`, with what the control plane relies on before and after
    the first config is applied, what its steps may do and what holds while it is
    at work. A start that failed is as one that has not begun. -/
def Startup.Minds (early late : Rely World) (guar : World → World → Prop)
    (during calm inv : World → Prop) (s : Startup) : Prop :=
  match s.phase with
  | .waiting | .failed _ =>
    match s.reload with
    | none => calm s.world
    | some job => job.Obeys early guar during (fun _ => calm) s.world
  | .applying rest =>
    s.reload = none ∧ rest.Obeys early guar during
      (fun result w => match result with | .ok _ => inv w | .error _ => calm w) s.world
  | .applied _ | .started =>
    match s.reload with
    | none => inv s.world
    | some job => job.Obeys late guar during (fun _ => inv) s.world

theorem Startup.Minds.now {early late : Rely World} {guar : World → World → Prop}
    {during calm inv : World → Prop} (steadyCalm : Program.Steady early during calm)
    (steady : Program.Steady late during inv) {s : Startup}
    (minds : s.Minds early late guar during calm inv) : during s.world := by
  have ended : ∀ (result : Except ReloadError DynamicConfig) (w : World),
      (match result with | .ok _ => inv w | .error _ => calm w) → during w := by
    intro result w ended
    cases result with
    | ok config => exact steady.fine w ended
    | error error => exact steadyCalm.fine w ended
  obtain ⟨w, phase, reload⟩ := s
  cases phase with
  | waiting | failed =>
    cases reload with
    | none => exact steadyCalm.fine w minds
    | some job => exact Program.Obeys.holds minds fun _ => steadyCalm.fine
  | applying rest => exact minds.2.holds ended
  | applied | started =>
    cases reload with
    | none => exact steady.fine w minds
    | some job => exact Program.Obeys.holds minds fun _ => steady.fine

theorem Startup.Minds.step {early late : Rely World}
    {guar : World → World → Prop} {during calm inv : World → Prop}
    (steadyCalm : Program.Steady early during calm) (steady : Program.Steady late during inv)
    (idle : ∀ w, guar w w)
    (allowedEarly : ∀ w w', others w w' → early.may w w')
    (allowed : ∀ w w', others w w' → late.may w w')
    (checks : ∀ config w, late.may w (beginChecks settings config w) ∧
      guar w (beginChecks settings config w))
    (ignored : ∀ w, calm w → (Gfe.reload crates settings).Obeys early guar during (fun _ => calm) w)
    (first : ∀ w, calm w → Fallible.Obeys early guar during (applyInitial crates settings)
      (fun _ => inv) (fun _ => calm) w)
    (triggered : ∀ w, inv w → (Gfe.reload crates settings).Obeys late guar during (fun _ => inv) w)
    (polled : ∀ w, inv w →
      (reloadIfCertificatesChanged crates settings).Obeys late guar during (fun _ => inv) w)
    (step : Step crates settings others s s')
    (minds : s.Minds early late guar during calm inv) :
    s'.Minds early late guar during calm inv ∧
      (guar s.world s'.world ∨ others s.world s'.world) := by
  cases step with
  | @others w w' phase reload moved =>
    refine ⟨?_, .inr moved⟩
    cases phase with
    | waiting | failed =>
      cases reload with
      | none => exact steadyCalm.stable w w' (allowedEarly w w' moved) minds
      | some job => exact Program.Obeys.move minds (allowedEarly w w' moved)
    | applying rest => exact ⟨minds.1, minds.2.move (allowedEarly w w' moved)⟩
    | applied | started =>
      cases reload with
      | none => exact steady.stable w w' (allowed w w' moved) minds
      | some job => exact Program.Obeys.move minds (allowed w w' moved)
  | @lock w =>
    refine ⟨⟨rfl, Program.Obeys.weaken (first w minds) ?_⟩, .inl (idle w)⟩
    intro result w ended
    cases result <;> exact ended
  | @apply w update next =>
    obtain ⟨_, moved, later⟩ := minds.2 w (early.refl w)
    exact ⟨⟨rfl, later⟩, .inl moved⟩
  | @applied w config => exact ⟨minds.2 w (early.refl w), .inl (idle w)⟩
  | @failed w error => exact ⟨minds.2 w (early.refl w), .inl (idle w)⟩
  | @check w config reload =>
    obtain ⟨may, moved⟩ := checks config w
    refine ⟨?_, .inl moved⟩
    cases reload with
    | none => exact steady.stable w _ may minds
    | some job => exact Program.Obeys.move minds may
  | @trigger w phase elsewhere =>
    refine ⟨?_, .inl (idle w)⟩
    cases phase with
    | waiting | failed => exact ignored w minds
    | applying rest => exact absurd rfl (elsewhere rest)
    | applied | started => exact triggered w minds
  | @poll w => exact ⟨polled w minds, .inl (idle w)⟩
  | @act w phase update next =>
    cases phase with
    | waiting | failed => exact ⟨(minds w (early.refl w)).2.2, .inl (minds w (early.refl w)).2.1⟩
    | applying rest => cases minds.1
    | applied | started => exact ⟨(minds w (late.refl w)).2.2, .inl (minds w (late.refl w)).2.1⟩
  | @release w phase =>
    refine ⟨?_, .inl (idle w)⟩
    cases phase with
    | waiting | failed => exact minds w (early.refl w)
    | applying rest => cases minds.1
    | applied | started => exact minds w (late.refl w)

variable (crates settings)

/-! ## Checks in step with the config -/

/-- The checks the config being served asks for. -/
def wantedChecks (w : World) : List CheckedPool :=
  match w.journal.serving with
  | some config => checkedPools config.pools settings.healthCheckDefaults
  | none => []

/-- The probe loops are exactly those of the config being served: one for each
    backend of its pools, with the check of the backend's first pool. -/
def InStep (w : World) : Prop :=
  ∀ key, w.node.checker.probing key = probeFor (wantedChecks settings w) key

variable {crates settings}

theorem InStep.congr {w w' : World} (held : InStep settings w)
    (serving : w'.journal.serving = w.journal.serving) (checker : w'.node.checker = w.node.checker) :
    InStep settings w' := by
  intro key
  rw [checker, held key, wantedChecks, wantedChecks, serving]

/-- Reconciling with the config being served brings the checks in step. -/
theorem inStep_reconcile {w : World}
    (serving : ∀ key, probeFor (checkedPools config.pools settings.healthCheckDefaults) key =
      probeFor (wantedChecks settings w) key) :
    InStep settings ((reconcile settings config).run w).2 := by
  intro key
  have probing : ((reconcile settings config).run w).2.node.checker.probing key =
      (desiredProbes (checkedPools config.pools settings.healthCheckDefaults)).lookup key :=
    HealthChecker.probing_reconcile _ _ key
  rw [probing, lookup_desiredProbes, serving key]
  rfl

variable (settings)

/-- What a reload that is under way can rely on: the config being served stays,
    and the checks stay or get in step with it. -/
def starting : Rely World where
  may w w' := w'.journal.serving = w.journal.serving ∧
    (w'.node.checker = w.node.checker ∧ w'.journal.checksBegun = w.journal.checksBegun ∨
      InStep settings w')
  refl w := ⟨rfl, .inl ⟨rfl, rfl⟩⟩
  trans first second := by
    refine ⟨second.1.trans first.1, ?_⟩
    rcases second.2 with ⟨checker, begun⟩ | inStep
    · rcases first.2 with ⟨checker', begun'⟩ | inStep
      · exact .inl ⟨checker.trans checker', begun.trans begun'⟩
      · exact .inr (inStep.congr second.1 checker)
    · exact .inr inStep

def Checked (w : World) : Prop := w.journal.checksBegun = true → InStep settings w

variable {settings}

theorem stable_checked : (starting settings).Stable (Checked settings) := by
  rintro w w' ⟨serving, ⟨checker, begun⟩ | inStep⟩ held
  · intro begun'
    exact (held (begun.symm.trans begun')).congr serving checker
  · exact fun _ => inStep

theorem Checked.congr {w w' : World} (held : Checked settings w)
    (serving : w'.journal.serving = w.journal.serving) (checker : w'.node.checker = w.node.checker)
    (begun : w'.journal.checksBegun = w.journal.checksBegun) : Checked settings w' :=
  stable_checked w w' ⟨serving, .inl ⟨checker, begun⟩⟩ held

theorem checked_of_tentative {w w' : World} (moved : Tentative w w') (held : Checked settings w) :
    Checked settings w' := by
  cases moved with
  | load | remember => exact held.congr rfl rfl rfl
  | prepare prepared => cases prepared <;> exact held.congr rfl rfl rfl
  | stage staged => cases staged <;> exact held.congr rfl rfl rfl

theorem checked_of_caching {w w' : World} (moved : Caching w w') (held : Checked settings w) :
    Checked settings w' := by
  cases moved with
  | idle => exact held
  | cache json => exact held.congr rfl rfl rfl
  | report reported => cases reported <;> exact held.congr rfl rfl rfl

/-! ## Reloads keep the checks in step -/

theorem checked_reloadLocked {w : World} (held : Checked settings w) :
    (reloadLocked crates settings).Ensures (starting settings) (fun _ => Checked settings) w := by
  have always : (starting settings).Stable fun _ => True := fun _ _ _ _ => True.intro
  have stable : ∀ config, (starting settings).Stable fun w => w.journal.serving = some config :=
    fun config w w' moved held => moved.1.trans held
  apply Program.Ensures.bind
  refine Program.Ensures.weaken (ensures_applyDeployed crates settings stable_checked
    (fun _ _ => checked_of_tentative) (fun config w => w.journal.serving = some config) ?_ held) ?_
  · rintro config prepared staged w rfl _
    refine ensures_swapIn prepared staged always always (stable prepared.source)
      (fun _ _ => True.intro) (fun _ _ => rfl) (fun _ held => held) ?_ True.intro
    intro w w' moved held
    cases moved <;> exact held
  · rintro (error | config) w ended
    · exact (moves_report.weaken fun _ _ => .report).keeps stable_checked
        (fun _ _ => checked_of_caching) w ended
    · apply Program.Ensures.bind
      apply Program.Ensures.write
      intro t u first second
      have serving : t.journal.serving = some config := stable config w t first ended
      have inStep : InStep settings ((reconcile settings config).run t).2 :=
        inStep_reconcile fun key => by rw [wantedChecks, serving]
      have checked : Checked settings u := stable_checked _ u second fun _ => inStep
      exact (moves_conclude crates settings config).keeps stable_checked
        (fun _ _ => checked_of_caching) u checked

theorem checked_of_polling {w w' : World} (moved : Polling w w') (held : Checked settings w) :
    Checked settings w' := by
  cases moved with
  | idle => exact held
  | accept files => exact held.congr rfl rfl rfl
  | report reported => exact checked_of_caching (.report reported) held

theorem checked_reload {w : World} (held : Checked settings w) :
    (Gfe.reload crates settings).Ensures (starting settings) (fun _ => Checked settings) w :=
  ensures_reload crates settings stable_checked (fun _ held => held)
    (fun _ => checked_reloadLocked) held

theorem checked_poll {w : World} (held : Checked settings w) :
    (reloadIfCertificatesChanged crates settings).Ensures (starting settings)
      (fun _ => Checked settings) w :=
  ensures_poll crates settings stable_checked stable_checked
    (fun files _ => checked_of_polling (.accept files))
    (fun _ => checked_of_polling (.report (.log _))) (fun _ held => held)
    (fun _ => checked_reloadLocked) held

/-! ## The start as a whole -/

theorem checksBegun_of_working {w w' : World} (moved : Working w w') :
    w'.journal.checksBegun = w.journal.checksBegun := by
  cases moved with
  | apply applied =>
    cases applied with
    | tentative tried =>
      cases tried with
      | load => rfl
      | remember files => rfl
      | prepare prepared => cases prepared <;> rfl
      | stage staged => cases staged <;> rfl
    | swap swapped =>
      cases swapped with
      | forget keep => rfl
      | idle => rfl
      | certificates | routing => rfl
      | settle settled => cases settled <;> rfl
  | cache cached =>
    cases cached with
    | idle => rfl
    | cache json => rfl
    | report reported => cases reported <;> rfl
  | poll polled =>
    cases polled with
    | idle => rfl
    | accept files => rfl
    | report reported => cases reported <;> rfl
  | reconcile checker => rfl
  | follow => rfl

variable (settings)

/-- The starting thread reconciles when the config being served asks for the
    checks of the config it applied. -/
def Timely (s s' : Startup) : Prop :=
  ∀ config, s.phase = .applied config → s'.phase = .started →
    ∀ key, probeFor (checkedPools config.pools settings.healthCheckDefaults) key =
      probeFor (wantedChecks settings s.world) key

/-- What holds at every moment of a start whose steps are timely. -/
structure Startup.Sound (s : Startup) : Prop where
  begun : s.world.journal.checksBegun = true ↔ s.phase = .started
  initial : ∀ rest, s.phase = .applying rest → rest.Moves Working
  under : ∀ job, s.reload = some job → job.Moves Working ∧
    job.Ensures (starting settings) (fun _ => Checked settings) s.world
  free : s.reload = none → Checked settings s.world

variable {settings}

theorem Startup.checked_of_not_started {s : Startup}
    (begun : s.world.journal.checksBegun = true ↔ s.phase = .started)
    (early : s.phase ≠ .started) : Checked settings s.world :=
  fun already => absurd (begun.mp already) early

theorem Startup.Sound.step
    (outsiders : ∀ w w', others w w' → w'.journal.serving = w.journal.serving ∧
      w'.node.checker = w.node.checker ∧ w'.journal.checksBegun = w.journal.checksBegun)
    (sound : s.Sound settings) (step : Step crates settings others s s')
    (timely : Timely settings s s') : s'.Sound settings := by
  obtain ⟨begun, initial, under, free⟩ := sound
  cases step with
  | @others w w' phase reload moved =>
    obtain ⟨serving, checker, same⟩ := outsiders w w' moved
    refine ⟨?_, initial, ?_, ?_⟩
    · rw [same]
      exact begun
    · intro job holds
      obtain ⟨moves, ensures⟩ := under job holds
      exact ⟨moves, ensures.move ⟨serving, .inl ⟨checker, same⟩⟩⟩
    · intro idle
      exact (free idle).congr serving checker same
  | lock =>
    refine ⟨?_, ?_, under, free⟩
    · exact begun.trans ⟨nofun, nofun⟩
    · rintro rest ⟨⟩
      exact moves_applyInitial crates settings
  | apply =>
    obtain ⟨moved, rest⟩ := initial _ rfl _
    have begun' := (checksBegun_of_working moved).symm ▸ begun
    refine ⟨begun'.trans ⟨nofun, nofun⟩, ?_, nofun, ?_⟩
    · rintro _ ⟨⟩
      exact rest
    · exact fun _ => checked_of_not_started (begun'.trans ⟨nofun, nofun⟩) nofun
  | applied | failed => exact ⟨begun.trans ⟨nofun, nofun⟩, nofun, under, free⟩
  | @check w config reload =>
    have inStep : InStep settings (beginChecks settings config w) :=
      (inStep_reconcile (timely config rfl rfl)).congr rfl rfl
    refine ⟨⟨fun _ => rfl, fun _ => rfl⟩, nofun, ?_, fun _ _ => inStep⟩
    intro job holds
    obtain ⟨moves, ensures⟩ := under job holds
    exact ⟨moves, ensures.move ⟨rfl, .inr inStep⟩⟩
  | trigger elsewhere =>
    refine ⟨begun, initial, ?_, nofun⟩
    rintro job ⟨⟩
    exact ⟨moves_reload crates settings, checked_reload (free rfl)⟩
  | poll =>
    refine ⟨begun, initial, ?_, nofun⟩
    rintro job ⟨⟩
    exact ⟨moves_poll crates settings, checked_poll (free rfl)⟩
  | act =>
    obtain ⟨moves, ensures⟩ := under _ rfl
    refine ⟨?_, initial, ?_, nofun⟩
    · rw [checksBegun_of_working (moves _).1]
      exact begun
    · rintro job ⟨⟩
      exact ⟨(moves _).2, ensures _ ((starting settings).refl _)⟩
  | release =>
    obtain ⟨moves, ensures⟩ := under _ rfl
    exact ⟨begun, initial, nofun, fun _ => ensures _ ((starting settings).refl _)⟩

variable (crates settings)

abbrev Startup.TimelyStep (others : World → World → Prop) (s s' : Startup) : Prop :=
  Step crates settings others s s' ∧ Timely settings s s'

variable {crates settings}

theorem Startup.untimed
    (run : Relation.ReflTransGen (TimelyStep crates settings others) s s') :
    Relation.ReflTransGen (Step crates settings others) s s' :=
  Relation.ReflTransGen.mono (fun _ _ step => step.1) _ _ run

theorem timely_of_same_phase (same : s'.phase = s.phase) : Timely settings s s' := by
  intro config applied started
  rw [same, applied] at started
  cases started

theorem Startup.runs_advance (others : World → World → Prop) (n : Nat)
    (p : Program World (Except ReloadError DynamicConfig)) (w : World) :
    Relation.ReflTransGen (TimelyStep crates settings others) ⟨w, .applying p, none⟩
      ⟨(p.advance n w).2, .applying (p.advance n w).1, none⟩ := by
  induction n generalizing p w with
  | zero => cases p <;> exact .refl
  | succ n ih =>
    cases p with
    | ret value => exact .refl
    | act update next => exact .head ⟨.apply, nofun⟩ (ih (next w) (update w))

theorem Startup.runs_applied (others : World → World → Prop)
    {p : Program World (Except ReloadError DynamicConfig)} {w : World}
    (usable : (p.run w).1 = .ok config) :
    Relation.ReflTransGen (TimelyStep crates settings others) ⟨w, .applying p, none⟩
      ⟨(p.run w).2, .applied config, none⟩ := by
  induction p generalizing w with
  | ret value =>
    cases usable
    exact .single ⟨.applied, nofun⟩
  | act update next ih => exact .head ⟨.apply, nofun⟩ (ih w usable)

theorem Startup.runs_initial (others : World → World → Prop) {w : World}
    (usable : (Fallible.exec (applyInitial crates settings) w).1 = .ok config) :
    Relation.ReflTransGen (TimelyStep crates settings others) ⟨w, .waiting, none⟩
      ⟨(Fallible.exec (applyInitial crates settings) w).2, .applied config, none⟩ :=
  .head ⟨.lock, nofun⟩ (runs_applied others usable)

theorem Startup.runs_reload (others : World → World → Prop) (phase : StartPhase)
    (p : Program World Unit) (w : World) :
    Relation.ReflTransGen (TimelyStep crates settings others) ⟨w, phase, some p⟩
      ⟨(p.run w).2, phase, none⟩ := by
  induction p generalizing w with
  | ret value => exact .single ⟨.release, timely_of_same_phase rfl⟩
  | act update next ih => exact .head ⟨.act, timely_of_same_phase rfl⟩ (ih w (update w))

theorem Startup.runs_plain (others : World → World → Prop) {w : World}
    (usable : (Fallible.exec (applyInitial crates settings) w).1 = .ok config)
    (serving : (Fallible.exec (applyInitial crates settings) w).2.journal.serving = some config) :
    Relation.ReflTransGen (TimelyStep crates settings others) ⟨w, .waiting, none⟩
      ⟨beginChecks settings config (Fallible.exec (applyInitial crates settings) w).2, .started,
        none⟩ := by
  refine .tail (runs_initial others usable) ⟨.check, ?_⟩
  rintro config ⟨⟩ _ key
  rw [wantedChecks, serving]

theorem Startup.runs_triggered (others : World → World → Prop) (w : World) :
    Relation.ReflTransGen (TimelyStep crates settings others) ⟨w, .started, none⟩
      ⟨((Gfe.reload crates settings).run w).2, .started, none⟩ :=
  .head ⟨.trigger nofun, timely_of_same_phase rfl⟩ (runs_reload others _ _ w)

/-- A start that a whole reload comes between: once its config is applied the
    world changes to `w'`, the reload runs, and then it reconciles. -/
theorem Startup.runs_overtaken {w w' : World}
    (usable : (Fallible.exec (applyInitial crates settings) w).1 = .ok config)
    (changed : others (Fallible.exec (applyInitial crates settings) w).2 w') :
    Relation.ReflTransGen (Step crates settings others) ⟨w, .waiting, none⟩
      ⟨beginChecks settings config ((Gfe.reload crates settings).run w').2, .started, none⟩ := by
  refine .trans (untimed (runs_initial others usable)) ?_
  refine .head (.others changed) (.head (.trigger nofun) (.tail ?_ .check))
  exact untimed (runs_reload others _ _ w')

variable (crates settings)

/-- In every run of a start beside reloads in which the starting thread
    reconciles in time, once the start and the reloads are over, the probe loops
    are those of the config being served. -/
theorem checks_in_step_after_start (others : World → World → Prop)
    (outsiders : ∀ w w', others w w' → w'.journal.serving = w.journal.serving ∧
      w'.node.checker = w.node.checker ∧ w'.journal.checksBegun = w.journal.checksBegun)
    (w : World) (fresh : w.journal.checksBegun = false) (s : Startup)
    (run : Relation.ReflTransGen (Startup.TimelyStep crates settings others) ⟨w, .waiting, none⟩ s)
    (started : s.phase = .started) (done : s.reload = none) : InStep settings s.world := by
  have sound : s.Sound settings := by
    clear started done
    induction run with
    | refl =>
      refine ⟨?_, nofun, nofun, fun _ begun => ?_⟩
      · rw [fresh]
        exact ⟨nofun, nofun⟩
      · rw [fresh] at begun
        cases begun
    | tail _ last ih => exact ih.step outsiders last.1 last.2
  exact sound.free done (sound.begun.mpr started)

end Startup

/-! ## A start that is overtaken -/

/-- One pool with one backend, and a listener that forwards every request to it. -/
def poolOn (host : Str) : DynamicConfig where
  certificates := []
  listeners := [.loopback ['l'] 80]
  routes := [⟨⟨['r']⟩, ⟨['l']⟩, ['*'], ['/'], .forward ['p']⟩]
  pools := [⟨⟨['p']⟩, .http, .roundRobin, [⟨host, 80, 1⟩], none, none, none⟩]

/-- A host whose config file holds this config of the list. -/
def deployed (index : UInt8) : Host :=
  .small [(⟨['c']⟩, ⟨none, .ok [index]⟩)] (.error .notFound) []

def twoPools : Crates := .indexed [poolOn ['x'], poolOn ['y']]

theorem applyInitial_twoPools :
    (Fallible.exec (applyInitial twoPools (.small none)) (World.starting (deployed 0) ∅)).1 =
      .ok (poolOn ['x']) := by
  decide +kernel

/-- A node that serves one backend and probes it, with a config on its disk that has another. -/
def replaced : World :=
  { beginChecks (.small none) (poolOn ['x'])
      (Fallible.exec (applyInitial twoPools (.small none)) (World.starting (deployed 0) ∅)).2 with
    host := deployed 1 }

theorem Startup.runs_replaced :
    Relation.ReflTransGen (TimelyStep twoPools (.small none)
        fun w w' => w'.node = w.node ∧ w'.journal = w.journal)
      ⟨World.starting (deployed 0) ∅, .waiting, none⟩ ⟨replaced, .started, none⟩ :=
  (runs_plain _ applyInitial_twoPools (by decide +kernel)).tail
    ⟨.others ⟨rfl, rfl⟩, timely_of_same_phase rfl⟩

theorem checks_in_step_after_replacement :
    let reloaded := ((reload twoPools (.small none)).run replaced).2
    reloaded.journal.serving = some (poolOn ['y']) ∧ InStep (.small none) reloaded := by
  have run := Startup.runs_replaced.trans (Startup.runs_triggered _ replaced)
  refine ⟨by decide +kernel, checks_in_step_after_start _ _ _ ?_ _ rfl _ run rfl rfl⟩
  rintro w w' ⟨node, journal⟩
  exact ⟨congrArg _ journal, congrArg _ node, congrArg _ journal⟩

/-- The node when its first config is applied and the file has changed since. -/
def overtaken : World :=
  { (Fallible.exec (applyInitial twoPools (.small none)) (World.starting (deployed 0) ∅)).2 with
    host := deployed 1 }

/-- The config file changes while the node starts: the reload is over before the
    starting thread reconciles, with the config it applied. -/
theorem checks_out_of_step_after_overtaken_start :
    ∃ s, Relation.ReflTransGen (Startup.Step twoPools (.small none)
          fun w w' => w'.node = w.node ∧ w'.journal = w.journal)
        ⟨World.starting (deployed 0) ∅, .waiting, none⟩ s ∧
      s.phase = .started ∧ s.reload = none ∧ ¬ InStep (.small none) s.world := by
  have run : Relation.ReflTransGen (Startup.Step twoPools (.small none)
        fun w w' => w'.node = w.node ∧ w'.journal = w.journal)
      ⟨World.starting (deployed 0) ∅, .waiting, none⟩
      ⟨beginChecks (.small none) (poolOn ['x']) ((reload twoPools (.small none)).run overtaken).2,
        .started, none⟩ := Startup.runs_overtaken applyInitial_twoPools ⟨rfl, rfl⟩
  refine ⟨_, run, rfl, rfl, fun inStep => absurd (inStep (['x'], 80)) ?_⟩
  decide +kernel

end Gfe
