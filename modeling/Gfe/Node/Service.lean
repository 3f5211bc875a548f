import Gfe.Node.Upgrade

/-! # A node under its service manager

The service manager and whoever probes the node know nothing of upgrades. The manager takes
one process for the service and is told by it which one comes next; a probe is answered by
whichever process has its connection. Processes take their steps in any order. One that is
killed, and a message to the manager that is not delivered, are left out.
-/

namespace Gfe.Run

open Interleaving

/-! ## One process -/

/-- Where `run` is. -/
inductive Stage where
  | starting
  | serving
  | upgrading (successor : Nat)
  /-- A successor has taken over. -/
  | replaced
  | stopping
  | gone

structure Process where
  /-- Whether it was started to take over from another one. -/
  takesOver : Bool
  stage : Stage
  /-- Whether it has told the manager, or its predecessor, that it is ready. -/
  released : Bool
  /-- Whether the ops endpoints were ever served. -/
  answers : Bool
  /-- Whether the endpoints were told that the node serves. -/
  frontend : Bool
  handedOver : Bool
  draining : Bool
  stopAsked : Bool

def Process.new (takesOver : Bool) : Process :=
  ⟨takesOver, .starting, false, false, false, false, false, false⟩

inductive Act where
  | own
  | upgrade (successor : Nat)
  | replaced (successor : Nat)

/-- The steps of `run`. A process that takes over serves the ops endpoints once it is ready;
    any other does so at once, if it can listen for them. -/
inductive Process.Step (p : Process) : Act → Process → Prop where
  | listen : p.stage = .starting → p.takesOver = false ∨ p.frontend = true →
      Step p .own { p with answers := true }
  | started : p.stage = .starting → Step p .own { p with frontend := true }
  | ready : p.stage = .starting → p.frontend = true →
      Step p .own { p with stage := .serving, released := true }
  | fails : p.stage = .starting → Step p .own { p with stage := .gone }
  | upgrade (successor : Nat) : p.stage = .serving →
      Step p (.upgrade successor) { p with stage := .upgrading successor }
  | upgradeFails {successor} : p.stage = .upgrading successor →
      Step p .own { p with stage := .serving }
  /-- It tells the manager which process the service is. -/
  | replaced {successor} : p.stage = .upgrading successor →
      Step p (.replaced successor) { p with stage := .replaced }
  | stopOps : p.stage = .replaced → Step p .own { p with handedOver := true }
  | stop : p.stage = .serving ∨ (∃ successor, p.stage = .upgrading successor) →
      Step p .own { p with stage := .stopping, stopAsked := true }
  | drain : p.stage = .stopping ∨ p.stage = .replaced ∧ p.handedOver = true →
      Step p .own { p with draining := true }
  | exit : p.stage = .stopping ∨ p.stage = .replaced → p.draining = true →
      Step p .own { p with stage := .gone }

def Process.Moves (p p' : Process) : Prop := ∃ act, p.Step act p'

/-- `/readyz`: whether the answer is that the node is ready. -/
def readyz : Program Process Bool := do
  let handedOver ← Program.read (·.handedOver)
  if handedOver then return true
  else
    let frontend ← Program.read (·.frontend)
    if frontend then
      let draining ← Program.read (·.draining)
      return !draining
    else return false

/-! ## What probes are told -/

/-- What holds of a process at any moment. -/
structure Process.Sound (p : Process) : Prop where
  draining : p.draining = true → p.stopAsked = true ∨ p.handedOver = true
  stopping : p.stage = .stopping → p.stopAsked = true
  answers : p.answers = true → p.takesOver = false ∨ p.frontend = true
  starting : p.stage = .starting → p.released = false

theorem sound_new (takesOver : Bool) : (Process.new takesOver).Sound :=
  ⟨nofun, nofun, nofun, fun _ => rfl⟩

theorem Process.Step.sound {p q : Process} {act : Act} (step : p.Step act q) (sound : p.Sound) :
    q.Sound := by
  obtain ⟨draining, stopping, answers, starting⟩ := sound
  cases step with
  | listen _ early => exact ⟨draining, stopping, fun _ => early, starting⟩
  | started => exact ⟨draining, stopping, fun _ => .inr rfl, starting⟩
  | drain leaving => exact ⟨fun _ => leaving.imp stopping And.right, stopping, answers, starting⟩
  | stopOps => exact ⟨fun _ => .inr rfl, stopping, answers, starting⟩
  | stop => exact ⟨fun _ => .inl rfl, fun _ => rfl, answers, nofun⟩
  | ready | fails | upgrade | upgradeFails | replaced | exit =>
    exact ⟨draining, nofun, answers, nofun⟩

/-- What is once so stays so. -/
structure Process.Later (p q : Process) : Prop where
  sound : p.Sound → q.Sound
  frontend : p.frontend = true → q.frontend = true
  stopAsked : p.stopAsked = true → q.stopAsked = true
  handedOver : p.handedOver = true → q.handedOver = true

def later : Rely Process where
  may := Process.Later
  refl _ := ⟨id, id, id, id⟩
  trans first second := ⟨second.sound ∘ first.sound, second.frontend ∘ first.frontend,
    second.stopAsked ∘ first.stopAsked, second.handedOver ∘ first.handedOver⟩

theorem Process.Moves.later {p q : Process} (moved : p.Moves q) : p.Later q := by
  obtain ⟨act, step⟩ := moved
  refine ⟨step.sound, ?_, ?_, ?_⟩
  all_goals
    intro so
    cases step with
    | _ => first | exact so | rfl

theorem sound_of_run {takesOver : Bool} {p : Process}
    (run : Relation.ReflTransGen Process.Moves (.new takesOver) p) : p.Sound := by
  induction run with
  | refl => exact sound_new takesOver
  | tail _ moved ih => exact moved.later.sound ih

/-- Whoever is told that the node is not ready has asked one that is not up yet, or is leaving. -/
theorem ensures_readyz {p : Process} (sound : p.Sound) :
    readyz.Ensures later (fun ready q => ready = false → p.handedOver = false ∧
      (p.frontend = false ∨ q.stopAsked = true ∨ q.handedOver = true)) p := by
  apply Program.Ensures.bind
  apply Program.Ensures.read
  intro t u first second
  split
  · exact .ret fun _ _ told => nomatch told
  · rename_i kept
    have before : p.handedOver = false :=
      Bool.eq_false_iff.mpr fun already => kept (first.handedOver already)
    apply Program.Ensures.bind
    apply Program.Ensures.read
    intro v w third fourth
    split
    · apply Program.Ensures.bind
      apply Program.Ensures.read
      intro x y fifth sixth
      refine .ret fun z last told => ⟨before, .inr ?_⟩
      have found := later.trans first (later.trans second (later.trans third
        (later.trans fourth fifth)))
      have left := (found.sound sound).draining (by simpa using told)
      exact left.imp (later.trans sixth last).stopAsked (later.trans sixth last).handedOver
    · rename_i down
      refine .ret fun z last told => ⟨before, .inl (Bool.eq_false_iff.mpr fun up => down ?_)⟩
      exact (later.trans first (later.trans second third)).frontend up

/-- Who asks a node that serves the endpoints is told that it is not ready only before it is up
    for the first time, when it is asked to stop, or when a successor takes over while the
    question is being answered. One that takes over never says so before it leaves. -/
theorem not_ready_only_when_leaving {takesOver : Bool} {p q : Process}
    (run : Relation.ReflTransGen Process.Moves (.new takesOver) p) (served : p.answers = true)
    (asked : Program.Steps Process.Moves (readyz, p) (.ret false, q)) :
    p.handedOver = false ∧ (p.takesOver = false ∧ p.frontend = false ∨ q.stopAsked = true ∨
      q.handedOver = true) := by
  have sound := sound_of_run run
  obtain ⟨before, why⟩ := (ensures_readyz sound).sound (fun _ _ => Process.Moves.later) asked rfl
  refine ⟨before, why.imp ?_ id⟩
  intro down
  exact ⟨(sound.answers served).resolve_right (by simp [down]), down⟩

/-- A successor takes over between the first thing the answer looks at and the last. -/
theorem not_ready_only_when_leaving_replaced : ∃ p q : Process, p.stage = .upgrading 1 ∧
    Program.Steps Process.Moves (readyz, p) (.ret false, q) ∧ q.stopAsked = false ∧
      q.handedOver = true := by
  let up (stage : Stage) (handedOver draining : Bool) : Process :=
    ⟨false, stage, true, true, true, handedOver, draining, false⟩
  have run : Relation.ReflTransGen Process.Moves (.new false) (up (.upgrading 1) false false) :=
    .head ⟨_, .listen rfl (.inl rfl)⟩ (.head ⟨_, .started rfl⟩ (.head ⟨_, .ready rfl rfl⟩
      (.single ⟨_, .upgrade 1 rfl⟩)))
  have asked : Program.Steps Process.Moves (readyz, up (.upgrading 1) false false)
      (.ret false, up .replaced true true) :=
    .head (.act _ _ _) (.head (.env ⟨_, .replaced rfl⟩) (.head (.env ⟨_, .stopOps rfl⟩)
      (.head (.env ⟨_, .drain (.inr ⟨rfl, rfl⟩)⟩) (.head (.act _ _ _) (.single (.act _ _ _))))))
  have why := (not_ready_only_when_leaving run rfl asked).2
  exact ⟨_, _, rfl, asked, rfl, (why.resolve_left nofun).resolve_left nofun⟩

/-! ## All of them -/

/-- The processes in the order they are started. -/
structure Service where
  processes : Nat → Process
  started : Nat
  /-- The one the manager takes for the service. -/
  main : Nat

def Service.new : Service := ⟨fun k => .new (k ≠ 0), 1, 0⟩

/-- The manager asks the process it knows to upgrade, and listens to no other. `hand_over`
    succeeds once the successor has said that it is ready. -/
inductive Service.Step (s : Service) : Service → Prop where
  | own {k p} : k < s.started → (s.processes k).Step .own p →
      Step s { s with processes := Function.update s.processes k p }
  | upgrade {p} : (s.processes s.main).Step (.upgrade s.started) p →
      Step s { s with
        processes := Function.update s.processes s.main p
        started := s.started + 1 }
  | replaced {k n p} : (s.processes k).Step (.replaced n) p → (s.processes n).released = true →
      Step s { s with
        processes := Function.update s.processes k p
        main := if s.main = k then n else s.main }

/-! ## Why a successor is taken for the service

The steps of the service leave out what the two processes of an upgrade say to each other. That
a node is replaced only by a successor that is released is what `hand_over` comes to.
-/

/-- Where `run` is, by where the predecessor is in its upgrade to process `n`. -/
def Stage.ofUpgrade (n : Nat) : Upgrade.Main → Stage
  | .serving => .serving
  | .upgrading | .leaving (some _) => .upgrading n
  | .draining (.replaced _) => .replaced
  | .leaving none | .draining _ => .stopping
  | .stopped _ => .gone

/-- Process `k` is the node of the upgrade. Process `n` is its successor, and is released once it
    has written that it is ready. -/
structure Service.Shows (t : Service) (k n : Nat) (s : Upgrade.State) : Prop where
  started : k < t.started
  stage : (t.processes k).stage = .ofUpgrade n s.main
  released : Upgrade.Confirmed s.exchange.written → (t.processes n).released = true

/-- What the node makes of the result of `hand_over`, in any run of an upgrade, is a step of the
    service. -/
theorem Service.Shows.returns {t : Service} {k n : Nat} {s : Upgrade.State} (shows : t.Shows k n s)
    {pid : UInt32} {old : ListenerSet} (reachable : Upgrade.Reachable old)
    {allowed : Upgrade.Event → Upgrade.State → Prop} (run : Upgrade.Runs pid allowed (.new old) s)
    {result : Except Upgrade.WaitError UInt32} (left : s.main = .leaving (some result)) :
    ∃ t', t.Step t' ∧ (t'.processes k).stage = .ofUpgrade n (.after result) := by
  have upgrading : (t.processes k).stage = .upgrading n := by
    rw [shows.stage, left]
    rfl
  cases result with
  | error error =>
    exact ⟨_, .own shows.started (.upgradeFails upgrading), congrArg _ (Function.update_self ..)⟩
  | ok successor =>
    have sound := Upgrade.State.sound_of_runs reachable run
    have ended : s.wait = some (.ended (.ok successor)) := by
      have reported := sound.reported
      rw [left] at reported
      exact reported
    have confirmed : Upgrade.Confirmed s.exchange.written := by
      have read := sound.read
      rw [ended] at read
      exact read
    exact ⟨_, .replaced (.replaced upgrading) (shows.released confirmed),
      congrArg _ (Function.update_self ..)⟩

/-! ## The process that is the service -/

/-- It leaves only if it is asked to, or was never ready. -/
structure Process.Kept (p : Process) : Prop where
  sound : p.Sound
  unreplaced : p.stage ≠ .replaced
  gone : p.stage = .gone → p.stopAsked = true ∨ p.released = false

structure Service.Sound (s : Service) : Prop where
  kept : ∀ k, s.main ≤ k → (s.processes k).Kept
  only : ∀ k n, (s.processes k).stage = .upgrading n → k = s.main ∧ s.main < n ∧ n < s.started
  started : s.main < s.started
  ready : s.main = 0 ∨ (s.processes s.main).released = true

theorem Process.Step.kept {p q : Process} {act : Act} (step : p.Step act q) (kept : p.Kept)
    (still : ∀ n, act ≠ .replaced n) : q.Kept := by
  refine ⟨step.sound kept.sound, ?_, ?_⟩
  · cases step with
    | replaced => exact absurd rfl (still _)
    | listen | started | stopOps | drain => exact kept.unreplaced
    | ready | fails | upgrade | upgradeFails | stop | exit => exact nofun
  · cases step with
    | fails starting => exact fun _ => .inr (kept.sound.starting starting)
    | exit leaving =>
      exact fun _ => .inl (kept.sound.stopping (leaving.resolve_right kept.unreplaced))
    | listen | started | stopOps | drain => exact kept.gone
    | ready | upgrade | upgradeFails | replaced | stop => exact nofun

theorem Process.Step.released {p q : Process} {act : Act} (step : p.Step act q)
    (released : p.released = true) : q.released = true := by
  cases step with
  | ready => rfl
  | _ => exact released

theorem Process.Step.of_upgrading {p q : Process} {act : Act} {n : Nat} (step : p.Step act q)
    (upgrading : q.stage = .upgrading n) : p.stage = .upgrading n ∨ act = .upgrade n := by
  cases step with
  | listen | started | stopOps | drain => exact .inl upgrading
  | upgrade => exact .inr (congrArg _ (Stage.upgrading.inj upgrading))
  | ready | fails | upgradeFails | replaced | stop | exit => cases upgrading

section

variable {s : Service} {k : Nat} {act : Act} {p : Process}

theorem Service.Sound.update (sound : s.Sound) (step : (s.processes k).Step act p)
    (still : ∀ n, act ≠ .replaced n) :
    (∀ j, s.main ≤ j → (Function.update s.processes k p j).Kept) ∧
      (s.main = 0 ∨ (Function.update s.processes k p s.main).released = true) := by
  simp only [Function.update_apply]
  constructor
  · intro j above
    split
    · rename_i same
      exact step.kept (sound.kept k (same ▸ above)) still
    · exact sound.kept j above
  · refine sound.ready.imp_right fun released => ?_
    split
    · rename_i same
      exact step.released (same ▸ released)
    · exact released

theorem Service.Sound.only_update (sound : s.Sound) (step : (s.processes k).Step act p) {j n : Nat}
    (upgrading : (Function.update s.processes k p j).stage = .upgrading n) :
    (j = s.main ∧ s.main < n ∧ n < s.started) ∨ j = k ∧ act = .upgrade n := by
  rw [Function.update_apply] at upgrading
  split at upgrading
  · rename_i same
    subst same
    exact (step.of_upgrading upgrading).imp (sound.only j n) fun asked => ⟨rfl, asked⟩
  · exact .inl (sound.only j n upgrading)

end

theorem Service.Step.sound {s t : Service} (step : s.Step t) (sound : s.Sound) : t.Sound := by
  cases step with
  | own _ step =>
    obtain ⟨kept, ready⟩ := sound.update step nofun
    refine ⟨kept, fun j n upgrading => ?_, sound.started, ready⟩
    exact (sound.only_update step upgrading).resolve_right nofun
  | upgrade step =>
    obtain ⟨kept, ready⟩ := sound.update step nofun
    refine ⟨kept, fun j n upgrading => ?_, Nat.lt_succ_of_lt sound.started, ready⟩
    obtain ⟨same, newer, known⟩ | ⟨same, asked⟩ := sound.only_update step upgrading
    · exact ⟨same, newer, Nat.lt_succ_of_lt known⟩
    · cases asked
      exact ⟨same, sound.started, Nat.lt_succ_self _⟩
  | @replaced k n p step released =>
    have leaves : (s.processes k).stage = .upgrading n ∧ p.stage = .replaced := by
      cases step with
      | replaced upgrading => exact ⟨upgrading, rfl⟩
    obtain ⟨rfl, newer, known⟩ := sound.only k n leaves.1
    -- nobody from the successor on has changed
    have same : ∀ j, n ≤ j → Function.update s.processes s.main p j = s.processes j := by
      intro j above
      rw [Function.update_apply, if_neg (by omega)]
    rw [if_pos rfl]
    refine ⟨?_, ?_, known, .inr ?_⟩ <;> dsimp only
    · intro j above
      exact (same j above).symm ▸ sound.kept j (by omega)
    · intro j m upgrading
      obtain ⟨rfl, _⟩ | ⟨_, asked⟩ := sound.only_update step upgrading
      · rw [Function.update_self, leaves.2] at upgrading
        cases upgrading
      · cases asked
    · rw [same n (Nat.le_refl n), released]

/-- However many upgrades succeed and fail, the process the manager takes for the service has
    been ready, and it serves until it is asked to stop. -/
theorem main_process_serves {s : Service}
    (run : Relation.ReflTransGen Service.Step .new s) :
    (s.main = 0 ∨ (s.processes s.main).released = true) ∧
      ((s.processes s.main).released = true → (s.processes s.main).stopAsked = false →
        (s.processes s.main).stage = .serving ∨
          ∃ successor, (s.processes s.main).stage = .upgrading successor) := by
  have sound : s.Sound := by
    induction run with
    | refl => exact ⟨fun k _ => ⟨sound_new _, nofun, nofun⟩, nofun, Nat.one_pos, .inl rfl⟩
    | tail _ step ih => exact step.sound ih
  have kept := sound.kept _ (Nat.le_refl _)
  refine ⟨sound.ready, fun released unasked => ?_⟩
  cases stage : (s.processes s.main).stage with
  | serving => exact .inl rfl
  | upgrading successor => exact .inr ⟨successor, rfl⟩
  | starting => simp [kept.sound.starting stage] at released
  | replaced => exact absurd stage kept.unreplaced
  | stopping => simp [kept.sound.stopping stage] at unasked
  | gone => simpa [released, unasked] using kept.gone stage

/-- After an upgrade the successor is the service. -/
theorem main_process_serves_upgraded : ∃ s : Service, s.main = 1 ∧
    (s.processes 0).stage = .replaced ∧ ((s.processes 1).stage = .serving ∨
      ∃ successor, (s.processes 1).stage = .upgrading successor) := by
  have run : Relation.ReflTransGen Service.Step .new _ :=
    .head (.own Nat.one_pos (.started rfl)) (.head (.own Nat.one_pos (.ready rfl rfl))
      (.head (.upgrade (.upgrade 1 rfl)) (.head (.own Nat.one_lt_two (.started rfl))
        (.head (.own Nat.one_lt_two (.ready rfl rfl))
          (.single (@Service.Step.replaced _ 0 1 _ (.replaced rfl) rfl))))))
  exact ⟨_, rfl, rfl, (main_process_serves run).2 rfl rfl⟩

end Gfe.Run
