import Gfe.Reload.Startup

/-! # Watching the config file

The watcher of the config file queues a change and drops it when the queue is full.
Its task takes what is queued, waits until the file has been quiet for a while and
reloads, once. It is there before the first config is applied, and what it asks for
before that is ignored.
-/

namespace Gfe

open Interleaving

variable {w w' : World} {update : World → World}

/-! ## Events -/

inductive AccessKind where
  | closeWrite
  | other

inductive EventKind where
  | access (kind : AccessKind)
  | metadata
  /-- Creation, removal, new data, a new name, and what cannot be classified. -/
  | other

def mayChangeContent : EventKind → Bool
  | .access .closeWrite => true
  | .access .other => false
  | .metadata => false
  | .other => true

/-- What the directory of the config file reports, by the names of the files. -/
structure FileEvent where
  kind : EventKind
  names : List (Option Str)

/-- Whether it is a change of the file that is watched. -/
def FileEvent.counts (event : FileEvent) (target : Option Str) : Bool :=
  event.names.any (· == target) && mayChangeContent event.kind

/-! ## The task -/

/-- How many events the queue holds. -/
def queueSize : Nat := 16

inductive WatchTask where
  /-- It waits for an event. -/
  | waiting
  /-- It waits for the file to be quiet. -/
  | debouncing
  /-- It calls `reload`. -/
  | calling

/-- Who holds the lock of the reloads, but for the starting thread. -/
inductive LockHolder where
  | nobody
  | watcher (rest : Program World Unit)
  | poller (rest : Program World Unit)

structure Watched where
  world : World
  start : StartPhase
  lock : LockHolder
  task : WatchTask
  queue : Nat
  /-- When the last change was reported. -/
  lastEvent : Nat

/-- What everyone else leaves alone: nobody else reads the config file. -/
structure Outside (w w' : World) : Prop where
  now : w.journal.now ≤ w'.journal.now
  configReadAt : w'.journal.configReadAt = w.journal.configReadAt
  tracked : w'.node.tracked = w.node.tracked

def World.tick (w : World) : World := w.setJournal fun j => { j with now := j.now + 1 }

namespace Watched

def installed (w : World) : Watched := ⟨w, .waiting, .nobody, .waiting, 0, 0⟩

def notice (s : Watched) (target : Option Str) (event : FileEvent) : Watched :=
  if event.counts target then
    { s with
      world := s.world.tick
      lastEvent := s.world.journal.now + 1
      queue := if s.queue < queueSize then s.queue + 1 else s.queue }
  else s

variable (crates : Crates) (settings : NodeConfig) (target : Option Str)

inductive Step : Watched → Watched → Prop where
  | others {s w} : Outside s.world w → Step s { s with world := w }
  | event {s} (event : FileEvent) : Step s (s.notice target event)
  | receive {s n} : s.task = .waiting → s.queue = n + 1 →
      Step s { s with task := .debouncing, queue := n }
  /-- The file is not quiet yet. -/
  | again {s n} : s.task = .debouncing → s.queue = n + 1 → Step s { s with queue := n }
  | quiet {s} : s.task = .debouncing → Step s { s with task := .calling }
  | reload {s} : s.task = .calling → s.lock = .nobody → (∀ rest, s.start ≠ .applying rest) →
      Step s { s with lock := .watcher (Gfe.reload crates settings) }
  | actWatcher {s update next} : s.lock = .watcher (.act update next) →
      Step s { s with world := update s.world, lock := .watcher (next s.world) }
  | releaseWatcher {s} : s.lock = .watcher (.ret ()) →
      Step s { s with lock := .nobody, task := .waiting }
  | poll {s} : s.start = .started → s.lock = .nobody →
      Step s { s with lock := .poller (reloadIfCertificatesChanged crates settings) }
  | actPoller {s update next} : s.lock = .poller (.act update next) →
      Step s { s with world := update s.world, lock := .poller (next s.world) }
  | releasePoller {s} : s.lock = .poller (.ret ()) → Step s { s with lock := .nobody }
  | begin {s} : s.start = .waiting → s.lock = .nobody →
      Step s { s with start := .applying (ExceptT.run (applyInitial crates settings)) }
  | apply {s update next} : s.start = .applying (.act update next) →
      Step s { s with world := update s.world, start := .applying (next s.world) }
  | applied {s config} : s.start = .applying (.ret (.ok config)) →
      Step s { s with start := .applied config }
  | failed {s error} : s.start = .applying (.ret (.error error)) →
      Step s { s with start := .failed error }
  | check {s config} : s.start = .applied config →
      Step s { s with world := beginChecks settings config s.world, start := .started }

def Runs : Watched → Watched → Prop := Relation.ReflTransGen (Step crates settings target)

/-- The starting thread has not read the config file, or has given up. -/
def Unready (s : Watched) : Prop :=
  s.start = .waiting ∨ s.start = .applying (ExceptT.run (applyInitial crates settings)) ∨
    ∃ error, s.start = .failed error

def Ready (s : Watched) : Prop := (∃ config, s.start = .applied config) ∨ s.start = .started

end Watched

/-! ## What reloads read -/

def besideWatcher : Rely World where
  may w w' := w.journal.now ≤ w'.journal.now ∧ w'.journal.configReadAt = w.journal.configReadAt ∧
    w'.node.tracked.following = w.node.tracked.following
  refl _ := ⟨le_rfl, rfl, rfl⟩
  trans first second := ⟨first.1.trans second.1, second.2.1.trans first.2.1,
    second.2.2.trans first.2.2⟩

theorem journal_reporting (moved : Reporting w w') :
    w'.journal = w.journal ∧ w'.node.tracked = w.node.tracked := by
  cases moved <;> exact ⟨rfl, rfl⟩

theorem journal_working (moved : Working w w') :
    w'.journal.now = w.journal.now ∧
      (w'.journal.configReadAt = w.journal.configReadAt ∨
        w'.journal.configReadAt = w.journal.now) ∧
      (w'.node.tracked.following = w.node.tracked.following ∨
        w'.node.tracked.following = true) := by
  have reported : Reporting w w' → _ := fun moved =>
    (⟨congrArg Journal.now (journal_reporting moved).1,
      .inl (congrArg Journal.configReadAt (journal_reporting moved).1),
      .inl (congrArg Tracked.following (journal_reporting moved).2)⟩ : w'.journal.now = w.journal.now ∧
        (w'.journal.configReadAt = w.journal.configReadAt ∨
          w'.journal.configReadAt = w.journal.now) ∧
        (w'.node.tracked.following = w.node.tracked.following ∨
          w'.node.tracked.following = true))
  cases moved with
  | reconcile => exact ⟨rfl, .inl rfl, .inl rfl⟩
  | follow => exact ⟨rfl, .inl rfl, .inr rfl⟩
  | poll moved =>
    cases moved with
    | report moved => exact reported moved
    | _ => exact ⟨rfl, .inl rfl, .inl rfl⟩
  | cache moved =>
    cases moved with
    | report moved => exact reported moved
    | _ => exact ⟨rfl, .inl rfl, .inl rfl⟩
  | apply moved =>
    cases moved with
    | swap moved =>
      cases moved with
      | settle moved => cases moved <;> exact ⟨rfl, .inl rfl, .inl rfl⟩
      | _ => exact ⟨rfl, .inl rfl, .inl rfl⟩
    | tentative moved =>
      cases moved with
      | load => exact ⟨rfl, .inr rfl, .inl rfl⟩
      | remember => exact ⟨rfl, .inl rfl, .inl rfl⟩
      | prepare moved => cases moved <;> exact ⟨rfl, .inl rfl, .inl rfl⟩
      | stage moved => cases moved <;> exact ⟨rfl, .inl rfl, .inl rfl⟩

theorem read_working (moved : Working w w') {n : Nat} (past : n ≤ w.journal.now)
    (read : n ≤ w.journal.configReadAt) : n ≤ w'.journal.configReadAt := by
  obtain ⟨_, kept, _⟩ := journal_working moved
  cases kept with
  | inl same => rw [same]; exact read
  | inr now => rw [now]; exact past

theorem keeps_read {α : Type} {p : Program World α} (moves : p.Moves Working) (n : Nat) :
    p.Keeps besideWatcher fun w => n ≤ w.journal.now ∧ n ≤ w.journal.configReadAt := by
  apply moves.keeps
  · intro w w' moved held
    obtain ⟨now, read, _⟩ := moved
    exact ⟨held.1.trans now, read ▸ held.2⟩
  · intro w w' moved held
    refine ⟨?_, read_working moved held.1 held.2⟩
    rw [(journal_working moved).1]
    exact held.1

theorem reads_reloadLocked (crates : Crates) (settings : NodeConfig) :
    ∃ next, reloadLocked crates settings =
      .act (fun w => w.setJournal fun j => { j with configReadAt := j.now }) next :=
  ⟨_, rfl⟩

theorem reads_applyInitial (crates : Crates) (settings : NodeConfig) :
    ∃ next, ExceptT.run (applyInitial crates settings) =
      .act (fun w => w.setJournal fun j => { j with configReadAt := j.now }) next :=
  ⟨_, rfl⟩

/-- A reload of a node that follows changes reads what was there when it began. -/
theorem ensures_reload_read {crates : Crates} {settings : NodeConfig} {w : World} {n : Nat}
    (following : w.node.tracked.following = true) (past : n ≤ w.journal.now) :
    (reload crates settings).Ensures besideWatcher (fun _ w => n ≤ w.journal.configReadAt) w := by
  apply Program.Ensures.bind
  apply Program.Ensures.read
  intro u v first second
  dsimp only
  rw [first.2.2, following, if_pos rfl]
  obtain ⟨next, reads⟩ := reads_reloadLocked crates settings
  have moves := moves_reloadLocked crates settings
  rw [reads] at moves ⊢
  intro x third
  have past : n ≤ x.journal.now := past.trans (first.1.trans (second.1.trans third.1))
  have kept := keeps_read (moves x).2 n
    (x.setJournal fun j => { j with configReadAt := j.now }) ⟨past, past⟩
  exact kept.weaken fun _ _ held => held.2

theorem ensures_applyInitial_following {crates : Crates} {settings : NodeConfig} (w : World) :
    Fallible.Ensures besideWatcher (applyInitial crates settings)
      (fun _ w => w.node.tracked.following = true) (fun _ _ => True) w := by
  have follows (config : DynamicConfig) (w : World) : Fallible.Ensures besideWatcher
      (do (startFollowing : Program World Unit); return config : Fallible World ReloadError DynamicConfig)
      (fun _ w => w.node.tracked.following = true) (fun _ _ => True) w := by
    apply Fallible.Ensures.bind
    apply Fallible.Ensures.lift
    apply Program.Ensures.write
    intro u v _ second
    apply Fallible.Ensures.pure
    intro x third
    exact third.2.2.trans second.2.2
  apply Fallible.Ensures.bindAny
  intro deployed w
  cases deployed with
  | ok config =>
    apply Fallible.Ensures.bindAny
    intro _ w
    apply Fallible.Ensures.bindAny
    intro _ w
    exact follows config w
  | error unusable =>
    dsimp only
    split
    · rename_i path _
      apply Fallible.Ensures.bindAny
      intro _ w
      apply Fallible.Ensures.bindAny
      intro config w
      apply Fallible.Ensures.bindAny
      intro _ w
      apply Fallible.Ensures.bindAny
      intro _ w
      apply Fallible.Ensures.bindAny
      intro _ w
      exact follows config w
    · exact Fallible.Ensures.throw fun _ _ => True.intro

/-! ## What the task has seen to -/

namespace Watched

variable {crates : Crates} {settings : NodeConfig} {target : Option Str} {s s' : Watched}

/-- What holds at any time. -/
structure Sound (crates : Crates) (settings : NodeConfig) (s : Watched) : Prop where
  clock : s.lastEvent ≤ s.world.journal.now
  following : s.Ready → s.world.node.tracked.following = true
  applying : ∀ rest, s.start = .applying rest → s.lock = .nobody ∧ rest.Moves Working ∧
    rest.Ensures besideWatcher
      (fun result w => ∀ config, result = .ok config → w.node.tracked.following = true) s.world
  polling : ∀ rest, s.lock = .poller rest → rest.Moves Working
  /-- A reload under way will have read what was reported before it began; what was
      reported since is queued. -/
  reloading : ∀ rest, s.lock = .watcher rest → s.task = .calling ∧ rest.Moves Working ∧
    (s.Ready → ∃ n, rest.Ensures besideWatcher (fun _ w => n ≤ w.journal.configReadAt) s.world ∧
      (s.lastEvent ≤ n ∨ 0 < s.queue))
  idle : s.task = .waiting → s.queue = 0 →
    s.Unready crates settings ∨ s.lastEvent ≤ s.world.journal.configReadAt

theorem Sound.beside (sound : s.Sound crates settings) {w : World}
    (moved : besideWatcher.may s.world w) : Sound crates settings { s with world := w } := by
  obtain ⟨clock, following, applying, polling, reloading, idle⟩ := sound
  refine ⟨clock.trans moved.1, fun ready => moved.2.2.trans (following ready), ?_, polling, ?_, ?_⟩
  · intro rest here
    obtain ⟨free, moves, ends⟩ := applying rest here
    exact ⟨free, moves, ends.move moved⟩
  · intro rest here
    obtain ⟨task, moves, ends⟩ := reloading rest here
    refine ⟨task, moves, fun ready => ?_⟩
    obtain ⟨n, ensures, covered⟩ := ends ready
    exact ⟨n, ensures.move moved, covered⟩
  · intro waiting none
    cases idle waiting none with
    | inl unready => exact .inl unready
    | inr read => exact .inr (moved.2.1 ▸ read)

theorem Sound.notice (sound : s.Sound crates settings) (event : FileEvent) :
    (s.notice target event).Sound crates settings := by
  unfold Watched.notice
  split
  · have moved : besideWatcher.may s.world s.world.tick := ⟨Nat.le_succ _, rfl, rfl⟩
    have queued : 0 < if s.queue < queueSize then s.queue + 1 else s.queue := by
      split
      · omega
      · rename_i full
        unfold queueSize at full
        omega
    obtain ⟨_, following, applying, polling, reloading, _⟩ := sound.beside moved
    refine ⟨le_rfl, following, applying, polling, ?_, ?_⟩
    · intro rest here
      obtain ⟨task, moves, ends⟩ := reloading rest here
      refine ⟨task, moves, fun ready => ?_⟩
      obtain ⟨n, ensures, _⟩ := ends ready
      exact ⟨n, ensures, .inr queued⟩
    · intro _ none
      exact absurd none (Nat.ne_of_gt queued)
  · exact sound

theorem following_working (moved : Working w w')
    (following : w.node.tracked.following = true) : w'.node.tracked.following = true := by
  cases (journal_working moved).2.2 with
  | inl same => rw [same]; exact following
  | inr now => exact now

theorem clock_working (moved : Working w w') {n : Nat} (past : n ≤ w.journal.now) :
    n ≤ w'.journal.now := by
  rw [(journal_working moved).1]
  exact past

theorem Sound.task (sound : s.Sound crates settings) (task : WatchTask) (queue : Nat)
    (busy : task ≠ .waiting) (before : s.task ≠ .calling) :
    Sound crates settings { s with task := task, queue := queue } := by
  obtain ⟨clock, following, applying, polling, reloading, _⟩ := sound
  refine ⟨clock, following, applying, polling, ?_, fun waiting => absurd waiting busy⟩
  intro rest here
  exact absurd (reloading rest here).1 before

theorem Sound.reload (sound : s.Sound crates settings) (calling : s.task = .calling)
    (elsewhere : ∀ rest, s.start ≠ .applying rest) :
    Sound crates settings { s with lock := .watcher (Gfe.reload crates settings) } := by
  obtain ⟨clock, following, _, _, _, _⟩ := sound
  refine ⟨clock, following, fun rest here => absurd here (elsewhere rest), nofun, ?_, ?_⟩
  · intro rest same
    cases same
    exact ⟨calling, moves_reload crates settings, fun ready =>
      ⟨s.lastEvent, ensures_reload_read (following ready) clock, .inl le_rfl⟩⟩
  · intro waiting
    have : WatchTask.calling = .waiting := calling.symm.trans waiting
    cases this

theorem Sound.actWatcher (sound : s.Sound crates settings)
    {next : World → Program World Unit} (held : s.lock = .watcher (.act update next)) :
    Sound crates settings { s with
      world := update s.world, lock := .watcher (next s.world) } := by
  obtain ⟨clock, following, applying, _, reloading, _⟩ := sound
  obtain ⟨calling, moves, ends⟩ := reloading _ held
  have moved := (moves s.world).1
  refine ⟨clock_working moved clock, fun ready => following_working moved (following ready), ?_, nofun,
    ?_, ?_⟩
  · intro rest here
    rw [(applying rest here).1] at held
    cases held
  · intro rest same
    cases same
    refine ⟨calling, (moves s.world).2, fun ready => ?_⟩
    obtain ⟨n, ensures, covered⟩ := ends ready
    exact ⟨n, ensures s.world (besideWatcher.refl _), covered⟩
  · intro waiting
    have : WatchTask.calling = .waiting := calling.symm.trans waiting
    cases this

theorem Sound.releaseWatcher (sound : s.Sound crates settings) (held : s.lock = .watcher (.ret ())) :
    Sound crates settings { s with lock := .nobody, task := .waiting } := by
  obtain ⟨clock, following, applying, _, reloading, _⟩ := sound
  obtain ⟨_, _, ends⟩ := reloading _ held
  refine ⟨clock, following, ?_, nofun, nofun, ?_⟩
  · intro rest here
    obtain ⟨_, moves, ends⟩ := applying rest here
    exact ⟨rfl, moves, ends⟩
  · intro _ none
    have read (ready : s.Ready) : s.lastEvent ≤ s.world.journal.configReadAt := by
      obtain ⟨n, ensures, covered⟩ := ends ready
      have read : n ≤ s.world.journal.configReadAt := ensures s.world (besideWatcher.refl _)
      cases covered with
      | inl past => exact past.trans read
      | inr queued =>
        have none : s.queue = 0 := none
        omega
    cases phase : s.start with
    | waiting => exact .inl (.inl rfl)
    | applying rest =>
      rw [(applying rest phase).1] at held
      cases held
    | applied config => exact .inr (read (.inl ⟨config, phase⟩))
    | started => exact .inr (read (.inr phase))
    | failed error => exact .inl (.inr (.inr ⟨error, rfl⟩))

theorem Sound.actPoller (sound : s.Sound crates settings)
    {next : World → Program World Unit} (held : s.lock = .poller (.act update next)) :
    Sound crates settings { s with
      world := update s.world, lock := .poller (next s.world) } := by
  obtain ⟨clock, following, applying, polling, _, idle⟩ := sound
  have moves := polling _ held
  have moved := (moves s.world).1
  refine ⟨clock_working moved clock, fun ready => following_working moved (following ready), ?_, ?_,
    nofun, ?_⟩
  · intro rest here
    rw [(applying rest here).1] at held
    cases held
  · intro rest same
    cases same
    exact (moves s.world).2
  · intro waiting none
    cases idle waiting none with
    | inl unready => exact .inl unready
    | inr read => exact .inr (read_working moved clock read)

theorem Sound.apply (sound : s.Sound crates settings)
    {next : World → Program World (Except ReloadError DynamicConfig)}
    (here : s.start = .applying (.act update next)) :
    Sound crates settings { s with
      world := update s.world, start := .applying (next s.world) } := by
  obtain ⟨clock, _, applying, _, _, idle⟩ := sound
  obtain ⟨free, moves, ends⟩ := applying _ here
  have moved := (moves s.world).1
  refine ⟨clock_working moved clock, by simp [Ready], ?_, by simp [free], by simp [free], ?_⟩
  · intro rest same
    cases same
    exact ⟨free, (moves s.world).2, ends s.world (besideWatcher.refl _)⟩
  · intro waiting none
    right
    cases idle waiting none with
    | inr read => exact read_working moved clock read
    | inl unready =>
      -- the first thing the starting thread does is to read the file
      obtain ⟨first, reads⟩ := reads_applyInitial crates settings
      simp only [Unready, here, reads, reduceCtorEq, false_or, exists_false, or_false,
        StartPhase.applying.injEq, Program.act.injEq] at unready
      rw [unready.1]
      exact clock

theorem Sound.applied (sound : s.Sound crates settings) {config : DynamicConfig}
    (here : s.start = .applying (.ret (.ok config))) :
    Sound crates settings { s with start := .applied config } := by
  obtain ⟨clock, _, applying, _, _, idle⟩ := sound
  obtain ⟨free, _, ends⟩ := applying _ here
  refine ⟨clock, fun _ => ends s.world (besideWatcher.refl _) config rfl, nofun, by simp [free],
    by simp [free], ?_⟩
  · intro waiting none
    right
    cases idle waiting none with
    | inr read => exact read
    | inl unready =>
      obtain ⟨first, reads⟩ := reads_applyInitial crates settings
      simp [Unready, here, reads] at unready

theorem Sound.begin (sound : s.Sound crates settings) (free : s.lock = .nobody) :
    Sound crates settings { s with
      start := .applying (ExceptT.run (applyInitial crates settings)) } := by
  refine ⟨sound.clock, by simp [Ready], ?_, by simp [free], by simp [free],
    fun _ _ => .inl (.inr (.inl rfl))⟩
  intro rest same
  cases same
  refine ⟨free, moves_applyInitial crates settings, ?_⟩
  apply Program.Ensures.weaken (ensures_applyInitial_following s.world)
  intro result w held config same
  subst same
  exact held

theorem Sound.failed (sound : s.Sound crates settings)
    {rest : Program World (Except ReloadError DynamicConfig)} (here : s.start = .applying rest)
    (error : ReloadError) : Sound crates settings { s with start := .failed error } := by
  obtain ⟨clock, _, applying, polling, reloading, _⟩ := sound
  refine ⟨clock, by simp [Ready], nofun, polling, ?_, fun _ _ => .inl (.inr (.inr ⟨error, rfl⟩))⟩
  intro rest held
  rw [(applying _ here).1] at held
  cases held

theorem Sound.check (sound : s.Sound crates settings) {config : DynamicConfig}
    (here : s.start = .applied config) :
    Sound crates settings { s with
      world := beginChecks settings config s.world, start := .started } := by
  have moved : besideWatcher.may s.world (beginChecks settings config s.world) :=
    ⟨le_rfl, rfl, rfl⟩
  obtain ⟨clock, following, _, polling, reloading, idle⟩ := sound.beside moved
  have ready : Ready { s with world := beginChecks settings config s.world } := .inl ⟨config, here⟩
  refine ⟨clock, fun _ => following ready, nofun, polling, ?_, ?_⟩
  · intro rest held
    obtain ⟨calling, moves, ends⟩ := reloading rest held
    exact ⟨calling, moves, fun _ => ends ready⟩
  · intro waiting none
    right
    cases idle waiting none with
    | inr read => exact read
    | inl unready => simp [Unready, here] at unready

theorem Sound.step (sound : s.Sound crates settings) (step : Step crates settings target s s') :
    s'.Sound crates settings := by
  cases step with
  | others moved => exact sound.beside ⟨moved.now, moved.configReadAt, by rw [moved.tracked]⟩
  | event event => exact sound.notice event
  | receive waiting _ => exact sound.task .debouncing _ nofun (by rw [waiting]; exact nofun)
  | @again n debouncing _ =>
    have same := sound.task .debouncing n nofun (by rw [debouncing]; exact nofun)
    rw [← debouncing] at same
    exact same
  | quiet debouncing => exact sound.task .calling _ nofun (by rw [debouncing]; exact nofun)
  | reload calling _ elsewhere => exact sound.reload calling elsewhere
  | actWatcher held => exact sound.actWatcher held
  | releaseWatcher held => exact sound.releaseWatcher held
  | poll started _ =>
    obtain ⟨clock, following, applying, _, _, idle⟩ := sound
    refine ⟨clock, following, ?_, ?_, nofun, idle⟩
    · intro rest here
      rw [started] at here
      cases here
    · intro rest same
      cases same
      exact moves_poll crates settings
  | actPoller held => exact sound.actPoller held
  | releasePoller _ =>
    obtain ⟨clock, following, applying, _, _, idle⟩ := sound
    refine ⟨clock, following, ?_, nofun, nofun, idle⟩
    intro rest here
    exact ⟨rfl, (applying rest here).2⟩
  | begin _ free => exact sound.begin free
  | apply here => exact sound.apply here
  | applied here => exact sound.applied here
  | failed here => exact sound.failed here _
  | check here => exact sound.check here

theorem Sound.installed (w : World) : (installed w).Sound crates settings :=
  ⟨Nat.zero_le _, by simp [Ready, Watched.installed], nofun, nofun, nofun,
    fun _ _ => .inl (.inl rfl)⟩

theorem sound_of_runs {w : World} (run : Runs crates settings target (.installed w) s) :
    s.Sound crates settings := by
  induction run with
  | refl => exact .installed w
  | tail _ step sound => exact sound.step step

/-- While the task waits and nothing is queued, the config file was read after the last
    change, once the starting thread has read it and unless the start has failed. -/
theorem waiting_watcher_has_read {w : World}
    (run : Runs crates settings target (.installed w) s) (ready : ¬ s.Unready crates settings)
    (waiting : s.task = .waiting) (none : s.queue = 0) :
    s.lastEvent ≤ s.world.journal.configReadAt := by
  cases (sound_of_runs run).idle waiting none with
  | inl unready => exact absurd unready ready
  | inr read => exact read

/-! ## A change before the first config is applied -/

def changed : FileEvent := ⟨.other, [some ['c']]⟩

def early : World := .starting (.small [(⟨['c']⟩, ⟨none, .ok [0]⟩)] (.error .notFound) []) ∅

/-- The reload is ignored: the node does not follow the file yet. -/
def ignored : Watched := ⟨early.tick, .waiting, .nobody, .waiting, 0, 1⟩

theorem runs_ignored : Runs (.indexed []) (.small none) (some ['c']) (.installed early) ignored := by
  have noticed : Runs (.indexed []) (.small none) (some ['c']) (.installed early)
      ⟨early.tick, .waiting, .nobody, .waiting, 1, 1⟩ := .single (.event changed)
  have received : Runs (.indexed []) (.small none) (some ['c']) (.installed early)
      ⟨early.tick, .waiting, .nobody, .debouncing, 0, 1⟩ := noticed.tail (.receive rfl rfl)
  have quiet := received.tail (.quiet rfl)
  have called := quiet.tail (.reload rfl rfl nofun)
  have asked := called.tail (.actWatcher rfl)
  exact asked.tail (.releaseWatcher rfl)

/-- The task waits again, and nothing has read the file. -/
theorem early_change_is_unread :
    ∃ s, Runs (.indexed []) (.small none) (some ['c']) (.installed early) s ∧
      s.task = .waiting ∧ s.queue = 0 ∧ s.world.journal.configReadAt < s.lastEvent :=
  ⟨ignored, runs_ignored, rfl, rfl, by decide⟩

/-- The time a program's first action stamps on its reading of the config file. -/
def stamped {α : Type} (w : World) : Program World α → Nat
  | .ret _ => 0
  | .act update _ => (update w).journal.configReadAt

/-- The starting thread then reads it. -/
theorem early_change_is_read :
    ∃ s, Runs (.indexed []) (.small none) (some ['c']) (.installed early) s ∧
      s.lastEvent = 1 ∧ s.lastEvent ≤ s.world.journal.configReadAt := by
  have begun := runs_ignored.tail (.begin rfl rfl)
  have read := begun.tail (.apply rfl)
  refine ⟨_, read, rfl, waiting_watcher_has_read read ?_ rfl rfl⟩
  intro unready
  cases unready with
  | inl waiting => cases waiting
  | inr unready =>
    cases unready with
    | inl same =>
      -- what is left does not begin with reading the file again
      have same := congrArg (stamped early.tick) (StartPhase.applying.inj same)
      cases same
    | inr failed =>
      obtain ⟨_, failed⟩ := failed
      cases failed

end Watched

end Gfe
