import Gfe.Reload.Outcome

/-! # A restart beside a rejected reload

A node that starts while its deployed config is broken serves the cached one
and counts a failed reload, as a running node does that rejects a reload. What
it has to compare with later on are the files it remembers, and those are of
the config it applied last: the cached one after a start, the deployed one
after a reload.
-/

namespace Gfe

open Interleaving

variable {u v : World} {w : World}

/-! ## Attempts -/

/-- A line that says how a reload ended. -/
def LogLine.isOutcome : LogLine → Bool
  | .hotReloaded => true
  | .rejected _ => true
  | _ => false

/-- How many reloads have ended, by the log. -/
def World.outcomes (w : World) : Nat := w.node.log.countP LogLine.isOutcome

/-- What happens to a node that follows its files. -/
inductive Event where
  | replace (path : Path) (file : FileState)
  /-- The certificate files are checked. -/
  | poll
  /-- The watcher reports that the config file changed. -/
  | configChanged

section Restart

variable (crates : Crates) (settings : NodeConfig)

def Event.run : Event → World → World
  | .replace path file, w => w.replace path file
  | .poll, w => ((reloadIfCertificatesChanged crates settings).run w).2
  | .configChanged, w => ((reload crates settings).run w).2

/-- Which of the events make the node attempt a reload. -/
def attempts : List Event → World → List Bool
  | [], _ => []
  | event :: rest, w =>
    let w' := event.run crates settings w
    decide (w'.outcomes ≠ w.outcomes) :: attempts rest w'

/-! ## One reload -/

/-- What a node remembers once it has loaded a config or failed to. -/
def World.remembering (w : World) : Except ConfigError DynamicConfig → Tracked
  | .error _ => w.node.tracked
  | .ok config => (w.noted config).node.tracked

/-- The part of a reload that decides about later ones. -/
structure Left (tracked : Tracked) (w w' : World) : Prop where
  files : w'.host.file = w.host.file
  tracked : w'.node.tracked = tracked
  log : w'.node.log = w.node.log

theorem left_applyLoaded (loaded : Except ConfigError DynamicConfig) (w : World) :
    Left (w.remembering loaded) w (applyLoaded crates loaded w).2 := by
  have ended := loadEnd_applyLoaded crates loaded w
  generalize applyLoaded crates loaded w = result at ended
  cases ended with
  | unreadable | failed => exact ⟨rfl, rfl, rfl⟩
  | applied _ applied => exact ⟨applied.files, applied.tracked, applied.log⟩

theorem run_reconcile (config : DynamicConfig) (w : World) :
    ∃ checker, ((reconcile settings config).run w).2 =
      w.setNode fun n => { n with checker := checker } :=
  ⟨w.node.checker.reconcile (checkedPools config.pools settings.healthCheckDefaults), rfl⟩

theorem run_writeCache (config : DynamicConfig) (w : World) :
    ∃ cache log, ((writeCache crates settings config).run w).2 =
        (w.setHost fun h => { h with cache := cache }).setNode (fun n => { n with log := log }) ∧
      log.countP LogLine.isOutcome = w.outcomes := by
  unfold writeCache
  split
  · rw [Program.run_bind, writeCacheFile, Program.run_exchange]
    cases crates.configToJson config with
    | none => exact ⟨_, _, rfl, rfl⟩
    | some json => cases w.host.cacheError <;> exact ⟨_, _, rfl, rfl⟩
  · exact ⟨_, _, rfl, rfl⟩

/-- A reload remembers the files of the config it loads, whatever becomes of it,
    and says once how it ended. -/
structure Ended (w w' : World) : Prop where
  files : w'.host.file = w.host.file
  tracked : w'.node.tracked = w.remembering (w.deployedConfig crates settings)
  outcomes : w'.outcomes = w.outcomes + 1

theorem ended_reloadLocked (w : World) :
    Ended crates settings w ((reloadLocked crates settings).run w).2 := by
  have left := left_applyLoaded crates (w.deployedConfig crates settings) w.configRead
  have loaded : Program.run (ExceptT.run (applyDeployed crates settings)) w =
      applyLoaded crates (w.deployedConfig crates settings) w.configRead :=
    exec_applyDeployed crates settings w
  unfold reloadLocked
  rw [Program.run_bind, loaded]
  generalize applyLoaded crates (w.deployedConfig crates settings) w.configRead = ended at left
  have tracked : w.configRead.remembering (w.deployedConfig crates settings) =
      w.remembering (w.deployedConfig crates settings) := by
    cases w.deployedConfig crates settings <;> rfl
  obtain ⟨result, w'⟩ := ended
  have outcomes : w'.outcomes = w.outcomes := congrArg (List.countP LogLine.isOutcome) left.log
  cases result with
  | error error =>
    refine ⟨left.files, left.tracked.trans tracked, ?_⟩
    rw [← outcomes]
    exact List.countP_cons_of_pos rfl
  | ok config =>
    dsimp only
    rw [Program.run_bind, Program.run_bind]
    obtain ⟨checker, reconciled⟩ := run_reconcile settings config w'
    obtain ⟨cache, log, written, counted⟩ :=
      run_writeCache crates settings config (w'.setNode fun n => { n with checker := checker })
    rw [reconciled, written]
    refine ⟨left.files, left.tracked.trans tracked, ?_⟩
    rw [← outcomes]
    exact (List.countP_cons_of_pos rfl).trans (congrArg (· + 1) counted)

theorem ended_reload (following : w.node.tracked.following = true) :
    Ended crates settings w ((reload crates settings).run w).2 := by
  have unlocked : (reload crates settings).run w = (reloadLocked crates settings).run w := by
    rw [reload, Program.run_bind, readNode, Program.run_read, following]
    rfl
  rw [unlocked]
  exact ended_reloadLocked crates settings w

def World.accepting (w : World) : World :=
  w.setNode fun n => { n with
    tracked := { n.tracked with
      certFiles := ⟨stampsOn w.host.file (n.tracked.certFiles.seen.map Prod.fst)⟩ }
    log := .certificatesChanged :: n.log }

theorem run_poll (following : w.node.tracked.following = true) :
    ((reloadIfCertificatesChanged crates settings).run w).2 =
      if w.stale then ((reloadLocked crates settings).run w.accepting).2 else w := by
  have tracked : (readNode Node.tracked).run w = (w.node.tracked, w) := rfl
  unfold reloadIfCertificatesChanged
  rw [Program.run_bind, tracked]
  simp only [following, Bool.not_true, Bool.false_eq_true, if_false]
  rw [Program.run_bind, run_changedOnDisk]
  change Prod.snd (Program.run (if (!w.stale) = true then _ else _) w) = _
  cases stale : w.stale with
  | false => rfl
  | true =>
    simp only [Bool.not_true, Bool.false_eq_true, if_false, if_true, Program.run_bind,
      CertFiles.refresh, run_lookAt]
    rfl

/-! ## Nodes that attempt the same reloads -/

/-- Two nodes on the same files that remember the same of them. -/
structure Alike (u v : World) : Prop where
  files : u.host.file = v.host.file
  following : u.node.tracked.following = true ∧ v.node.tracked.following = true
  seen : ∀ entry, entry ∈ u.node.tracked.certFiles.seen ↔ entry ∈ v.node.tracked.certFiles.seen

/-- The node follows its files and has seen those of a config as they are. -/
def World.remembers (w : World) (config : DynamicConfig) : Prop :=
  w.node.tracked = ⟨⟨stampsOn w.host.file (namedFiles config)⟩, true⟩

theorem Alike.of_remembers (config : DynamicConfig) (files : u.host.file = v.host.file)
    (left : u.remembers config) (right : v.remembers config) : Alike u v := by
  refine ⟨files, ?_, ?_⟩
  · rw [left, right]
    exact ⟨rfl, rfl⟩
  · rw [left, right, files]
    exact fun _ => .rfl

theorem Alike.stale (alike : Alike u v) : u.stale = v.stale := by
  rw [Bool.eq_iff_iff, World.stale, World.stale, List.any_eq_true, List.any_eq_true, alike.files]
  exact exists_congr fun entry => and_congr_left fun _ => alike.seen entry

theorem mem_stampsOn {file : Path → FileState} {paths : List Path} {entry : Path × Stamp} :
    entry ∈ stampsOn file paths ↔ entry.1 ∈ paths ∧ entry.2 = (file entry.1).stamp := by
  rw [stampsOn, List.mem_map]
  constructor
  · rintro ⟨path, member, rfl⟩
    exact ⟨member, rfl⟩
  · rintro ⟨member, seen⟩
    exact ⟨entry.1, member, Prod.ext rfl seen.symm⟩

theorem Alike.accepting (alike : Alike u v) : Alike u.accepting v.accepting := by
  refine ⟨alike.files, alike.following, fun entry => ?_⟩
  change entry ∈ stampsOn u.host.file _ ↔ entry ∈ stampsOn v.host.file _
  rw [mem_stampsOn, mem_stampsOn, alike.files, List.mem_map, List.mem_map]
  exact and_congr_left fun _ => exists_congr fun other => and_congr_left fun _ => alike.seen other

theorem Alike.ended {u v u' v' : World} (alike : Alike u v) (left : Ended crates settings u u')
    (right : Ended crates settings v v') : Alike u' v' := by
  have files : u'.host.file = v'.host.file := by rw [left.files, right.files, alike.files]
  have same : u.deployedConfig crates settings = v.deployedConfig crates settings := by
    rw [World.deployedConfig, World.deployedConfig, alike.files]
  obtain ⟨following, following'⟩ := alike.following
  have tracked := left.tracked
  have tracked' := right.tracked
  rw [same] at tracked
  cases loaded : v.deployedConfig crates settings with
  | error error =>
    rw [loaded] at tracked tracked'
    refine ⟨files, ?_, ?_⟩
    · rw [tracked, tracked']
      exact alike.following
    · rw [tracked, tracked']
      exact alike.seen
  | ok config =>
    rw [loaded] at tracked tracked'
    refine .of_remembers config files ?_ ?_
    · rw [World.remembers, tracked, left.files, ← following]
      rfl
    · rw [World.remembers, tracked', right.files, ← following']
      rfl

/-- An event keeps nodes alike, and makes both or neither of them attempt a
    reload. -/
theorem Alike.run (alike : Alike u v) (event : Event) :
    Alike (event.run crates settings u) (event.run crates settings v) ∧
      ((event.run crates settings u).outcomes = u.outcomes ∧
          (event.run crates settings v).outcomes = v.outcomes ∨
        (event.run crates settings u).outcomes = u.outcomes + 1 ∧
          (event.run crates settings v).outcomes = v.outcomes + 1) := by
  obtain ⟨following, following'⟩ := alike.following
  cases event with
  | replace path file =>
    refine ⟨⟨?_, alike.following, alike.seen⟩, .inl ⟨rfl, rfl⟩⟩
    exact congrArg (Function.update · path file) alike.files
  | poll =>
    simp only [Event.run, run_poll crates settings following, run_poll crates settings following',
      alike.stale]
    split
    · have left := ended_reloadLocked crates settings u.accepting
      have right := ended_reloadLocked crates settings v.accepting
      exact ⟨alike.accepting.ended crates settings left right,
        .inr ⟨left.outcomes, right.outcomes⟩⟩
    · exact ⟨alike, .inl ⟨rfl, rfl⟩⟩
  | configChanged =>
    have left := ended_reload crates settings following
    have right := ended_reload crates settings following'
    exact ⟨alike.ended crates settings left right, .inr ⟨left.outcomes, right.outcomes⟩⟩

theorem Alike.attempts (alike : Alike u v) (events : List Event) :
    attempts crates settings events u = attempts crates settings events v := by
  induction events generalizing u v with
  | nil => rfl
  | cons event rest ih =>
    obtain ⟨alike', same⟩ := alike.run crates settings event
    rw [Gfe.attempts, Gfe.attempts, ih alike']
    rcases same with ⟨left, right⟩ | ⟨left, right⟩ <;> simp [left, right]

theorem attempts_replace {config : DynamicConfig} (remembers : w.remembers config)
    {path : Path} {file : FileState} (differs : file.stamp ≠ (w.host.file path).stamp) :
    attempts crates settings [.replace path file, .poll] w =
      [false, decide (path ∈ namedFiles config)] := by
  have following : (w.replace path file).node.tracked.following = true :=
    congrArg Tracked.following remembers
  have seen : (w.replace path file).node.tracked.certFiles.seen =
      stampsOn w.host.file (namedFiles config) :=
    congrArg (fun tracked => tracked.certFiles.seen) remembers
  have stale : (w.replace path file).stale = decide (path ∈ namedFiles config) := by
    rw [Bool.eq_iff_iff, World.stale, seen, List.any_eq_true, decide_eq_true_iff]
    constructor
    · rintro ⟨entry, member, changed⟩
      obtain ⟨named, same⟩ := mem_stampsOn.mp member
      rcases eq_or_ne entry.1 path with rfl | other
      · exact named
      · have kept : (w.replace path file).host.file entry.1 = w.host.file entry.1 :=
          Function.update_of_ne other _ _
        simp [kept, same] at changed
    · intro named
      refine ⟨(path, (w.host.file path).stamp), mem_stampsOn.mpr ⟨named, rfl⟩, ?_⟩
      have placed : (w.replace path file).host.file path = file := Function.update_self path _ _
      simpa [placed] using differs
  have polled := run_poll crates settings following
  rw [stale] at polled
  have unmoved : (w.replace path file).outcomes = w.outcomes := rfl
  simp only [attempts, Event.run, polled]
  by_cases named : path ∈ namedFiles config
  · have outcomes := (ended_reloadLocked crates settings (w.replace path file).accepting).outcomes
    have counted : (w.replace path file).accepting.outcomes = (w.replace path file).outcomes := rfl
    simp [named, outcomes, counted, unmoved]
  · simp [named, unmoved]

/-- Nodes that remember the files of two configs attempt the same reloads for
    good exactly if the configs name the same files. -/
theorem attempts_eq_iff {left right : DynamicConfig}
    (files : u.host.file = v.host.file) (remembersLeft : u.remembers left)
    (remembersRight : v.remembers right) :
    (∀ events, attempts crates settings events u = attempts crates settings events v) ↔
      ∀ path, path ∈ namedFiles left ↔ path ∈ namedFiles right := by
  constructor
  · intro same path
    obtain ⟨stamp, differs⟩ := exists_ne (u.host.file path).stamp
    have attempted := same [.replace path ⟨stamp, .error .notFound⟩, .poll]
    rw [attempts_replace crates settings remembersLeft differs,
      attempts_replace crates settings remembersRight (files ▸ differs)] at attempted
    simpa using attempted
  · intro named
    apply Alike.attempts
    refine ⟨files, ?_, fun entry => ?_⟩
    · rw [remembersLeft, remembersRight]
      exact ⟨rfl, rfl⟩
    · rw [remembersLeft, remembersRight, mem_stampsOn, mem_stampsOn, files, named entry.1]

/-! ## The two ways to reject a deployed config -/

/-- Two nodes of which one may stand for the other: they serve the same, both
    report a failed reload, and whatever happens to the files makes them attempt
    the same reloads. -/
structure Equivalent (u v : World) : Prop where
  service : u.service = v.service
  failed : u.node.control.configReloadFailed = 1 ∧ v.node.control.configReloadFailed = 1
  attempts : ∀ events, attempts crates settings events u = attempts crates settings events v

/-- A node that serves one config, reports a failed reload, and remembers the
    files of another config as they are. -/
structure Fallen (file : Path → FileState) (service : Service) (config : DynamicConfig)
    (w : World) : Prop where
  files : w.host.file = file
  service : w.service = service
  failed : w.node.control.configReloadFailed = 1
  remembers : w.remembers config

variable {crates settings}

theorem service_applyInitial {config : DynamicConfig}
    {made : CertStore × HashMap Str (Pool Scheme)}
    (started : (Fallible.exec (applyDeployed crates settings) w).1 = .ok config)
    (prepares : prepareOn crates w.host.file config = .ok made) :
    (Fallible.exec (applyInitial crates settings) w).2.service = serviceOf config made := by
  obtain ⟨w', ended⟩ : ∃ w', Fallible.exec (applyDeployed crates settings) w =
      (.ok config, w') := ⟨_, Prod.ext started rfl⟩
  have attempted : Fallible.exec (Fallible.attempt (applyDeployed crates settings) :
      Fallible World ReloadError _) w = (.ok (.ok config), w') := by
    rw [Fallible.exec_attempt, ended]
  obtain ⟨cache, log, written, _⟩ := run_writeCache crates settings config w'
  have applied : w'.service = serviceOf config made := by
    have final := loadEnd_applyLoaded crates (w.deployedConfig crates settings) w.configRead
    rw [← exec_applyDeployed, ended] at final
    generalize w.deployedConfig crates settings = loaded at final
    cases final with
    | applied usable applied =>
      cases usable.symm.trans prepares
      exact applied.service
  unfold applyInitial
  rw [Fallible.exec_bind_ok attempted, Fallible.exec_bind_ok (Fallible.exec_lift _ w'), written]
  exact applied

theorem fallen_applyInitial {path : Path} {cached : DynamicConfig}
    {made : CertStore × HashMap Str (Pool Scheme)} {unusable : ReloadError}
    (cacheFile : settings.localCache = some path)
    (rejected : (Fallible.exec (applyDeployed crates settings) w).1 = .error unusable)
    (started : (Fallible.exec (applyInitial crates settings) w).1 = .ok cached)
    (prepares : prepareOn crates w.host.file cached = .ok made) :
    Fallen w.host.file (serviceOf cached made) cached
      (Fallible.exec (applyInitial crates settings) w).2 := by
  obtain ⟨w₁, ended⟩ : ∃ w₁, Fallible.exec (applyDeployed crates settings) w =
      (.error unusable, w₁) := ⟨_, Prod.ext rejected rfl⟩
  have files : w₁.host.file = w.host.file := by
    have left := left_applyLoaded crates (w.deployedConfig crates settings) w.configRead
    rw [← exec_applyDeployed, ended] at left
    exact left.files
  rw [exec_applyInitial_unusable cacheFile ended, exec_applyCached] at started ⊢
  set w₂ := w₁.setNode fun n => { n with log := .startingFromCache unusable :: n.log }
  have final := loadEnd_applyLoaded crates (parseConfig crates path w₂.host.cache) w₂
  generalize applyLoaded crates (parseConfig crates path w₂.host.cache) w₂ = result at final started
  generalize parseConfig crates path w₂.host.cache = loaded at final
  cases final with
  | unreadable | failed => cases started
  | @applied config made' w₃ usable applied =>
    cases started
    have same : w₂.host.file = w.host.file := files
    rw [same, prepares] at usable
    cases usable
    refine ⟨applied.files.trans same, applied.service, rfl, ?_⟩
    have tracked : w₃.node.tracked.certFiles = ⟨stampsOn w₃.host.file (namedFiles cached)⟩ := by
      rw [applied.tracked, applied.files]
      rfl
    exact congrArg (Tracked.mk · true) tracked

theorem run_reload_rejected {w w' : World} {error : ReloadError}
    (following : w.node.tracked.following = true)
    (rejected : Fallible.exec (applyDeployed crates settings) w = (.error error, w')) :
    ((reload crates settings).run w).2 = w'.setNode fun n => { n with
      control := { n.control with
        configReloadErrors := n.control.configReloadErrors + 1
        configReloadFailed := 1 }
      log := .rejected error :: n.log } := by
  have ended : Program.run (ExceptT.run (applyDeployed crates settings)) w = (.error error, w') :=
    rejected
  rw [reload, Program.run_bind, readNode, Program.run_read, following, if_pos rfl, reloadLocked,
    Program.run_bind, ended]
  rfl

theorem fallen_reload {deployed : DynamicConfig} {error : ReloadError}
    (loaded : w.deployedConfig crates settings = .ok deployed)
    (following : w.node.tracked.following = true)
    (rejected : (Fallible.exec (applyDeployed crates settings) w).1 = .error error) :
    Fallen w.host.file w.service deployed ((reload crates settings).run w).2 := by
  obtain ⟨w', ended⟩ : ∃ w', Fallible.exec (applyDeployed crates settings) w =
      (.error error, w') := ⟨_, Prod.ext rejected rfl⟩
  rw [run_reload_rejected following ended]
  have final := loadEnd_applyLoaded crates (w.deployedConfig crates settings) w.configRead
  rw [← exec_applyDeployed, ended, loaded] at final
  cases final with
  | failed config error health adopted next =>
    refine ⟨rfl, rfl, rfl, ?_⟩
    rw [World.remembers, ← following]
    rfl

variable (crates settings)

/-- A deployed config is read but rejected. A node that starts from its cache
    then, and a running node that serves what is in the cache and rejects a
    reload, are equivalent exactly if the cached config names the certificate
    and key files the deployed one names. -/
theorem restart_equivalent_iff (w r : World) (path : Path) (deployed cached : DynamicConfig)
    (made : CertStore × HashMap Str (Pool Scheme)) (unusable error : ReloadError)
    (cacheFile : settings.localCache = some path)
    (loaded : w.deployedConfig crates settings = .ok deployed)
    (rejected : (Fallible.exec (applyDeployed crates settings) w).1 = .error unusable)
    (started : (Fallible.exec (applyInitial crates settings) w).1 = .ok cached)
    (prepares : prepareOn crates w.host.file cached = .ok made)
    (files : r.host.file = w.host.file) (following : r.node.tracked.following = true)
    (serving : r.service = serviceOf cached made)
    (refused : (Fallible.exec (applyDeployed crates settings) r).1 = .error error) :
    Equivalent crates settings (Fallible.exec (applyInitial crates settings) w).2
        ((reload crates settings).run r).2 ↔
      ∀ path, path ∈ namedFiles cached ↔ path ∈ namedFiles deployed := by
  have fromCache := fallen_applyInitial cacheFile rejected started prepares
  have running : Fallen r.host.file r.service deployed ((reload crates settings).run r).2 := by
    refine fallen_reload ?_ following refused
    rw [World.deployedConfig, files]
    exact loaded
  have sameFiles := fromCache.files.trans (files.symm.trans running.files.symm)
  rw [← attempts_eq_iff crates settings sameFiles fromCache.remembers running.remembers]
  constructor
  · exact fun same => same.attempts
  · intro same
    refine ⟨?_, ⟨fromCache.failed, running.failed⟩, same⟩
    rw [fromCache.service, running.service, serving]

end Restart

/-! ## A restart that is not equivalent -/

def restartCrates : Crates := .indexed [onPorts [80, 80], certified, onPorts [80]]

/-- A host whose config file holds the last of these configs. -/
def restartHost : Host := .small [(⟨['c']⟩, ⟨none, .ok [2]⟩)] (.ok [2]) []

/-- A node started on that config, and one that starts once the config file was
    replaced. -/
def runningOn (index : UInt8) : World :=
  ((Fallible.exec (applyInitial restartCrates (.small (some ⟨['l']⟩)))
    (.starting restartHost ∅)).2).replace ⟨['c']⟩ ⟨none, .ok [index]⟩

def restartingOn (index : UInt8) : World :=
  (World.starting restartHost ∅).replace ⟨['c']⟩ ⟨none, .ok [index]⟩

theorem runningOn_service (index : UInt8) :
    (runningOn index).service = serviceOf (onPorts [80]) (.empty, ∅) := by
  have started : (Fallible.exec (applyDeployed restartCrates (.small (some ⟨['l']⟩)))
      (.starting restartHost ∅)).1 = .ok (onPorts [80]) := by decide +kernel
  exact service_applyInitial started rfl

theorem exists_error_of_isOk {ε α : Type} {result : Except ε α} (refused : result.isOk = false) :
    ∃ error, result = .error error := by
  cases result with
  | error error => exact ⟨error, rfl⟩
  | ok value => cases refused

/-- A host on which a config and its certificate are deployed and cached. -/
def certifiedHost : Host :=
  .small [(⟨['c']⟩, ⟨none, .ok [0]⟩), (⟨['x']⟩, ⟨some default, .ok [7]⟩),
    (⟨['y']⟩, ⟨some default, .ok [8]⟩)] (.ok [0]) []

/-- The config that is deployed next has the same certificate, and an address twice. -/
theorem restart_equivalent_with_certificate :
    let next : DynamicConfig := { onPorts [80, 80] with certificates := certified.certificates }
    let crates : Crates := .indexed [certified, next]
    let settings : NodeConfig := .small (some ⟨['l']⟩)
    let deploys (w : World) := w.replace ⟨['c']⟩ ⟨none, .ok [1]⟩
    let new : World := .starting certifiedHost ∅
    let running := (Fallible.exec (applyInitial crates settings) new).2
    namedFiles certified = [⟨['x']⟩, ⟨['y']⟩] ∧ Equivalent crates settings
      (Fallible.exec (applyInitial crates settings) (deploys new)).2
      ((reload crates settings).run (deploys running)).2 := by
  intro next crates settings deploys new running
  have started : (Fallible.exec (applyDeployed crates settings) new).1 = .ok certified := by
    decide +kernel
  let store : CertStore := .order (CertStore.empty.addName ⟨0, ⟨[[7]], [8]⟩⟩ 0 ['h'])
  have serves : running.service = serviceOf certified (store, ∅) := service_applyInitial started rfl
  have same : ∀ w, (deploys w).service = w.service := fun _ => rfl
  obtain ⟨unusable, rejected⟩ : ∃ error,
      (Fallible.exec (applyDeployed crates settings) (deploys new)).1 = .error error :=
    exists_error_of_isOk (by decide +kernel)
  obtain ⟨error, refused⟩ : ∃ error,
      (Fallible.exec (applyDeployed crates settings) (deploys running)).1 = .error error :=
    exists_error_of_isOk (by decide +kernel)
  refine ⟨rfl, (restart_equivalent_iff crates settings (deploys new) (deploys running) ⟨['l']⟩ next
    certified (store, ∅) unusable error rfl (by decide +kernel) rejected (by decide +kernel) rfl rfl
    (by decide +kernel) ((same running).trans serves) refused).mpr ?_⟩
  exact fun _ => .rfl

/-- The deployed config names a certificate that is not there yet. When its two
    files arrive, the running node tries it again and the restarted one does
    not. -/
theorem restart_misses_arriving_certificate :
    let settings : NodeConfig := .small (some ⟨['l']⟩)
    let arrival : List Event :=
      [.replace ⟨['x']⟩ ⟨some default, .ok [7]⟩, .replace ⟨['y']⟩ ⟨some default, .ok [7]⟩, .poll]
    (restartingOn 1).deployedConfig restartCrates settings = .ok certified ∧
      (∃ error,
        (Fallible.exec (applyDeployed restartCrates settings) (restartingOn 1)).1 = .error error) ∧
      (Fallible.exec (applyInitial restartCrates settings) (restartingOn 1)).1 = .ok (onPorts [80]) ∧
      (runningOn 1).service = serviceOf (onPorts [80]) (.empty, ∅) ∧
      (∃ error,
        (Fallible.exec (applyDeployed restartCrates settings) (runningOn 1)).1 = .error error) ∧
      attempts restartCrates settings arrival
        (Fallible.exec (applyInitial restartCrates settings) (restartingOn 1)).2 =
          [false, false, false] ∧
      attempts restartCrates settings arrival
        ((reload restartCrates settings).run (runningOn 1)).2 = [false, false, true] := by
  refine ⟨by decide +kernel, exists_error_of_isOk ?_, by decide +kernel, runningOn_service 1,
    exists_error_of_isOk ?_, ?_, ?_⟩
  all_goals decide +kernel

end Gfe
