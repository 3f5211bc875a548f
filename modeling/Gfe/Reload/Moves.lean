import Gfe.Reload.Controller

/-! # What the parts of a reload do to the world

Each part of a reload is known by the moves its actions make. What follows for
a whole reload is then a matter of the moves alone: an invariant that the moves
up to the swap keep is kept by every config that is not applied.
-/

namespace Gfe

open Interleaving

/-- Preparing a config enters the backends the health map does not know. -/
inductive Preparing (w : World) : World → Prop where
  | idle : Preparing w w
  | enter (key : BackendKey) :
      Preparing w (w.setNode fun n => { n with health := (n.health.handle key).2 })

/-- Getting the sockets of a config takes adopted ones and makes new ones. -/
inductive Staging (w : World) : World → Prop where
  | idle : Staging w w
  | take (address : SocketAddr) :
      Staging w (w.setNode fun n => { n with
        listeners := { n.listeners with adopted := n.listeners.adopted.erase address } })
  | bind : Staging w (w.setHost fun h => { h with nextSocket := h.nextSocket + 1 })

/-- All a reload does before its config is certain to be applied. -/
inductive Tentative (w : World) : World → Prop where
  | load : Tentative w (w.setJournal fun j => { j with configReadAt := j.now })
  | remember (files : CertFiles) :
      Tentative w ((w.setNode fun n => { n with
        tracked := { n.tracked with certFiles := files } }).setJournal
          fun j => { j with rememberedAt := j.now })
  | prepare {w' : World} : Preparing w w' → Tentative w w'
  | stage {w' : World} : Staging w w' → Tentative w w'

/-- What follows the swaps of a config that is applied. -/
inductive Settling (w : World) : World → Prop where
  | describe (activeRoutes activePools : Int) (certExpiryTimestamp : HashMap Str Int) :
      Settling w (w.setNode fun n => { n with
        control := { n.control with activeRoutes, activePools, certExpiryTimestamp } })
  | listeners (listeners : Listeners Listener) :
      Settling w (w.setNode fun n => { n with listeners := listeners })
  | addresses (addresses : HashMap ListenerId SocketAddr) :
      Settling w (w.setNode fun n => { n with addresses := addresses })

inductive Swapping (w : World) : World → Prop where
  | idle : Swapping w w
  | certificates (store : CertStore) : Swapping w (w.setNode fun n => { n with resolver := store })
  | routing (routing : Routing) (config : DynamicConfig) :
      Swapping w ((w.setNode fun n => { n with routing := routing }).setJournal
        fun j => { j with serving := some config, installs := j.installs + 1 })
  | forget (keep : List BackendKey) :
      Swapping w (w.setNode fun n => { n with health := n.health.retain keep })
  | settle {w' : World} : Settling w w' → Swapping w w'

inductive Applying (w : World) : World → Prop where
  | tentative {w' : World} : Tentative w w' → Applying w w'
  | swap {w' : World} : Swapping w w' → Applying w w'

/-- Saying how a reload ended. -/
inductive Reporting (w : World) : World → Prop where
  | control (control : Control) : Reporting w (w.setNode fun n => { n with control := control })
  | log (line : LogLine) : Reporting w (w.setNode fun n => { n with log := line :: n.log })

inductive Caching (w : World) : World → Prop where
  | idle : Caching w w
  | cache (json : Bytes) : Caching w (w.setHost fun h => { h with cache := .ok json })
  | report {w' : World} : Reporting w w' → Caching w w'

/-- What a poll does before it reloads. -/
inductive Polling (w : World) : World → Prop where
  | idle : Polling w w
  | accept (files : CertFiles) :
      Polling w (w.setNode fun n => { n with tracked := { n.tracked with certFiles := files } })
  | report {w' : World} : Reporting w w' → Polling w w'

/-- All the control plane does under the lock. -/
inductive Working (w : World) : World → Prop where
  | apply {w' : World} : Applying w w' → Working w w'
  | cache {w' : World} : Caching w w' → Working w w'
  | poll {w' : World} : Polling w w' → Working w w'
  | reconcile (checker : HealthChecker) :
      Working w (w.setNode fun n => { n with checker := checker })
  | follow : Working w (w.setNode fun n => { n with tracked := { n.tracked with following := true } })

/-! ## Looking and preparing -/

theorem readOnly_stamp (path : Path) : (stamp path).ReadOnly :=
  Program.Moves.read (fun _ => rfl) fun w => (w.host.file path).stamp

theorem readOnly_lookAt (paths : List Path) : (lookAt paths).ReadOnly := by
  induction paths with
  | nil => exact .ret _
  | cons path rest ih => exact .bind (readOnly_stamp path) fun _ => .bind ih fun _ => .ret _

theorem readOnly_snapshot (specs : List CertSpec) : (CertFiles.snapshot specs).ReadOnly :=
  .bind (readOnly_lookAt _) fun _ => .ret _

theorem readOnly_refresh (files : CertFiles) : files.refresh.ReadOnly :=
  .bind (readOnly_lookAt _) fun _ => .ret _

theorem readOnly_changedOnDisk (files : CertFiles) : files.changedOnDisk.ReadOnly := by
  obtain ⟨seen⟩ := files
  induction seen with
  | nil => exact .ret _
  | cons entry rest ih =>
    refine .bind (readOnly_stamp entry.1) fun now => ?_
    split
    · exact .ret _
    · exact ih

theorem moves_build (crates : Crates) (specs : List CertSpec) :
    Fallible.Moves Preparing (CertStore.build crates specs) := by
  have readPem : ∀ path, Fallible.Moves Preparing (readPem path) := by
    intro path
    refine .bind (.lift (.read (fun _ => .idle) _)) ?_
    rintro (error | bytes)
    · exact .throw _
    · exact .pure _
  have loadCertFiles : ∀ certPath keyPath,
      Fallible.Moves Preparing (loadCertFiles crates certPath keyPath) := by
    intro certPath keyPath
    refine .bind (readPem certPath) fun certPem => .bind (readPem keyPath) fun keyPem => ?_
    cases loadCertPem crates certPem keyPem with
    | ok loaded => exact .pure _
    | error reason => exact .throw _
  have addEntries : ∀ store defaultFile index, Fallible.Moves Preparing
      (CertStore.addEntries crates store defaultFile index specs) := by
    induction specs with
    | nil => exact fun _ _ _ => .pure _
    | cons spec rest ih =>
      intro store defaultFile index
      refine .bind (.mapError (loadCertFiles _ _)) fun loaded => .bind (.ofExcept _) ?_
      rintro ⟨store, defaultFile⟩
      exact ih store defaultFile (index + 1)
  exact .bind (addEntries _ _ _) fun store => .pure _

theorem moves_takeHandles (backends : List Backend) : (takeHandles backends).Moves Preparing := by
  induction backends with
  | nil => exact .ret _
  | cons backend rest ih =>
    exact .bind (.exchange fun _ => .enter backend.key) fun _ => .bind ih fun _ => .ret _

theorem moves_addPools (crates : Crates) (specs : List (PoolSpec Scheme))
    (pools : HashMap Str (Pool Scheme)) :
    Fallible.Moves Preparing (PoolSet.addPools crates pools specs) := by
  induction specs generalizing pools with
  | nil => exact .pure _
  | cons spec rest ih =>
    have built : Fallible.Moves Preparing (Pool.new crates spec) :=
      .bind (.ofExcept _) fun ring => .bind (.lift (moves_takeHandles _)) fun health => .pure _
    exact .bind built fun pool => ih _

/-! ## Getting sockets -/

theorem moves_getSocket (address : SocketAddr) :
    Fallible.Moves Staging (Listeners.getSocket address) := by
  refine .bind (.lift (.exchange fun _ => .take address)) ?_
  rintro (_ | socket)
  · have bound : (bindSocket address).Moves Staging := by
      refine .exchange fun w => ?_
      cases w.host.bindError address with
      | some error => exact .idle
      | none => exact .bind
    refine .bind (.lift bound) ?_
    rintro (error | socket)
    · exact .throw _
    · exact .pure _
  · refine .bind (.lift (.read (fun _ => .idle) _)) ?_
    rintro (error | socket)
    · exact .throw _
    · exact .pure _

theorem moves_getSockets (running : HashMap SocketAddr RunningListener)
    (addresses : List SocketAddr) (bound : HashMap SocketAddr SocketId) :
    Fallible.Moves Staging (Listeners.getSockets running bound addresses) := by
  induction addresses generalizing bound with
  | nil => exact .pure _
  | cons address rest ih =>
    unfold Listeners.getSockets
    split
    · exact ih bound
    · exact .bind (moves_getSocket address) fun socket => ih _

theorem moves_stage (listeners : List Listener) :
    Fallible.Moves Staging (Edge.stage listeners) := by
  refine .bind (.lift (.read (fun _ => .idle) _)) fun running => .bind (.mapError ?_) fun inner => .pure _
  unfold Listeners.stage
  split
  · exact .throw _
  · exact .bind (.lift (.read (fun _ => .idle) _)) fun _ => .bind (moves_getSockets _ _ _) fun _ => .pure _

/-! ## Swapping and reporting -/

theorem moves_commit (staged : EdgeStaged) : (Edge.commit staged).Moves Settling := by
  have listeners : ∀ update, (Listeners.updateListeners update).Moves Settling :=
    fun update => .write fun _ => .listeners _
  have placeAll : ∀ desired, (Listeners.placeAll staged.inner.bound desired).Moves Settling := by
    intro desired
    induction desired with
    | nil => exact .ret _
    | cons head rest ih => exact .bind (listeners _) fun _ => ih
  refine .bind ?_ fun _ => .write fun _ => .addresses _
  exact .bind (listeners _) fun _ => .bind (placeAll _) fun _ => listeners _

theorem moves_setControl (update : Control → Control) : (setControl update).Moves Reporting :=
  .write fun _ => .control _

theorem moves_logLine (line : LogLine) : (logLine line).Moves Reporting :=
  .write fun _ => .log line

theorem moves_clearFailure : clearFailure.Moves Reporting :=
  .bind (moves_setControl _) fun _ => moves_setControl _

theorem moves_writeCache (crates : Crates) (settings : NodeConfig) (config : DynamicConfig) :
    (writeCache crates settings config).Moves Caching := by
  unfold writeCache
  split
  · refine .bind (.exchange fun w => ?_) ?_
    · split
      · exact .idle
      · split
        · exact .idle
        · exact .cache _
    · rintro (error | _)
      · exact (moves_logLine _).weaken fun _ _ => .report
      · exact .ret _
  · exact .ret _

/-! ## Applying -/

theorem moves_prepare (crates : Crates) (config : DynamicConfig) :
    Fallible.Moves Preparing (prepare crates config) :=
  .bind (.mapError (.ofExcept _)) fun _ => .bind (.mapError (moves_build crates _)) fun _ =>
    .bind (.mapError (.bind (moves_addPools crates _ _) fun _ => .pure _)) fun _ => .pure _

theorem moves_swapIn (prepared : Prepared) (staged : EdgeStaged) :
    (swapIn prepared staged).Moves Swapping := by
  refine .bind ?_ fun _ => (moves_commit staged).weaken fun _ _ => .settle
  exact .bind (.read (fun _ => .idle) _) fun _ =>
    .bind (.write fun _ => .certificates _) fun _ => .bind (.write fun _ => .routing _ _) fun _ =>
      .bind (.write fun _ => .forget _) fun _ => .write fun _ => .settle (.describe _ _ _)

theorem moves_apply (crates : Crates) (config : DynamicConfig) :
    Fallible.Moves Applying (apply crates config) := by
  refine .bind (.lift ?_) fun files => .bind (.lift ?_) fun _ => .bind ?_ fun prepared =>
    .bind (.mapError ?_) fun staged => .lift ((moves_swapIn prepared staged).weaken fun _ _ => .swap)
  · exact (readOnly_snapshot _).weaken fun w w' same => same ▸ .tentative (.prepare .idle)
  · exact .write fun _ => .tentative (.remember files)
  · exact (moves_prepare crates config).weaken fun _ _ moved => .tentative (.prepare moved)
  · exact (moves_stage _).weaken fun _ _ moved => .tentative (.stage moved)

theorem moves_applyDeployed (crates : Crates) (settings : NodeConfig) :
    Fallible.Moves Applying (applyDeployed crates settings) := by
  refine .bind (.mapError (.bind (.lift (.exchange fun _ => ?_)) fun content => .ofExcept _))
    fun config => .bind (moves_apply crates config) fun _ => .pure _
  exact .tentative .load

theorem moves_applyCached (crates : Crates) (path : Path) :
    Fallible.Moves Applying (applyCached crates path) := by
  refine .bind (.mapError (.bind (.lift (.read (fun _ => ?_) _)) fun content => .ofExcept _))
    fun config => .bind (moves_apply crates config) fun _ => .pure _
  exact .tentative (.prepare .idle)

theorem moves_report {line : LogLine} {update update' : Control → Control} :
    Program.Moves Reporting (do
      setControl update
      setControl update'
      logLine line) :=
  .bind (moves_setControl _) fun _ => .bind (moves_setControl _) fun _ => moves_logLine _

theorem moves_conclude (crates : Crates) (settings : NodeConfig) (config : DynamicConfig) :
    Program.Moves Caching (do
      writeCache crates settings config
      clearFailure
      logLine .hotReloaded) :=
  .bind (moves_writeCache crates settings config) fun _ =>
    .bind (moves_clearFailure.weaken fun _ _ => .report) fun _ =>
      (moves_logLine _).weaken fun _ _ => .report

theorem moves_reloadLocked (crates : Crates) (settings : NodeConfig) :
    (reloadLocked crates settings).Moves Working := by
  refine .bind ((moves_applyDeployed crates settings).weaken fun _ _ => .apply) ?_
  rintro (error | config)
  · exact moves_report.weaken fun _ _ moved => .cache (.report moved)
  · exact .bind (.write fun _ => .reconcile _) fun _ =>
      (moves_conclude crates settings config).weaken fun _ _ => .cache

theorem moves_reload (crates : Crates) (settings : NodeConfig) :
    (reload crates settings).Moves Working := by
  refine .bind (.read (fun _ => .cache .idle) _) fun following => ?_
  split
  · exact moves_reloadLocked crates settings
  · exact .ret _

theorem moves_poll (crates : Crates) (settings : NodeConfig) :
    (reloadIfCertificatesChanged crates settings).Moves Working := by
  refine .bind (.read (fun _ => .cache .idle) _) fun tracked => ?_
  split
  · exact .ret _
  have reading : ∀ {w w' : World}, w' = w → Working w w' := fun same => same ▸ .poll .idle
  refine .bind ((readOnly_changedOnDisk _).weaken fun _ _ => reading) fun changed => ?_
  split
  · exact .ret _
  refine .bind ((readOnly_refresh _).weaken fun _ _ => reading) fun files => ?_
  exact .bind (.write fun _ => .poll (.accept files)) fun _ =>
    .bind ((moves_logLine _).weaken fun _ _ moved => .poll (.report moved)) fun _ =>
      moves_reloadLocked crates settings

theorem moves_applyInitial (crates : Crates) (settings : NodeConfig) :
    Fallible.Moves Working (applyInitial crates settings) := by
  have report : ∀ update, (setControl update).Moves Working :=
    fun update => (moves_setControl update).weaken fun _ _ moved => .cache (.report moved)
  have follow : startFollowing.Moves Working := .write fun _ => .follow
  refine .bind (.lift ((moves_applyDeployed crates settings).weaken fun _ _ => .apply)) ?_
  rintro (unusable | config)
  · dsimp only
    split
    · rename_i path _
      refine .bind (.lift ?_) fun _ => .bind (.mapError ?_) fun config => ?_
      · exact (moves_logLine _).weaken fun _ _ moved => .cache (.report moved)
      · exact (moves_applyCached crates path).weaken fun _ _ => .apply
      · exact .bind (.lift (report _)) fun _ => .bind (.lift (report _)) fun _ =>
          .bind (.lift (report _)) fun _ => .bind (.lift follow) fun _ => .pure _
    · exact .throw _
  · refine .bind (.lift ?_) fun _ => .bind (.lift ?_) fun _ => .bind (.lift follow) fun _ => .pure _
    · exact (moves_writeCache crates settings config).weaken fun _ _ => .cache
    · exact moves_clearFailure.weaken fun _ _ moved => .cache (.report moved)

end Gfe
