import Gfe.Lib.Obeys
import Gfe.Reload.Moves

/-! # What holds while a config is applied

Specifications of the parts of a reload. Everything before the swap keeps an
invariant, whichever way the config is rejected; what the swap makes of it is up
to whoever uses them. The `ensures` versions only speak of the end.
-/

namespace Gfe

open Interleaving

variable {w : World}

section Applying

variable {rely : Rely World} {guar : World → World → Prop} {during inv : World → Prop}

/-- Swapping a config in: from `before`, the new certificates give `between`,
    the new routes and pools `routed`, and once the other backends are forgotten
    `inv` holds, which the rest keeps. -/
theorem obeys_swapIn {before between routed : World → Prop} (prepared : Prepared)
    (staged : EdgeStaged) (steadyBefore : Program.Steady rely during before)
    (steadyBetween : Program.Steady rely during between)
    (steadyRouted : Program.Steady rely during routed) (steady : Program.Steady rely during inv)
    (idle : ∀ w, before w → guar w w)
    (certificates : ∀ w, before w →
      guar w (w.setNode fun n => { n with resolver := prepared.certificates }) ∧
        between (w.setNode fun n => { n with resolver := prepared.certificates }))
    (routing : ∀ w, between w →
      guar w ((w.setNode fun n => { n with
          routing := ⟨prepared.routes, prepared.pools⟩ }).setJournal
        fun j => { j with serving := some prepared.source, installs := j.installs + 1 }) ∧
      routed ((w.setNode fun n => { n with
          routing := ⟨prepared.routes, prepared.pools⟩ }).setJournal
        fun j => { j with serving := some prepared.source, installs := j.installs + 1 }))
    (forgotten : ∀ w, routed w →
      guar w (w.setNode fun n => { n with health := n.health.retain prepared.pools.allBackends }) ∧
      inv (w.setNode fun n => { n with health := n.health.retain prepared.pools.allBackends }))
    (settled : ∀ w w', Settling w w' → inv w → guar w w' ∧ inv w') (held : before w) :
    (swapIn prepared staged).Obeys rely guar during (fun _ => inv) w := by
  apply Program.Obeys.bind
  apply Program.Obeys.bind
  apply (Program.Obeys.look steadyBefore idle held).weaken
  intro current w held
  apply Program.Obeys.bind
  apply (Program.Obeys.change steadyBefore steadyBetween.stable certificates held).weaken
  intro _ w held
  apply Program.Obeys.bind
  apply (Program.Obeys.change steadyBetween steadyRouted.stable routing held).weaken
  intro _ w held
  apply Program.Obeys.bind
  apply (Program.Obeys.change steadyRouted steady.stable forgotten held).weaken
  intro _ w held
  apply (Program.Obeys.change steady steady.stable
    (fun w held => settled w _ (.describe _ _ _) held) held).weaken
  intro _ w held
  exact Program.Obeys.ofMoves (moves_commit staged) steady settled held

theorem obeys_prepare (crates : Crates) (config : DynamicConfig)
    (steady : Program.Steady rely during inv)
    (kept : ∀ w w', Preparing w w' → inv w → guar w w' ∧ inv w')
    (ready : PoolSet Scheme → World → Prop) (stable : ∀ pools, rely.Stable (ready pools))
    (built : ∀ w, inv w → validate config = .ok () → Fallible.Obeys rely guar during
      (PoolSet.build crates (poolSpecs config.pools)) (fun pools w => ready pools w ∧ inv w)
      (fun _ => inv) w)
    (held : inv w) :
    Fallible.Obeys rely guar during (prepare crates config)
      (fun prepared w => prepared.source = config ∧ ready prepared.pools w ∧ inv w)
      (fun _ => inv) w := by
  apply Fallible.Obeys.bind
  apply Fallible.Obeys.mapError
  apply Fallible.Obeys.ofExcept
  · intro _ valid w' moved
    have held := steady.stable w w' moved held
    apply Fallible.Obeys.bind
    apply (Fallible.Obeys.ofMoves (.mapError (moves_build crates _)) steady kept held).weaken
    · intro certificates w held
      apply Fallible.Obeys.bind
      apply Fallible.Obeys.mapError
      apply (built w held valid).weaken
      · intro pools w known
        apply Fallible.Obeys.pure
        intro w' moved
        exact ⟨rfl, stable pools w w' moved known.1, steady.stable w w' moved known.2⟩
      · exact fun _ _ held => held
    · exact fun _ _ held => held
  · exact fun _ _ w' moved => steady.stable w w' moved held

/-- What everything before the swap keeps holds of every config that is not
    applied, wherever the failure is, and of every one that is, at the swap. -/
theorem obeys_apply (crates : Crates) (config : DynamicConfig)
    (steady : Program.Steady rely during inv)
    (kept : ∀ w w', Tentative w w' → inv w → guar w w' ∧ inv w') (ready : Prepared → World → Prop)
    (stable : ∀ prepared, rely.Stable (ready prepared))
    (staging : ∀ prepared w w', Staging w w' → ready prepared w → ready prepared w')
    (prepares : ∀ w, inv w → Fallible.Obeys rely guar during (prepare crates config)
      (fun prepared w => ready prepared w ∧ inv w) (fun _ => inv) w)
    (ok : World → Prop)
    (swapped : ∀ prepared staged w, ready prepared w → inv w →
      (swapIn prepared staged).Obeys rely guar during (fun _ => ok) w)
    (held : inv w) :
    Fallible.Obeys rely guar during (apply crates config) (fun _ => ok) (fun _ => inv) w := by
  have idle : ∀ w w' : World, w' = w → inv w → guar w w' ∧ inv w' := by
    intro w w' same held
    subst same
    exact kept w' w' (.prepare .idle) held
  apply Fallible.Obeys.bind
  apply (Fallible.Obeys.ofMoves (.lift (readOnly_snapshot _)) steady idle held).weaken
  · intro files w held
    apply Fallible.Obeys.bind
    have remembered : (remember files).Moves Tentative := .write fun _ => .remember files
    apply (Fallible.Obeys.ofMoves (.lift remembered) steady kept held).weaken
    · intro _ w held
      apply Fallible.Obeys.bind
      apply (prepares w held).weaken
      · intro prepared w known
        have both : Program.Steady rely during fun w => ready prepared w ∧ inv w :=
          ⟨fun w w' moved known => ⟨stable prepared w w' moved known.1,
            steady.stable w w' moved known.2⟩, fun w known => steady.fine w known.2⟩
        apply Fallible.Obeys.bind
        apply (Fallible.Obeys.ofMoves (.mapError (moves_stage _)) both ?_ known).weaken
        · intro staged w known
          exact Fallible.Obeys.lift (swapped prepared staged w known.1 known.2)
        · exact fun _ _ known => known.2
        · intro w w' moved known
          obtain ⟨allowed, held⟩ := kept w w' (.stage moved) known.2
          exact ⟨allowed, staging prepared w w' moved known.1, held⟩
      · exact fun _ _ held => held
    · exact fun _ _ held => held
  · exact fun _ _ held => held

theorem obeys_applyLoaded (crates : Crates) {load : Fallible World ConfigError DynamicConfig}
    (loads : Fallible.Moves Tentative load) (steady : Program.Steady rely during inv)
    (kept : ∀ w w', Tentative w w' → inv w → guar w w' ∧ inv w')
    (ok : DynamicConfig → World → Prop)
    (applied : ∀ config w, inv w → Fallible.Obeys rely guar during (apply crates config)
      (fun _ => ok config) (fun _ => inv) w)
    (held : inv w) :
    Fallible.Obeys rely guar during (do
      let config ← Fallible.mapError .config load
      apply crates config
      return config) ok (fun _ => inv) w := by
  apply Fallible.Obeys.bind
  apply (Fallible.Obeys.ofMoves (.mapError loads) steady kept held).weaken
  · intro config w held
    apply Fallible.Obeys.bind
    apply Program.Obeys.weaken (applied config w held).settle
    intro result w ended
    cases result with
    | error error => exact ended w (rely.refl w)
    | ok value => exact Fallible.Obeys.pure ended
  · exact fun _ _ held => held

theorem moves_loadDynamicConfig (crates : Crates) (path : Path) :
    Fallible.Moves Tentative (loadDynamicConfig crates path) :=
  .bind (.lift (.exchange fun _ => .load)) fun _ => .ofExcept _

theorem moves_loadCache (crates : Crates) (path : Path) :
    Fallible.Moves Tentative (loadCache crates path) :=
  .bind (.lift (.read (fun _ => .prepare .idle) _)) fun _ => .ofExcept _

theorem obeys_reload (crates : Crates) (settings : NodeConfig) {post : World → Prop}
    (steady : Program.Steady rely during inv) (idle : ∀ w, inv w → guar w w)
    (nothing : ∀ w, inv w → post w)
    (locked : ∀ w, inv w → (reloadLocked crates settings).Obeys rely guar during (fun _ => post) w)
    (held : inv w) :
    (reload crates settings).Obeys rely guar during (fun _ => post) w := by
  apply Program.Obeys.bind
  apply (Program.Obeys.look steady idle held).weaken
  intro following w held
  split
  · exact locked w held
  · exact Program.Obeys.ret fun w' moved => nothing w' (steady.stable w w' moved held)

/-- A reload that is triggered by a certificate file: `before` is kept until the
    files are accepted, which gives `inv`. -/
theorem obeys_poll (crates : Crates) (settings : NodeConfig) {before post : World → Prop}
    (steadyBefore : Program.Steady rely during before) (steady : Program.Steady rely during inv)
    (idle : ∀ w, before w → guar w w)
    (accept : ∀ files w, before w →
      guar w (w.setNode fun n => { n with tracked := { n.tracked with certFiles := files } }) ∧
        inv (w.setNode fun n => { n with tracked := { n.tracked with certFiles := files } }))
    (note : ∀ w, inv w →
      guar w (w.setNode fun n => { n with log := .certificatesChanged :: n.log }) ∧
        inv (w.setNode fun n => { n with log := .certificatesChanged :: n.log }))
    (nothing : ∀ w, before w → post w)
    (locked : ∀ w, inv w → (reloadLocked crates settings).Obeys rely guar during (fun _ => post) w)
    (held : before w) :
    (reloadIfCertificatesChanged crates settings).Obeys rely guar during (fun _ => post) w := by
  have returns : ∀ w, before w →
      (Program.ret () : Program World Unit).Obeys rely guar during (fun _ => post) w :=
    fun w held => Program.Obeys.ret fun w' moved => nothing w' (steadyBefore.stable w w' moved held)
  have reading : ∀ w w' : World, w' = w → before w → guar w w' ∧ before w' := by
    intro w w' same held
    subst same
    exact ⟨idle w' held, held⟩
  apply Program.Obeys.bind
  apply (Program.Obeys.look steadyBefore idle held).weaken
  intro tracked w held
  split
  · exact returns w held
  apply Program.Obeys.bind
  apply (Program.Obeys.ofMoves (readOnly_changedOnDisk _) steadyBefore reading held).weaken
  intro changed w held
  split
  · exact returns w held
  apply Program.Obeys.bind
  apply (Program.Obeys.ofMoves (readOnly_refresh _) steadyBefore reading held).weaken
  intro files w held
  apply Program.Obeys.bind
  apply (Program.Obeys.change steadyBefore steady.stable (accept files) held).weaken
  intro _ w held
  apply Program.Obeys.bind
  apply (Program.Obeys.change steady steady.stable note held).weaken
  intro _ w held
  exact locked w held

/-- The first config, deployed or cached: `calm` is kept by applying it and by what is said about
    it, and following changes gives `inv`. -/
theorem obeys_firstConfig (crates : Crates) (settings : NodeConfig) {calm : World → Prop}
    (steady : Program.Steady rely during calm)
    (caching : ∀ w w', Caching w w' → calm w → guar w w' ∧ calm w')
    (deployed : ∀ w, calm w → Fallible.Obeys rely guar during (applyDeployed crates settings)
      (fun _ => calm) (fun _ => calm) w)
    (cached : ∀ path w, calm w → Fallible.Obeys rely guar during (applyCached crates path)
      (fun _ => calm) (fun _ => calm) w)
    (follows : ∀ w, calm w → startFollowing.Obeys rely guar during (fun _ => inv) w)
    (held : calm w) :
    Fallible.Obeys rely guar during (applyInitial crates settings) (fun _ => inv) (fun _ => calm)
      w := by
  have follow : ∀ (config : DynamicConfig) (w : World), calm w →
      Fallible.Obeys rely guar during (do
        startFollowing
        return config : Fallible World ReloadError DynamicConfig) (fun _ => inv)
        (fun _ => calm) w := by
    intro config w held
    apply Fallible.Obeys.bindLift (follows w held).settle
    exact fun _ w ended => Fallible.Obeys.pure ended
  have reporting : ∀ w w', Reporting w w' → calm w → guar w w' ∧ calm w' :=
    fun w w' moved => caching w w' (.report moved)
  have report : ∀ (update : Control → Control) (w : World), calm w →
      (setControl update).Obeys rely guar during (fun _ => calm) w :=
    fun update w held => Program.Obeys.ofMoves (moves_setControl update) steady reporting held
  apply Fallible.Obeys.bind
  apply Fallible.Obeys.attempt
  apply Program.Obeys.weaken (deployed w held)
  intro result w ended
  cases result with
  | ok config =>
    apply Fallible.Obeys.bindLift
      (Program.Obeys.ofMoves (moves_writeCache crates settings config) steady caching ended)
    intro _ w held
    apply Fallible.Obeys.bindLift (Program.Obeys.ofMoves moves_clearFailure steady reporting held)
    exact fun _ w held => follow config w held
  | error unusable =>
    dsimp only
    split
    · rename_i path _
      apply Fallible.Obeys.bindLift (Program.Obeys.ofMoves (moves_logLine _) steady reporting ended)
      intro _ w held
      apply Fallible.Obeys.bind
      apply Fallible.Obeys.mapError
      apply (cached path w held).weaken
      · intro config w held
        apply Fallible.Obeys.bindLift (report _ w held)
        intro _ w held
        apply Fallible.Obeys.bindLift (report _ w held)
        intro _ w held
        apply Fallible.Obeys.bindLift (report _ w held)
        exact fun _ w held => follow config w held
      · exact fun _ _ held => held
    · exact Fallible.Obeys.throw fun w' moved => steady.stable w w' moved ended

/-! ## At the end -/

theorem steady_of_stable (stable : rely.Stable inv) : Program.Steady rely (fun _ => True) inv :=
  ⟨stable, fun _ _ => True.intro⟩

theorem ensures_swapIn {before between : World → Prop} (prepared : Prepared) (staged : EdgeStaged)
    (stableBefore : rely.Stable before) (stableBetween : rely.Stable between)
    (stable : rely.Stable inv)
    (certificates : ∀ w, before w →
      between (w.setNode fun n => { n with resolver := prepared.certificates }))
    (routing : ∀ w, between w →
      inv ((w.setNode fun n => { n with routing := ⟨prepared.routes, prepared.pools⟩ }).setJournal
        fun j => { j with serving := some prepared.source, installs := j.installs + 1 }))
    (forgotten : ∀ w, inv w →
      inv (w.setNode fun n => { n with health := n.health.retain prepared.pools.allBackends }))
    (settled : ∀ w w', Settling w w' → inv w → inv w') (held : before w) :
    (swapIn prepared staged).Ensures rely (fun _ => inv) w :=
  Program.obeys_iff_ensures.mp (obeys_swapIn prepared staged (steady_of_stable stableBefore)
    (steady_of_stable stableBetween) (steady_of_stable stable) (steady_of_stable stable)
    (fun _ _ => True.intro) (fun w held => ⟨True.intro, certificates w held⟩)
    (fun w held => ⟨True.intro, routing w held⟩) (fun w held => ⟨True.intro, forgotten w held⟩)
    (fun w w' moved held => ⟨True.intro, settled w w' moved held⟩) held)

theorem ensures_apply (crates : Crates) (config : DynamicConfig) (stable : rely.Stable inv)
    (kept : ∀ w w', Tentative w w' → inv w → inv w') (ok : World → Prop)
    (swapped : ∀ prepared staged w, prepared.source = config → inv w →
      (swapIn prepared staged).Ensures rely (fun _ => ok) w)
    (held : inv w) :
    Fallible.Ensures rely (apply crates config) (fun _ => ok) (fun _ => inv) w := by
  have steady := steady_of_stable stable
  apply Fallible.obeys_iff_ensures.mp
  apply obeys_apply crates config steady (fun w w' moved held => ⟨True.intro, kept w w' moved held⟩)
    (fun prepared _ => prepared.source = config) (fun _ _ _ _ same => same)
    (fun _ _ _ _ same => same) ?_ ok ?_ held
  · intro w held
    have prepares := obeys_prepare crates config steady
      (fun w w' moved held => ⟨True.intro, kept w w' (.prepare moved) held⟩)
      (fun _ _ => True) (fun _ _ _ _ _ => True.intro) ?_ held
    · exact prepares.weaken (fun _ _ known => ⟨known.1, known.2.2⟩) fun _ _ held => held
    · intro w held _
      have built : Fallible.Moves Preparing (PoolSet.build crates (poolSpecs config.pools)) :=
        .bind (moves_addPools crates _ _) fun _ => .pure _
      apply (Fallible.Obeys.ofMoves built steady
        (fun w w' moved held => ⟨True.intro, kept w w' (.prepare moved) held⟩) held).weaken
      · exact fun _ _ held => ⟨True.intro, held⟩
      · exact fun _ _ held => held
  · intro prepared staged w same held
    exact Program.obeys_iff_ensures.mpr (swapped prepared staged w same held)

theorem ensures_applyDeployed (crates : Crates) (settings : NodeConfig) (stable : rely.Stable inv)
    (kept : ∀ w w', Tentative w w' → inv w → inv w') (ok : DynamicConfig → World → Prop)
    (swapped : ∀ config prepared staged w, prepared.source = config → inv w →
      (swapIn prepared staged).Ensures rely (fun _ => ok config) w)
    (held : inv w) :
    Fallible.Ensures rely (applyDeployed crates settings) ok (fun _ => inv) w := by
  apply Fallible.obeys_iff_ensures.mp
  apply obeys_applyLoaded crates (moves_loadDynamicConfig crates _) (steady_of_stable stable)
    (fun w w' moved held => ⟨True.intro, kept w w' moved held⟩) ok ?_ held
  intro config w held
  exact Fallible.obeys_iff_ensures.mpr
    (ensures_apply crates config stable kept (ok config) (swapped config) held)

theorem ensures_reload (crates : Crates) (settings : NodeConfig) {post : World → Prop}
    (stable : rely.Stable inv) (idle : ∀ w, inv w → post w)
    (locked : ∀ w, inv w → (reloadLocked crates settings).Ensures rely (fun _ => post) w)
    (held : inv w) :
    (reload crates settings).Ensures rely (fun _ => post) w :=
  Program.obeys_iff_ensures.mp (obeys_reload crates settings (steady_of_stable stable)
    (fun _ _ => True.intro) idle (fun w held => Program.obeys_iff_ensures.mpr (locked w held)) held)

theorem ensures_poll (crates : Crates) (settings : NodeConfig) {before post : World → Prop}
    (stableBefore : rely.Stable before) (stable : rely.Stable inv)
    (accept : ∀ files w, before w → inv (w.setNode fun n => { n with
      tracked := { n.tracked with certFiles := files } }))
    (note : ∀ w, inv w → inv (w.setNode fun n => { n with log := .certificatesChanged :: n.log }))
    (idle : ∀ w, before w → post w)
    (locked : ∀ w, inv w → (reloadLocked crates settings).Ensures rely (fun _ => post) w)
    (held : before w) :
    (reloadIfCertificatesChanged crates settings).Ensures rely (fun _ => post) w :=
  Program.obeys_iff_ensures.mp (obeys_poll crates settings (steady_of_stable stableBefore)
    (steady_of_stable stable) (fun _ _ => True.intro)
    (fun files w held => ⟨True.intro, accept files w held⟩)
    (fun w held => ⟨True.intro, note w held⟩) idle
    (fun w held => Program.obeys_iff_ensures.mpr (locked w held)) held)

end Applying

end Gfe
