import Gfe.Reload.Startup

/-! # Health handles across reloads

A pool takes the health handles of its backends when it is built and reads them
on every selection; the probe loops look the handle up each time they record a
status, and write to it in a second step. A reload that is accepted forgets the
backends it does not serve, and stops their loops only later. The handles of the
pools being served are the map's own throughout, and so are those of the loops
that run for their backends.
-/

namespace Gfe

open Interleaving

variable {w w' : World} {config : DynamicConfig}

/-! ## What the probes do -/

/-- A probe loop looks up the handle of its backend. -/
def World.takes (w : World) (key : BackendKey) (task : Nat) : World :=
  (w.setNode fun n => { n with health := (n.health.handle key).2 }).setJournal
    fun j => { j with taken := (key, task, (w.node.health.handle key).1) :: j.taken }

def World.stores (w : World) (handle : HandleId) (status : HealthStatus) : World :=
  w.setNode fun n => { n with
    health := { n.health with status := Function.update n.health.status handle status } }

theorem health_takes_stores (w : World) (key : BackendKey) (task : Nat) (status : HealthStatus) :
    ((w.takes key task).stores (w.node.health.handle key).1 status).node.health =
      w.node.health.set key status := rfl

/-- What goes on beside the control plane. -/
inductive Probing (w : World) : World → Prop where
  /-- Any loop that was ever started, also one that was stopped meanwhile. -/
  | take (key : BackendKey) {task : Nat} : task < w.node.checker.nextTask →
      Probing w (w.takes key task)
  | store (handle : HandleId) (status : HealthStatus) : Probing w (w.stores handle status)
  | elsewhere {w' : World} : w'.node = w.node → w'.journal.taken = w.journal.taken → Probing w w'

/-! ## Handles that are the map's own -/

def Aligned (health : HealthMap) (pool : Pool Scheme) : Prop :=
  List.Forall₂ (fun backend handle => health.entries.lookup backend.key = some handle)
    pool.backends pool.health

def KeepsHandles (before after : HealthMap) : Prop :=
  ∀ key handle, before.entries.lookup key = some handle → after.entries.lookup key = some handle

theorem Aligned.keeps {before after : HealthMap} {pool : Pool Scheme} (aligned : Aligned before pool)
    (kept : KeepsHandles before after) : Aligned after pool :=
  aligned.imp fun _ _ known => kept _ _ known

/-- The pools being served have the map's handles, and so has every loop that runs
    for one of the backends `needed`. -/
structure Tied (needed : BackendKey → Prop) (w : World) : Prop where
  aligned : ∀ pool ∈ w.node.routing.pools.pools.values, Aligned w.node.health pool
  issued : ∀ key task handle, (key, task, handle) ∈ w.journal.taken →
    task < w.node.checker.nextTask
  current : ∀ key task handle, (key, task, handle) ∈ w.journal.taken →
    w.node.checker.taskOf key = some task → needed key →
      w.node.health.entries.lookup key = some handle

/-- What holds of a node whenever no reload is under way. -/
abbrev Wired : World → Prop := Tied fun _ => True

/-- What holds of it at any moment: once a reload has forgotten backends, their
    loops run until it stops them. -/
def Bound (w : World) : Prop := Tied (fun key => key ∈ w.node.routing.pools.allBackends) w

/-- What is no concern of the handles. -/
structure Unwired (w w' : World) : Prop where
  routing : w'.node.routing.pools = w.node.routing.pools
  health : w'.node.health.entries = w.node.health.entries
  checker : w'.node.checker = w.node.checker
  taken : w'.journal.taken = w.journal.taken

section Moves

variable {needed needed' : BackendKey → Prop} {w w' : World}

theorem Tied.weaken (tied : Tied needed w) (fewer : ∀ key, needed' key → needed key) :
    Tied needed' w :=
  ⟨tied.aligned, tied.issued, fun key task handle taken running wanted =>
    tied.current key task handle taken running (fewer key wanted)⟩

theorem Tied.congr (tied : Tied needed w) (same : Unwired w w') : Tied needed w' := by
  obtain ⟨routing, health, checker, taken⟩ := same
  constructor
  · intro pool member
    rw [routing] at member
    exact (tied.aligned pool member).keeps fun key handle known => by rwa [health]
  · rw [taken, checker]
    exact tied.issued
  · rw [taken, checker, health]
    exact tied.current

theorem lookup_handle (health : HealthMap) (key : BackendKey) :
    (health.handle key).2.entries.lookup key = some (health.handle key).1 := by
  unfold HealthMap.handle
  split
  · assumption
  · simp [HealthMap.enter]

theorem Tied.enter (tied : Tied needed w) (key : BackendKey) :
    Tied needed (w.setNode fun n => { n with health := (n.health.handle key).2 }) := by
  have kept : KeepsHandles w.node.health (w.node.health.handle key).2 :=
    (w.node.health.handle_grows key).kept
  constructor
  · exact fun pool member => (tied.aligned pool member).keeps kept
  · exact tied.issued
  · intro other task handle taken running wanted
    exact kept _ _ (tied.current other task handle taken running wanted)

theorem Tied.takes (tied : Tied needed w) (key : BackendKey) {task : Nat}
    (started : task < w.node.checker.nextTask) : Tied needed (w.takes key task) := by
  have entered := tied.enter key
  constructor
  · exact entered.aligned
  · intro other task' handle taken
    cases List.mem_cons.mp taken with
    | inl same =>
      cases same
      exact started
    | inr before => exact tied.issued other task' handle before
  · intro other task' handle taken running wanted
    cases List.mem_cons.mp taken with
    | inl same =>
      cases same
      exact lookup_handle w.node.health key
    | inr before => exact entered.current other task' handle before running wanted

theorem Tied.reconcile (tied : Tied needed w) (pools : List CheckedPool)
    (wanted : ∀ key, needed' key → (∃ pool ∈ pools, key ∈ pool.backends) → needed key) :
    Tied needed' (w.setNode fun n => { n with checker := n.checker.reconcile pools }) := by
  constructor
  · exact tied.aligned
  · intro key task handle taken
    exact (tied.issued key task handle taken).trans_le
      (w.node.checker.nextTask_reconcile pools)
  · intro key task handle taken running here
    have old : w.node.checker.taskOf key = some task := by
      cases w.node.checker.taskOf_reconcile pools running with
      | inl old => exact old
      | inr new => exact absurd (tied.issued key task handle taken) (not_lt.mpr new)
    exact tied.current key task handle taken old
      (wanted key here (mem_backends_of_taskOf running))

theorem Tied.forget (wired : Wired w) :
    Bound (w.setNode fun n => { n with
      health := n.health.retain w.node.routing.pools.allBackends }) := by
  have kept : ∀ key handle, key ∈ w.node.routing.pools.allBackends →
      w.node.health.entries.lookup key = some handle →
      (w.node.health.retain w.node.routing.pools.allBackends).entries.lookup key =
        some handle := by
    intro key handle served known
    rw [HealthMap.retain, HashMap.lookup_retain, known]
    simp [served]
  constructor
  · intro pool member
    have aligned := wired.aligned pool member
    refine List.forall₂_iff_get.mpr ⟨aligned.length_eq, fun i inside inside' => ?_⟩
    refine kept _ _ ?_ (aligned.get inside inside')
    exact List.mem_flatMap.mpr ⟨pool, member, List.mem_map.mpr ⟨_, List.get_mem _ _, rfl⟩⟩
  · exact wired.issued
  · intro key task handle taken running served
    exact kept key handle served (wired.current key task handle taken running True.intro)

end Moves

/-! ## What others may do -/

/-- What goes on beside a reload: the pools being served and the map's handles
    stay, and so does what holds of the loops. -/
def besideProbes : Rely World where
  may w w' := w'.node.routing = w.node.routing ∧ KeepsHandles w.node.health w'.node.health ∧
    ∀ needed, Tied needed w → Tied needed w'
  refl _ := ⟨rfl, fun _ _ known => known, fun _ tied => tied⟩
  trans first second := ⟨second.1.trans first.1,
    fun key handle known => second.2.1 key handle (first.2.1 key handle known),
    fun needed tied => second.2.2 needed (first.2.2 needed tied)⟩

/-- What goes on before the first config is applied: no checks are begun, and
    nobody else decides whether changes are followed. -/
def beforeChecks : Rely World where
  may w w' := besideProbes.may w w' ∧ w'.node.checker = w.node.checker ∧
    w'.node.tracked = w.node.tracked
  refl w := ⟨besideProbes.refl w, rfl, rfl⟩
  trans first second := ⟨besideProbes.trans first.1 second.1, second.2.1.trans first.2.1,
    second.2.2.trans first.2.2⟩

theorem beforeChecks_of_probing (moved : Probing w w') : beforeChecks.may w w' := by
  cases moved with
  | @take key task started =>
    exact ⟨⟨rfl, (w.node.health.handle_grows key).kept, fun _ tied => tied.takes key started⟩,
      rfl, rfl⟩
  | store handle status =>
    exact ⟨⟨rfl, fun _ _ known => known, fun _ tied => tied.congr ⟨rfl, rfl, rfl, rfl⟩⟩, rfl, rfl⟩
  | elsewhere same taken =>
    have unwired : Unwired w w' := by constructor <;> simp [same, taken]
    refine ⟨⟨by rw [same], ?_, fun _ tied => tied.congr unwired⟩, by rw [same], by rw [same]⟩
    intro key handle known
    rwa [same]

theorem besideProbes_beginChecks (settings : NodeConfig) (config : DynamicConfig) (w : World) :
    besideProbes.may w (beginChecks settings config w) := by
  refine ⟨rfl, fun _ _ known => known, fun needed tied => ?_⟩
  exact (tied.reconcile (checkedPools config.pools settings.healthCheckDefaults)
    fun _ wanted _ => wanted).congr ⟨rfl, rfl, rfl, rfl⟩

/-- What a step of the control plane does to the health map: no status changes,
    and a backend that is known afterwards has the handle it had or is new. -/
structure Tends (before after : HealthMap) : Prop where
  entries : ∀ key handle, after.entries.lookup key = some handle →
    before.entries.lookup key = some handle ∨ before.entries.lookup key = none
  status : ∀ handle < before.nextHandle, after.status handle = before.status handle

theorem Tends.refl (health : HealthMap) : Tends health health :=
  ⟨fun _ _ known => .inl known, fun _ _ => rfl⟩

theorem tends_handle (health : HealthMap) (key : BackendKey) :
    Tends health (health.handle key).2 := by
  constructor
  · intro other handle known
    cases before : health.entries.lookup other with
    | none => exact .inr rfl
    | some old =>
      have kept := (health.handle_grows key).kept other old before
      rw [known] at kept
      exact .inl kept.symm
  · exact (health.handle_grows key).status

theorem tends_retain (health : HealthMap) (keep : List BackendKey) :
    Tends health (health.retain keep) := by
  constructor
  · intro key handle known
    rw [HealthMap.retain, HashMap.lookup_retain] at known
    exact .inl (Option.filter_eq_some_iff.mp known).1
  · exact fun _ _ => rfl

/-! ## Building pools -/

section Building

variable {rely : Rely World} {during inv : World → Prop}

/-- The moves of the control plane, as far as the health map is concerned. -/
def Tending (w w' : World) : Prop := Tends w.node.health w'.node.health

theorem tending_of_preparing (moved : Preparing w w') : Tending w w' := by
  cases moved with
  | idle => exact Tends.refl _
  | enter key => exact tends_handle _ key

theorem stable_lookup (probes : ∀ w w', rely.may w w' → besideProbes.may w w') (key : BackendKey)
    (handle : HandleId) :
    rely.Stable fun w => w.node.health.entries.lookup key = some handle :=
  fun w w' moved known => (probes w w' moved).2.1 key handle known

theorem stable_aligned (probes : ∀ w w', rely.may w w' → besideProbes.may w w')
    (pools : List (Pool Scheme)) :
    rely.Stable fun w => ∀ pool ∈ pools, Aligned w.node.health pool :=
  fun w w' moved aligned pool member => (aligned pool member).keeps (probes w w' moved).2.1

theorem keepsHandles_of_preparing (moved : Preparing w w') :
    KeepsHandles w.node.health w'.node.health := by
  cases moved with
  | idle => exact fun _ _ known => known
  | enter key => exact (w.node.health.handle_grows key).kept

theorem obeys_takeHandles (probes : ∀ w w', rely.may w w' → besideProbes.may w w')
    (backends : List Backend) (steady : Program.Steady rely during inv)
    (kept : ∀ w w', Preparing w w' → inv w → inv w') {w : World} (held : inv w) :
    (takeHandles backends).Obeys rely Tending during
      (fun handles w => List.Forall₂ (fun (backend : Backend) handle =>
        w.node.health.entries.lookup backend.key = some handle) backends handles ∧ inv w) w := by
  induction backends generalizing inv w with
  | nil =>
    apply Program.Obeys.ret
    intro w' moved
    exact ⟨.nil, steady.stable w w' moved held⟩
  | cons backend rest ih =>
    apply Program.Obeys.bind
    apply Program.Obeys.exchange
    intro t moved
    have here := steady.stable w t moved held
    refine ⟨steady.fine t here, tends_handle _ _, fun u later => ?_⟩
    have known := stable_lookup probes backend.key _ _ u later
      (lookup_handle t.node.health backend.key)
    have there := steady.stable _ u later (kept t _ (.enter backend.key) here)
    -- what was looked up stays while the other handles are taken
    have steady' : Program.Steady rely during fun w => inv w ∧
        w.node.health.entries.lookup backend.key = some (t.node.health.handle backend.key).1 :=
      ⟨fun w w' moved both => ⟨steady.stable w w' moved both.1,
        stable_lookup probes _ _ w w' moved both.2⟩, fun w both => steady.fine w both.1⟩
    have kept' : ∀ w w', Preparing w w' → inv w ∧
        w.node.health.entries.lookup backend.key = some (t.node.health.handle backend.key).1 →
        inv w' ∧
          w'.node.health.entries.lookup backend.key =
            some (t.node.health.handle backend.key).1 :=
      fun w w' moved both => ⟨kept w w' moved both.1,
        keepsHandles_of_preparing moved _ _ both.2⟩
    apply Program.Obeys.bind
    apply (ih steady' kept' ⟨there, known⟩).settle.weaken
    intro others v ended
    apply Program.Obeys.ret
    intro v' moved
    obtain ⟨aligned, held, known⟩ := ended v' moved
    exact ⟨.cons known aligned, held⟩

def HasPools (specs : List (PoolSpec Scheme)) (pools : HashMap Str (Pool Scheme)) : Prop :=
  ∀ spec ∈ specs, ∃ pool, pools.lookup spec.id = some pool ∧ pool.backends = spec.backends

theorem aligned_insert {health : HealthMap} {pools : HashMap Str (Pool Scheme)} {id : Str}
    {pool : Pool Scheme} (aligned : ∀ pool ∈ pools.values, Aligned health pool)
    (new : Aligned health pool) :
    ∀ other ∈ HashMap.values (pools.insert id pool), Aligned health other := by
  intro other member
  cases HashMap.mem_values_insert member with
  | inl same => exact same ▸ new
  | inr old => exact aligned other old

theorem obeys_newPool (probes : ∀ w w', rely.may w w' → besideProbes.may w w') (crates : Crates)
    (spec : PoolSpec Scheme) (steady : Program.Steady rely during inv)
    (kept : ∀ w w', Preparing w w' → inv w → inv w') {w : World} (held : inv w) :
    Fallible.Obeys rely Tending during (Pool.new crates spec)
      (fun pool w => pool.backends = spec.backends ∧ Aligned w.node.health pool ∧ inv w)
      (fun _ => inv) w := by
  apply Fallible.Obeys.bind
  apply Fallible.Obeys.ofExcept
  · intro ring _ w' moved
    apply Fallible.Obeys.bind
    apply Fallible.Obeys.lift
    apply (obeys_takeHandles probes spec.backends steady kept
      (steady.stable w w' moved held)).settle.weaken
    intro handles v ended
    apply Fallible.Obeys.pure
    intro v' moved
    exact ⟨rfl, ended v' moved⟩
  · exact fun _ _ w' moved => steady.stable w w' moved held

theorem obeys_addPools (probes : ∀ w w', rely.may w w' → besideProbes.may w w') (crates : Crates)
    (specs : List (PoolSpec Scheme)) (steady : Program.Steady rely during inv)
    (kept : ∀ w w', Preparing w w' → inv w → inv w') (distinct : (specs.map PoolSpec.id).Nodup)
    {before : List (PoolSpec Scheme)} {pools : HashMap Str (Pool Scheme)}
    (known : HasPools before pools) (apart : ∀ spec ∈ before, spec.id ∉ specs.map PoolSpec.id)
    {w : World} (aligned : ∀ pool ∈ pools.values, Aligned w.node.health pool) (held : inv w) :
    Fallible.Obeys rely Tending during (PoolSet.addPools crates pools specs)
      (fun pools w => (HasPools before pools ∧ HasPools specs pools) ∧
        (∀ pool ∈ pools.values, Aligned w.node.health pool) ∧ inv w)
      (fun _ => inv) w := by
  induction specs generalizing before pools w with
  | nil =>
    apply Fallible.Obeys.pure
    intro w' moved
    exact ⟨⟨known, fun _ none => by cases none⟩,
      stable_aligned probes _ w w' moved aligned, steady.stable w w' moved held⟩
  | cons spec rest ih =>
    simp only [List.map_cons, List.nodup_cons] at distinct
    have steady' : Program.Steady rely during fun w =>
        (∀ pool ∈ pools.values, Aligned w.node.health pool) ∧ inv w :=
      ⟨fun w w' moved both => ⟨stable_aligned probes _ w w' moved both.1,
        steady.stable w w' moved both.2⟩, fun w both => steady.fine w both.2⟩
    have kept' : ∀ w w', Preparing w w' →
        (∀ pool ∈ pools.values, Aligned w.node.health pool) ∧ inv w →
        (∀ pool ∈ pools.values, Aligned w'.node.health pool) ∧ inv w' :=
      fun w w' moved both => ⟨fun pool member =>
        (both.1 pool member).keeps (keepsHandles_of_preparing moved), kept w w' moved both.2⟩
    apply Fallible.Obeys.bind
    apply (obeys_newPool probes crates spec steady' kept' ⟨aligned, held⟩).weaken
    · intro pool v built
      obtain ⟨backends, new, aligned, held⟩ := built
      have known' : HasPools (spec :: before) (pools.insert spec.id pool) := by
        intro other member
        by_cases same : other.id = spec.id
        · cases List.mem_cons.mp member with
          | inl first =>
            subst first
            exact ⟨pool, by simp, backends⟩
          | inr old => exact absurd (by simp [same]) (apart other old)
        · cases List.mem_cons.mp member with
          | inl first => exact absurd (congrArg PoolSpec.id first) same
          | inr old =>
            obtain ⟨there, found, equal⟩ := known other old
            exact ⟨there, by simp [same, found], equal⟩
      have apart' : ∀ other ∈ spec :: before, other.id ∉ rest.map PoolSpec.id := by
        intro other member
        cases List.mem_cons.mp member with
        | inl first => exact first ▸ distinct.1
        | inr old => exact fun later => apart other old (List.mem_cons_of_mem _ later)
      apply (ih distinct.2 known' apart' (aligned_insert aligned new) held).weaken
      · intro final v ended
        obtain ⟨⟨first, others⟩, rest⟩ := ended
        refine ⟨⟨fun other old => first other (List.mem_cons_of_mem _ old), ?_⟩, rest⟩
        intro other member
        cases List.mem_cons.mp member with
        | inl same => exact first other (by simp [same])
        | inr later => exact others other later
      · exact fun _ _ held => held
    · exact fun _ _ both => both.2

def Covers (config : DynamicConfig) (pools : PoolSet Scheme) : Prop :=
  ∀ pool ∈ config.pools, ∀ upstream ∈ pool.upstreams,
    (upstream.host, upstream.port) ∈ pools.allBackends

theorem covers_of_hasPools {pools : PoolSet Scheme}
    (known : HasPools (poolSpecs config.pools) pools.pools) : Covers config pools := by
  intro pool member upstream inside
  obtain ⟨built, found, backends⟩ := known _ (List.mem_map_of_mem member)
  refine List.mem_flatMap.mpr ⟨built, HashMap.mem_values found, ?_⟩
  rw [backends]
  exact List.mem_map.mpr ⟨_, List.mem_map_of_mem inside, rfl⟩

/-- A config is ready when its pools have the map's handles. -/
structure Ready (config : DynamicConfig) (prepared : Prepared) (w : World) : Prop where
  source : prepared.source = config
  covers : Covers config prepared.pools
  aligned : ∀ pool ∈ prepared.pools.pools.values, Aligned w.node.health pool

theorem stable_ready (probes : ∀ w w', rely.may w w' → besideProbes.may w w')
    (config : DynamicConfig) (prepared : Prepared) : rely.Stable (Ready config prepared) :=
  fun w w' moved ready =>
    ⟨ready.source, ready.covers, stable_aligned probes _ w w' moved ready.aligned⟩

theorem Ready.staging {prepared : Prepared}
    (ready : Ready config prepared w) (moved : Staging w w') : Ready config prepared w' := by
  cases moved <;> exact ⟨ready.source, ready.covers, ready.aligned⟩

theorem obeys_prepareHandles (probes : ∀ w w', rely.may w w' → besideProbes.may w w')
    (crates : Crates) (config : DynamicConfig) (steady : Program.Steady rely during inv)
    (kept : ∀ w w', Preparing w w' → inv w → inv w') {w : World} (held : inv w) :
    Fallible.Obeys rely Tending during (prepare crates config)
      (fun prepared w => Ready config prepared w ∧ inv w) (fun _ => inv) w := by
  have prepares := obeys_prepare crates config steady
    (fun w w' moved held => ⟨tending_of_preparing moved, kept w w' moved held⟩)
    (fun pools w => Covers config pools ∧ ∀ pool ∈ pools.pools.values, Aligned w.node.health pool)
    (fun pools w w' moved ready => ⟨ready.1, stable_aligned probes _ w w' moved ready.2⟩) ?_ held
  · apply prepares.weaken
    · exact fun prepared w ended => ⟨⟨ended.1, ended.2.1.1, ended.2.1.2⟩, ended.2.2⟩
    · exact fun _ _ held => held
  · intro w held valid
    have distinct : ((poolSpecs config.pools).map PoolSpec.id).Nodup := by
      have ids := (nodup_poolId_of_validate valid).map (f := PoolId.id)
        fun one two same => by cases one; cases two; simpa using same
      simpa [poolSpecs, Function.comp_def] using ids
    apply Fallible.Obeys.bind
    have nothing : HasPools [] (∅ : HashMap Str (Pool Scheme)) := nofun
    apply (obeys_addPools probes crates (poolSpecs config.pools) steady kept distinct nothing
      nofun nofun held).weaken
    · intro pools w ended
      apply Fallible.Obeys.pure
      intro w' moved
      exact ⟨⟨covers_of_hasPools ended.1.2, stable_aligned probes _ w w' moved ended.2.1⟩,
        steady.stable w w' moved ended.2.2⟩
    · exact fun _ _ held => held

end Building

/-! ## A reload of a running node -/

section Reloading

theorem stable_wired : besideProbes.Stable Wired := fun _ _ moved wired => moved.2.2 _ wired

theorem stable_bound : besideProbes.Stable Bound := by
  intro w w' moved bound
  unfold Bound
  rw [moved.1]
  exact moved.2.2 _ bound

theorem steady_wired : Program.Steady besideProbes Bound Wired :=
  ⟨stable_wired, fun _ wired => wired.weaken fun _ _ => True.intro⟩

variable {needed : BackendKey → Prop} {w w' : World}

theorem tied_of_tentative (moved : Tentative w w') (tied : Tied needed w) :
    Tending w w' ∧ Tied needed w' := by
  cases moved with
  | load | remember => exact ⟨Tends.refl _, tied.congr ⟨rfl, rfl, rfl, rfl⟩⟩
  | prepare prepared =>
    cases prepared with
    | idle => exact ⟨Tends.refl _, tied⟩
    | enter key => exact ⟨tends_handle _ key, tied.enter key⟩
  | stage staged => cases staged <;> exact ⟨Tends.refl _, tied.congr ⟨rfl, rfl, rfl, rfl⟩⟩

theorem tied_of_settling (moved : Settling w w') (tied : Tied needed w) :
    Tending w w' ∧ Tied needed w' := by
  cases moved <;> exact ⟨Tends.refl _, tied.congr ⟨rfl, rfl, rfl, rfl⟩⟩

theorem tied_of_caching (moved : Caching w w') (tied : Tied needed w) :
    Tending w w' ∧ Tied needed w' := by
  cases moved with
  | idle => exact ⟨Tends.refl _, tied⟩
  | cache json => exact ⟨Tends.refl _, tied.congr ⟨rfl, rfl, rfl, rfl⟩⟩
  | report reported => cases reported <;> exact ⟨Tends.refl _, tied.congr ⟨rfl, rfl, rfl, rfl⟩⟩

/-- The pools of a config that was prepared are served. -/
structure Routed (prepared : Prepared) (w : World) : Prop where
  covers : Covers prepared.source prepared.pools
  pools : w.node.routing.pools = prepared.pools

theorem Tied.route {prepared : Prepared} (tied : Tied needed w)
    (ready : Ready config prepared w) :
    Tied needed ((w.setNode fun n => { n with
        routing := ⟨prepared.routes, prepared.pools⟩ }).setJournal
      fun j => { j with serving := some prepared.source, installs := j.installs + 1 }) :=
  ⟨ready.aligned, tied.issued, tied.current⟩

/-- Swapping a config in leaves the loops of the backends it dropped. -/
theorem obeys_swapInHandles {prepared : Prepared} (staged : EdgeStaged)
    (ready : Ready config prepared w) (wired : Wired w) :
    (swapIn prepared staged).Obeys besideProbes Tending Bound
      (fun _ w => Bound w ∧ Covers config w.node.routing.pools) w := by
  have steadyBefore : Program.Steady besideProbes Bound fun w =>
      Ready config prepared w ∧ Wired w :=
    ⟨fun w w' moved both => ⟨stable_ready (fun _ _ moved => moved) config prepared w w' moved both.1,
      stable_wired w w' moved both.2⟩, fun w both => steady_wired.fine w both.2⟩
  have stableRouted : besideProbes.Stable (Routed prepared) :=
    fun w w' moved routed => ⟨routed.covers, by rw [moved.1]; exact routed.pools⟩
  have steadyRouted : Program.Steady besideProbes Bound fun w => Routed prepared w ∧ Wired w :=
    ⟨fun w w' moved both => ⟨stableRouted w w' moved both.1, stable_wired w w' moved both.2⟩,
      fun w both => steady_wired.fine w both.2⟩
  have steady : Program.Steady besideProbes Bound fun w => Routed prepared w ∧ Bound w :=
    ⟨fun w w' moved both => ⟨stableRouted w w' moved both.1, stable_bound w w' moved both.2⟩,
      fun w both => both.2⟩
  have swaps : (swapIn prepared staged).Obeys besideProbes Tending Bound
      (fun _ w => Routed prepared w ∧ Bound w) w := by
    apply obeys_swapIn prepared staged steadyBefore steadyBefore steadyRouted steady
      (fun _ _ => Tends.refl _) _ _ _ _ ⟨ready, wired⟩
    · intro w both
      exact ⟨Tends.refl _, ⟨both.1.source, both.1.covers, both.1.aligned⟩,
        both.2.congr ⟨rfl, rfl, rfl, rfl⟩⟩
    · intro w both
      exact ⟨Tends.refl _, ⟨both.1.source ▸ both.1.covers, rfl⟩, both.2.route both.1⟩
    · intro w both
      refine ⟨tends_retain _ _, ⟨both.1.covers, both.1.pools⟩, ?_⟩
      rw [← both.1.pools]
      exact both.2.forget
    · intro w w' moved both
      obtain ⟨tends, bound⟩ := tied_of_settling moved both.2
      cases moved <;> exact ⟨tends, ⟨both.1.covers, both.1.pools⟩, bound⟩
  apply swaps.weaken
  intro _ w ended
  refine ⟨ended.2, ?_⟩
  rw [ended.1.pools, ← ready.source]
  exact ended.1.covers

variable (crates : Crates) (settings : NodeConfig)

theorem obeys_applyHandles {load : Fallible World ConfigError DynamicConfig}
    (loads : Fallible.Moves Tentative load) (wired : Wired w) :
    Fallible.Obeys besideProbes Tending Bound (do
      let config ← Fallible.mapError .config load
      apply crates config
      return config) (fun config w => Bound w ∧ Covers config w.node.routing.pools)
      (fun _ => Wired) w := by
  apply obeys_applyLoaded crates loads steady_wired (fun w w' => tied_of_tentative) _ _ wired
  intro config w wired
  apply obeys_apply crates config steady_wired (fun w w' => tied_of_tentative) (Ready config)
    (stable_ready (fun _ _ moved => moved) config) (fun _ _ _ moved ready => ready.staging moved)
    _ _ (fun _ staged _ ready wired => obeys_swapInHandles staged ready wired) wired
  intro w wired
  exact obeys_prepareHandles (fun _ _ moved => moved) crates config steady_wired
    (fun w w' moved wired => (tied_of_tentative (.prepare moved) wired).2) wired

theorem obeys_reloadLocked (wired : Wired w) :
    (reloadLocked crates settings).Obeys besideProbes Tending Bound (fun _ => Wired) w := by
  apply Program.Obeys.bind
  have deployed := obeys_applyHandles crates
    (moves_loadDynamicConfig crates settings.configFile) wired
  apply Program.Obeys.weaken deployed
  intro result w ended
  cases result with
  | error error =>
    exact Program.Obeys.ofMoves moves_report steady_wired
      (fun w w' moved wired => tied_of_caching (.report moved) wired) ended
  | ok config =>
    have steady : Program.Steady besideProbes Bound fun w =>
        Bound w ∧ Covers config w.node.routing.pools :=
      ⟨fun w w' moved both => ⟨stable_bound w w' moved both.1, by rw [moved.1]; exact both.2⟩,
        fun w both => both.1⟩
    apply Program.Obeys.bind
    have reconciles : (reconcile settings config).Obeys besideProbes Tending Bound
        (fun _ => Wired) w := by
      apply Program.Obeys.change steady stable_wired _ ended
      intro w both
      refine ⟨Tends.refl _, both.1.reconcile _ ?_⟩
      -- a loop that is kept or started is for a backend of the config
      intro key _ checked
      obtain ⟨pool, listed, inside⟩ := checked
      obtain ⟨source, member, same⟩ := List.mem_map.mp listed
      subst same
      obtain ⟨upstream, there, same⟩ := List.mem_map.mp inside
      subst same
      exact both.2 source member upstream there
    apply reconciles.weaken
    intro _ w wired
    exact Program.Obeys.ofMoves (moves_conclude crates settings config) steady_wired
      (fun w w' => tied_of_caching) wired

theorem obeys_reloadHandles (wired : Wired w) :
    (reload crates settings).Obeys besideProbes Tending Bound (fun _ => Wired) w :=
  obeys_reload crates settings steady_wired (fun _ _ => Tends.refl _) (fun _ wired => wired)
    (fun _ wired => obeys_reloadLocked crates settings wired) wired

theorem obeys_pollHandles (wired : Wired w) :
    (reloadIfCertificatesChanged crates settings).Obeys besideProbes Tending Bound
      (fun _ => Wired) w :=
  obeys_poll crates settings steady_wired steady_wired (fun _ _ => Tends.refl _)
    (fun _ _ wired => ⟨Tends.refl _, wired.congr ⟨rfl, rfl, rfl, rfl⟩⟩)
    (fun _ wired => ⟨Tends.refl _, wired.congr ⟨rfl, rfl, rfl, rfl⟩⟩) (fun _ wired => wired)
    (fun _ wired => obeys_reloadLocked crates settings wired) wired

end Reloading

/-! ## The first config -/

section First

/-- No check is begun and no change is followed. -/
structure Early (w : World) : Prop where
  wired : Wired w
  unchecked : w.node.checker = .new
  unfollowed : w.node.tracked.following = false

variable {w : World}

theorem besideProbes_of_beforeChecks (w w' : World) (moved : beforeChecks.may w w') :
    besideProbes.may w w' := moved.1

theorem stable_unchecked :
    beforeChecks.Stable fun w => w.node.checker = .new ∧ w.node.tracked.following = false := by
  intro w w' moved known
  rw [moved.2.1, moved.2.2]
  exact known

theorem steady_early : Program.Steady beforeChecks Bound Early := by
  constructor
  · intro w w' moved early
    have known := stable_unchecked w w' moved ⟨early.unchecked, early.unfollowed⟩
    exact ⟨stable_wired w w' moved.1 early.wired, known.1, known.2⟩
  · exact fun w early => steady_wired.fine w early.wired

theorem Bound.early (bound : Bound w) (unchecked : w.node.checker = .new)
    (unfollowed : w.node.tracked.following = false) : Early w := by
  refine ⟨⟨bound.aligned, bound.issued, ?_⟩, unchecked, unfollowed⟩
  intro key task handle taken running
  rw [unchecked] at running
  simp [HealthChecker.taskOf, HealthChecker.new] at running

theorem unchecked_of_applying (moved : Applying w w')
    (known : w.node.checker = .new ∧ w.node.tracked.following = false) :
    w'.node.checker = .new ∧ w'.node.tracked.following = false := by
  cases moved with
  | tentative tried =>
    cases tried with
    | load => exact known
    | remember files => exact known
    | prepare prepared => cases prepared <;> exact known
    | stage staged => cases staged <;> exact known
  | swap swapped =>
    cases swapped with
    | settle settled => cases settled <;> exact known
    | _ => exact known

theorem early_of_caching (moved : Caching w w') (early : Early w) :
    Tending w w' ∧ Early w' := by
  obtain ⟨tends, wired⟩ := tied_of_caching moved early.wired
  cases moved with
  | report reported => cases reported <;> exact ⟨tends, wired, early.unchecked, early.unfollowed⟩
  | _ => exact ⟨tends, wired, early.unchecked, early.unfollowed⟩

variable (crates : Crates) (settings : NodeConfig)

/-- Before the checks are begun a config that is applied leaves the node as one
    that is not: there is no loop to be left behind. -/
theorem obeys_applyEarly {load : Fallible World ConfigError DynamicConfig}
    (loads : Fallible.Moves Tentative load)
    (moves : Fallible.Moves Applying (do
      let config ← Fallible.mapError .config load
      apply crates config
      return config)) (early : Early w) :
    Fallible.Obeys beforeChecks Tending Bound (do
      let config ← Fallible.mapError .config load
      apply crates config
      return config) (fun _ => Early) (fun _ => Early) w := by
  apply Program.Obeys.weaken ((obeys_applyHandles crates loads early.wired).keeping
    besideProbes_of_beforeChecks moves stable_unchecked (fun _ _ => unchecked_of_applying)
    ⟨early.unchecked, early.unfollowed⟩)
  intro result w ended
  cases result with
  | ok config => exact ended.1.1.early ended.2.1 ended.2.2
  | error error => exact ⟨ended.1, ended.2.1, ended.2.2⟩

theorem obeys_startFollowing (early : Early w) :
    startFollowing.Obeys beforeChecks Tending Bound (fun _ => Wired) w := by
  apply Program.Obeys.change steady_early (fun w w' moved => stable_wired w w' moved.1) _ early
  exact fun w early => ⟨Tends.refl _, early.wired.congr ⟨rfl, rfl, rfl, rfl⟩⟩

theorem obeys_applyInitial (early : Early w) :
    Fallible.Obeys beforeChecks Tending Bound (applyInitial crates settings) (fun _ => Wired)
      (fun _ => Early) w :=
  obeys_firstConfig crates settings steady_early (fun _ _ => early_of_caching)
    (fun _ early => obeys_applyEarly crates (moves_loadDynamicConfig crates _)
      (moves_applyDeployed crates settings) early)
    (fun path _ early => obeys_applyEarly crates (moves_loadCache crates path)
      (moves_applyCached crates path) early)
    (fun _ early => obeys_startFollowing early) early

theorem obeys_reloadEarly (early : Early w) :
    (reload crates settings).Obeys beforeChecks Tending Bound (fun _ => Early) w := by
  apply Program.Obeys.bind
  apply Program.Obeys.read
  intro t moved
  have here := steady_early.stable w t moved early
  refine ⟨steady_early.fine t here, Tends.refl _, fun u later => ?_⟩
  simp only [here.unfollowed]
  exact Program.Obeys.ret fun v moved => steady_early.stable u v moved
    (steady_early.stable t u later here)

end First

end Gfe
