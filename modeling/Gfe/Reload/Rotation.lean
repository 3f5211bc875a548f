import Gfe.Reload.Outcome
import Gfe.Reload.Startup

/-! # Rotations of certificate files

Certificate and key files are replaced at any moment, also between the steps of
a reload. A reload remembers how the files look before it reads them, so unless
a file returns to the version that is remembered, a poll that finds nothing to
do means that the certificates being served are those on disk, or that the last
reload was rejected for what is on disk.
-/

namespace Gfe

open Interleaving

variable {w w' : World}

/-! ## What goes on beside the reloads -/

/-- Files are replaced, as far as `allowed`, and probes report. -/
inductive Beside (allowed : World → Path → FileState → Prop) (w : World) : World → Prop where
  | replace (path : Path) (file : FileState) :
      allowed w path file → Beside allowed w (w.replace path file)
  | probe (health : HealthMap) :
      Beside allowed w (w.setNode fun n => { n with health := health })

/-- The new version of a file does not look as the one the node remembers. -/
def Anew (w : World) (path : Path) (file : FileState) : Prop :=
  (path, file.stamp) ∉ w.node.tracked.certFiles.seen

/-- What a reload can rely on meanwhile: of the node nothing it works with
    changes, and a file that was replaced looks different from what is
    remembered. -/
structure Elsewhere (w w' : World) : Prop where
  certFiles : w'.node.tracked.certFiles = w.node.tracked.certFiles
  resolver : w'.node.resolver = w.node.resolver
  control : w'.node.control = w.node.control
  log : w'.node.log = w.node.log
  now : w.journal.now ≤ w'.journal.now
  configRead : w'.journal.configReadAt = w.journal.configReadAt
  remembered : w'.journal.rememberedAt = w.journal.rememberedAt
  files : ∀ path,
    w'.host.file path = w.host.file path ∧
        w'.journal.changedAt path = w.journal.changedAt path ∨
      (path, (w'.host.file path).stamp) ∉ w.node.tracked.certFiles.seen ∧
        w.journal.now < w'.journal.changedAt path ∧ w'.journal.changedAt path ≤ w'.journal.now

def elsewhere : Rely World where
  may := Elsewhere
  refl w := ⟨rfl, rfl, rfl, rfl, le_rfl, rfl, rfl, fun _ => .inl ⟨rfl, rfl⟩⟩
  trans first second := by
    refine ⟨second.certFiles.trans first.certFiles, second.resolver.trans first.resolver,
      second.control.trans first.control, second.log.trans first.log, first.now.trans second.now,
      second.configRead.trans first.configRead, second.remembered.trans first.remembered, ?_⟩
    intro path
    rcases second.files path with ⟨same, changed⟩ | ⟨other, late, bound⟩
    · rw [same, changed]
      rcases first.files path with unmoved | ⟨other, late, bound⟩
      · exact .inl unmoved
      · exact .inr ⟨other, late, bound.trans second.now⟩
    · rw [first.certFiles] at other
      exact .inr ⟨other, first.now.trans_lt late, bound⟩

theorem elsewhere_of_beside (moved : Beside Anew w w') : elsewhere.may w w' := by
  cases moved with
  | replace path file anew =>
    refine ⟨rfl, rfl, rfl, rfl, Nat.le_succ _, rfl, rfl, fun other => ?_⟩
    rcases eq_or_ne other path with rfl | differ
    · have placed : (w.replace other file).host.file other = file := Function.update_self other _ _
      have changed : (w.replace other file).journal.changedAt other = w.journal.now + 1 :=
        Function.update_self other _ _
      rw [placed, changed]
      exact .inr ⟨anew, Nat.lt_succ_self _, le_rfl⟩
    · exact .inl ⟨Function.update_of_ne differ _ _, Function.update_of_ne differ _ _⟩
  | probe health => exact ⟨rfl, rfl, rfl, rfl, le_rfl, rfl, rfl, fun _ => .inl ⟨rfl, rfl⟩⟩

/-! ## What a poll that finds nothing says -/

theorem stale_eq_false_iff :
    w.stale = false ↔
      ∀ entry ∈ w.node.tracked.certFiles.seen, (w.host.file entry.1).stamp = entry.2 := by
  simp [World.stale]

/-- If nothing looks different from what is remembered, no remembered file was
    replaced meanwhile. -/
theorem Elsewhere.unmoved (moved : Elsewhere w w') (quiet : w'.stale = false)
    {path : Path} (remembered : path ∈ w.node.tracked.certFiles.seen.map Prod.fst) :
    w'.host.file path = w.host.file path ∧
      w'.journal.changedAt path = w.journal.changedAt path := by
  rcases moved.files path with same | ⟨other, _⟩
  · exact same
  · obtain ⟨entry, member, rfl⟩ := List.mem_map.mp remembered
    rw [stale_eq_false_iff, moved.certFiles] at quiet
    rw [quiet entry member] at other
    exact absurd member other

theorem Elsewhere.quiet (moved : Elsewhere w w') (quiet : w'.stale = false) :
    w.stale = false := by
  rw [stale_eq_false_iff]
  intro entry member
  rw [← (moved.unmoved quiet (List.mem_map_of_mem member)).1]
  rw [stale_eq_false_iff, moved.certFiles] at quiet
  exact quiet entry member

/-! ## What a reload knows on its way -/

/-- A line that stands for a config that could not be used. -/
def LogLine.isFailure : LogLine → Bool
  | .startingFromCache _ => true
  | .rejected _ => true
  | _ => false

/-- Nothing happened later than now. -/
def Sane (w : World) : Prop :=
  (∀ path, w.journal.changedAt path ≤ w.journal.now) ∧ w.journal.configReadAt ≤ w.journal.now

/-- Every failure in the log is counted. -/
def Counted (w : World) : Prop :=
  w.node.control.configReloadErrors = w.node.log.countP LogLine.isFailure

def Calm (w : World) : Prop := Sane w ∧ Counted w

/-- The config file was last read with this content: it has it still unless it
    was replaced since. -/
def LastRead (settings : NodeConfig) (content : Except IoError Bytes) (w : World) : Prop :=
  w.journal.changedAt settings.configFile ≤ w.journal.configReadAt →
    (w.host.file settings.configFile).content = content

/-- The files of a config were looked at, and if none looks different now, that
    was after they were last replaced. -/
def Looked (config : DynamicConfig) (w : World) : Prop :=
  w.node.tracked.certFiles.seen.map Prod.fst = namedFiles config ∧
    (w.stale = false →
      ∀ path ∈ namedFiles config, w.journal.changedAt path ≤ w.journal.rememberedAt)

/-- The config was read with this content, its files were looked at, and unless
    one of them was replaced since, `fact` holds of what is on disk. -/
def Reading (settings : NodeConfig) (content : Except IoError Bytes) (config : DynamicConfig)
    (fact : (Path → FileState) → Prop) (w : World) : Prop :=
  Calm w ∧ LastRead settings content w ∧ Looked config w ∧ (w.stale = false → fact w.host.file)

/-- A fact about files that only these files matter to. -/
def DependsOn (paths : List Path) (fact : (Path → FileState) → Prop) : Prop :=
  ∀ file file', (∀ path ∈ paths, file' path = file path) → fact file → fact file'

section Stability

variable {settings : NodeConfig} {content : Except IoError Bytes} {config : DynamicConfig}
  {fact : (Path → FileState) → Prop}

theorem stable_sane : elsewhere.Stable Sane := by
  rintro w w' moved ⟨changed, read⟩
  refine ⟨fun path => ?_, ?_⟩
  · rcases moved.files path with ⟨_, same⟩ | ⟨_, _, bound⟩
    · rw [same]
      exact (changed path).trans moved.now
    · exact bound
  · rw [moved.configRead]
    exact read.trans moved.now

theorem stable_counted : elsewhere.Stable Counted := by
  intro w w' moved counted
  rw [Counted, moved.control, moved.log]
  exact counted

theorem stable_calm : elsewhere.Stable Calm :=
  fun w w' moved calm => ⟨stable_sane w w' moved calm.1, stable_counted w w' moved calm.2⟩

theorem stable_lastRead (moved : Elsewhere w w') (sane : Sane w)
    (last : LastRead settings content w) : LastRead settings content w' := by
  intro read
  rw [moved.configRead] at read
  rcases moved.files settings.configFile with ⟨same, changed⟩ | ⟨_, late, _⟩
  · rw [same]
    exact last (changed ▸ read)
  · -- replaced after it was read
    exact absurd (read.trans sane.2) (Nat.not_le.mpr late)

theorem stable_looked : elsewhere.Stable (Looked config) := by
  rintro w w' moved ⟨named, looked⟩
  refine ⟨moved.certFiles ▸ named, fun quiet path member => ?_⟩
  rw [(moved.unmoved quiet (named ▸ member)).2, moved.remembered]
  exact looked (moved.quiet quiet) path member

theorem stable_reading (locality : DependsOn (namedFiles config) fact) :
    elsewhere.Stable (Reading settings content config fact) := by
  rintro w w' moved ⟨calm, last, looked, held⟩
  refine ⟨stable_calm w w' moved calm, stable_lastRead moved calm.1 last,
    stable_looked w w' moved looked, fun quiet => ?_⟩
  refine locality _ _ (fun path member => ?_) (held (moved.quiet quiet))
  exact (moved.unmoved quiet (looked.1 ▸ member)).1

theorem Reading.weaken {fact' : (Path → FileState) → Prop}
    (reading : Reading settings content config fact w) (imp : ∀ file, fact file → fact' file) :
    Reading settings content config fact' w :=
  ⟨reading.1, reading.2.1, reading.2.2.1, fun quiet => imp _ (reading.2.2.2 quiet)⟩

theorem reading_of_preparing (moved : Preparing w w')
    (reading : Reading settings content config fact w) :
    Reading settings content config fact w' := by
  cases moved <;> exact reading

theorem reading_of_staging (moved : Staging w w')
    (reading : Reading settings content config fact w) :
    Reading settings content config fact w' := by
  cases moved <;> exact reading

end Stability

/-! ## Reading the files -/

theorem loadOn_congr {crates : Crates} {file file' : Path → FileState} {certPath keyPath : Path}
    (cert : file' certPath = file certPath) (key : file' keyPath = file keyPath) :
    loadOn crates file' certPath keyPath = loadOn crates file certPath keyPath := by
  rw [loadOn, loadOn, cert, key]

theorem addEntriesOn_congr {crates : Crates} {file file' : Path → FileState} {specs : List CertSpec}
    (same : ∀ path ∈ certPaths specs, file' path = file path) (store : CertStore)
    (defaultFile : Option Path) (index : Nat) :
    CertStore.addEntriesOn crates file' store defaultFile index specs =
      CertStore.addEntriesOn crates file store defaultFile index specs := by
  induction specs generalizing store defaultFile index with
  | nil => rfl
  | cons spec rest ih =>
    have loads : loadOn crates file' spec.certFile spec.keyFile =
        loadOn crates file spec.certFile spec.keyFile :=
      loadOn_congr (same _ (by simp [certPaths])) (same _ (by simp [certPaths]))
    have others : ∀ path ∈ certPaths rest, file' path = file path := by
      intro path member
      refine same path ?_
      rw [certPaths, List.flatMap_cons]
      exact List.mem_append_right _ member
    simp only [CertStore.addEntriesOn, loads, ih others]

section Loading

variable {crates : Crates} {settings : NodeConfig} {content : Except IoError Bytes}
  {config : DynamicConfig} {fact : (Path → FileState) → Prop}

theorem reading_readPem (locality : DependsOn (namedFiles config) fact) {path : Path}
    (named : path ∈ namedFiles config)
    (reading : Reading settings content config fact w) :
    Fallible.Ensures elsewhere (readPem path)
      (fun bytes => Reading settings content config fun file =>
        fact file ∧ (file path).content = .ok bytes)
      (fun _ => Reading settings content config fun _ => True) w := by
  have known : ∀ found, DependsOn (namedFiles config)
      fun file => fact file ∧ (file path).content = found := by
    intro found file file' same held
    exact ⟨locality file file' same held.1, by rw [same path named]; exact held.2⟩
  have read : (readFile path).Ensures elsewhere (fun found => Reading settings content config
      fun file => fact file ∧ (file path).content = found) w := by
    apply Program.Ensures.read
    intro t u first second
    obtain ⟨calm, last, looked, held⟩ := stable_reading locality w t first reading
    refine stable_reading (known _) t u second ⟨calm, last, looked, fun quiet => ⟨held quiet, rfl⟩⟩
  apply Fallible.Ensures.bind
  refine (Fallible.Ensures.lift read).weaken ?_ fun _ _ held => held
  rintro (error | bytes) w reading
  · refine Fallible.Ensures.throw fun w' moved => ?_
    exact (stable_reading (known _) w w' moved reading).weaken fun _ _ => True.intro
  · exact Fallible.Ensures.pure fun w' moved => stable_reading (known _) w w' moved reading

theorem reading_loadCertFiles (locality : DependsOn (namedFiles config) fact)
    {certPath keyPath : Path} (cert : certPath ∈ namedFiles config)
    (key : keyPath ∈ namedFiles config)
    (reading : Reading settings content config fact w) :
    Fallible.Ensures elsewhere (loadCertFiles crates certPath keyPath)
      (fun loaded => Reading settings content config fun file =>
        fact file ∧ loadOn crates file certPath keyPath = .ok loaded)
      (fun _ => Reading settings content config fun _ => True) w := by
  have withCert : ∀ certPem, DependsOn (namedFiles config)
      fun file => fact file ∧ (file certPath).content = .ok certPem :=
    fun certPem file file' same held =>
      ⟨locality file file' same held.1, by rw [same certPath cert]; exact held.2⟩
  apply Fallible.Ensures.bind
  refine (reading_readPem locality cert reading).weaken ?_ fun _ _ held => held
  intro certPem w reading
  apply Fallible.Ensures.bind
  refine (reading_readPem (withCert certPem) key reading).weaken ?_ fun _ _ held => held
  intro keyPem w reading
  have withBoth : DependsOn (namedFiles config) fun file =>
      (fact file ∧ (file certPath).content = .ok certPem) ∧ (file keyPath).content = .ok keyPem :=
    fun file file' same held =>
      ⟨withCert certPem file file' same held.1, by rw [same keyPath key]; exact held.2⟩
  cases made : loadCertPem crates certPem keyPem with
  | error reason =>
    dsimp only
    refine Fallible.Ensures.throw fun w' moved => ?_
    exact (stable_reading withBoth w w' moved reading).weaken fun _ _ => True.intro
  | ok loaded =>
    dsimp only
    refine Fallible.Ensures.pure fun w' moved => ?_
    refine (stable_reading withBoth w w' moved reading).weaken fun file held => ⟨held.1.1, ?_⟩
    rw [loadOn, held.1.2, held.2]
    change (loadCertPem crates certPem keyPem).mapError _ = _
    rw [made]
    rfl

/-- The entries that are loaded so far are those on disk unless a file was
    replaced: what is left to do gives the store on disk. -/
def Underway (crates : Crates) (specs : List CertSpec) (store : CertStore)
    (defaultFile : Option Path) (index : Nat) (rest : List CertSpec) (file : Path → FileState) :
    Prop :=
  CertStore.addEntriesOn crates file .empty none 0 specs =
    CertStore.addEntriesOn crates file store defaultFile index rest

theorem dependsOn_underway {specs rest : List CertSpec} (part : rest ⊆ specs) (store : CertStore)
    (defaultFile : Option Path) (index : Nat) :
    DependsOn (certPaths specs) (Underway crates specs store defaultFile index rest) := by
  intro file file' same held
  have sameRest : ∀ path ∈ certPaths rest, file' path = file path := by
    intro path member
    obtain ⟨spec, listed, own⟩ := List.mem_flatMap.mp member
    exact same path (List.mem_flatMap.mpr ⟨spec, part listed, own⟩)
  rw [Underway, addEntriesOn_congr same, addEntriesOn_congr sameRest]
  exact held

theorem reading_addEntries {rest : List CertSpec} (part : rest ⊆ certSpecs config.certificates)
    (store : CertStore) (defaultFile : Option Path) (index : Nat)
    (reading : Reading settings content config
      (Underway crates (certSpecs config.certificates) store defaultFile index rest) w) :
    Fallible.Ensures elsewhere (CertStore.addEntries crates store defaultFile index rest)
      (fun store => Reading settings content config fun file =>
        CertStore.addEntriesOn crates file .empty none 0 (certSpecs config.certificates) = .ok store)
      (fun _ => Reading settings content config fun _ => True) w := by
  -- the recursion of the source; the invariant is that the rest completes the store on disk
  induction rest generalizing store defaultFile index w with
  | nil =>
    exact Fallible.Ensures.pure fun w' moved =>
      stable_reading (dependsOn_underway part store defaultFile index) w w' moved reading
  | cons spec rest ih =>
    have listed : spec ∈ certSpecs config.certificates := part List.mem_cons_self
    have cert : spec.certFile ∈ namedFiles config :=
      List.mem_flatMap.mpr ⟨spec, listed, by simp⟩
    have key : spec.keyFile ∈ namedFiles config := List.mem_flatMap.mpr ⟨spec, listed, by simp⟩
    apply Fallible.Ensures.bind
    apply Fallible.Ensures.mapError
    refine (reading_loadCertFiles (dependsOn_underway part store defaultFile index) cert key
      reading).weaken ?_ fun _ _ held => held
    intro loaded w reading
    have stable : elsewhere.Stable (Reading settings content config fun file =>
        Underway crates (certSpecs config.certificates) store defaultFile index (spec :: rest) file ∧
          loadOn crates file spec.certFile spec.keyFile = .ok loaded) := by
      refine stable_reading fun file file' same held => ⟨?_, ?_⟩
      · exact dependsOn_underway part store defaultFile index file file' same held.1
      · rw [loadOn_congr (same _ cert) (same _ key)]
        exact held.2
    apply Fallible.Ensures.bind
    refine Fallible.Ensures.ofExcept ?_ ?_
    · rintro ⟨store', defaultFile'⟩ added w' moved
      refine ih (fun _ member => part (List.mem_cons_of_mem _ member)) _ _ _ ?_
      refine (stable w w' moved reading).weaken fun file held => ?_
      rw [Underway, held.1, CertStore.addEntriesOn, held.2]
      change (store.addEntry defaultFile spec index loaded >>= _) = _
      rw [added]
      rfl
    · intro error _ w' moved
      exact (stable w w' moved reading).weaken fun _ _ => True.intro

def OnDisk (crates : Crates) (config : DynamicConfig) (store : CertStore)
    (file : Path → FileState) : Prop :=
  CertStore.onDisk crates file (certSpecs config.certificates) = .ok store

theorem dependsOn_onDisk (store : CertStore) :
    DependsOn (namedFiles config) (OnDisk crates config store) := by
  intro file file' same held
  rw [OnDisk, CertStore.onDisk, addEntriesOn_congr same]
  exact held

theorem reading_build (reading : Reading settings content config (fun _ => True) w) :
    Fallible.Ensures elsewhere (CertStore.build crates (certSpecs config.certificates))
      (fun store => Reading settings content config (OnDisk crates config store))
      (fun _ => Reading settings content config fun _ => True) w := by
  apply Fallible.Ensures.bind
  refine (reading_addEntries (List.Subset.refl _) .empty none 0
    (reading.weaken fun _ _ => rfl)).weaken ?_ fun _ _ held => held
  intro store w reading
  refine Fallible.Ensures.pure fun w' moved => ?_
  refine stable_reading (dependsOn_onDisk store.order) w w' moved (reading.weaken fun file held => ?_)
  rw [OnDisk, CertStore.onDisk, held]
  rfl

/-! ## Applying the deployed config -/

/-- The certificates being served are those of a config as they are on disk,
    unless one of its files was replaced. -/
def Served (crates : Crates) (settings : NodeConfig) (content : Except IoError Bytes)
    (config : DynamicConfig) (w : World) : Prop :=
  Reading settings content config (OnDisk crates config w.node.resolver) w

theorem stable_served : elsewhere.Stable (Served crates settings content config) := by
  intro w w' moved served
  rw [Served, moved.resolver]
  exact stable_reading (dependsOn_onDisk w.node.resolver) w w' moved served

theorem ensures_lookAt {inv : World → Prop} (stable : elsewhere.Stable inv) (paths : List Path)
    (held : inv w) :
    (lookAt paths).Ensures elsewhere (fun seen w => seen.map Prod.fst = paths ∧ inv w) w := by
  induction paths generalizing w with
  | nil => exact Program.Ensures.ret fun w' moved => ⟨rfl, stable w w' moved held⟩
  | cons path rest ih =>
    apply Program.Ensures.bind
    refine Program.Ensures.weaken (Program.Keeps.read stable _ w held) fun now w held => ?_
    apply Program.Ensures.bind
    refine Program.Ensures.weaken (ih held) fun others w looked => ?_
    exact Program.Ensures.ret fun w' moved =>
      ⟨congrArg (path :: ·) looked.1, stable w w' moved looked.2⟩

theorem reading_remember {files : CertFiles} (named : files.seen.map Prod.fst = namedFiles config)
    (calm : Calm w) (last : LastRead settings content w) :
    (remember files).Ensures elsewhere
      (fun _ => Reading settings content config fun _ => True) w := by
  apply Program.Ensures.write
  intro t u first second
  have calm' := stable_calm w t first calm
  have last' := stable_lastRead first calm.1 last
  refine stable_reading (fun _ _ _ _ => True.intro) _ u second
    ⟨calm', last', ⟨named, ?_⟩, fun _ => True.intro⟩
  exact fun _ path _ => calm'.1.1 path

theorem reading_prepare (reading : Reading settings content config (fun _ => True) w) :
    Fallible.Ensures elsewhere (prepare crates config)
      (fun prepared => Reading settings content config (OnDisk crates config prepared.certificates))
      (fun _ => Reading settings content config fun _ => True) w := by
  have plain : elsewhere.Stable (Reading settings content config fun _ => True) :=
    stable_reading fun _ _ _ _ => True.intro
  apply Fallible.Ensures.bind
  refine (Fallible.Moves.ensures (.mapError (.ofExcept _)) plain (fun _ _ => reading_of_preparing)
    reading).weaken ?_ fun _ _ held => held
  intro _ w reading
  apply Fallible.Ensures.bind
  apply Fallible.Ensures.mapError
  refine (reading_build reading).weaken ?_ fun _ _ held => held
  intro certificates w reading
  have stable : elsewhere.Stable (Reading settings content config (OnDisk crates config certificates)) :=
    stable_reading (dependsOn_onDisk certificates)
  apply Fallible.Ensures.bind
  refine (Fallible.Moves.ensures (.mapError (.bind (moves_addPools crates _ _) fun _ => .pure _))
    stable (fun _ _ => reading_of_preparing) reading).weaken ?_
      fun _ _ reading => reading.weaken fun _ _ => True.intro
  intro pools w reading
  exact Fallible.Ensures.pure fun w' moved => stable w w' moved reading

/-- Whatever is replaced meanwhile: a config that is applied is served, and of
    one that is not the files are remembered. -/
theorem reading_apply (calm : Calm w) (last : LastRead settings content w) :
    Fallible.Ensures elsewhere (apply crates config)
      (fun _ => Served crates settings content config)
      (fun _ => Reading settings content config fun _ => True) w := by
  have stable : elsewhere.Stable fun w => Calm w ∧ LastRead settings content w :=
    fun w w' moved held => ⟨stable_calm w w' moved held.1, stable_lastRead moved held.1.1 held.2⟩
  apply Fallible.Ensures.bind
  apply Fallible.Ensures.lift
  apply Program.Ensures.bind
  refine Program.Ensures.weaken (ensures_lookAt stable _ ⟨calm, last⟩) fun seen w looked => ?_
  refine Program.Ensures.ret fun w' moved => ?_
  obtain ⟨calm, last⟩ := stable w w' moved looked.2
  apply Fallible.Ensures.bind
  apply Fallible.Ensures.lift
  refine Program.Ensures.weaken (reading_remember looked.1 calm last) fun _ w reading => ?_
  apply Fallible.Ensures.bind
  refine (reading_prepare reading).weaken ?_ fun _ _ held => held
  intro prepared w reading
  have prepares : elsewhere.Stable
      (Reading settings content config (OnDisk crates config prepared.certificates)) :=
    stable_reading (dependsOn_onDisk prepared.certificates)
  apply Fallible.Ensures.bind
  refine (Fallible.Moves.ensures (.mapError (moves_stage _)) prepares
    (fun _ _ => reading_of_staging) reading).weaken ?_
      fun _ _ reading => reading.weaken fun _ _ => True.intro
  intro staged w reading
  apply Fallible.Ensures.lift
  refine ensures_swapIn prepared staged prepares stable_served stable_served
    (fun _ held => held) (fun _ held => held) (fun _ held => held) ?_ reading
  intro w w' moved served
  cases moved <;> exact served

/-- The config file was read, and if it holds a config, the files of that were
    looked at. -/
def Unusable (crates : Crates) (settings : NodeConfig) (w : World) : Prop :=
  Sane w ∧ ∃ content, LastRead settings content w ∧
    ∀ config, parseConfig crates settings.configFile content = .ok config → Looked config w

theorem stable_unusable : elsewhere.Stable (Unusable crates settings) := by
  rintro w w' moved ⟨sane, content, last, looked⟩
  refine ⟨stable_sane w w' moved sane, content, stable_lastRead moved sane last, ?_⟩
  exact fun config parsed => stable_looked w w' moved (looked config parsed)

theorem ensures_loadDynamicConfig (calm : Calm w) :
    Fallible.Ensures elsewhere (loadDynamicConfig crates settings.configFile)
      (fun config w => Calm w ∧ ∃ content, LastRead settings content w ∧
        parseConfig crates settings.configFile content = .ok config)
      (fun _ w => Unusable crates settings w ∧ Counted w) w := by
  have stable : ∀ content, elsewhere.Stable fun w => Calm w ∧ LastRead settings content w :=
    fun content w w' moved held =>
      ⟨stable_calm w w' moved held.1, stable_lastRead moved held.1.1 held.2⟩
  have read : (readConfigFile settings.configFile).Ensures elsewhere
      (fun content w => Calm w ∧ LastRead settings content w) w := by
    apply Program.Ensures.exchange
    intro t u first second
    obtain ⟨⟨changed, _⟩, counted⟩ := stable_calm w t first calm
    exact stable _ _ u second ⟨⟨⟨changed, le_rfl⟩, counted⟩, fun _ => rfl⟩
  apply Fallible.Ensures.bind
  refine (Fallible.Ensures.lift read).weaken ?_ fun _ _ held => held
  intro content w held
  refine Fallible.Ensures.ofExcept ?_ ?_
  · intro config parsed w' moved
    obtain ⟨calm, last⟩ := stable content w w' moved held
    exact ⟨calm, content, last, parsed⟩
  · intro error failed w' moved
    obtain ⟨calm, last⟩ := stable content w w' moved held
    refine ⟨⟨calm.1, content, last, fun config parsed => ?_⟩, calm.2⟩
    cases failed.symm.trans parsed

/-- A config that was applied is served and is the one that was read. -/
def Fresh (crates : Crates) (settings : NodeConfig) (w : World) : Prop :=
  ∃ content config, parseConfig crates settings.configFile content = .ok config ∧
    Served crates settings content config w

theorem stable_fresh : elsewhere.Stable (Fresh crates settings) := by
  rintro w w' moved ⟨content, config, parsed, served⟩
  exact ⟨content, config, parsed, stable_served w w' moved served⟩

theorem ensures_applyDeployed_read (calm : Calm w) :
    Fallible.Ensures elsewhere (applyDeployed crates settings) (fun _ => Fresh crates settings)
      (fun _ w => Unusable crates settings w ∧ Counted w) w := by
  apply Fallible.Ensures.bind
  apply Fallible.Ensures.mapError
  refine (ensures_loadDynamicConfig calm).weaken ?_ fun _ _ held => held
  rintro config w ⟨calm, content, last, parsed⟩
  apply Fallible.Ensures.bind
  refine (reading_apply calm last).weaken ?_ ?_
  · intro _ w served
    exact Fallible.Ensures.pure fun w' moved =>
      stable_fresh w w' moved ⟨content, config, parsed, served⟩
  · rintro _ w ⟨calm, last, looked, _⟩
    refine ⟨⟨calm.1, content, last, fun other parsed' => ?_⟩, calm.2⟩
    cases parsed.symm.trans parsed'
    exact looked

/-! ## Whole reloads -/

/-- What changes neither the files nor what is served or counted. -/
structure Aside (w w' : World) : Prop where
  files : w'.host.file = w.host.file
  certFiles : w'.node.tracked.certFiles = w.node.tracked.certFiles
  resolver : w'.node.resolver = w.node.resolver
  errors : w'.node.control.configReloadErrors = w.node.control.configReloadErrors
  failures : w'.node.log.countP LogLine.isFailure = w.node.log.countP LogLine.isFailure
  journal : w'.journal = w.journal

theorem Fresh.aside (fresh : Fresh crates settings w) (moved : Aside w w') :
    Fresh crates settings w' := by
  obtain ⟨content, config, parsed, served⟩ := fresh
  refine ⟨content, config, parsed, ?_⟩
  simp only [Served, Reading, Calm, Sane, Counted, LastRead, Looked, World.stale, moved.files,
    moved.certFiles, moved.resolver, moved.errors, moved.failures, moved.journal] at served ⊢
  exact served

theorem aside_writeCache (config : DynamicConfig) :
    (writeCache crates settings config).Moves Aside := by
  unfold writeCache
  split
  · refine .bind (.exchange fun w => ?_) ?_
    · split
      · exact ⟨rfl, rfl, rfl, rfl, rfl, rfl⟩
      · split <;> exact ⟨rfl, rfl, rfl, rfl, rfl, rfl⟩
    · rintro (error | _)
      · exact .write fun _ => ⟨rfl, rfl, rfl, rfl, List.countP_cons_of_neg nofun, rfl⟩
      · exact .ret _
  · exact .ret _

theorem aside_clearFailure : clearFailure.Moves Aside :=
  .bind (.write fun _ => ⟨rfl, rfl, rfl, rfl, rfl, rfl⟩) fun _ =>
    .write fun _ => ⟨rfl, rfl, rfl, rfl, rfl, rfl⟩

theorem aside_conclude (config : DynamicConfig) : Program.Moves Aside (do
    reconcile settings config
    writeCache crates settings config
    clearFailure
    logLine .hotReloaded) :=
  .bind (.write fun _ => ⟨rfl, rfl, rfl, rfl, rfl, rfl⟩) fun _ =>
    .bind (aside_writeCache config) fun _ => .bind aside_clearFailure fun _ =>
      .write fun _ => ⟨rfl, rfl, rfl, rfl, List.countP_cons_of_neg nofun, rfl⟩

/-- The last reload was rejected, and says so. -/
def Rejected (w : World) : Prop :=
  (∃ error, w.node.log.head? = some (.rejected error)) ∧ w.node.control.configReloadFailed = 1

theorem stable_rejected : elsewhere.Stable Rejected := by
  intro w w' moved rejected
  rw [Rejected, moved.control, moved.log]
  exact rejected

/-- How every reload leaves the world. -/
def Settled (crates : Crates) (settings : NodeConfig) (w : World) : Prop :=
  Calm w ∧ (Fresh crates settings w ∨ Unusable crates settings w ∧ Rejected w)

theorem stable_settled : elsewhere.Stable (Settled crates settings) := by
  rintro w w' moved ⟨calm, held⟩
  refine ⟨stable_calm w w' moved calm, held.imp (stable_fresh w w' moved) ?_⟩
  exact And.imp (stable_unusable w w' moved) (stable_rejected w w' moved)

theorem Fresh.calm (fresh : Fresh crates settings w) : Calm w := by
  obtain ⟨_, _, _, calm, _⟩ := fresh
  exact calm

theorem ensures_reject {error : ReloadError} (unusable : Unusable crates settings w)
    (counted : Counted w) :
    Program.Ensures elsewhere (do
      setControl fun c => { c with configReloadErrors := c.configReloadErrors + 1 }
      setControl fun c => { c with configReloadFailed := 1 }
      logLine (.rejected error)) (fun _ => Settled crates settings) w := by
  apply Program.Ensures.bind
  apply Program.Ensures.write
  intro t u first second
  have unusable : Unusable crates settings u :=
    stable_unusable _ u second (stable_unusable w t first unusable)
  have errors : u.node.control.configReloadErrors = u.node.log.countP LogLine.isFailure + 1 := by
    rw [second.control, second.log]
    exact congrArg (· + 1) (stable_counted w t first counted)
  apply Program.Ensures.bind
  apply Program.Ensures.write
  intro v x third fourth
  have unusable : Unusable crates settings x :=
    stable_unusable _ x fourth (stable_unusable u v third unusable)
  have errors : x.node.control.configReloadErrors = x.node.log.countP LogLine.isFailure + 1 := by
    rw [fourth.control, fourth.log]
    change v.node.control.configReloadErrors = _
    rw [third.control, errors, ← third.log]
    rfl
  have failed : x.node.control.configReloadFailed = 1 := by
    rw [fourth.control]
    rfl
  apply Program.Ensures.write
  intro y z fifth sixth
  have counted : y.node.control.configReloadErrors =
      (.rejected error :: y.node.log).countP LogLine.isFailure := by
    rw [fifth.control, fifth.log, errors, List.countP_cons_of_pos rfl]
  have unusable : Unusable crates settings y := stable_unusable x y fifth unusable
  have failed : y.node.control.configReloadFailed = 1 := by
    rw [fifth.control]
    exact failed
  exact stable_settled _ z sixth ⟨⟨unusable.1, counted⟩, .inr ⟨unusable, ⟨error, rfl⟩, failed⟩⟩

theorem settled_reloadLocked (calm : Calm w) :
    (reloadLocked crates settings).Ensures elsewhere (fun _ => Settled crates settings) w := by
  apply Program.Ensures.bind
  refine Program.Ensures.weaken (ensures_applyDeployed_read calm) ?_
  rintro (error | config) w ended
  · exact ensures_reject ended.1 ended.2
  · refine Program.Ensures.weaken ((aside_conclude config).keeps stable_fresh
      (fun _ _ moved fresh => fresh.aside moved) w ended) fun _ w fresh => ?_
    exact ⟨fresh.calm, .inl fresh⟩

/-! ## From the start on -/

/-- A node that is not on its cached config is as its last reload left it. -/
def KeepingUp (crates : Crates) (settings : NodeConfig) (w : World) : Prop :=
  Calm w ∧ (w.node.control.configFromCache = 0 → Settled crates settings w)

theorem stable_keepingUp : elsewhere.Stable (KeepingUp crates settings) := by
  rintro w w' moved ⟨calm, settled⟩
  refine ⟨stable_calm w w' moved calm, fun deployed => ?_⟩
  rw [moved.control] at deployed
  exact stable_settled w w' moved (settled deployed)

theorem Settled.keepingUp (settled : Settled crates settings w) :
    KeepingUp crates settings w :=
  ⟨settled.1, fun _ => settled⟩

theorem keepingUp_reloadLocked (calm : Calm w) :
    (reloadLocked crates settings).Ensures elsewhere (fun _ => KeepingUp crates settings) w :=
  Program.Ensures.weaken (settled_reloadLocked calm) fun _ _ settled => settled.keepingUp

theorem keepingUp_reload (held : KeepingUp crates settings w) :
    (reload crates settings).Ensures elsewhere (fun _ => KeepingUp crates settings) w :=
  ensures_reload crates settings stable_keepingUp (fun _ held => held)
    (fun _ held => keepingUp_reloadLocked held.1) held

theorem keepingUp_poll (held : KeepingUp crates settings w) :
    (reloadIfCertificatesChanged crates settings).Ensures elsewhere
      (fun _ => KeepingUp crates settings) w := by
  refine ensures_poll crates settings stable_keepingUp stable_calm (fun files w held => held.1) ?_
    (fun _ held => held) (fun _ => keepingUp_reloadLocked) held
  rintro w ⟨sane, counted⟩
  have harmless : ¬ LogLine.certificatesChanged.isFailure = true := nofun
  exact ⟨sane, counted.trans (List.countP_cons_of_neg harmless).symm⟩

/-- One failure in the log is not counted yet. -/
def Owing (w : World) : Prop :=
  Sane w ∧ w.node.control.configReloadErrors + 1 = w.node.log.countP LogLine.isFailure

theorem stable_owing : elsewhere.Stable Owing := by
  rintro w w' moved ⟨sane, owing⟩
  rw [Owing, moved.control, moved.log]
  exact ⟨stable_sane w w' moved sane, owing⟩

theorem owing_of_applying (moved : Applying w w') (owing : Owing w) : Owing w' := by
  cases moved with
  | tentative tried =>
    cases tried with
    | load => exact ⟨⟨owing.1.1, le_rfl⟩, owing.2⟩
    | remember files => exact owing
    | prepare prepared => cases prepared <;> exact owing
    | stage staged => cases staged <;> exact owing
  | swap swapped =>
    cases swapped with
    | forget keep => exact owing
    | idle => exact owing
    | certificates | routing => exact owing
    | settle settled => cases settled <;> exact owing

theorem ensures_startedFromCache (config : DynamicConfig) (owing : Owing w) :
    Fallible.Ensures elsewhere (do
      setControl fun c => { c with configReloadErrors := c.configReloadErrors + 1 }
      setControl fun c => { c with configReloadFailed := 1 }
      setControl fun c => { c with configFromCache := 1 }
      startFollowing
      return config : Fallible World ReloadError DynamicConfig)
      (fun _ => KeepingUp crates settings) (fun _ _ => True) w := by
  apply Fallible.Ensures.bind
  refine Fallible.Ensures.lift (Program.Ensures.write fun t u first second => ?_)
  have calm : Calm u := stable_calm _ u second (stable_owing w t first owing)
  apply Fallible.Ensures.bind
  refine Fallible.Ensures.lift (Program.Ensures.write fun t w first second => ?_)
  have calm : Calm w := stable_calm _ w second (stable_calm u t first calm)
  apply Fallible.Ensures.bind
  refine Fallible.Ensures.lift (Program.Ensures.write fun t u first second => ?_)
  have calm : Calm u := stable_calm _ u second (stable_calm w t first calm)
  have cached : u.node.control.configFromCache = 1 := by
    rw [second.control]
    rfl
  have keepingUp : ∀ v, Elsewhere u v → KeepingUp crates settings v := by
    intro v moved
    refine ⟨stable_calm u v moved calm, fun deployed => ?_⟩
    rw [moved.control, cached] at deployed
    cases deployed
  apply Fallible.Ensures.bind
  refine Fallible.Ensures.lift (Program.Ensures.write fun v x first second => ?_)
  exact Fallible.Ensures.pure (stable_keepingUp _ · · (stable_keepingUp _ x second (keepingUp v first)))

theorem keepingUp_applyInitial (calm : Calm w) :
    Fallible.Ensures elsewhere (applyInitial crates settings)
      (fun _ => KeepingUp crates settings) (fun _ _ => True) w := by
  apply Fallible.Ensures.bind
  refine Fallible.Ensures.attempt ((ensures_applyDeployed_read calm).weaken ?_ ?_)
  · intro config w fresh
    have concludes : Fallible.Moves Aside (do
        writeCache crates settings config
        clearFailure
        startFollowing
        return config : Fallible World ReloadError DynamicConfig) :=
      .bind (.lift (aside_writeCache config)) fun _ => .bind (.lift aside_clearFailure) fun _ =>
        .bind (.lift (.write fun _ => ⟨rfl, rfl, rfl, rfl, rfl, rfl⟩)) fun _ => .pure _
    refine (concludes.ensures stable_fresh (fun _ _ moved fresh => fresh.aside moved) fresh).weaken
      (fun _ w fresh => ?_) fun _ _ _ => True.intro
    exact Settled.keepingUp ⟨fresh.calm, .inl fresh⟩
  · rintro error w ⟨unusable, counted⟩
    dsimp only
    split
    · apply Fallible.Ensures.bind
      apply Fallible.Ensures.lift
      apply Program.Ensures.write
      intro t u first second
      have owing : Owing u := by
        refine stable_owing _ u second ⟨stable_sane w t first unusable.1, ?_⟩
        refine Eq.trans (congrArg (· + 1) (stable_counted w t first counted)) ?_
        exact (List.countP_cons_of_pos rfl).symm
      apply Fallible.Ensures.bind
      apply Fallible.Ensures.mapError
      exact ((moves_applyCached crates _).ensures stable_owing (fun _ _ => owing_of_applying)
        owing).weaken (fun config _ => ensures_startedFromCache config) fun _ _ _ => True.intro
    · exact Fallible.Ensures.throw fun _ _ => True.intro

end Loading

section Rotation

variable (crates : Crates) (settings : NodeConfig)

/-- The certificates being served are those of the deployed config, as they are
    on disk now. -/
def UpToDate (w : World) : Prop :=
  ∃ config, w.deployedConfig crates settings = .ok config ∧
    OnDisk crates config w.node.resolver w.host.file

/-- The last reload was rejected and counted, and looked at the files of the
    deployed config after they were last replaced. -/
structure RejectedSince (w : World) : Prop where
  rejected : Rejected w
  counted : Counted w
  late : ∀ config, w.deployedConfig crates settings = .ok config →
    ∀ path ∈ namedFiles config, w.journal.changedAt path ≤ w.journal.rememberedAt

/-- What a poll that finds nothing says once the config file was read as it is. -/
theorem Settled.quiet (settled : Settled crates settings w)
    (read : w.journal.changedAt settings.configFile ≤ w.journal.configReadAt)
    (quiet : w.stale = false) : UpToDate crates settings w ∨ RejectedSince crates settings w := by
  obtain ⟨calm, ⟨content, config, parsed, _, last, _, served⟩ | ⟨⟨_, content, last, looked⟩, rejected⟩⟩ :=
    settled
  · refine .inl ⟨config, ?_, served quiet⟩
    rw [World.deployedConfig, last read]
    exact parsed
  · refine .inr ⟨rejected, calm.2, fun config parsed => ?_⟩
    rw [World.deployedConfig, last read] at parsed
    exact (looked config parsed).2 quiet

/-- In every run of a node from its start on, with reloads and polls at any
    moment, in which no file is replaced by the version that is remembered of
    it: whenever no reload is under way, the node is not on its cached config, the
    config file was read since it was last replaced, and the poll would find
    nothing changed, the certificates being served are those on disk, or the last
    reload was rejected for what is on disk. -/
theorem rotation_never_missed (host : Host) (inherited : HashMap SocketAddr SocketId) (s : Startup)
    (run : Relation.ReflTransGen (Startup.Step crates settings (Beside Anew))
      ⟨.starting host inherited, .waiting, none⟩ s)
    (begun : s.phase = .started ∨ ∃ config, s.phase = .applied config) (free : s.reload = none)
    (deployed : s.world.node.control.configFromCache = 0)
    (read : s.world.journal.changedAt settings.configFile ≤ s.world.journal.configReadAt)
    (quiet : s.world.stale = false) :
    UpToDate crates settings s.world ∨ RejectedSince crates settings s.world := by
  have holds : s.Holds elsewhere Calm (KeepingUp crates settings) := by
    clear begun free deployed read quiet
    induction run with
    | refl => exact ⟨⟨fun _ => le_rfl, le_rfl⟩, rfl⟩
    | tail _ last ih =>
      refine Startup.Holds.step (fun _ _ => elsewhere_of_beside) ?_ stable_calm stable_keepingUp
        ?_ (fun _ => keepingUp_applyInitial) (fun _ => keepingUp_reload) (fun _ => keepingUp_poll)
        last ih
      · exact fun _ _ => ⟨rfl, rfl, rfl, rfl, le_rfl, rfl, rfl, fun _ => .inl ⟨rfl, rfl⟩⟩
      · exact fun w calm => ensures_reload crates settings stable_calm (fun _ calm => calm)
          (fun _ calm => Program.Ensures.weaken (settled_reloadLocked calm)
            fun _ _ settled => settled.1) calm
  have keepingUp : KeepingUp crates settings s.world := by
    obtain ⟨world, phase, reload⟩ := s
    cases free
    rcases begun with rfl | ⟨config, rfl⟩ <;> exact holds
  exact (keepingUp.2 deployed).quiet crates settings read quiet

end Rotation

/-! ## A file that returns to a version -/

/-- The versions of a small file: what it holds shows in how it looks. -/
def version (inode : UInt64) : FileState := ⟨some ⟨inode, 1, (0, 0), (0, 0)⟩, .ok [inode.toUInt8]⟩

/-- A host with the config of one certificate, and its two files. -/
def rotatingHost : Host :=
  .small [(⟨['c']⟩, version 0), (⟨['x']⟩, version 1), (⟨['y']⟩, version 2)] (.error .notFound) []

def rotatingCrates : Crates := .indexed [certified]

/-- The node after its start, once another version of the certificate is in place. -/
def rotated : World :=
  (beginChecks (.small none) certified (Fallible.exec (applyInitial rotatingCrates (.small none))
    (.starting rotatingHost ∅)).2).replace ⟨['x']⟩ (version 3)

theorem rotation_noticed_by_poll :
    let polled := ((reloadIfCertificatesChanged rotatingCrates (.small none)).run rotated).2
    rotated.stale = true ∧ polled.node.log.head? = some .hotReloaded ∧
      (UpToDate rotatingCrates (.small none) polled ∨
        RejectedSince rotatingCrates (.small none) polled) := by
  have applied : (Fallible.exec (applyInitial rotatingCrates (.small none))
      (.starting rotatingHost ∅)).1 = .ok certified := by decide +kernel
  have started := Startup.untimed (Startup.runs_plain (Beside Anew) applied (by decide +kernel))
  have run := started.tail (.others (.replace ⟨['x']⟩ (version 3) (by unfold Anew; decide +kernel)))
  have polled := (run.tail .poll).trans (Startup.untimed (Startup.runs_reload _ _ _ rotated))
  exact ⟨by decide +kernel, by decide +kernel, rotation_never_missed _ _ rotatingHost ∅ _ polled
    (.inl rfl) rfl (by decide +kernel) (by decide +kernel) (by decide +kernel)⟩

/-- What a file that looks like this holds: files that differ look different. -/
def contentOf : Stamp → Except IoError Bytes
  | none => .error .notFound
  | some stamp => .ok [stamp.inode.toUInt8]

/-- The start up to the moment when the files were inspected. -/
def inspectedOnce : Program World (Except ReloadError DynamicConfig) × World :=
  (ExceptT.run (applyInitial rotatingCrates (.small none))).advance 4 (.starting rotatingHost ∅)

/-- Then another version of the certificate is put in place, and both files are
    read. -/
def readBetween : Program World (Except ReloadError DynamicConfig) × World :=
  inspectedOnce.1.advance 2 (inspectedOnce.2.replace ⟨['x']⟩ (version 3))

/-- Then the first version is put back, and the start goes on to its end. -/
def putBack : Except ReloadError DynamicConfig × World :=
  readBetween.1.run (readBetween.2.replace ⟨['x']⟩ (version 1))

/-- The certificate is replaced after it was looked at and put back after it was
    read: the node serves the other version, and no poll sees a difference. -/
theorem rotation_missed_by_returning_file :
    ∃ s, Relation.ReflTransGen (Startup.Step rotatingCrates (.small none)
          (Beside fun _ _ file => file.content = contentOf file.stamp))
        ⟨.starting rotatingHost ∅, .waiting, none⟩ s ∧
      (∀ path, (rotatingHost.file path).content = contentOf (rotatingHost.file path).stamp) ∧
      s.phase = .applied certified ∧ s.reload = none ∧
      s.world.node.control.configFromCache = 0 ∧
      s.world.journal.changedAt ⟨['c']⟩ ≤ s.world.journal.configReadAt ∧
      s.world.stale = false ∧ ¬ UpToDate rotatingCrates (.small none) s.world ∧
      ¬ RejectedSince rotatingCrates (.small none) s.world := by
  have ended : putBack.1 = .ok certified := by decide +kernel
  have consistent : ∀ path,
      (rotatingHost.file path).content = contentOf (rotatingHost.file path).stamp := by
    intro path
    simp only [rotatingHost, Host.small, List.find?_cons]
    repeat' split
    all_goals rfl
  refine ⟨⟨putBack.2, .applied certified, none⟩, ?_, consistent, rfl, rfl, by decide +kernel,
    by decide +kernel, by decide +kernel, ?_, ?_⟩
  · refine .head .lock (.trans (Startup.untimed (Startup.runs_advance _ 4 _ _)) ?_)
    refine .head (.others (.replace ⟨['x']⟩ (version 3) rfl)) ?_
    refine .trans (Startup.untimed (Startup.runs_advance _ 2 inspectedOnce.1 _)) ?_
    refine .head (.others (.replace ⟨['x']⟩ (version 1) rfl)) ?_
    exact Startup.untimed (Startup.runs_applied _ ended)
  · rintro ⟨config, parsed, onDisk⟩
    have named : putBack.2.deployedConfig rotatingCrates (.small none) = .ok certified := by
      decide +kernel
    cases named.symm.trans parsed
    have served : (CertStore.onDisk rotatingCrates putBack.2.host.file
        (certSpecs certified.certificates)).toOption.map (·.resolve (some ['h'])) ≠
          some (putBack.2.node.resolver.resolve (some ['h'])) := by decide +kernel
    rw [OnDisk] at onDisk
    exact served (by rw [onDisk]; rfl)
  · rintro ⟨⟨⟨error, head⟩, _⟩, _⟩
    have silent : putBack.2.node.log = [] := by decide +kernel
    rw [silent] at head
    cases head

end Gfe
