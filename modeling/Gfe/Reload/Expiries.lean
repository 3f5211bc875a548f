import Gfe.Reload.Certificates
import Gfe.Reload.Served

/-! # The exported expiries

The expiry of each certificate is exported under the names it is configured for, and an
alert on it is only worth something if it is the expiry of what is served. A swap sets
the gauges of the new store in the order of its names, so the last entry of a name
decides, and removes those of names that are gone. An exact name is served by its last
entry too. A wildcard is served by its first, so the two agree on it if they have
nothing to disagree about.
-/

namespace Gfe

open Interleaving

/-! ## Setting the gauges -/

def lastExpiry (expiries : List (Str × Int)) (name : Str) : Option Int :=
  (expiries.reverse.find? (·.1 = name)).map Prod.snd

theorem lastExpiry_append (xs ys : List (Str × Int)) (name : Str) :
    lastExpiry (xs ++ ys) name = (lastExpiry ys name).or (lastExpiry xs name) := by
  rw [lastExpiry, List.reverse_append, List.find?_append, Option.map_or]
  rfl

theorem lastExpiry_isSome {expiries : List (Str × Int)} {name : Str} :
    (lastExpiry expiries name).isSome = true ↔ name ∈ expiries.map Prod.fst := by
  simp [lastExpiry, List.find?_isSome]

theorem lookup_setAll (expiries : List (Str × Int)) (exported : HashMap Str Int) (name : Str) :
    (expiries.foldl (fun (exported : HashMap Str Int) expiry =>
        exported.insert expiry.1 expiry.2) exported).lookup name =
      (lastExpiry expiries name).or (exported.lookup name) := by
  induction expiries using List.reverseRecOn with
  | nil => rfl
  | append_singleton expiries expiry ih =>
    rw [List.foldl_append, List.foldl_cons, List.foldl_nil, HashMap.lookup_insert,
      lastExpiry_append, ih]
    by_cases same : name = expiry.1
    · simp [same, lastExpiry]
    · simp [same, Ne.symm same, lastExpiry]

theorem lookup_removeAll (removed : List Str) (exported : HashMap Str Int) (name : Str) :
    (removed.foldl (fun exported sni => exported.erase sni) exported).lookup name =
      if name ∈ removed then none else exported.lookup name := by
  induction removed generalizing exported with
  | nil => rfl
  | cons sni rest ih =>
    rw [List.foldl_cons, ih, HashMap.lookup_erase]
    by_cases same : name = sni <;> by_cases listed : name ∈ rest <;> simp [same, listed]

def removedNames (current next : CertStore) : List Str :=
  (current.expiries.map Prod.fst).filter fun sni => !(next.expiries.map Prod.fst).contains sni

theorem mem_removedNames {current next : CertStore} {name : Str} :
    name ∈ removedNames current next ↔
      name ∈ current.expiries.map Prod.fst ∧ name ∉ next.expiries.map Prod.fst := by
  simp only [removedNames, List.mem_filter, Bool.not_eq_true', List.contains_eq_mem,
    decide_eq_false_iff_not]

theorem lookup_describe (prepared : Prepared) {current : CertStore} {control : Control}
    (exported : ∀ name, control.certExpiryTimestamp.lookup name = lastExpiry current.expiries name)
    (name : Str) :
    (describe prepared (removedNames current prepared.certificates)
        control).certExpiryTimestamp.lookup name =
      lastExpiry prepared.certificates.expiries name := by
  simp only [describe, lookup_removeAll, lookup_setAll, exported, mem_removedNames,
    ← lastExpiry_isSome]
  cases lastExpiry prepared.certificates.expiries name with
  | some expiry => simp
  | none => cases lastExpiry current.expiries name <;> simp

/-! ## Through every reload -/

/-- The store, the gauges of its expiries, and the config being served. -/
structure Certs where
  resolver : CertStore
  exported : HashMap Str Int
  serving : Option DynamicConfig

def World.certs (w : World) : Certs :=
  ⟨w.node.resolver, w.node.control.certExpiryTimestamp, w.journal.serving⟩

/-- The gauges are those of the store, and the store is that of the config being served. -/
structure Certs.Described (crates : Crates) (c : Certs) : Prop where
  exported : ∀ name, c.exported.lookup name = lastExpiry c.resolver.expiries name
  built : ∀ config, c.serving = some config →
    ∃ entries, BuiltFrom crates (certSpecs config.certificates) c.resolver entries

/-- Only the reloads touch the store and its gauges. -/
def besideCerts : Rely World := .keeping World.certs

/-- A move that concerns neither. -/
abbrev SameCerts (w w' : World) : Prop := w'.certs = w.certs

section

variable {crates : Crates} {settings : NodeConfig} {w w' : World}

theorem stable_described : besideCerts.Stable fun w => w.certs.Described crates :=
  Rely.stable_keeping

theorem Certs.Described.same (moved : SameCerts w w') (described : w.certs.Described crates) :
    w'.certs.Described crates := by
  rwa [show w'.certs = w.certs from moved]

theorem sameCerts_of_tentative (moved : Tentative w w') : SameCerts w w' := by
  cases moved with
  | load => rfl
  | remember files => rfl
  | prepare prepared => cases prepared <;> rfl
  | stage staged => cases staged <;> rfl

theorem sameCerts_commit (staged : EdgeStaged) : (Edge.commit staged).Moves SameCerts := by
  have listeners : ∀ update, (Listeners.updateListeners update).Moves SameCerts :=
    fun update => .write fun _ => rfl
  have placeAll : ∀ desired, (Listeners.placeAll staged.inner.bound desired).Moves SameCerts := by
    intro desired
    induction desired with
    | nil => exact .ret _
    | cons head rest ih => exact .bind (listeners _) fun _ => ih
  refine .bind ?_ fun _ => .write fun _ => rfl
  exact .bind (listeners _) fun _ => .bind (placeAll _) fun _ => listeners _

theorem sameCerts_logLine (line : LogLine) : (logLine line).Moves SameCerts := .write fun _ => rfl

theorem sameCerts_setControl {update : Control → Control}
    (same : ∀ c, (update c).certExpiryTimestamp = c.certExpiryTimestamp) :
    (setControl update).Moves SameCerts := by
  apply Program.Moves.write
  intro w
  rw [SameCerts, World.certs, World.certs]
  exact congrArg (Certs.mk w.node.resolver · w.journal.serving) (same w.node.control)

theorem sameCerts_clearFailure : clearFailure.Moves SameCerts :=
  .bind (sameCerts_setControl fun _ => rfl) fun _ => sameCerts_setControl fun _ => rfl

theorem sameCerts_writeCache (config : DynamicConfig) :
    (writeCache crates settings config).Moves SameCerts := by
  unfold writeCache
  split
  · refine .bind (.exchange fun w => ?_) ?_
    · split
      · rfl
      · split <;> rfl
    · rintro (error | _)
      · exact sameCerts_logLine _
      · exact .ret _
  · exact .ret _

theorem ensures_sameCerts {α : Type} {p : Program World α} (moves : p.Moves SameCerts)
    (described : w.certs.Described crates) :
    p.Ensures besideCerts (fun _ w => w.certs.Described crates) w :=
  moves.keeps stable_described (fun _ _ moved held => held.same moved) w described

theorem ensures_write {update : World → World} (change : Certs → Certs)
    (step : ∀ w : World, (update w).certs = change w.certs) (w : World) :
    (Program.write update).Ensures besideCerts (fun _ w' => w'.certs = change w.certs) w := by
  apply Program.Ensures.write
  intro t u first second
  rw [show u.certs = (update t).certs from second, step, show t.certs = w.certs from first]

theorem ensures_describe (prepared : Prepared) {current : CertStore} (w : World)
    (exported : ∀ name, w.certs.exported.lookup name = lastExpiry current.expiries name) :
    (updateNode fun n => { n with
        control := describe prepared (removedNames current prepared.certificates) n.control }).Ensures
      besideCerts (fun _ w' => w'.certs.resolver = w.certs.resolver ∧
        w'.certs.serving = w.certs.serving ∧
        ∀ name, w'.certs.exported.lookup name = lastExpiry prepared.certificates.expiries name)
      w := by
  apply Program.Ensures.write
  intro t u first second
  have here : t.certs = w.certs := first
  rw [show u.certs = _ from second, ← here]
  refine ⟨rfl, rfl, ?_⟩
  apply lookup_describe
  rw [← here] at exported
  exact exported

theorem ensures_install (prepared : Prepared)
    (built : ∃ entries, BuiltFrom crates (certSpecs prepared.source.certificates)
      prepared.certificates entries) (described : w.certs.Described crates) :
    (install prepared).Ensures besideCerts (fun _ w => w.certs.Described crates) w := by
  apply Program.Ensures.bind
  apply Program.Ensures.read
  intro t u first second
  have before : u.certs = w.certs := Eq.trans second first
  have current : t.node.resolver = w.certs.resolver := congrArg Certs.resolver first
  rw [current]
  apply Program.Ensures.bind
  refine (ensures_write (fun c => { c with resolver := prepared.certificates })
    (fun _ => rfl) u).weaken fun _ swapped certified => ?_
  apply Program.Ensures.bind
  refine (ensures_write (fun c => { c with serving := some prepared.source })
    (fun _ => rfl) swapped).weaken fun _ routing routed => ?_
  apply Program.Ensures.bind
  have forgets : (updateNode fun n => { n with
      health := n.health.retain prepared.pools.allBackends }).Ensures besideCerts
      (fun _ w' => w'.certs = routing.certs) routing := ensures_write id (fun _ => rfl) routing
  refine forgets.weaken fun _ pruned forgotten => ?_
  have certs : pruned.certs = ⟨prepared.certificates, w.certs.exported, some prepared.source⟩ := by
    rw [forgotten, routed, certified, before]
  refine (ensures_describe prepared pruned (by rw [certs]; exact described.exported)).weaken ?_
  rintro _ after ⟨resolver, serving, exported⟩
  rw [certs] at resolver serving
  constructor
  · rw [resolver]
    exact exported
  · intro config served
    cases serving.symm.trans served
    rw [resolver]
    exact built

theorem ensures_applyDescribed (config : DynamicConfig) (described : w.certs.Described crates) :
    Fallible.Ensures besideCerts (apply crates config) (fun _ w => w.certs.Described crates)
      (fun _ w => w.certs.Described crates) w := by
  have steady := steady_of_stable (@stable_described crates)
  have kept : ∀ w w' : World, Tentative w w' → w.certs.Described crates →
      True ∧ w'.certs.Described crates :=
    fun _ _ moved held => ⟨True.intro, held.same (sameCerts_of_tentative moved)⟩
  apply Fallible.obeys_iff_ensures.mp
  apply obeys_apply crates config steady kept (fun prepared _ => prepared.source = config ∧
      ∃ entries, BuiltFrom crates (certSpecs config.certificates) prepared.certificates entries)
    (fun _ _ _ _ ready => ready) (fun _ _ _ _ ready => ready)
  · intro w described
    have quiet := Fallible.Obeys.ofMoves (moves_prepare crates config) steady
      (fun w w' moved => kept w w' (.prepare moved)) described
    apply (quiet.and (ensures_prepareCertificates besideCerts crates config w)).weaken
    · exact fun _ _ ended => ⟨ended.2, ended.1⟩
    · exact fun _ _ ended => ended.1
  · rintro prepared staged w ⟨rfl, built⟩ described
    apply Program.obeys_iff_ensures.mpr
    apply Program.Ensures.bind
    refine (ensures_install prepared built described).weaken fun _ w described => ?_
    exact ensures_sameCerts (sameCerts_commit staged) described
  · exact described

theorem ensures_applyLoadedDescribed {load : Fallible World ConfigError DynamicConfig}
    (loads : Fallible.Moves Tentative load) (described : w.certs.Described crates) :
    Fallible.Ensures besideCerts (do
      let config ← Fallible.mapError .config load
      apply crates config
      return config) (fun _ w => w.certs.Described crates) (fun _ w => w.certs.Described crates)
      w :=
  Fallible.obeys_iff_ensures.mp (obeys_applyLoaded crates loads (steady_of_stable stable_described)
    (fun _ _ moved held => ⟨True.intro, held.same (sameCerts_of_tentative moved)⟩) _
    (fun config _ held => Fallible.obeys_iff_ensures.mpr (ensures_applyDescribed config held))
    described)

theorem described_reloadLocked (described : w.certs.Described crates) :
    (reloadLocked crates settings).Ensures besideCerts (fun _ w => w.certs.Described crates) w := by
  apply Program.Ensures.bind
  refine Program.Ensures.weaken (ensures_applyLoadedDescribed
    (moves_loadDynamicConfig crates settings.configFile) described) ?_
  rintro (error | config) w described
  · refine ensures_sameCerts ?_ described
    exact .bind (sameCerts_setControl fun _ => rfl) fun _ =>
      .bind (sameCerts_setControl fun _ => rfl) fun _ => sameCerts_logLine _
  · refine ensures_sameCerts ?_ described
    exact .bind (.write fun _ => rfl) fun _ => .bind (sameCerts_writeCache config) fun _ =>
      .bind sameCerts_clearFailure fun _ => sameCerts_logLine _

theorem described_applyInitial (described : w.certs.Described crates) :
    Fallible.Ensures besideCerts (applyInitial crates settings)
      (fun _ w => w.certs.Described crates) (fun _ w => w.certs.Described crates) w := by
  have quiet : ∀ {w : World} {p : Fallible World ReloadError DynamicConfig},
      Fallible.Moves SameCerts p → w.certs.Described crates →
      Fallible.Ensures besideCerts p (fun _ w => w.certs.Described crates)
        (fun _ w => w.certs.Described crates) w :=
    fun moves described => moves.ensures stable_described (fun _ _ moved held => held.same moved)
      described
  apply Fallible.Ensures.bind
  refine Fallible.Ensures.attempt ((ensures_applyLoadedDescribed
    (moves_loadDynamicConfig crates settings.configFile) described).weaken ?_ ?_)
  · intro config w described
    refine quiet ?_ described
    exact .bind (.lift (sameCerts_writeCache config)) fun _ => .bind (.lift sameCerts_clearFailure)
      fun _ => .bind (.lift (.write fun _ => rfl)) fun _ => .pure _
  · intro error w described
    dsimp only
    split
    · rename_i path _
      apply Fallible.Ensures.bind
      apply Fallible.Ensures.lift
      refine (ensures_sameCerts (sameCerts_logLine _) described).weaken fun _ w described => ?_
      apply Fallible.Ensures.bind
      apply Fallible.Ensures.mapError
      refine (ensures_applyLoadedDescribed (moves_loadCache crates path) described).weaken ?_
        fun _ _ held => held
      intro config w described
      refine quiet ?_ described
      exact .bind (.lift (sameCerts_setControl fun _ => rfl)) fun _ =>
        .bind (.lift (sameCerts_setControl fun _ => rfl)) fun _ =>
        .bind (.lift (sameCerts_setControl fun _ => rfl)) fun _ =>
        .bind (.lift (.write fun _ => rfl)) fun _ => .pure _
    · exact quiet (.throw _) described

theorem described_reload (described : w.certs.Described crates) :
    (reload crates settings).Ensures besideCerts (fun _ w => w.certs.Described crates) w :=
  ensures_reload crates settings stable_described (fun _ held => held)
    (fun _ => described_reloadLocked) described

theorem described_poll (described : w.certs.Described crates) :
    (reloadIfCertificatesChanged crates settings).Ensures besideCerts
      (fun _ w => w.certs.Described crates) w :=
  ensures_poll crates settings stable_described stable_described
    (fun _ w held => @Certs.Described.same crates w _ rfl held)
    (fun w held => @Certs.Described.same crates w _ rfl held)
    (fun _ held => held) (fun _ => described_reloadLocked) described

/-- No reload is under way. -/
def Startup.AtRest (s : Startup) : Prop :=
  s.reload = none ∧ ∀ rest, s.phase ≠ .applying rest

/-- In every run of a node, when no reload is under way the gauges are those of the store, and the
    store is that of the config being served. -/
theorem described_atRest {others : World → World → Prop}
    (apart : ∀ w w', others w w' → w'.certs = w.certs) {host : Host}
    {inherited : HashMap SocketAddr SocketId} {s : Startup}
    (run : Relation.ReflTransGen (Startup.Step crates settings others)
      ⟨.starting host inherited, .waiting, none⟩ s) (atRest : s.AtRest) :
    s.world.certs.Described crates := by
  have minds : s.Minds besideCerts besideCerts (fun _ _ => True) (fun _ => True)
      (fun w => w.certs.Described crates) (fun w => w.certs.Described crates) := by
    clear atRest
    have steady := steady_of_stable (@stable_described crates)
    induction run with
    | refl => exact ⟨fun name => AList.lookup_empty name, nofun⟩
    | tail _ step ih =>
      have kept := Startup.Minds.step steady steady (fun _ => True.intro) apart apart
        (fun config w => ⟨rfl, True.intro⟩)
        (fun _ held => Program.obeys_iff_ensures.mpr (described_reload held))
        (fun _ held => Fallible.obeys_iff_ensures.mpr (described_applyInitial held))
        (fun _ held => Program.obeys_iff_ensures.mpr (described_reload held))
        (fun _ held => Program.obeys_iff_ensures.mpr (described_poll held)) step ih
      exact kept.1
  obtain ⟨world, phase, reload⟩ := s
  obtain ⟨rfl, still⟩ := atRest
  cases phase with
  | applying rest => exact absurd rfl (still rest)
  | waiting => exact minds
  | applied config => exact minds
  | started => exact minds
  | failed error => exact minds

end

/-! ## What is exported -/

theorem lastExpiry_expiriesOf {name : Str} (named : name ≠ defaultName) (index : Nat)
    (entries : List (CertSpec × LoadedCert)) :
    lastExpiry (CertStore.expiriesOf entries) name =
      ((bindingsFrom index entries).reverse.find? (·.name = name)).map Binding.notAfter := by
  induction entries generalizing index with
  | nil => rfl
  | cons entry rest ih =>
    obtain ⟨spec, loaded⟩ := entry
    have own : lastExpiry (spec.sni.map fun sni => (Text.toAsciiLowercase sni, loaded.notAfterUnix))
        name = ((spec.sni.map fun sni => (⟨Text.toAsciiLowercase sni, ⟨index, loaded.certifiedKey⟩,
          loaded.notAfterUnix⟩ : Binding)).reverse.find? (·.name = name)).map Binding.notAfter := by
      simp only [lastExpiry, ← List.map_reverse, List.find?_map, Option.map_map]
      rfl
    have default : lastExpiry
        (if spec.default then [(defaultName, loaded.notAfterUnix)] else []) name = none := by
      split <;> simp [lastExpiry, named.symm]
    rw [CertStore.expiriesOf, List.flatMap_cons, ← CertStore.expiriesOf, lastExpiry_append,
      lastExpiry_append, ih (index + 1), default, Option.or_none, own, bindingsFrom,
      List.reverse_append, List.find?_append, Option.map_or]

theorem lastExpiry_default {entries : List (CertSpec × LoadedCert)} {store built : CertStore}
    {defaultFile : Option Path} {index : Nat}
    (added : CertStore.addLoaded store defaultFile index entries = .ok built)
    (apart : ∀ entry ∈ entries, ∀ sni ∈ entry.1.sni, Text.toAsciiLowercase sni ≠ defaultName) :
    lastExpiry (CertStore.expiriesOf entries) defaultName =
      (CertStore.defaultFrom index entries).map Prod.snd := by
  induction entries generalizing store defaultFile index with
  | nil => rfl
  | cons entry rest ih =>
    obtain ⟨spec, loaded⟩ := entry
    obtain ⟨next, ok, more⟩ := CertStore.addLoaded_cons added
    obtain ⟨_, flagged, _⟩ := CertStore.addEntry_eq_ok ok
    rw [List.forall_mem_cons] at apart
    have own : lastExpiry (spec.sni.map fun sni => (Text.toAsciiLowercase sni, loaded.notAfterUnix))
        defaultName = none := by
      rw [← Option.not_isSome_iff_eq_none, lastExpiry_isSome]
      simpa using apart.1
    rw [CertStore.expiriesOf, List.flatMap_cons, ← CertStore.expiriesOf, lastExpiry_append,
      lastExpiry_append, own, ih more apart.2, Option.none_or, CertStore.defaultFrom]
    cases default : spec.default with
    | false => simp [lastExpiry]
    | true =>
      rw [CertStore.defaultFrom_of_addLoaded more (flagged default).2]
      simp [lastExpiry]

/-- When a certificate expires, by its leaf. -/
def SharedKey.expiry (crates : Crates) (key : SharedKey) : Option Int :=
  key.key.chain.head?.bind crates.notAfter

theorem Loads.expiry {crates : Crates} {loaded : LoadedCert} (loads : Loads crates loaded)
    (index : Nat) :
    SharedKey.expiry crates ⟨index, loaded.certifiedKey⟩ = some loaded.notAfterUnix := by
  obtain ⟨certPem, keyPem, ok⟩ := loads
  unfold loadCertPem at ok
  cases chain : crates.pemCertificates certPem with
  | none => simp [chain] at ok
  | some certs =>
    cases leaf : certs.head? with
    | none => simp [chain, leaf] at ok
    | some cert =>
      cases expires : crates.notAfter cert with
      | none => simp [chain, leaf, expires] at ok
      | some notAfter =>
        simp only [chain, leaf, expires] at ok
        -- the key decides whether it is loaded, not when it expires
        split at ok
        · split at ok
          · split at ok
            · cases ok
            · split at ok
              · cases ok
              · cases ok
                simp [SharedKey.expiry, leaf, expires]
          · cases ok
        · cases ok

/-- The expiry exported under a name is that of what is served for an SNI. -/
def Exports (crates : Crates) (store : CertStore) (exported : HashMap Str Int) (name : Str)
    (sni : Option Str) : Prop :=
  ∃ key expiry, store.resolve sni = some key ∧ key.expiry crates = some expiry ∧
    exported.lookup name = some expiry

/-- The expiries exported are those of the certificates served: under each exact name, under each
    wildcard for the names it covers that are not exact, and for the default; and no others are. -/
structure ExportsServed (crates : Crates) (specs : List CertSpec) (store : CertStore)
    (exported : HashMap Str Int) : Prop where
  exact : ∀ spec ∈ specs, ∀ sni ∈ spec.sni, (∀ rest, sni ≠ '*' :: rest) →
    Exports crates store exported (Text.toAsciiLowercase sni) (some sni)
  wildcard : ∀ spec ∈ specs, ∀ sni ∈ spec.sni, (∃ suffix, sni = '*' :: '.' :: suffix) →
    ∀ name, hostMatches (Text.toAsciiLowercase sni) (Text.toAsciiLowercase name) = true →
      (¬ ∃ spec ∈ specs, spec.HasName name) →
        Exports crates store exported (Text.toAsciiLowercase sni) (some name)
  default : (∃ spec ∈ specs, spec.default = true) → Exports crates store exported defaultName none
  only : ∀ name, (exported.lookup name).isSome = true →
    (name = defaultName ∧ ∃ spec ∈ specs, spec.default = true) ∨
      ∃ spec ∈ specs, ∃ sni ∈ spec.sni, Text.toAsciiLowercase sni = name

/-- Names under which the two cannot disagree: stars are followed by dots, each wildcard is of one
    entry, and no name is that of the default. -/
structure PlainNames (specs : List CertSpec) : Prop where
  named : ∀ spec ∈ specs, spec.WellNamed
  single : ∀ (i j : Nat) (spec spec' : CertSpec), specs[i]? = some spec → specs[j]? = some spec' →
    ∀ sni ∈ spec.sni, ∀ sni' ∈ spec'.sni, (∃ rest, sni = '*' :: rest) →
      Text.eqIgnoreAsciiCase sni sni' = true → i = j
  unlike : ∀ spec ∈ specs, ∀ sni ∈ spec.sni, Text.toAsciiLowercase sni ≠ defaultName

section

variable {crates : Crates} {specs : List CertSpec} {store built : CertStore}
  {entries : List (CertSpec × LoadedCert)} {exported : HashMap Str Int}

theorem last_of_name {spec : CertSpec} (listed : spec ∈ entries.map Prod.fst) {sni : Str}
    (member : sni ∈ spec.sni) (unlike : Text.toAsciiLowercase sni ≠ defaultName) :
    ∃ i last loaded, entries[i]? = some (last, loaded) ∧
      (∃ other ∈ last.sni, Text.eqIgnoreAsciiCase sni other = true) ∧
      (bindingsFrom 0 entries).reverse.find? (·.name = Text.toAsciiLowercase sni) =
        some ⟨Text.toAsciiLowercase sni, ⟨i, loaded.certifiedKey⟩, loaded.notAfterUnix⟩ ∧
      lastExpiry (CertStore.expiriesOf entries) (Text.toAsciiLowercase sni) =
        some loaded.notAfterUnix := by
  obtain ⟨entry, known, rfl⟩ := List.mem_map.mp listed
  obtain ⟨b, bound, named⟩ := CertStore.bound_of_mem known member
  rw [lastExpiry_expiriesOf unlike 0]
  cases found : (bindingsFrom 0 entries).reverse.find? (·.name = Text.toAsciiLowercase sni) with
  | none =>
    have absent := List.find?_eq_none.mp found b (List.mem_reverse.mpr bound)
    simp [named] at absent
  | some binding =>
    have same : binding.name = Text.toAsciiLowercase sni := by simpa using List.find?_some found
    obtain ⟨i, last, loaded, placed, other, own, rfl⟩ :=
      mem_bindingsFrom.mp (List.mem_reverse.mp (List.mem_of_find?_eq_some found))
    refine ⟨i, last, loaded, placed, ⟨other, own, ?_⟩, ?_, rfl⟩
    · exact beq_iff_eq.mpr same.symm
    · rw [Nat.zero_add, ← same]

theorem exports_exact (added : CertStore.addLoaded .empty none 0 entries = .ok built)
    (loads : ∀ entry ∈ entries, Loads crates entry.2)
    (current : ∀ name, exported.lookup name = lastExpiry (CertStore.expiriesOf entries) name)
    {spec : CertSpec} (listed : spec ∈ entries.map Prod.fst) {sni : Str} (member : sni ∈ spec.sni)
    (unlike : Text.toAsciiLowercase sni ≠ defaultName) (starless : ∀ rest, sni ≠ '*' :: rest) :
    Exports crates built.order exported (Text.toAsciiLowercase sni) (some sni) := by
  obtain ⟨i, last, loaded, placed, _, found, expiry⟩ := last_of_name listed member unlike
  have bare : Text.stripStart (Text.toAsciiLowercase sni) ['*'] = none := by
    cases star : Text.stripStart (Text.toAsciiLowercase sni) ['*'] with
    | none => rfl
    | some suffix =>
      obtain ⟨rest, rfl, _⟩ := CertStore.star_of_lowercase (CertStore.stripStar_eq_some.mp star)
      exact absurd rfl (starless rest)
  refine ⟨_, _, CertStore.resolve_of_exact added bare found, ?_, (current _).trans expiry⟩
  exact (loads _ (List.mem_of_getElem? placed)).expiry i

theorem exports_wildcard (added : CertStore.addLoaded .empty none 0 entries = .ok built)
    (loads : ∀ entry ∈ entries, Loads crates entry.2)
    (current : ∀ name, exported.lookup name = lastExpiry (CertStore.expiriesOf entries) name)
    (plain : PlainNames (entries.map Prod.fst)) {spec : CertSpec}
    (listed : spec ∈ entries.map Prod.fst) {suffix : Str}
    (member : '*' :: '.' :: suffix ∈ spec.sni) {name : Str}
    (matched : hostMatches (Text.toAsciiLowercase ('*' :: '.' :: suffix))
      (Text.toAsciiLowercase name) = true)
    (nameless : ¬ ∃ spec ∈ entries.map Prod.fst, spec.HasName name) :
    Exports crates built.order exported (Text.toAsciiLowercase ('*' :: '.' :: suffix))
      (some name) := by
  have named : ∀ entry ∈ entries, entry.1.WellNamed :=
    fun entry listed => plain.named entry.1 (List.mem_map_of_mem listed)
  have exactless : ¬ ∃ entry ∈ entries, entry.1.HasName name := by
    rintro ⟨entry, known, hasName⟩
    exact nameless ⟨entry.1, List.mem_map_of_mem known, hasName⟩
  have covered : ∃ entry ∈ entries, entry.1.Covers name := by
    obtain ⟨entry, known, rfl⟩ := List.mem_map.mp listed
    exact ⟨entry, known, _, member, ⟨suffix, rfl⟩, matched⟩
  obtain ⟨i, last, loaded, placed, ⟨other, own, same⟩, _, expiry⟩ :=
    last_of_name listed member (plain.unlike spec listed _ member)
  obtain ⟨⟨j, key⟩, cover, served, ⟨loaded', placed', rfl⟩, sni, own', ⟨suffix', rfl⟩, matched'⟩ :=
    CertStore.resolve_covers added (CertStore.rightlyTaken_of_wellNamed named name) exactless covered
  -- both wildcards are the one that can match the name
  have one : ∀ {suffix : Str}, hostMatches (Text.toAsciiLowercase ('*' :: '.' :: suffix))
      (Text.toAsciiLowercase name) = true →
      Text.toAsciiLowercase ('*' :: '.' :: suffix) = wildcardOf (Text.toAsciiLowercase name) :=
    fun {suffix} matched => eq_wildcardOf_of_hostMatches
      (HostClass.of_eq_wildcard.mpr ⟨Text.toAsciiLowercase suffix, rfl⟩) matched
  have again : Text.eqIgnoreAsciiCase ('*' :: '.' :: suffix') other = true := by
    rw [Text.eqIgnoreAsciiCase, one matched', ← one matched]
    exact same
  have placedSpec : ∀ {i : Nat} {spec : CertSpec} {loaded : LoadedCert},
      entries[i]? = some (spec, loaded) → (entries.map Prod.fst)[i]? = some spec := by
    intro i spec loaded placed
    rw [List.getElem?_map, placed]
    rfl
  have entry : j = i := plain.single j i cover last (placedSpec placed') (placedSpec placed) _ own'
    other own ⟨_, rfl⟩ again
  subst entry
  cases placed.symm.trans placed'
  refine ⟨_, _, served, ?_, (current _).trans expiry⟩
  exact (loads _ (List.mem_of_getElem? placed)).expiry j

theorem exports_default (added : CertStore.addLoaded .empty none 0 entries = .ok built)
    (loads : ∀ entry ∈ entries, Loads crates entry.2)
    (current : ∀ name, exported.lookup name = lastExpiry (CertStore.expiriesOf entries) name)
    (plain : PlainNames (entries.map Prod.fst))
    (flagged : ∃ spec ∈ entries.map Prod.fst, spec.default = true) :
    Exports crates built.order exported defaultName none := by
  have expiry : lastExpiry (CertStore.expiriesOf entries) defaultName =
      (CertStore.defaultFrom 0 entries).map Prod.snd :=
    lastExpiry_default added fun entry listed => plain.unlike entry.1 (List.mem_map_of_mem listed)
  cases found : CertStore.defaultFrom 0 entries with
  | none =>
    obtain ⟨spec, listed, default⟩ := flagged
    obtain ⟨entry, known, rfl⟩ := List.mem_map.mp listed
    rw [CertStore.defaultFrom_eq_none.mp found entry known] at default
    cases default
  | some default =>
    obtain ⟨i, spec, loaded, placed, _, rfl⟩ := CertStore.defaultFrom_eq_some found
    refine ⟨_, _, ?_, (loads _ (List.mem_of_getElem? placed)).expiry (0 + i), ?_⟩
    · change built.default = _
      rw [CertStore.default_eq added, found]
      rfl
    · rw [current, expiry, found]
      rfl

theorem configured_of_exported
    (current : ∀ name, exported.lookup name = lastExpiry (CertStore.expiriesOf entries) name)
    {name : Str} (present : (exported.lookup name).isSome = true) :
    (name = defaultName ∧ ∃ spec ∈ entries.map Prod.fst, spec.default = true) ∨
      ∃ spec ∈ entries.map Prod.fst, ∃ sni ∈ spec.sni, Text.toAsciiLowercase sni = name := by
  rw [current, lastExpiry_isSome, CertStore.expiriesOf] at present
  simp only [List.map_flatMap, List.mem_flatMap, List.map_append, List.mem_append, List.map_map,
    List.mem_map] at present
  obtain ⟨entry, listed, default | ⟨sni, member, rfl⟩⟩ := present
  · split at default
    · rename_i flagged
      have same : defaultName = name := by simpa using default
      exact .inl ⟨same.symm, entry.1, List.mem_map_of_mem listed, flagged⟩
    · simp at default
  · exact .inr ⟨entry.1, List.mem_map_of_mem listed, sni, member, rfl⟩

/-- The store of plain names exports what it serves. -/
theorem BuiltFrom.exportsServed (built : BuiltFrom crates specs store entries)
    (plain : PlainNames specs)
    (current : ∀ name, exported.lookup name = lastExpiry store.expiries name) :
    ExportsServed crates specs store exported := by
  obtain ⟨rfl, loads, made, added, rfl⟩ := built
  have expiries : made.order.expiries = CertStore.expiriesOf entries := by
    change made.expiries = _
    rw [CertStore.addLoaded_eq added]
    rfl
  rw [expiries] at current
  constructor
  case exact =>
    intro spec listed sni member starless
    exact exports_exact added loads current listed member (plain.unlike spec listed sni member)
      starless
  case wildcard =>
    rintro spec listed sni member ⟨suffix, rfl⟩ name matched nameless
    exact exports_wildcard added loads current plain listed member matched nameless
  case default =>
    exact exports_default added loads current plain
  case only =>
    intro name present
    exact configured_of_exported current present

end

/-- In every run of a node from its start on, with reloads and polls at any moment, accepted or
    rejected: whenever none is under way, and the certificate names of the config being served are
    plain, the expiries exported are those of the certificates served. -/
theorem exported_expiries_are_served (crates : Crates) (settings : NodeConfig)
    {others : World → World → Prop} (apart : ∀ w w', others w w' → w'.certs = w.certs)
    (host : Host) (inherited : HashMap SocketAddr SocketId) (s : Startup)
    (run : Relation.ReflTransGen (Startup.Step crates settings others)
      ⟨.starting host inherited, .waiting, none⟩ s) (atRest : s.AtRest) (config : DynamicConfig)
    (serving : s.world.journal.serving = some config)
    (plain : PlainNames (certSpecs config.certificates)) :
    ExportsServed crates (certSpecs config.certificates) s.world.node.resolver
      s.world.node.control.certExpiryTimestamp := by
  have described := described_atRest apart run atRest
  obtain ⟨entries, built⟩ := described.built config serving
  exact built.exportsServed plain described.exported

/-! ## A wildcard of two entries -/

/-- A config with two certificates, each under one name. -/
def certifiedTwice (first second : Str) : DynamicConfig :=
  { onPorts [80] with
    certificates := [⟨[first], false, ⟨['x']⟩, ⟨['k']⟩⟩, ⟨[second], false, ⟨['y']⟩, ⟨['k']⟩⟩] }

/-- A certificate expires at the time its file says. -/
def expiringCrates (first second : Str) : Crates :=
  { Crates.indexed [certifiedTwice first second] with
    notAfter := fun bytes => bytes.head?.map fun byte => (byte.toNat : Int) }

/-- A host with such a config; the certificate in `x` expires at 1, that in `y` at 3. -/
def expiringHost : Host :=
  .small [(⟨['c']⟩, ⟨none, .ok [0]⟩), (⟨['x']⟩, ⟨none, .ok [1]⟩), (⟨['y']⟩, ⟨none, .ok [3]⟩),
    (⟨['k']⟩, ⟨none, .ok [2]⟩)] (.error .notFound) []

/-- The node once it has started. -/
def servingTwice (first second : Str) : World :=
  beginChecks (.small none) (certifiedTwice first second)
    (Fallible.exec (applyInitial (expiringCrates first second) (.small none))
      (.starting expiringHost ∅)).2

theorem runs_servingTwice {first second : Str}
    (usable : (Fallible.exec (applyInitial (expiringCrates first second) (.small none))
      (.starting expiringHost ∅)).1 = .ok (certifiedTwice first second))
    (serving : (servingTwice first second).journal.serving = some (certifiedTwice first second)) :
    Relation.ReflTransGen (Startup.Step (expiringCrates first second) (.small none)
        fun _ _ => False)
      ⟨.starting expiringHost ∅, .waiting, none⟩ ⟨servingTwice first second, .started, none⟩ := by
  have kept : ∀ w, (beginChecks (.small none) (certifiedTwice first second) w).journal.serving =
      w.journal.serving := fun _ => rfl
  rw [servingTwice, kept] at serving
  exact Relation.ReflTransGen.mono (fun _ _ step => step.1) _ _
    (Startup.runs_plain (fun _ _ => False) usable serving)

theorem plain_twoNames : PlainNames
    (certSpecs (certifiedTwice ['*', '.', 'a'] ['*', '.', 'b']).certificates) := by
  constructor
  case named => simp [certSpecs, certifiedTwice, CertSpec.WellNamed]
  case single =>
    intro i j spec spec' here there sni own sni' own' _ same
    have apart : ∀ i j : Fin (certSpecs (certifiedTwice ['*', '.', 'a']
        ['*', '.', 'b']).certificates).length,
        (∃ sni ∈ (List.get _ i).sni, ∃ sni' ∈ (List.get _ j).sni,
          Text.eqIgnoreAsciiCase sni sni' = true) → i = j := by decide +kernel
    obtain ⟨low, rfl⟩ := List.getElem?_eq_some_iff.mp here
    obtain ⟨low', rfl⟩ := List.getElem?_eq_some_iff.mp there
    exact congrArg Fin.val (apart ⟨i, low⟩ ⟨j, low'⟩ ⟨sni, own, sni', own', same⟩)
  case unlike => simp [certSpecs, certifiedTwice, Text.toAsciiLowercase, defaultName]

/-- `*.a` and `*.b` -/
theorem exported_expiries_are_served_twice :
    ExportsServed (expiringCrates ['*', '.', 'a'] ['*', '.', 'b'])
      (certSpecs (certifiedTwice ['*', '.', 'a'] ['*', '.', 'b']).certificates)
      (servingTwice ['*', '.', 'a'] ['*', '.', 'b']).node.resolver
      (servingTwice ['*', '.', 'a'] ['*', '.', 'b']).node.control.certExpiryTimestamp := by
  have serving : (servingTwice ['*', '.', 'a'] ['*', '.', 'b']).journal.serving =
      some (certifiedTwice ['*', '.', 'a'] ['*', '.', 'b']) := by decide +kernel
  exact exported_expiries_are_served _ (.small none) (fun _ _ => False.elim) expiringHost ∅
    ⟨servingTwice ['*', '.', 'a'] ['*', '.', 'b'], .started, none⟩
    (runs_servingTwice (by decide +kernel) serving) ⟨rfl, nofun⟩ _ serving plain_twoNames

/-- `*.a` twice: `b.a` is served the certificate that expires at 1, and 3 is exported. -/
theorem exported_expiry_not_served :
    ∃ s : Startup, Relation.ReflTransGen (Startup.Step
        (expiringCrates ['*', '.', 'a'] ['*', '.', 'a']) (.small none) fun _ _ => False)
        ⟨.starting expiringHost ∅, .waiting, none⟩ s ∧ s.AtRest ∧
      s.world.journal.serving = some (certifiedTwice ['*', '.', 'a'] ['*', '.', 'a']) ∧
      ¬ ExportsServed (expiringCrates ['*', '.', 'a'] ['*', '.', 'a'])
        (certSpecs (certifiedTwice ['*', '.', 'a'] ['*', '.', 'a']).certificates)
        s.world.node.resolver s.world.node.control.certExpiryTimestamp := by
  have serving : (servingTwice ['*', '.', 'a'] ['*', '.', 'a']).journal.serving =
      some (certifiedTwice ['*', '.', 'a'] ['*', '.', 'a']) := by decide +kernel
  refine ⟨⟨servingTwice ['*', '.', 'a'] ['*', '.', 'a'], .started, none⟩,
    runs_servingTwice (by decide +kernel) serving, ⟨rfl, nofun⟩, serving, ?_⟩
  intro served
  obtain ⟨key, expiry, resolved, expires, exported⟩ := served.wildcard _ (.head _) _ (.head _)
    ⟨['a'], rfl⟩ ['b', '.', 'a'] (by decide +kernel) (by
      simp [certSpecs, certifiedTwice, CertSpec.HasName, Text.eqIgnoreAsciiCase,
        Text.toAsciiLowercase])
  have early : ((servingTwice ['*', '.', 'a'] ['*', '.', 'a']).node.resolver.resolve
      (some ['b', '.', 'a'])).bind
        (SharedKey.expiry (expiringCrates ['*', '.', 'a'] ['*', '.', 'a'])) = some 1 := by
    decide +kernel
  have late : (servingTwice ['*', '.', 'a'] ['*', '.', 'a']).node.control.certExpiryTimestamp.lookup
      ['*', '.', 'a'] = some 3 := by decide +kernel
  rw [resolved, Option.bind_some, expires] at early
  cases early
  cases late.symm.trans exported

end Gfe
