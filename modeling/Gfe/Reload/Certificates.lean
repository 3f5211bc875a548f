import Gfe.Reload.Accepted
import Gfe.Tls.Resolution

/-! # The certificates of an accepted config

Preparing a config loads the files of its certificate entries one after the other and
builds the store from them, whatever happens to the files meanwhile. Which entry a name
resolves to depends on the names in the config only: it is the entry that has the name,
then one that covers it, then the default, unless a star name without a dot is taken to
match it.
-/

namespace Gfe

open Interleaving

/-! ## Building -/

/-- Something an entry was loaded from. -/
def Loads (crates : Crates) (loaded : LoadedCert) : Prop :=
  ∃ certPem keyPem, loadCertPem crates certPem keyPem = .ok loaded

/-- A store that was built from these entries, with something loaded for each. -/
structure BuiltFrom (crates : Crates) (specs : List CertSpec) (store : CertStore)
    (entries : List (CertSpec × LoadedCert)) : Prop where
  specs : entries.map Prod.fst = specs
  loads : ∀ entry ∈ entries, Loads crates entry.2
  store : ∃ built, CertStore.addLoaded .empty none 0 entries = .ok built ∧ store = built.order

section

variable (rely : Rely World) (crates : Crates)

theorem ensures_loadCertFiles (certPath keyPath : Path) (w : World) :
    (loadCertFiles crates certPath keyPath).Ensures rely (fun loaded _ => Loads crates loaded)
      (fun _ _ => True) w := by
  apply Fallible.Ensures.bindAny
  intro certPem w
  apply Fallible.Ensures.bindAny
  intro keyPem w
  cases loaded : loadCertPem crates certPem keyPem with
  | error reason => exact .throw fun _ _ => True.intro
  | ok cert => exact .pure fun _ _ => ⟨certPem, keyPem, loaded⟩

theorem ensures_addEntries (store : CertStore) (defaultFile : Option Path) (index : Nat)
    (specs : List CertSpec) (w : World) :
    (CertStore.addEntries crates store defaultFile index specs).Ensures rely
      (fun built _ => ∃ entries : List (CertSpec × LoadedCert), entries.map Prod.fst = specs ∧
        (∀ entry ∈ entries, Loads crates entry.2) ∧
        CertStore.addLoaded store defaultFile index entries = .ok built) (fun _ _ => True) w := by
  induction specs generalizing store defaultFile index w with
  | nil => exact .pure fun _ _ => ⟨[], rfl, by simp, rfl⟩
  | cons spec rest ih =>
    apply Fallible.Ensures.bind
    apply Fallible.Ensures.mapError
    refine (ensures_loadCertFiles rely crates spec.certFile spec.keyFile w).weaken ?_
      fun _ _ held => held
    intro loaded w loads
    apply Fallible.Ensures.bind
    refine .ofExcept ?_ fun _ _ _ _ => True.intro
    intro added ok w _
    refine (ih added.1 added.2 (index + 1) w).weaken ?_ fun _ _ held => held
    rintro built _ ⟨entries, same, others, more⟩
    refine ⟨(spec, loaded) :: entries, by rw [List.map_cons, same], ?_, ?_⟩
    · rw [List.forall_mem_cons]
      exact ⟨loads, others⟩
    · rw [CertStore.addLoaded, ok]
      exact more

theorem ensures_certificates (specs : List CertSpec) (w : World) :
    (CertStore.build crates specs).Ensures rely
      (fun store _ => ∃ entries, BuiltFrom crates specs store entries) (fun _ _ => True) w := by
  apply Fallible.Ensures.bind
  refine (ensures_addEntries rely crates .empty none 0 specs w).weaken ?_ fun _ _ held => held
  rintro built w ⟨entries, same, loads, added⟩
  exact .pure fun _ _ => ⟨entries, same, loads, built, added, rfl⟩

theorem ensures_prepareCertificates (config : DynamicConfig) (w : World) :
    (prepare crates config).Ensures rely
      (fun prepared _ => prepared.source = config ∧ ∃ entries,
        BuiltFrom crates (certSpecs config.certificates) prepared.certificates entries)
      (fun _ _ => True) w := by
  apply Fallible.Ensures.bind
  apply Fallible.Ensures.mapError
  refine .ofExcept ?_ fun _ _ _ _ => True.intro
  intro _ accepted w' _
  apply Fallible.Ensures.bind
  apply Fallible.Ensures.mapError
  refine (ensures_certificates rely crates _ w').weaken ?_ fun _ _ held => held
  intro certificates w built
  apply Fallible.Ensures.bindAny
  intro pools w
  exact .pure fun _ _ => ⟨rfl, built⟩

end

/-! ## Resolving -/

/-- However the files change while a config is prepared, its store resolves a name by the entry that
    has it, else by one that covers it, else by the default, if and only if an entry has the name
    or the star name it is taken to match is of such an entry. With stars only where a dot follows
    that is every name. -/
theorem certificate_follows_names_iff (crates : Crates) (config : DynamicConfig)
    {env : World → World → Prop} {w w' : World} {prepared : Prepared}
    (accepted : Program.Steps env (ExceptT.run (prepare crates config), w)
      (.ret (.ok prepared), w')) :
    ∃ entries, BuiltFrom crates (certSpecs config.certificates) prepared.certificates entries ∧
      (∀ name, ResolvesByName entries prepared.certificates name ↔
        (∃ entry ∈ entries, entry.1.HasName name) ∨ CertStore.RightlyTaken entries name) ∧
      ((∀ spec ∈ certSpecs config.certificates, spec.WellNamed) →
        ∀ name, CertStore.RightlyTaken entries name) := by
  obtain ⟨_, entries, built⟩ := (ensures_prepareCertificates (.within fun _ => True) crates config
    w).sound (fun _ _ _ held => held) accepted
  obtain ⟨store, added, ordered⟩ := built.store
  refine ⟨entries, built, ?_, ?_⟩
  · rw [ordered]
    exact CertStore.resolvesByName_iff added
  · intro named
    apply CertStore.rightlyTaken_of_wellNamed
    intro entry listed
    apply named
    rw [← built.specs]
    exact List.mem_map_of_mem listed

def certifiedAs (name : Str) (default : Bool) : DynamicConfig :=
  { onPorts [80] with certificates := [⟨[name], default, ⟨['x']⟩, ⟨['y']⟩⟩] }

/-- A node about to prepare it, with both files in place. -/
def withCertificate : World :=
  .starting (.small [(⟨['x']⟩, ⟨none, .ok [1]⟩), (⟨['y']⟩, ⟨none, .ok [2]⟩)] (.error .notFound) []) ∅

def preparedAs (name : Str) (default : Bool) : Except ReloadError Prepared :=
  (Fallible.exec (prepare (.indexed []) (certifiedAs name default)) withCertificate).1

theorem steps_preparedAs {name : Str} {default : Bool} (ok : (preparedAs name default).isOk = true) :
    ∃ prepared w', preparedAs name default = .ok prepared ∧ Program.Steps (fun _ _ => False)
      (ExceptT.run (prepare (.indexed []) (certifiedAs name default)), withCertificate)
      (.ret (.ok prepared), w') := by
  have run := Program.steps_run (fun _ _ => False)
    (ExceptT.run (prepare (.indexed []) (certifiedAs name default))) withCertificate
  cases result : preparedAs name default with
  | error error =>
    rw [result] at ok
    cases ok
  | ok prepared =>
    rw [show ((ExceptT.run (prepare (.indexed []) (certifiedAs name default))).run withCertificate).1 =
      .ok prepared from result] at run
    exact ⟨prepared, _, rfl, run⟩

/-- `*b.c` for the default: it is served for `ab.c`, as it should be, which no entry covers. -/
theorem certificate_follows_default_star : ∃ entries prepared,
    preparedAs ['*', 'b', '.', 'c'] true = .ok prepared ∧
      (CertStore.starTaken (bindingsFrom 0 entries) ['a', 'b', '.', 'c']).isSome = true ∧
      ResolvesByName entries prepared.certificates ['a', 'b', '.', 'c'] := by
  obtain ⟨prepared, w', made, run⟩ := @steps_preparedAs ['*', 'b', '.', 'c'] true (by decide +kernel)
  obtain ⟨entries, built, resolves, _⟩ := certificate_follows_names_iff _ _ run
  have only : ∀ entry ∈ entries, entry.1 = ⟨[['*', 'b', '.', 'c']], true, ⟨['x']⟩, ⟨['y']⟩⟩ := by
    intro entry listed
    have known := List.mem_map_of_mem (f := Prod.fst) listed
    rw [built.specs] at known
    simpa [certSpecs, certifiedAs] using known
  refine ⟨entries, prepared, made, ?_, (resolves _).mpr (.inr fun taken found => ?_)⟩
  · obtain ⟨entry, listed⟩ : ∃ entry, entry ∈ entries := by
      cases entries with
      | nil => cases built.specs
      | cons entry rest => exact ⟨entry, List.mem_cons_self⟩
    obtain ⟨b, bound, named⟩ := CertStore.bound_of_mem listed
      (show ['*', 'b', '.', 'c'] ∈ entry.1.sni by rw [only entry listed]; simp)
    obtain ⟨taken, found, _⟩ := CertStore.starTaken_of_bound bound named
      (show wildcardSuffixMatches _ ['a', 'b', '.', 'c'] = true by decide)
    rw [found]
    rfl
  · obtain ⟨⟨b, bound, _, key⟩, _⟩ := CertStore.bound_of_starTaken found
    obtain ⟨spec, keyOf, _⟩ := CertStore.keyOf_of_mem bound
    obtain ⟨entry, listed, rfl⟩ := CertStore.mem_of_keyOf keyOf
    refine ⟨entry.1, key ▸ keyOf, .inr ⟨?_, by rw [only entry listed]⟩⟩
    rintro ⟨other, member, covers⟩
    rw [only other member] at covers
    simp [CertSpec.Covers] at covers

/-- `*b.c` is no wildcard of a label, and is taken for one: the certificate is served for `ab.c`,
    which its entry neither has nor covers. -/
theorem certificate_served_uncovered : ∃ prepared w', Program.Steps (fun _ _ => False)
      (ExceptT.run (prepare (.indexed []) (certifiedAs ['*', 'b', '.', 'c'] false)), withCertificate)
      (.ret (.ok prepared), w') ∧
    (prepared.certificates.resolve (some ['a', 'b', '.', 'c'])).isSome = true ∧
    ∀ spec ∈ certSpecs (certifiedAs ['*', 'b', '.', 'c'] false).certificates,
      ¬ spec.HasName ['a', 'b', '.', 'c'] ∧ ¬ spec.Covers ['a', 'b', '.', 'c'] ∧
        spec.default = false := by
  obtain ⟨prepared, w', made, run⟩ := @steps_preparedAs ['*', 'b', '.', 'c'] false
    (by decide +kernel)
  refine ⟨prepared, w', run, ?_, ?_⟩
  · have served : (match preparedAs ['*', 'b', '.', 'c'] false with
        | .ok prepared => (prepared.certificates.resolve (some ['a', 'b', '.', 'c'])).isSome
        | .error _ => false) = true := by decide +kernel
    rwa [made] at served
  · intro spec listed
    simp only [certSpecs, certifiedAs, List.map_cons, List.map_nil, List.mem_singleton] at listed
    subst listed
    refine ⟨?_, ?_, rfl⟩
    · simp [CertSpec.HasName, Text.eqIgnoreAsciiCase, Text.toAsciiLowercase]
    · simp [CertSpec.Covers]

end Gfe
