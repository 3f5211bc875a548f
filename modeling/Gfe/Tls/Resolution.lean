import Gfe.Routing.Specificity
import Gfe.Tls.CertStore

/-! # Which certificate a name resolves to

A store is built name by name: exact names into a map, in which the last binding of a
name stays, and names that start with `*` into a list, of which the first one that
matches wins. Looked at as one list of bindings, a lookup is a search in that list from
its end or from its start. Names that start with `*` are taken for wildcards without a
look at what follows, so the single-label rule holds where a dot follows, and elsewhere
as far as the entry whose star name is taken covers the name or is the default.
-/

namespace Gfe

variable {name : Str} {entries : List (CertSpec × LoadedCert)} {b : Binding}

/-- A name with the certificate it is bound to, and when that expires. -/
structure Binding where
  name : Str
  key : SharedKey
  notAfter : Int
  deriving DecidableEq

/-- The names of loaded entries, the first of them at position `index`, in order. -/
def bindingsFrom (index : Nat) : List (CertSpec × LoadedCert) → List Binding
  | [] => []
  | (spec, loaded) :: rest =>
    spec.sni.map (fun sni =>
      ⟨Text.toAsciiLowercase sni, ⟨index, loaded.certifiedKey⟩, loaded.notAfterUnix⟩) ++
    bindingsFrom (index + 1) rest

theorem mem_bindingsFrom {index : Nat} :
    b ∈ bindingsFrom index entries ↔ ∃ i spec loaded, entries[i]? = some (spec, loaded) ∧
      ∃ sni ∈ spec.sni, b =
        ⟨Text.toAsciiLowercase sni, ⟨index + i, loaded.certifiedKey⟩, loaded.notAfterUnix⟩ := by
  induction entries generalizing index with
  | nil => simp [bindingsFrom]
  | cons entry rest ih =>
    obtain ⟨spec, loaded⟩ := entry
    rw [bindingsFrom, List.mem_append, List.mem_map, ih]
    constructor
    · rintro (⟨sni, listed, rfl⟩ | ⟨i, spec', loaded', found, sni, listed, rfl⟩)
      · exact ⟨0, spec, loaded, rfl, sni, listed, rfl⟩
      · refine ⟨i + 1, spec', loaded', found, sni, listed, ?_⟩
        rw [show index + (i + 1) = index + 1 + i by omega]
    · rintro ⟨i, spec', loaded', found, sni, listed, rfl⟩
      cases i with
      | zero =>
        cases found
        exact .inl ⟨sni, listed, rfl⟩
      | succ i =>
        refine .inr ⟨i, spec', loaded', found, sni, listed, ?_⟩
        rw [show index + (i + 1) = index + 1 + i by omega]

namespace CertStore

def addLoaded (store : CertStore) (defaultFile : Option Path) (index : Nat) :
    List (CertSpec × LoadedCert) → Except TlsError CertStore
  | [] => .ok store
  | (spec, loaded) :: rest => do
    let (store, defaultFile) ← store.addEntry defaultFile spec index loaded
    addLoaded store defaultFile (index + 1) rest

/-- The default of entries, the first of them at position `index`. -/
def defaultFrom (index : Nat) : List (CertSpec × LoadedCert) → Option (SharedKey × Int)
  | [] => none
  | (spec, loaded) :: rest =>
    if spec.default then some (⟨index, loaded.certifiedKey⟩, loaded.notAfterUnix)
    else defaultFrom (index + 1) rest

def expiriesOf (entries : List (CertSpec × LoadedCert)) : List (Str × Int) :=
  entries.flatMap fun (spec, loaded) =>
    (if spec.default then [(defaultName, loaded.notAfterUnix)] else []) ++
      spec.sni.map fun sni => (Text.toAsciiLowercase sni, loaded.notAfterUnix)

def exactOf (names : HashMap Str SharedKey) (bindings : List Binding) : HashMap Str SharedKey :=
  bindings.foldl (fun names b =>
    match Text.stripStart b.name ['*'] with
    | some _ => names
    | none => names.insert b.name b.key) names

def wildcardsOf (bindings : List Binding) : List (Str × SharedKey) :=
  bindings.filterMap fun b => (Text.stripStart b.name ['*']).map fun suffix => (suffix, b.key)

/-! ## What a store has -/

section

variable {index : Nat} {entries : List (CertSpec × LoadedCert)} {store built : CertStore}
  {defaultFile : Option Path}

theorem addNames_eq (key : SharedKey) (notAfter : Int) (snis : List Str) (store : CertStore) :
    snis.foldl (addName key notAfter) store =
      { exact := exactOf store.exact
          (snis.map fun sni => ⟨Text.toAsciiLowercase sni, key, notAfter⟩)
        wildcard := store.wildcard ++
          wildcardsOf (snis.map fun sni => ⟨Text.toAsciiLowercase sni, key, notAfter⟩)
        default := store.default
        expiries := store.expiries ++ snis.map fun sni => (Text.toAsciiLowercase sni, notAfter) } := by
  induction snis generalizing store with
  | nil => simp [exactOf, wildcardsOf]
  | cons sni rest ih =>
    rw [List.foldl_cons, ih]
    simp only [addName, exactOf, wildcardsOf, List.map_cons, List.foldl_cons, List.filterMap_cons]
    cases Text.stripStart (Text.toAsciiLowercase sni) ['*'] <;> simp

/-- What adding one more entry does, and that a second default is refused. -/
theorem addEntry_eq_ok {spec : CertSpec} {loaded : LoadedCert} {added : CertStore × Option Path}
    (ok : store.addEntry defaultFile spec index loaded = .ok added) :
    added.1 =
        { exact := exactOf store.exact (bindingsFrom index [(spec, loaded)])
          wildcard := store.wildcard ++ wildcardsOf (bindingsFrom index [(spec, loaded)])
          default := ((defaultFrom index [(spec, loaded)]).map Prod.fst).or store.default
          expiries := store.expiries ++ expiriesOf [(spec, loaded)] } ∧
      (spec.default = true → defaultFile = none ∧ added.2.isSome) ∧
      (spec.default = false → added.2 = defaultFile) := by
  unfold addEntry at ok
  simp only [addNames_eq] at ok
  cases flagged : spec.default with
  | false =>
    simp only [flagged, Bool.false_eq_true, if_false, Except.ok.injEq] at ok
    subst ok
    simp [bindingsFrom, defaultFrom, expiriesOf, flagged]
  | true =>
    cases defaultFile with
    | some first => simp [flagged] at ok
    | none =>
      simp only [flagged, if_true, Except.ok.injEq] at ok
      subst ok
      simp [bindingsFrom, defaultFrom, expiriesOf, flagged]

theorem addLoaded_cons {spec : CertSpec} {loaded : LoadedCert} {rest : List (CertSpec × LoadedCert)}
    (added : addLoaded store defaultFile index ((spec, loaded) :: rest) = .ok built) :
    ∃ next, store.addEntry defaultFile spec index loaded = .ok next ∧
      addLoaded next.1 next.2 (index + 1) rest = .ok built := by
  rw [addLoaded] at added
  cases entered : store.addEntry defaultFile spec index loaded with
  | error error =>
    rw [entered] at added
    cases added
  | ok next =>
    rw [entered] at added
    exact ⟨next, rfl, added⟩

theorem defaultFrom_of_addLoaded (added : addLoaded store defaultFile index entries = .ok built)
    (seen : defaultFile.isSome) : defaultFrom index entries = none := by
  induction entries generalizing store defaultFile index with
  | nil => rfl
  | cons entry rest ih =>
    obtain ⟨spec, loaded⟩ := entry
    obtain ⟨next, ok, more⟩ := addLoaded_cons added
    obtain ⟨_, flagged, plain⟩ := addEntry_eq_ok ok
    cases default : spec.default with
    | true => simp [(flagged default).1] at seen
    | false =>
      rw [defaultFrom, default, if_neg Bool.false_ne_true]
      exact ih more (by rwa [plain default])

theorem addLoaded_eq (added : addLoaded store defaultFile index entries = .ok built) :
    built =
      { exact := exactOf store.exact (bindingsFrom index entries)
        wildcard := store.wildcard ++ wildcardsOf (bindingsFrom index entries)
        default := ((defaultFrom index entries).map Prod.fst).or store.default
        expiries := store.expiries ++ expiriesOf entries } := by
  induction entries generalizing store defaultFile index with
  | nil =>
    cases added
    simp [bindingsFrom, exactOf, wildcardsOf, defaultFrom, expiriesOf]
  | cons entry rest ih =>
    obtain ⟨spec, loaded⟩ := entry
    obtain ⟨⟨next, defaultFile'⟩, ok, more⟩ := addLoaded_cons added
    obtain ⟨same, flagged, _⟩ := addEntry_eq_ok ok
    rw [ih more]
    simp only at same
    subst same
    have default : ((defaultFrom (index + 1) rest).map Prod.fst).or
        (((defaultFrom index [(spec, loaded)]).map Prod.fst).or store.default) =
        ((defaultFrom index ((spec, loaded) :: rest)).map Prod.fst).or store.default := by
      simp only [defaultFrom]
      split
      · rename_i isDefault
        rw [defaultFrom_of_addLoaded more (flagged isDefault).2]
        rfl
      · rfl
    simp only [default]
    simp [bindingsFrom, exactOf, wildcardsOf, expiriesOf, List.foldl_append]

end

/-! ## Lookups -/

section

variable {bindings : List Binding} {name : Str}

theorem stripStar_eq_some {name suffix : Str} :
    Text.stripStart name ['*'] = some suffix ↔ name = '*' :: suffix :=
  Text.stripStart_eq_some.trans eq_comm

theorem lookup_exactOf (plain : Text.stripStart name ['*'] = none)
    (names : HashMap Str SharedKey) :
    (exactOf names bindings).lookup name =
      ((bindings.reverse.find? (·.name = name)).map Binding.key).or (names.lookup name) := by
  induction bindings using List.reverseRecOn with
  | nil => simp [exactOf]
  | append_singleton bindings b ih =>
    rw [exactOf, List.foldl_append, List.foldl_cons, List.foldl_nil, ← exactOf,
      List.reverse_append, List.reverse_singleton, List.singleton_append, List.find?_cons]
    by_cases same : b.name = name
    · simp [same, plain]
    · rw [decide_eq_false same, ← ih]
      split
      · rfl
      · rw [HashMap.lookup_insert, if_neg (Ne.symm same)]

theorem lookup_exactOf_star {suffix : Str} (names : HashMap Str SharedKey) :
    (exactOf names bindings).lookup ('*' :: suffix) = names.lookup ('*' :: suffix) := by
  induction bindings using List.reverseRecOn with
  | nil => rfl
  | append_singleton bindings b ih =>
    rw [exactOf, List.foldl_append, List.foldl_cons, List.foldl_nil, ← exactOf, ← ih]
    split
    · rfl
    · rename_i plain
      have differ : '*' :: suffix ≠ b.name := by
        intro same
        rw [stripStar_eq_some.mpr same.symm] at plain
        cases plain
      rw [HashMap.lookup_insert, if_neg differ]

theorem mem_wildcardsOf {entry : Str × SharedKey} :
    entry ∈ wildcardsOf bindings ↔ ∃ b ∈ bindings, b.name = '*' :: entry.1 ∧ b.key = entry.2 := by
  simp only [wildcardsOf, List.mem_filterMap, Option.map_eq_some_iff, stripStar_eq_some]
  constructor
  · rintro ⟨b, bound, suffix, named, rfl⟩
    exact ⟨b, bound, named, rfl⟩
  · rintro ⟨b, bound, named, same⟩
    exact ⟨b, bound, entry.1, named, Prod.ext rfl same⟩

theorem wildcardSuffixMatches_eq (rest host : Str) :
    wildcardSuffixMatches ('.' :: rest) host = hostMatches ('*' :: '.' :: rest) host := by
  have suffix : (Text.stripStart ('*' :: '.' :: rest) ['*']).filter (Text.startsWith · ['.']) =
      some ('.' :: rest) := by
    rw [stripStar_eq_some.mpr rfl]
    rfl
  simp only [hostMatches, suffix]
  rw [if_neg (by simp)]
  rfl

/-- What a host is taken to match: the longest of the star names, the first of them on a tie,
    without the star and with the certificate it is bound to. -/
def starTaken (bindings : List Binding) (host : Str) : Option (Str × SharedKey) :=
  ((wildcardsOf bindings).filter fun entry => wildcardSuffixMatches entry.1 host).argmax
    fun entry => Text.len entry.1

theorem bound_of_starTaken {host : Str} {taken : Str × SharedKey}
    (found : starTaken bindings host = some taken) :
    (∃ b ∈ bindings, b.name = '*' :: taken.1 ∧ b.key = taken.2) ∧
      wildcardSuffixMatches taken.1 host = true := by
  obtain ⟨listed, matched⟩ := List.mem_filter.mp (List.argmax_mem found)
  exact ⟨mem_wildcardsOf.mp listed, matched⟩

theorem starTaken_of_bound {host suffix : Str} (bound : b ∈ bindings)
    (star : b.name = '*' :: suffix) (matched : wildcardSuffixMatches suffix host = true) :
    ∃ taken, starTaken bindings host = some taken ∧ Text.len suffix ≤ Text.len taken.1 := by
  have listed : (suffix, b.key) ∈ (wildcardsOf bindings).filter
      fun entry => wildcardSuffixMatches entry.1 host :=
    List.mem_filter.mpr ⟨mem_wildcardsOf.mpr ⟨b, bound, star, rfl⟩, matched⟩
  cases found : starTaken bindings host with
  | none =>
    rw [starTaken, List.argmax_eq_none] at found
    rw [found] at listed
    cases listed
  | some taken =>
    exact ⟨taken, rfl, List.le_of_mem_argmax (f := fun entry => Text.len entry.1) listed found⟩

theorem wildcardSuffixMatches_eq_true {suffix host : Str} :
    wildcardSuffixMatches suffix host = true ↔
      ∃ label, host = label ++ suffix ∧ label ≠ [] ∧ '.' ∉ label := by
  rw [wildcardSuffixMatches]
  constructor
  · intro matched
    split at matched
    · rename_i label ended
      refine ⟨label, (Text.stripEnd_eq_some.mp ended).symm, ?_⟩
      simpa using matched
    · cases matched
  · rintro ⟨label, rfl, some, plain⟩
    rw [Text.stripEnd_eq_some.mpr rfl]
    simp [some, plain]

/-- Nothing longer than a star name itself is taken to match it. -/
theorem eq_of_matches_star {suffix taken : Str}
    (matched : wildcardSuffixMatches taken ('*' :: suffix) = true)
    (longer : Text.len suffix ≤ Text.len taken) : taken = suffix := by
  obtain ⟨label, same, some, _⟩ := wildcardSuffixMatches_eq_true.mp matched
  cases label with
  | nil => exact absurd rfl some
  | cons c label =>
    rw [List.cons_append] at same
    obtain ⟨_, rfl⟩ := List.cons.inj same
    cases label with
    | nil => rfl
    | cons d label =>
      have size := d.utf8Size_pos
      simp only [Text.len, List.cons_append, List.map_cons, List.map_append, List.sum_cons,
        List.sum_append] at longer
      omega

end

/-! ## Resolving -/

/-- A lookup goes to the exact names, then to the longest suffix that matches, then to the
    default. -/
theorem resolve_order (store : CertStore) (sni : Str) :
    store.order.resolve (some sni) =
      ((store.exact.lookup (Text.toAsciiLowercase sni)).or
        (((store.wildcard.filter fun entry =>
          wildcardSuffixMatches entry.1 (Text.toAsciiLowercase sni)).argmax
            fun entry => Text.len entry.1).map Prod.snd)).or store.default := by
  simp only [resolve, order, Ranking.find?_sortDescending]
  cases store.exact.lookup (Text.toAsciiLowercase sni) with
  | some key => rfl
  | none =>
    cases (store.wildcard.filter fun entry =>
        wildcardSuffixMatches entry.1 (Text.toAsciiLowercase sni)).argmax
          fun entry => Text.len entry.1 <;> rfl

section

variable {entries : List (CertSpec × LoadedCert)} {built : CertStore} {sni : Str}

theorem resolve_of_exact (added : addLoaded .empty none 0 entries = .ok built)
    (plain : Text.stripStart (Text.toAsciiLowercase sni) ['*'] = none) {last : Binding}
    (found : (bindingsFrom 0 entries).reverse.find? (·.name = Text.toAsciiLowercase sni) = some last) :
    built.order.resolve (some sni) = some last.key := by
  rw [resolve_order, addLoaded_eq added, lookup_exactOf plain, found]
  rfl

/-- A name that is bound as no exact name goes to the star names. -/
theorem resolve_of_inexact (added : addLoaded .empty none 0 entries = .ok built)
    (inexact : ∀ b ∈ bindingsFrom 0 entries, b.name = Text.toAsciiLowercase sni →
      ∃ suffix, Text.toAsciiLowercase sni = '*' :: suffix) :
    built.order.resolve (some sni) =
      ((starTaken (bindingsFrom 0 entries) (Text.toAsciiLowercase sni)).map Prod.snd).or
        built.default := by
  have unlisted : built.exact.lookup (Text.toAsciiLowercase sni) = none := by
    rw [addLoaded_eq added]
    cases star : Text.stripStart (Text.toAsciiLowercase sni) ['*'] with
    | some suffix =>
      rw [stripStar_eq_some.mp star]
      exact lookup_exactOf_star ∅
    | none =>
      have absent : (bindingsFrom 0 entries).reverse.find?
          (·.name = Text.toAsciiLowercase sni) = none := by
        rw [List.find?_eq_none]
        intro b listed same
        obtain ⟨suffix, named⟩ := inexact b (List.mem_reverse.mp listed) (by simpa using same)
        rw [stripStar_eq_some.mpr named] at star
        cases star
      simp only [lookup_exactOf star, absent]
      rfl
  have wildcard : built.wildcard = wildcardsOf (bindingsFrom 0 entries) := by
    rw [addLoaded_eq added]
    rfl
  rw [resolve_order, unlisted, wildcard, Option.none_or]
  rfl

theorem resolve_of_bound (added : addLoaded .empty none 0 entries = .ok built)
    (bound : b ∈ bindingsFrom 0 entries) (named : b.name = Text.toAsciiLowercase sni) :
    ∃ b' ∈ bindingsFrom 0 entries, b'.name = Text.toAsciiLowercase sni ∧
      built.order.resolve (some sni) = some b'.key := by
  cases star : Text.stripStart (Text.toAsciiLowercase sni) ['*'] with
  | none =>
    cases found : (bindingsFrom 0 entries).reverse.find? (·.name = Text.toAsciiLowercase sni) with
    | none =>
      have absent := List.find?_eq_none.mp found b (List.mem_reverse.mpr bound)
      simp [named] at absent
    | some last =>
      have same := List.find?_some found
      have listed := List.mem_reverse.mp (List.mem_of_find?_eq_some found)
      exact ⟨last, listed, by simpa using same, resolve_of_exact added star found⟩
  | some suffix =>
    have starred := stripStar_eq_some.mp star
    have itself : wildcardSuffixMatches suffix (Text.toAsciiLowercase sni) = true :=
      wildcardSuffixMatches_eq_true.mpr ⟨['*'], starred, by simp, by simp⟩
    obtain ⟨taken, found, longer⟩ := starTaken_of_bound bound (named.trans starred) itself
    obtain ⟨⟨b', bound', named', key⟩, matched⟩ := bound_of_starTaken found
    have same := eq_of_matches_star (starred ▸ matched) longer
    refine ⟨b', bound', by rw [named', same, starred], ?_⟩
    rw [resolve_of_inexact added fun _ _ _ => ⟨suffix, starred⟩, found, key]
    rfl

end

/-! ## By entry -/

theorem defaultFrom_eq_some {index : Nat}
    {found : SharedKey × Int} (default : defaultFrom index entries = some found) :
    ∃ i spec loaded, entries[i]? = some (spec, loaded) ∧ spec.default = true ∧
      found = (⟨index + i, loaded.certifiedKey⟩, loaded.notAfterUnix) := by
  induction entries generalizing index with
  | nil => cases default
  | cons entry rest ih =>
    obtain ⟨spec, loaded⟩ := entry
    rw [defaultFrom] at default
    split at default
    · rename_i flagged
      exact ⟨0, spec, loaded, rfl, flagged, (Option.some.inj default).symm⟩
    · obtain ⟨i, spec', loaded', listed, flagged, rfl⟩ := ih default
      refine ⟨i + 1, spec', loaded', listed, flagged, ?_⟩
      rw [show index + (i + 1) = index + 1 + i by omega]

theorem defaultFrom_eq_none {index : Nat} :
    defaultFrom index entries = none ↔ ∀ entry ∈ entries, entry.1.default = false := by
  induction entries generalizing index with
  | nil => simp [defaultFrom]
  | cons entry rest ih =>
    obtain ⟨spec, loaded⟩ := entry
    rw [defaultFrom, List.forall_mem_cons]
    cases spec.default <;> simp [ih]

end CertStore

/-- An entry has a name, whatever its case. -/
def CertSpec.HasName (spec : CertSpec) (name : Str) : Prop :=
  ∃ sni ∈ spec.sni, Text.eqIgnoreAsciiCase sni name = true

/-- An entry has a wildcard name that covers this one, by the rule of routes. -/
def CertSpec.Covers (spec : CertSpec) (name : Str) : Prop :=
  ∃ sni ∈ spec.sni, (∃ suffix, sni = '*' :: '.' :: suffix) ∧
    hostMatches (Text.toAsciiLowercase sni) (Text.toAsciiLowercase name) = true

/-- A star is only written where a dot follows. -/
def CertSpec.WellNamed (spec : CertSpec) : Prop :=
  ∀ sni ∈ spec.sni, ∀ rest, sni = '*' :: rest → ∃ suffix, rest = '.' :: suffix

def KeyOf (entries : List (CertSpec × LoadedCert)) (key : SharedKey) (spec : CertSpec) : Prop :=
  ∃ loaded, entries[key.entry]? = some (spec, loaded) ∧ key.key = loaded.certifiedKey

/-- What a store of these entries resolves a name to: the certificate of an entry that has the
    name, or else of one that covers it, or else of the default. -/
structure ResolvesByName (entries : List (CertSpec × LoadedCert)) (store : CertStore) (name : Str) :
    Prop where
  exact : (∃ entry ∈ entries, entry.1.HasName name) →
    ∃ key spec, store.resolve (some name) = some key ∧ KeyOf entries key spec ∧ spec.HasName name
  wildcard : (¬ ∃ entry ∈ entries, entry.1.HasName name) → (∃ entry ∈ entries, entry.1.Covers name) →
    ∃ key spec, store.resolve (some name) = some key ∧ KeyOf entries key spec ∧ spec.Covers name
  default : (¬ ∃ entry ∈ entries, entry.1.HasName name) →
    (¬ ∃ entry ∈ entries, entry.1.Covers name) →
    (∃ key spec, store.resolve (some name) = some key ∧ KeyOf entries key spec ∧
      spec.default = true) ∨
    (store.resolve (some name) = none ∧ ∀ entry ∈ entries, entry.1.default = false)
  covered : ∀ key, store.resolve (some name) = some key → ∃ spec, KeyOf entries key spec ∧
    (spec.HasName name ∨ spec.Covers name ∨ spec.default = true)

namespace CertStore

section

variable {entries : List (CertSpec × LoadedCert)} {built : CertStore}

theorem keyOf_of_mem (bound : b ∈ bindingsFrom 0 entries) :
    ∃ spec, KeyOf entries b.key spec ∧ ∃ sni ∈ spec.sni, b.name = Text.toAsciiLowercase sni := by
  obtain ⟨i, spec, loaded, listed, sni, named, rfl⟩ := mem_bindingsFrom.mp bound
  exact ⟨spec, ⟨loaded, by simpa using listed, rfl⟩, sni, named, rfl⟩

theorem bound_of_mem {entry : CertSpec × LoadedCert} (listed : entry ∈ entries) {sni : Str}
    (named : sni ∈ entry.1.sni) :
    ∃ b ∈ bindingsFrom 0 entries, b.name = Text.toAsciiLowercase sni := by
  obtain ⟨i, found⟩ := List.getElem?_of_mem listed
  exact ⟨_, mem_bindingsFrom.mpr ⟨i, entry.1, entry.2, found, sni, named, rfl⟩, rfl⟩

theorem star_of_lowercase {sni suffix : Str} (star : Text.toAsciiLowercase sni = '*' :: suffix) :
    ∃ rest, sni = '*' :: rest ∧ suffix = Text.toAsciiLowercase rest := by
  cases sni with
  | nil => cases star
  | cons c rest =>
    simp only [Text.toAsciiLowercase, List.map_cons, List.cons.injEq] at star
    obtain ⟨first, rfl⟩ := star
    exact ⟨rest, by rw [(Text.toLower_eq_iff (by decide)).mp first], rfl⟩

theorem default_eq (added : addLoaded .empty none 0 entries = .ok built) :
    built.default = (defaultFrom 0 entries).map Prod.fst := by
  rw [addLoaded_eq added]
  exact Option.or_none

theorem default_cases (added : addLoaded .empty none 0 entries = .ok built) :
    (∃ key spec, built.default = some key ∧ KeyOf entries key spec ∧ spec.default = true) ∨
      (built.default = none ∧ ∀ entry ∈ entries, entry.1.default = false) := by
  rw [default_eq added]
  cases found : defaultFrom 0 entries with
  | none => exact .inr ⟨rfl, defaultFrom_eq_none.mp found⟩
  | some default =>
    obtain ⟨i, spec, loaded, listed, flagged, rfl⟩ := defaultFrom_eq_some found
    exact .inl ⟨_, spec, rfl, ⟨loaded, by simpa using listed, rfl⟩, flagged⟩

theorem mem_of_keyOf {key : SharedKey} {spec : CertSpec} (keyOf : KeyOf entries key spec) :
    ∃ entry ∈ entries, entry.1 = spec := by
  obtain ⟨loaded, listed, _⟩ := keyOf
  exact ⟨_, List.mem_of_getElem? listed, rfl⟩

theorem hasName_of_mem (bound : b ∈ bindingsFrom 0 entries)
    (named : b.name = Text.toAsciiLowercase name) :
    ∃ spec, KeyOf entries b.key spec ∧ spec.HasName name := by
  obtain ⟨spec, key, sni, member, same⟩ := keyOf_of_mem bound
  refine ⟨spec, key, sni, member, ?_⟩
  rw [Text.eqIgnoreAsciiCase, ← same, named]
  exact beq_self_eq_true _

theorem matches_of_covers (covered : ∃ entry ∈ entries, entry.1.Covers name) :
    ∃ b ∈ bindingsFrom 0 entries, ∃ suffix, b.name = '*' :: suffix ∧
      wildcardSuffixMatches suffix (Text.toAsciiLowercase name) = true := by
  obtain ⟨entry, listed, sni, member, ⟨suffix, rfl⟩, matched⟩ := covered
  obtain ⟨b, bound, same⟩ := bound_of_mem listed member
  exact ⟨b, bound, '.' :: Text.toAsciiLowercase suffix, same,
    (wildcardSuffixMatches_eq _ _).trans matched⟩

theorem bound_of_hasName (known : ∃ entry ∈ entries, entry.1.HasName name) :
    ∃ b ∈ bindingsFrom 0 entries, b.name = Text.toAsciiLowercase name := by
  obtain ⟨entry, member, sni, listed, same⟩ := known
  obtain ⟨b, here, lower⟩ := bound_of_mem member listed
  exact ⟨b, here, lower.trans (by simpa [Text.eqIgnoreAsciiCase] using same)⟩

theorem unbound_of_nameless (nameless : ¬ ∃ entry ∈ entries, entry.1.HasName name) :
    ∀ b ∈ bindingsFrom 0 entries, b.name ≠ Text.toAsciiLowercase name := by
  intro b bound same
  obtain ⟨spec, key, hasName⟩ := hasName_of_mem bound same
  obtain ⟨entry, member, rfl⟩ := mem_of_keyOf key
  exact nameless ⟨entry, member, hasName⟩

theorem resolve_hasName (added : addLoaded .empty none 0 entries = .ok built)
    (known : ∃ entry ∈ entries, entry.1.HasName name) :
    ∃ key spec, built.order.resolve (some name) = some key ∧ KeyOf entries key spec ∧
      spec.HasName name := by
  obtain ⟨b, bound, same⟩ := bound_of_hasName known
  obtain ⟨b', bound', same', resolved⟩ := resolve_of_bound added bound same
  obtain ⟨spec, key, hasName⟩ := hasName_of_mem bound' same'
  exact ⟨b'.key, spec, resolved, key, hasName⟩

theorem resolve_nameless (added : addLoaded .empty none 0 entries = .ok built)
    (nameless : ¬ ∃ entry ∈ entries, entry.1.HasName name) :
    built.order.resolve (some name) =
      ((starTaken (bindingsFrom 0 entries) (Text.toAsciiLowercase name)).map Prod.snd).or
        built.default :=
  resolve_of_inexact added fun b bound same => absurd same (unbound_of_nameless nameless b bound)

/-- The star name that a name is taken to match is of an entry that covers it, or, when no entry
    does, of the default. -/
def RightlyTaken (entries : List (CertSpec × LoadedCert)) (name : Str) : Prop :=
  ∀ taken, starTaken (bindingsFrom 0 entries) (Text.toAsciiLowercase name) = some taken →
    ∃ spec, KeyOf entries taken.2 spec ∧ (spec.Covers name ∨
      (¬ ∃ entry ∈ entries, entry.1.Covers name) ∧ spec.default = true)

theorem resolve_covers (added : addLoaded .empty none 0 entries = .ok built)
    (right : RightlyTaken entries name) (nameless : ¬ ∃ entry ∈ entries, entry.1.HasName name)
    (covered : ∃ entry ∈ entries, entry.1.Covers name) :
    ∃ key spec, built.order.resolve (some name) = some key ∧ KeyOf entries key spec ∧
      spec.Covers name := by
  obtain ⟨b, bound, suffix, star, matched⟩ := matches_of_covers covered
  obtain ⟨taken, found, _⟩ := starTaken_of_bound bound star matched
  obtain ⟨spec, keyOf, covers | ⟨uncovered, _⟩⟩ := right taken found
  · refine ⟨taken.2, spec, ?_, keyOf, covers⟩
    rw [resolve_nameless added nameless, found]
    rfl
  · exact absurd covered uncovered

theorem resolve_uncovered (added : addLoaded .empty none 0 entries = .ok built)
    (right : RightlyTaken entries name) (nameless : ¬ ∃ entry ∈ entries, entry.1.HasName name)
    (uncovered : ¬ ∃ entry ∈ entries, entry.1.Covers name) :
    (∃ key spec, built.order.resolve (some name) = some key ∧ KeyOf entries key spec ∧
      spec.default = true) ∨
    (built.order.resolve (some name) = none ∧ ∀ entry ∈ entries, entry.1.default = false) := by
  rw [resolve_nameless added nameless]
  cases found : starTaken (bindingsFrom 0 entries) (Text.toAsciiLowercase name) with
  | none => exact default_cases added
  | some taken =>
    obtain ⟨spec, keyOf, covers | ⟨_, flagged⟩⟩ := right taken found
    · obtain ⟨entry, member, rfl⟩ := mem_of_keyOf keyOf
      exact absurd ⟨entry, member, covers⟩ uncovered
    · exact .inl ⟨taken.2, spec, rfl, keyOf, flagged⟩

/-- Stars with a dot behind them are taken rightly. -/
theorem rightlyTaken_of_wellNamed (named : ∀ entry ∈ entries, entry.1.WellNamed) (name : Str) :
    RightlyTaken entries name := by
  intro taken found
  obtain ⟨⟨b, bound, star, key⟩, matched⟩ := bound_of_starTaken found
  obtain ⟨spec, keyOf, sni, member, same⟩ := keyOf_of_mem bound
  obtain ⟨rest, rfl, suffix⟩ := star_of_lowercase (same.symm.trans star)
  obtain ⟨entry, listed, rfl⟩ := mem_of_keyOf keyOf
  obtain ⟨tail, rfl⟩ := named entry listed _ member rest rfl
  refine ⟨entry.1, key ▸ keyOf, .inl ⟨_, member, ⟨tail, rfl⟩, ?_⟩⟩
  rw [suffix] at matched
  exact (wildcardSuffixMatches_eq _ _).symm.trans matched

/-- A name resolves as it should if an entry has it, or it is taken to match a star name rightly,
    and only then. -/
theorem resolvesByName_iff (added : addLoaded .empty none 0 entries = .ok built) (name : Str) :
    ResolvesByName entries built.order name ↔
      (∃ entry ∈ entries, entry.1.HasName name) ∨ RightlyTaken entries name := by
  constructor
  · intro resolves
    refine or_iff_not_imp_left.mpr fun nameless taken found => ?_
    have resolved : built.order.resolve (some name) = some taken.2 := by
      rw [resolve_nameless added nameless, found]
      rfl
    by_cases covered : ∃ entry ∈ entries, entry.1.Covers name
    · obtain ⟨key, spec, served, keyOf, covers⟩ := resolves.wildcard nameless covered
      cases resolved.symm.trans served
      exact ⟨spec, keyOf, .inl covers⟩
    · obtain ⟨key, spec, served, keyOf, flagged⟩ | ⟨unserved, _⟩ :=
        resolves.default nameless covered
      · cases resolved.symm.trans served
        exact ⟨spec, keyOf, .inr ⟨covered, flagged⟩⟩
      · cases resolved.symm.trans unserved
  · intro right
    have taken (nameless : ¬ ∃ entry ∈ entries, entry.1.HasName name) := right.resolve_left nameless
    refine ⟨resolve_hasName added, fun nameless => resolve_covers added (taken nameless) nameless,
      fun nameless => resolve_uncovered added (taken nameless) nameless, ?_⟩
    intro key found
    by_cases known : ∃ entry ∈ entries, entry.1.HasName name
    · obtain ⟨key', spec, resolved, keyOf, hasName⟩ := resolve_hasName added known
      cases found.symm.trans resolved
      exact ⟨spec, keyOf, .inl hasName⟩
    by_cases covered : ∃ entry ∈ entries, entry.1.Covers name
    · obtain ⟨key', spec, resolved, keyOf, covers⟩ :=
        resolve_covers added (taken known) known covered
      cases found.symm.trans resolved
      exact ⟨spec, keyOf, .inr (.inl covers)⟩
    obtain ⟨key', spec, resolved, keyOf, flagged⟩ | ⟨unset, _⟩ :=
      resolve_uncovered added (taken known) known covered
    · cases found.symm.trans resolved
      exact ⟨spec, keyOf, .inr (.inr flagged)⟩
    · cases found.symm.trans unset

end

end CertStore

end Gfe
