import Gfe.Config.Serde
import Gfe.Reload.Apply

/-! # The last-known-good cache

The cache is a config file like any other: the config that was applied, written as
JSON, and read with the loader. Only the text of JSON values is taken from elsewhere.
-/

namespace Gfe

open Interleaving Json

/-- What reads and writes the text of JSON values. -/
structure JsonText where
  parse : Str → Option Value
  print : Value → Bytes

/-- The third-party code, with configs as the JSON values they are read from and
    written as. -/
def Crates.withJson (crates : Crates) (json : JsonText) : Crates :=
  { crates with
    configFromJson := fun text => (json.parse text).bind DynamicConfig.deserialize
    configToJson := fun config => some (json.print config.serialize) }

def Crates.RoundTrips (crates : Crates) (json : JsonText) (value : Value) : Prop :=
  ∃ text, crates.utf8 (json.print value) = some text ∧ json.parse text = some value

variable {crates : Crates} {json : JsonText}

theorem parseConfig_eq_ok {path : Path} {content : Except IoError Bytes} {config : DynamicConfig} :
    parseConfig (crates.withJson json) path content = .ok config ↔
      ∃ bytes text value, content = .ok bytes ∧ crates.utf8 bytes = some text ∧
        json.parse text = some value ∧ DynamicConfig.deserialize value = some config := by
  cases content with
  | error error => simp [parseConfig]
  | ok bytes =>
    cases decoded : crates.utf8 bytes with
    | none => simp [parseConfig, Crates.withJson, decoded]
    | some text =>
      cases parsed : json.parse text with
      | none => simp [parseConfig, Crates.withJson, decoded, parsed]
      | some value =>
        cases read : DynamicConfig.deserialize value with
        | none | some => simp [parseConfig, Crates.withJson, decoded, parsed, read]

theorem exec_loadDynamicConfig (crates : Crates) (path : Path) (w : World) :
    (loadDynamicConfig crates path).exec w = (parseConfig crates path (w.host.file path).content,
      w.setJournal fun j => { j with configReadAt := j.now }) :=
  rfl

theorem exec_loadCache (crates : Crates) (path : Path) (w : World) :
    (loadCache crates path).exec w = (parseConfig crates path w.host.cache, w) :=
  rfl

theorem cache_of_written {config : DynamicConfig} {w w' : World}
    (written : (writeCacheFile (crates.withJson json) config).run w = (.ok (), w')) :
    w'.host.cache = .ok (json.print config.serialize) := by
  simp only [writeCacheFile, Crates.withJson, Program.run_exchange] at written
  split at written
  · cases written
  · cases written
    rfl

/-- A config that was loaded, written as the cache and loaded from there is the config it
    was; and a duration that was read, written and read again is the duration it was. -/
theorem cached_config_is_loaded (crates : Crates) (json : JsonText) :
    (∀ path cache config v v' w w',
      (loadDynamicConfig (crates.withJson json) path).exec v = (.ok config, v') →
      crates.RoundTrips json config.serialize →
      (writeCacheFile (crates.withJson json) config).run w = (.ok (), w') →
      (loadCache (crates.withJson json) cache).exec w' = (.ok config, w')) ∧
    ∀ s duration, parseDuration s = .ok duration →
      parseDuration (serializeDuration duration) = .ok duration := by
  constructor
  · intro path cache config v v' w w' loaded trips written
    rw [exec_loadDynamicConfig] at loaded
    obtain ⟨_, _, value, _, _, _, read⟩ := parseConfig_eq_ok.mp (congrArg Prod.fst loaded)
    have units : config.InUnits := DynamicConfig.yields value config read
    have back : DynamicConfig.deserialize config.serialize = some config := DynamicConfig.readsBack units
    obtain ⟨text, decoded, parsed⟩ := trips
    have given : parseConfig (crates.withJson json) cache w'.host.cache = .ok config :=
      parseConfig_eq_ok.mpr ⟨_, text, _, cache_of_written written, decoded, parsed, back⟩
    rw [exec_loadCache, given]
  · intro s duration read
    exact parseDuration_serializeDuration (inUnits_of_parseDuration read)

/-! ## A pool with a check of its own -/

/-- JSON in lines, as `to_vec_pretty` writes it. -/
def jsonInLines : JsonText := ⟨Json.parse, fun value => Text.utf8 (value.print 0)⟩

/-- What is in the config file: a pool without backends, checked every `1000ms`. -/
def slowCheck : Str :=
  "\x7b\"pools\": [\x7b\"upstreams\": [], \"id\": \"p\",
    \"health_check\": \x7b\"interval\": \" 1000ms\"\x7d\x7d]\x7d".toList

/-- What it is read as. -/
def checkedSlowly : DynamicConfig :=
  ⟨[], [], [], [⟨⟨['p']⟩, .http, .roundRobin, [], some { HealthCheckConfig.standard with
    interval := 1000000000 }, none, none⟩]⟩

def slowCheckFile : World :=
  .starting (.small [(⟨['c']⟩, ⟨none, .ok (Text.utf8 slowCheck)⟩)] (.error .notFound) []) ∅

set_option maxRecDepth 10000 in
theorem parse_checkedSlowly :
    Json.parse (checkedSlowly.serialize.print 0) = some checkedSlowly.serialize := by
  rfl

/-- It comes back from the cache, where it is checked every `1s`. -/
theorem checked_slowly_is_cached :
    ∃ v' w', (loadDynamicConfig ((Crates.indexed []).withJson jsonInLines) ⟨['c']⟩).exec slowCheckFile =
        (.ok checkedSlowly, v') ∧
      (writeCacheFile ((Crates.indexed []).withJson jsonInLines) checkedSlowly).run v' =
        (.ok (), w') ∧
      (loadCache ((Crates.indexed []).withJson jsonInLines) ⟨['k']⟩).exec w' =
        (.ok checkedSlowly, w') := by
  have given : parseConfig ((Crates.indexed []).withJson jsonInLines) ⟨['c']⟩
      (slowCheckFile.host.file ⟨['c']⟩).content = .ok checkedSlowly := by decide +kernel
  have loaded : (loadDynamicConfig ((Crates.indexed []).withJson jsonInLines) ⟨['c']⟩).exec
      slowCheckFile = (.ok checkedSlowly, slowCheckFile) := by
    rw [exec_loadDynamicConfig, given]
    rfl
  have written : (writeCacheFile ((Crates.indexed []).withJson jsonInLines) checkedSlowly).run
      slowCheckFile = (.ok (), slowCheckFile.setHost fun h =>
        { h with cache := .ok (jsonInLines.print checkedSlowly.serialize) }) := rfl
  have decoded : (Crates.indexed []).utf8 (jsonInLines.print checkedSlowly.serialize) =
      some (checkedSlowly.serialize.print 0) := by decide +kernel
  have trips : (Crates.indexed []).RoundTrips jsonInLines checkedSlowly.serialize :=
    ⟨_, decoded, parse_checkedSlowly⟩
  exact ⟨_, _, loaded, written, (cached_config_is_loaded _ _).1 _ _ _ _ _ _ _ loaded trips written⟩

end Gfe
