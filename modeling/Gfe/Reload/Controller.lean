import Gfe.Reload.Apply

/-! # Following the config

The config a node starts from, and the reloads when the config file or a
certificate file changes. All of them run under one lock.
-/

namespace Gfe

open Interleaving

section Reloader

variable (crates : Crates) (settings : NodeConfig)

def setControl (update : Control → Control) : Program World Unit :=
  updateNode fun n => { n with control := update n.control }

def writeCache (config : DynamicConfig) : Program World Unit := do
  if settings.localCache.isSome then
    match ← writeCacheFile crates config with
    | .ok () => pure ()
    | .error error => logLine (.cacheNotWritten error)

def applyDeployed : Fallible World ReloadError DynamicConfig := do
  let config ← Fallible.mapError .config (loadDynamicConfig crates settings.configFile)
  apply crates config
  return config

def applyCached (path : Path) : Fallible World ReloadError DynamicConfig := do
  let config ← Fallible.mapError .config (loadCache crates path)
  apply crates config
  return config

/-- `reload_failed` and `from_cache` after a config was applied. -/
def clearFailure : Program World Unit := do
  setControl fun c => { c with configReloadFailed := 0 }
  setControl fun c => { c with configFromCache := 0 }

/-- From now on changes are applied. -/
def startFollowing : Program World Unit :=
  updateNode fun n => { n with tracked := { n.tracked with following := true } }

def applyInitial : Fallible World ReloadError DynamicConfig := do
  match ← Fallible.attempt (applyDeployed crates settings) with
  | .ok config =>
    writeCache crates settings config
    clearFailure
    startFollowing
    return config
  | .error unusable =>
    let some path := settings.localCache | throw unusable
    logLine (.startingFromCache unusable)
    let config ← Fallible.mapError (.neitherUsable unusable path) (applyCached crates path)
    setControl fun c => { c with configReloadErrors := c.configReloadErrors + 1 }
    setControl fun c => { c with configReloadFailed := 1 }
    setControl fun c => { c with configFromCache := 1 }
    startFollowing
    return config

def reconcile (config : DynamicConfig) : Program World Unit :=
  updateNode fun n => { n with
    checker := n.checker.reconcile (checkedPools config.pools settings.healthCheckDefaults) }

/-- Load the config from disk and apply it; on any failure the running one is
    kept. -/
def reloadLocked : Program World Unit := do
  match ← (applyDeployed crates settings).run with
  | .ok config =>
    reconcile settings config
    writeCache crates settings config
    clearFailure
    logLine .hotReloaded
  | .error error =>
    setControl fun c => { c with configReloadErrors := c.configReloadErrors + 1 }
    setControl fun c => { c with configReloadFailed := 1 }
    logLine (.rejected error)

def reload : Program World Unit := do
  if ← readNode fun n => n.tracked.following then
    reloadLocked crates settings

def reloadIfCertificatesChanged : Program World Unit := do
  let tracked ← readNode Node.tracked
  if !tracked.following then return
  if !(← tracked.certFiles.changedOnDisk) then return
  -- what is on disk now is accepted even if the reload is rejected
  let files ← tracked.certFiles.refresh
  updateNode fun n => { n with tracked := { n.tracked with certFiles := files } }
  logLine .certificatesChanged
  reloadLocked crates settings

end Reloader

end Gfe
