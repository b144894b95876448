import Wisphive.CodexPlugins

/-! The whole audit of the Codex hooks before a managed spawn, with the snapshot of what it read, and
the check around the spawn that the snapshot still holds. -/

namespace Wisphive
open Foundation

/-- What the verdict of an audit rests on. -/
structure AuditSnapshot (Digest : Type) where
  files : AuditLog Digest
  pluginHooks : PluginHookInventory
  enabledPlugins : List EnabledCodexPlugin
  userConfigScan : Option CodexConfigScan
  pluginLoadingEnabled : Option Bool

/-- The worklist of the layers, with the scan of the user's own configuration. -/
structure LayerScan where
  layers : LayerAudit
  userConfigScan : Option CodexConfigScan := none

namespace CodexHost
variable {Digest : Type} (host : CodexHost Digest)

/-- The layers are judged by their texts and places only. -/
def layerSetup : CodexSetup where
  parse := host.parseToml
  files := []
  project := host.project
  codexHome := host.codexHome
  hookFiles := .ok {}
  pluginHooks _ _ := .ok []

def refusing (message : String) : String :=
  host.layerSetup.refusing message

/-! ### Hook files -/

def installerHookBinaryPath (files : CodexFiles) : String :=
  match host.exeDir with
  | none => "wisphive-hook"
  | some directory =>
    let hook := CodexSetup.join directory "wisphive-hook"
    if files.holds hook then hook else "wisphive-hook"

def inspection (files : CodexFiles) : HookInspection where
  kind := .codex
  expected := HookSettings.expectedHookCommand .codex (host.installerHookBinaryPath files)
  daemonHookTimeoutSecs := host.daemonHookTimeoutSecs

def inspectHookValue (path : String) (settings : Json) (files : CodexFiles) : Except String HookVerdict :=
  HookSettings.inspectHookValue (host.inspection files) path settings

def inspectHookContent (path content : String) (files : CodexFiles) : Except String HookVerdict :=
  match host.parseJson content with
  | .error reason => .error ("invalid JSON in " ++ path ++ ": " ++ reason)
  | .ok settings => host.inspectHookValue path settings files

/-- What a further source adds: its foreign hooks, under its label. -/
def addForeign (verdict : HookVerdict) (label : String) (source : HookVerdict) : HookVerdict :=
  { verdict with
    foreignHooks := CodexSetup.addNew verdict.foreignHooks (source.foreignHooks.map (label ++ ": " ++ ·)) }

def orMissing (content : Option String) (message : String) : CodexRecording Digest String :=
  match content with
  | some text => pure text
  | none => Recording.fail (.refused message)

/-- The project's own hooks, among which the gate has to be. -/
def projectHooks : CodexRecording Digest HookVerdict := do
  let path := HookSettingsKind.settingsPath host.project .codex
  let verdict ← Recording.relabel (AuditHalt.rename fun reason => host.refusing ("project hook validation failed (" ++
    reason ++ "). Run `wisphive hooks install --project " ++ host.project ++ "` first.")) do
      let content ← host.recordRead path
      let text ← orMissing content ("cannot read " ++ path)
      answered (host.inspectHookContent path text)
  pure { verdict with foreignHooks := verdict.foreignHooks.map (path ++ ": " ++ ·) }

def userHooks (verdict : HookVerdict) : CodexRecording Digest HookVerdict := do
  let path := CodexSetup.join host.codexHome "hooks.json"
  match ← host.recordRead path with
  | none => pure verdict
  | some content =>
    let user ← Recording.relabel (AuditHalt.rename fun reason => host.refusing ("user-level hook validation failed (" ++
      reason ++ "); the effective hook inventory cannot be positively confirmed")) (answered (host.inspectHookContent path content))
    pure (addForeign verdict path user)

/-! ### Configuration layers -/

/-- What one scanned layer adds to the worklist. -/
def absorbLayer (gateKeys : List String) (path : String) (scan : CodexConfigScan) (state : LayerScan) :
    Except String LayerScan := do
  let setup := host.layerSetup
  let recorded := setup.recordPlugins state.layers path scan
  setup.judge gateKeys path scan
  .ok
    { layers :=
        { recorded with
          foreignHooks := CodexSetup.addNew state.layers.foreignHooks scan.foreignSources
          configLayers := CodexSetup.addNew state.layers.configLayers (scan.activeProfile.map setup.profileLayer).toList }
      userConfigScan := if path = setup.userConfigPath then some scan else state.userConfigScan }

def scanLayer (path content : String) : Except String CodexConfigScan :=
  host.layerSetup.scanCodexConfigToml path content (path = host.layerSetup.userConfigPath)

def auditLayer (gateKeys : List String) (state : LayerScan) (path : String) : CodexRecording Digest LayerScan := do
  match ← Recording.relabel (AuditHalt.rename host.refusing) (host.recordRead path) with
  | none => pure state
  | some content =>
    let scan ← Recording.relabel (AuditHalt.rename host.refusing) (orHalt (host.scanLayer path content))
    orHalt (host.absorbLayer gateKeys path scan state)

/-- The layers from an index on. -/
def auditLayers (gateKeys : List String) : Nat → Nat → LayerScan → CodexRecording Digest LayerScan
  | fuel, index, state =>
    match state.layers.configLayers[index]? with
    | none => pure state
    | some path =>
      match fuel with
      | 0 => Recording.fail .unfinished
      | fuel + 1 => do
        let next ← host.auditLayer gateKeys state path
        auditLayers gateKeys fuel (index + 1) next

/-! ### Plugins -/

def pluginLoading (layers : LayerAudit) : Bool :=
  ((layers.projectPluginsFeature.or layers.profilePluginsFeature).or layers.userPluginsFeature).getD true

/-- Where plugins are not loaded, none is enabled. -/
def loadedPlugins (loading : Bool) (configured : List (String × Option Bool)) : Except String (List EnabledCodexPlugin) :=
  if loading then host.enabledCodexPlugins configured else .ok []

def pluginFile (verdict : HookVerdict) (path : String) : CodexRecording Digest HookVerdict := do
  let content ← Recording.relabel (AuditHalt.rename fun reason => host.refusing ("cannot audit plugin hooks (" ++ reason ++ ")")) do
    let content ← host.recordRead path
    orMissing content ("plugin hook file " ++ path ++ " disappeared while being audited")
  let plugin ← Recording.relabel (AuditHalt.rename fun reason => host.refusing ("plugin hook file " ++ path ++
    " failed validation (" ++ reason ++ "); the effective hook inventory cannot be positively confirmed"))
      (answered (host.inspectHookContent path content))
  pure (addForeign verdict path plugin)

def inlinePlugin (verdict : HookVerdict) (hook : InlinePluginHook) : CodexRecording Digest HookVerdict := do
  let plugin ← Recording.relabel (AuditHalt.rename fun reason => host.refusing ("inline plugin hook " ++ hook.label ++
    " failed validation (" ++ reason ++ "); the effective hook inventory cannot be positively confirmed"))
      (answered (host.inspectHookValue hook.manifestPath hook.settings))
  pure (addForeign verdict hook.label plugin)

/-! ### The audit -/

/-- What is known before the plugins: the verdict so far, the scans, and the enabled plugins. -/
structure Configured where
  verdict : HookVerdict
  scans : LayerScan
  enabled : List EnabledCodexPlugin

def auditConfiguration (fuel : Nat) : CodexRecording Digest Configured := do
  let project ← host.projectHooks
  let verdict ← host.userHooks project
  let gateKeys := host.layerSetup.gateStateKeys project.gateLocations
  let scans ← host.auditLayers gateKeys fuel 0
    { layers := { configLayers := host.layerSetup.baseLayers, foreignHooks := verdict.foreignHooks } }
  let enabled ← Recording.relabel (AuditHalt.rename fun reason => host.refusing ("cannot resolve enabled plugins (" ++ reason ++ ")"))
    (orHalt (host.loadedPlugins (pluginLoading scans.layers) scans.layers.configuredPlugins))
  pure { verdict := { verdict with foreignHooks := scans.layers.foreignHooks }, scans, enabled }

def auditPlugins (inventory : PluginHookInventory) (verdict : HookVerdict) : CodexRecording Digest HookVerdict := do
  let verdict ← inventory.files.foldlM host.pluginFile verdict
  inventory.inline.foldlM host.inlinePlugin verdict

def snapshotOf (configured : Configured) (inventory : PluginHookInventory) (log : AuditLog Digest) : AuditSnapshot Digest where
  files := log
  pluginHooks := inventory
  enabledPlugins := configured.enabled
  userConfigScan := configured.scans.userConfigScan
  pluginLoadingEnabled := some (pluginLoading configured.scans.layers)

/-- The verdict on what a child would load, with the snapshot of it. -/
def auditCodexEffectiveHooks (fuel : Nat) (files : CodexFiles) : Except AuditHalt (HookVerdict × AuditSnapshot Digest) := do
  let (configured, log) ← host.auditConfiguration fuel files []
  let (inventory, log) ← Recording.relabel (AuditHalt.rename fun reason =>
    host.refusing ("cannot audit plugin hooks (" ++ reason ++ ")")) (host.collectPluginHooks host.codexHome configured.enabled) files log
  let (verdict, log) ← host.auditPlugins inventory configured.verdict files log
  .ok (verdict, snapshotOf configured inventory log)

/-! ### The check around the spawn -/

variable [DecidableEq Digest]

def staleFile (path : String) : String :=
  path ++ " no longer matches the bytes recorded by the hook-inventory audit (concurrent modification or tampering); " ++
    "the verdict is stale — retry the spawn"

def currentDigest (files : CodexFiles) (path : String) : Except AuditHalt (Option Digest) :=
  match files.read path with
  | .found bytes => .ok (some (host.sha256 bytes))
  | .absent _ => .ok none
  | .failed reason => .error (.refused ("cannot re-read audited hook file " ++ path ++ ": " ++ reason))

def checkFile (files : CodexFiles) (entry : String × Option Digest) : Except AuditHalt Unit := do
  let current ← host.currentDigest files entry.1
  if current = entry.2 then .ok () else .error (.refused (staleFile entry.1))

def rescan (path : String) : CodexRecording Digest (Option CodexConfigScan) := do
  match ← host.recordRead path with
  | none => pure none
  | some content =>
    let scan ← orHalt (host.layerSetup.scanCodexConfigToml path content true)
    pure (some scan)

/-- A difference means that the verdict is stale. -/
def expectSame {α : Type} [DecidableEq α] (current audited : α) (message : String) : CodexRecording Digest Unit :=
  if current = audited then pure ()
  else Recording.fail (.refused (message ++ " no longer matches the hook-inventory audit; the verdict is stale — retry the spawn"))

/-- The user's configuration and the plugins are walked again, with a log of their own. -/
def rewalk (snapshot : AuditSnapshot Digest) (home : String) : CodexRecording Digest Unit := do
  let path := CodexSetup.join home "config.toml"
  let scan ← host.rescan path
  expectSame scan snapshot.userConfigScan ("the hook-relevant Codex user configuration in " ++ path)
  let plugins ← orHalt (host.loadedPlugins (snapshot.pluginLoadingEnabled.getD true) ((scan.map (·.plugins)).getD []))
  expectSame plugins snapshot.enabledPlugins ("the enabled Codex plugin set from " ++ path)
  let inventory ← host.collectPluginHooks home plugins
  expectSame inventory snapshot.pluginHooks
    ("the enabled Codex plugin hook inventory under " ++ CodexSetup.join home "plugins/cache")

def verifyUnchanged (snapshot : AuditSnapshot Digest) (codexHome : Option String) (files : CodexFiles) : Except AuditHalt Unit := do
  snapshot.files.forM (host.checkFile files)
  match codexHome with
  | none => .ok ()
  | some home => do
    let _ ← host.rewalk snapshot home files []
    .ok ()

end CodexHost
end Wisphive
