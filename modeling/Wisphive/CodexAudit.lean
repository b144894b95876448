import Wisphive.Foundation.Toml
import Wisphive.Types

/-! The audit of the Codex configuration layers before a managed spawn: the scan of one layer,
and the worklist of the layers. Tables are scanned up to a fixed depth. -/

namespace Wisphive
open Foundation

/-- What one layer says about hooks. A persisted state without `enabled` confirms nothing. -/
structure CodexConfigScan where
  hooksFeatureDisabled : Bool := false
  managedHooksOnly : Bool := false
  hookStateEntries : List (String × Option Bool) := []
  foreignSources : List String := []
  activeProfile : Option String := none
  plugins : List (String × Option Bool) := []
  pluginsFeature : Option Bool := none
  deriving DecidableEq, Repr

def maxCodexConfigNestingDepth : Nat := 32

/-- How many tables may be entered, the root included. -/
def codexConfigTables : Nat := maxCodexConfigNestingDepth + 1

namespace CodexConfigScan

def uncertain (file what : String) : String :=
  file ++ " carries " ++ what ++ "; the effective Codex hook inventory cannot be positively confirmed, so the " ++
    "spawn is refused (simplify that configuration, then retry)"

def scanFeatures (file : String) (table : TomlTable) (scan : CodexConfigScan) : Except String CodexConfigScan :=
  match table.lookup "features" with
  | none => .ok scan
  | some (.table features) =>
    if ["hooks", "codex_hooks"].any fun key => (features.lookup key).any fun value => !value.isTrue then
      .ok { scan with hooksFeatureDisabled := true }
    else .ok scan
  | some _ => .error (uncertain file "a non-table `features` value")

def scanStateEntry (file : String) (scan : CodexConfigScan) (entry : String × Toml) : Except String CodexConfigScan :=
  match entry.2 with
  | .table state =>
    match state.lookup "enabled" with
    | none => .ok { scan with hookStateEntries := scan.hookStateEntries ++ [(entry.1, none)] }
    | some (.boolean enabled) =>
      .ok { scan with hookStateEntries := scan.hookStateEntries ++ [(entry.1, some enabled)] }
    | some _ => .error (uncertain file "a non-boolean `hooks.state.*.enabled` value")
  | _ => .error (uncertain file "a non-table `hooks.state` entry")

/-- How a definition under `hooks` is reported. -/
def inlineHooks (file key : String) : String :=
  "<inline [hooks] config `hooks." ++ key ++ "` in " ++ file ++ ">"

def scanHook (file : String) (scan : CodexConfigScan) (entry : String × Toml) : Except String CodexConfigScan :=
  if entry.1 = "state" then
    match entry.2 with
    | .table state => state.foldlM (scanStateEntry file) scan
    | _ => .error (uncertain file "a non-table `hooks.state` value")
  else if inlineHooks file entry.1 ∈ scan.foreignSources then .ok scan
  else .ok { scan with foreignSources := scan.foreignSources ++ [inlineHooks file entry.1] }

def scanHooks (file : String) (table : TomlTable) (scan : CodexConfigScan) : Except String CodexConfigScan :=
  match table.lookup "hooks" with
  | none => .ok scan
  | some (.table hooks) => hooks.foldlM (scanHook file) scan
  | some _ => .error (uncertain file "a non-table `hooks` value")

def validCodexProfileName (profile : String) : Bool :=
  profile ≠ "" && profile.toList.all fun char => char.isAlphanum || char = '_' || char = '-'

/-- A selection replaces the one that was found before it. -/
def scanProfile (file : String) (table : TomlTable) (scan : CodexConfigScan) : Except String CodexConfigScan :=
  match table.lookup "profile" with
  | none => .ok scan
  | some (.string profile) =>
    if validCodexProfileName profile then .ok { scan with activeProfile := some profile }
    else .error (uncertain file ("an invalid `profile` selection (expected a non-empty identifier containing only " ++
      "ASCII letters, digits, `_`, or `-`)"))
  | some _ => .error (uncertain file "a non-string `profile` selection")

def scanProfileTable (file : String) (enter : TomlTable → CodexConfigScan → Except String CodexConfigScan)
    (scan : CodexConfigScan) (entry : String × Toml) : Except String CodexConfigScan :=
  match entry.2 with
  | .table profile => enter profile scan
  | _ => .error (uncertain file "a non-table `profiles` entry")

/-- The document's root, and every profile table as its own root. -/
def scanCodexConfigTable (file : String) : Nat → TomlTable → CodexConfigScan → Except String CodexConfigScan
  | 0, _, _ => .error (uncertain file ("configuration nested beyond the maximum supported depth of " ++
      toString maxCodexConfigNestingDepth ++ " tables"))
  | deeper + 1, table, scan => do
    let scan ← scanFeatures file table scan
    let scan ← scanHooks file table scan
    let scan ← scanProfile file table scan
    match table.lookup "profiles" with
    | none => .ok scan
    | some (.table profiles) => profiles.foldlM (scanProfileTable file (scanCodexConfigTable file deeper)) scan
    | some _ => .error (uncertain file "a non-table `profiles` value")

def unconfirmedPlugins (file what : String) : String :=
  file ++ " carries " ++ what ++ "; the effective Codex plugin hook inventory cannot be positively confirmed, so " ++
    "the spawn is refused"

def scanCodexPluginsFeature (file : String) (root : TomlTable) (scan : CodexConfigScan) :
    Except String CodexConfigScan :=
  match root.lookup "features" with
  | some (.table features) =>
    match features.lookup "plugins" with
    | none => .ok { scan with pluginsFeature := none }
    | some (.boolean enabled) => .ok { scan with pluginsFeature := some enabled }
    | some _ => .error (unconfirmedPlugins file "a non-boolean `features.plugins` value")
  | _ => .ok scan

def scanPlugin (file : String) (scan : CodexConfigScan) (entry : String × Toml) : Except String CodexConfigScan :=
  match entry.2 with
  | .table plugin =>
    match plugin.lookup "enabled" with
    | none => .ok { scan with plugins := scan.plugins ++ [(entry.1, none)] }
    | some (.boolean enabled) => .ok { scan with plugins := scan.plugins ++ [(entry.1, some enabled)] }
    | some _ => .error (unconfirmedPlugins file ("a non-boolean `plugins." ++ entry.1 ++ ".enabled` value"))
  | _ => .error (unconfirmedPlugins file ("a non-table `plugins." ++ entry.1 ++ "` value"))

def scanCodexPluginConfig (file : String) (root : TomlTable) (scan : CodexConfigScan) : Except String CodexConfigScan :=
  match root.lookup "plugins" with
  | none => .ok scan
  | some (.table plugins) => plugins.foldlM (scanPlugin file) scan
  | some _ => .error (unconfirmedPlugins file "a non-table `plugins` value")

def sweepItem (enter : TomlTable → CodexConfigScan → Except String CodexConfigScan) (scan : CodexConfigScan) :
    Toml → Except String CodexConfigScan
  | .table inner => enter inner scan
  | _ => .ok scan

/-- A value other than a plain `false` is noted, and tables and arrays of tables are entered. -/
def sweepEntry (enter : TomlTable → CodexConfigScan → Except String CodexConfigScan) (scan : CodexConfigScan)
    (entry : String × Toml) : Except String CodexConfigScan :=
  let noted :=
    if entry.1 = "allow_managed_hooks_only" ∧ entry.2.isFalse = false then { scan with managedHooksOnly := true }
    else scan
  match entry.2 with
  | .table inner => enter inner noted
  | .array items => items.foldlM (sweepItem enter) noted
  | _ => .ok noted

def sweepManagedHooksOnly (file : String) : Nat → TomlTable → CodexConfigScan → Except String CodexConfigScan
  | 0, _, _ => .error (file ++ " carries configuration nested beyond the maximum supported depth of " ++
      toString maxCodexConfigNestingDepth ++ " tables; `allow_managed_hooks_only` cannot be positively ruled " ++
      "out, so the spawn is refused")
  | deeper + 1, table, scan =>
    table.foldlM (sweepEntry (sweepManagedHooksOnly file deeper)) scan

/-- Only the user's own configuration has plugins. -/
def scanUserPlugins (file : String) (root : TomlTable) (includeUserPlugins : Bool) (scan : CodexConfigScan) :
    Except String CodexConfigScan :=
  if includeUserPlugins then scanCodexPluginConfig file root scan else .ok scan

def scanRoot (file : String) (root : TomlTable) (includeUserPlugins : Bool) : Except String CodexConfigScan := do
  let scan ← scanCodexConfigTable file codexConfigTables root {}
  let scan ← scanCodexPluginsFeature file root scan
  let scan ← scanUserPlugins file root includeUserPlugins scan
  sweepManagedHooksOnly file codexConfigTables root scan

end CodexConfigScan

/-- The project's own hooks and the user's, as the steps before the layers leave them. -/
structure HookSettingsSecurity where
  foreignHooks : List String := []
  gateLocations : List (Nat × Nat) := []
  deriving DecidableEq, Repr

/-- What reading a file gives that exists. -/
inductive CodexFile where
  | text (content : String)
  | notUtf8 (reason : String)
  | unreadable (reason : String)
  deriving DecidableEq, Repr

/-- What the audit rests on: the TOML parser, the files, and its other steps: the hook files of
the project and the user, and those of the plugins. Paths are texts. -/
structure CodexSetup where
  parse : String → Except String TomlTable
  files : List (String × CodexFile)
  project : String
  codexHome : String
  hookFiles : Except String HookSettingsSecurity
  pluginHooks : Bool → List (String × Option Bool) → Except String (List String)

/-- The worklist with what the layers so far have added. -/
structure LayerAudit where
  configLayers : List String
  foreignHooks : List String
  configuredPlugins : List (String × Option Bool) := []
  userPluginsFeature : Option Bool := none
  profilePluginsFeature : Option Bool := none
  projectPluginsFeature : Option Bool := none
  selectedProfilePath : Option String := none
  /-- The paths that were read, each with its content unless it is absent. -/
  files : List (String × Option String) := []
  deriving DecidableEq, Repr

namespace CodexSetup

def join (directory name : String) : String :=
  directory ++ "/" ++ name

variable (setup : CodexSetup)

def userConfigPath : String := join setup.codexHome "config.toml"

def projectConfigPath : String := join (join setup.project ".codex") "config.toml"

def requirementsPath : String := join setup.codexHome "requirements.toml"

def profileLayer (profile : String) : String :=
  join setup.codexHome (profile ++ ".config.toml")

def baseLayers : List String :=
  [setup.userConfigPath, setup.projectConfigPath, setup.requirementsPath]

def projectHooksPath : String := join (join setup.project ".codex") "hooks.json"

def gateStateKeys (locations : List (Nat × Nat)) : List String :=
  locations.map fun (rule, hook) =>
    setup.projectHooksPath ++ ":pre_tool_use:" ++ toString rule ++ ":" ++ toString hook

def readFile (path : String) : Except String (Option String) :=
  match setup.files.lookup path with
  | none => .ok none
  | some (.text content) => .ok (some content)
  | some (.notUtf8 reason) => .error (path ++ " is not valid UTF-8: " ++ reason)
  | some (.unreadable reason) => .error ("cannot read " ++ path ++ ": " ++ reason)

def scanCodexConfigToml (path content : String) (includeUserPlugins : Bool) : Except String CodexConfigScan :=
  match setup.parse content with
  | .error err => .error (path ++ " is not valid TOML (" ++ err ++ "); the effective Codex hook inventory cannot be " ++
      "positively confirmed, so the spawn is refused (fix the file, then retry)")
  | .ok root => CodexConfigScan.scanRoot path root includeUserPlugins

/-- An index in a state key: digits, with a plus sign at most, below the word size. -/
def parsesUsize (text : List Char) : Bool :=
  let digits := if text.head? = some '+' then text.tail else text
  digits ≠ [] && digits.all Char.isDigit && digits.foldl (fun value digit => 10 * value + (digit.toNat - 48)) 0 < 2 ^ 64

def stateKeyHasExpectedFormat (key : String) : Bool :=
  match (key.toList.splitOn ':').reverse with
  | hookIndex :: ruleIndex :: event :: source :: others =>
    let path : PathBuf := ⟨String.ofList ([':'].intercalate (source :: others).reverse)⟩
    path.components.1 && path.components.2.getLast? = some "hooks.json".toList && event ≠ [] &&
      event.all (fun char => char.isLower || char.isDigit || char = '_') && parsesUsize ruleIndex && parsesUsize hookIndex
  | _ => false

def refusing (message : String) : String :=
  "refusing to spawn Codex into " ++ setup.project ++ ": " ++ message

/-- The refusals that a scan alone decides. -/
def judge (gateKeys : List String) (path : String) (scan : CodexConfigScan) : Except String Unit :=
  if scan.hooksFeatureDisabled then
    .error (setup.refusing ("Codex hooks are disabled (the effective `features.hooks` / deprecated " ++
      "`features.codex_hooks` value is not `true`) via " ++ path ++ " — the Wisphive PreToolUse gate would not " ++
      "run, so the agent would be ungated. Re-enable hooks (`codex features enable hooks` or remove the " ++
      "override), then retry."))
  else if scan.managedHooksOnly then
    .error (setup.refusing (path ++ " sets `allow_managed_hooks_only`, which makes Codex skip " ++
      "user/project/plugin hooks — including the Wisphive PreToolUse gate — so the agent would be ungated."))
  else
    match scan.hookStateEntries.find? fun entry => entry.1 ∈ gateKeys ∧ entry.2 = some false with
    | some (disabled, _) =>
      .error (setup.refusing ("the Wisphive PreToolUse hook is disabled by persisted hook state in " ++ path ++
        " (`hooks.state.\"" ++ disabled ++ "\".enabled = false`) — re-enable it via /hooks in Codex, then retry."))
    | none =>
      match scan.hookStateEntries.find? fun entry => entry.1 ∈ gateKeys ∧ entry.2 = none with
      | some (unconfirmed, _) =>
        .error (setup.refusing ("persisted hook state in " ++ path ++ " contains the expected Wisphive gate key `" ++
          unconfirmed ++ "` without `enabled = true`; the gate's enablement cannot be positively confirmed, so the " ++
          "spawn is refused"))
      | none =>
        match scan.hookStateEntries.find? fun entry => !stateKeyHasExpectedFormat entry.1 with
        | some (unmatched, _) =>
          .error (setup.refusing ("persisted hook state in " ++ path ++ " contains the unrecognized key `" ++ unmatched ++
            "`, which does not match the expected absolute hooks.json path / snake_case event / numeric index " ++
            "format; the hooks.state key format cannot be positively confirmed, so the spawn is refused"))
        | none => .ok ()

/-- What a scanned layer adds to the plugin settings. -/
def recordPlugins (state : LayerAudit) (path : String) (scan : CodexConfigScan) : LayerAudit :=
  if path = setup.userConfigPath then
    { state with
      configuredPlugins := scan.plugins
      userPluginsFeature := scan.pluginsFeature
      selectedProfilePath := scan.activeProfile.map setup.profileLayer }
  else if path = setup.projectConfigPath then { state with projectPluginsFeature := scan.pluginsFeature }
  else if state.selectedProfilePath = some path then { state with profilePluginsFeature := scan.pluginsFeature }
  else state

def addNew (known added : List String) : List String :=
  added.foldl (fun known item => if item ∈ known then known else known ++ [item]) known

/-- One layer of the worklist. -/
def auditLayer (gateKeys : List String) (state : LayerAudit) (path : String) : Except String LayerAudit :=
  match setup.readFile path with
  | .error message => .error (setup.refusing message)
  | .ok none => .ok { state with files := state.files ++ [(path, none)] }
  | .ok (some content) =>
    match setup.scanCodexConfigToml path content (path = setup.userConfigPath) with
    | .error message => .error (setup.refusing message)
    | .ok scan =>
      match setup.judge gateKeys path scan with
      | .error message => .error message
      | .ok () =>
        let recorded := setup.recordPlugins state path scan
        .ok { recorded with
          files := state.files ++ [(path, some content)]
          foreignHooks := addNew state.foreignHooks scan.foreignSources
          configLayers := addNew state.configLayers (scan.activeProfile.map setup.profileLayer).toList }

/-- The layers from an index on. Nothing is returned where the fuel does not last. -/
def auditLayers (gateKeys : List String) : Nat → Nat → LayerAudit → Option (Except String LayerAudit)
  | fuel, index, state =>
    match state.configLayers[index]? with
    | none => some (.ok state)
    | some path =>
      match fuel with
      | 0 => none
      | fuel + 1 =>
        match setup.auditLayer gateKeys state path with
        | .error message => some (.error message)
        | .ok next => auditLayers gateKeys fuel (index + 1) next

/-- An accepted inventory: the layers as they were audited, and all foreign hooks. -/
structure Accepted where
  gateKeys : List String
  layers : LayerAudit
  foreignHooks : List String
  deriving DecidableEq, Repr

/-- The hook files, the layers and the plugins, one after the other. -/
def auditCodexEffectiveHooks (fuel : Nat) : Option (Except String Accepted) :=
  match setup.hookFiles with
  | .error message => some (.error message)
  | .ok security =>
    let gateKeys := setup.gateStateKeys security.gateLocations
    (setup.auditLayers gateKeys fuel 0 { configLayers := setup.baseLayers, foreignHooks := security.foreignHooks }).map
      fun audited => audited.bind fun layers =>
        let loading := ((layers.projectPluginsFeature.or layers.profilePluginsFeature).or
          layers.userPluginsFeature).getD true
        (setup.pluginHooks loading layers.configuredPlugins).map fun foreign =>
          { gateKeys, layers, foreignHooks := addNew layers.foreignHooks foreign }

/-- The root, and the tables under `profiles` at any nesting. -/
inductive ProfileOf (table : TomlTable) : TomlTable → Prop where
  | self : ProfileOf table table
  | profile {root profiles name next} (nested : root.lookup "profiles" = some (.table profiles))
      (member : (name, .table next) ∈ profiles) (deeper : ProfileOf table next) : ProfileOf table root

/-- The tables that the sweep enters: those in tables and in arrays of tables. -/
inductive Swept (table : TomlTable) : TomlTable → Prop where
  | self : Swept table table
  | entry {root key next} (member : (key, .table next) ∈ root) (deeper : Swept table next) : Swept table root
  | item {root key items next} (member : (key, .array items) ∈ root) (inside : .table next ∈ items)
      (deeper : Swept table next) : Swept table root

def SetsManagedHooksOnly (table : TomlTable) : Prop :=
  ∃ value, ("allow_managed_hooks_only", value) ∈ table ∧ value ≠ .boolean false

/-- The parsed document of a layer. -/
def document (path : String) : Option TomlTable :=
  match setup.files.lookup path with
  | some (.text content) => (setup.parse content).toOption
  | _ => none

/-- The selection that a table makes itself. -/
def ownSelection (table : TomlTable) : Option String :=
  match table.lookup "profile" with
  | some (.string profile) => some profile
  | _ => none

/-- The base layers, and each layer that a root of these selects. -/
inductive Loaded : String → Prop where
  | base {path} (member : path ∈ setup.baseLayers) : Loaded path
  | selected {path root name} (loaded : Loaded path) (found : setup.document path = some root)
      (selects : ownSelection root = some name) : Loaded (setup.profileLayer name)

/-- The selections of a root and its profile tables, in the order of the scan. -/
def selections : Nat → TomlTable → List String
  | 0, _ => []
  | deeper + 1, table =>
    (ownSelection table).toList ++
    match table.lookup "profiles" with
      | some (.table profiles) => profiles.flatMap fun entry =>
        match entry.2 with
        | .table profile => selections deeper profile
        | _ => []
      | _ => []

/-- The base layers, and each layer that is the last selection of one of these. -/
inductive Followed : String → Prop where
  | base {path} (member : path ∈ setup.baseLayers) : Followed path
  | selected {path root name} (followed : Followed path) (found : setup.document path = some root)
      (last : (selections codexConfigTables root).getLast? = some name) : Followed (setup.profileLayer name)

/-- What an accepted audit promises of every layer that is loaded. -/
structure Covers (accepted : Accepted) : Prop where
  scanned : ∀ path, setup.Loaded path → path ∈ accepted.layers.files.map Prod.fst
  enabled : ∀ path, setup.Loaded path → ∀ root ∈ setup.document path, ∀ table, ProfileOf table root →
    ∀ features, table.lookup "features" = some (.table features) →
      ∀ key ∈ ["hooks", "codex_hooks"], ∀ value, features.lookup key = some value → value = .boolean true
  unmanaged : ∀ path, setup.Loaded path → ∀ root ∈ setup.document path, ∀ table, Toml.Within table (.table root) →
    ¬ SetsManagedHooksOnly table
  gates : ∀ path, setup.Loaded path → ∀ root ∈ setup.document path, ∀ table, ProfileOf table root →
    ∀ hooks state key entry, table.lookup "hooks" = some (.table hooks) → ("state", .table state) ∈ hooks →
      (key, entry) ∈ state → key ∈ accepted.gateKeys →
      ∃ inner, entry = .table inner ∧ inner.lookup "enabled" = some (.boolean true)
  reported : ∀ path, setup.Loaded path → ∀ root ∈ setup.document path, ∀ table, ProfileOf table root →
    ∀ hooks key value, table.lookup "hooks" = some (.table hooks) → (key, value) ∈ hooks → key ≠ "state" →
      CodexConfigScan.inlineHooks path key ∈ accepted.foreignHooks

/-- No selection hides a layer from the worklist, and no array in an array hides a table from the sweep. -/
structure Unhidden : Prop where
  selections : ∀ path, setup.Loaded path → setup.Followed path
  arrays : ∀ path, setup.Loaded path → ∀ root ∈ setup.document path, ∀ table, Toml.Within table (.table root) →
    SetsManagedHooksOnly table → Swept table root

end CodexSetup
end Wisphive
