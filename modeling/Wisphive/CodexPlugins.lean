import Mathlib.Data.List.Sort
import Wisphive.Foundation.Recording
import Wisphive.HookSettings
import Wisphive.Redact

/-! The hook sources that the configured Codex plugins contribute: which plugins are enabled, which
of their versions is active, and what its manifest declares. -/

namespace Wisphive
open Foundation

/-- What asking for a path gives. -/
inductive FileReply (α : Type) where
  | found (value : α)
  | absent (reason : String)
  | failed (reason : String)
  deriving DecidableEq, Repr

inductive PathKind where
  | directory
  | file
  | other
  deriving DecidableEq, Repr

/-- One entry of a directory. A name that is no UTF-8 is none. -/
structure DirEntry where
  path : String
  name : Option String
  isDir : Except String Bool

/-- What the operating system answers about each path. Only `linkMetadata` does not follow links. -/
structure CodexFiles where
  read : String → FileReply (List UInt8)
  readDir : String → FileReply (List (Except String DirEntry))
  linkMetadata : String → FileReply Unit
  metadata : String → FileReply PathKind
  canonicalize : String → Except String String

namespace CodexFiles

def holds (files : CodexFiles) (path : String) : Bool :=
  match files.metadata path with
  | .found _ => true
  | _ => false

def isKind (files : CodexFiles) (kind : PathKind) (path : String) : Bool :=
  files.metadata path = .found kind

end CodexFiles

/-- The audit refuses, or its worklist has not come to its end. -/
inductive AuditHalt where
  | refused (message : String)
  | unfinished
  deriving DecidableEq, Repr

def AuditHalt.rename (wording : String → String) : AuditHalt → AuditHalt
  | .refused message => .refused (wording message)
  | .unfinished => .unfinished

/-- What the audit is given besides the files: the parsers, the digest, how texts are quoted, the
places, and the directory of the daemon's executable. -/
structure CodexHost (Digest : Type) where
  parseToml : String → Except String TomlTable
  parseJson : String → Except String Json
  distinct : ∀ text value, parseJson text = .ok value → value.Distinct
  sha256 : List UInt8 → Digest
  utf8Error : List UInt8 → String
  debug : String → String
  project : String
  codexHome : String
  exeDir : Option String
  daemonHookTimeoutSecs : Nat
  /-- `sort_unstable_by` with the comparison of plugin versions. Where that is no order, any listing may come out. -/
  sortVersions : List String → List String

/-- The paths that were read, each with the digest of what was there. -/
abbrev AuditLog (Digest : Type) := List (String × Option Digest)

abbrev CodexRecording (Digest : Type) := Recording CodexFiles (String × Option Digest) AuditHalt

structure EnabledCodexPlugin where
  configKey : String
  pluginName : String
  marketplaceName : String
  deriving DecidableEq, Repr

structure InlinePluginHook where
  manifestPath : String
  index : Nat
  settings : Json
  deriving DecidableEq

def InlinePluginHook.label (hook : InlinePluginHook) : String :=
  hook.manifestPath ++ "#hooks[" ++ toString hook.index ++ "]"

structure PluginHookInventory where
  files : List String := []
  inline : List InlinePluginHook := []
  deriving DecidableEq

namespace CodexHost
variable {Digest : Type} (host : CodexHost Digest)

/-- The file is read once, and what was there is logged. -/
def recordRead (path : String) : CodexRecording Digest (Option String) := fun files log =>
  match files.read path with
  | .found bytes =>
    match String.fromUTF8? ⟨bytes.toArray⟩ with
    | some content => .ok (some content, log ++ [(path, some (host.sha256 bytes))])
    | none => .error (.refused (path ++ " is not valid UTF-8: " ++ host.utf8Error bytes))
  | .absent _ => .ok (none, log ++ [(path, none)])
  | .failed reason => .error (.refused ("cannot read " ++ path ++ ": " ++ reason))

/-- Nothing is asked and nothing is logged. -/
def orHalt {α : Type} (result : Except String α) : CodexRecording Digest α :=
  Recording.ask fun _ => result.mapError .refused

/-! ### Enabled plugins -/

def validCodexPluginSegment (segment : List Char) : Bool :=
  segment ≠ [] && segment.all fun char => char.isAlphanum || char = '-' || char = '_'

/-- Around the last mark. -/
def rsplitOnce (mark : Char) (text : List Char) : Option (List Char × List Char) :=
  (Redact.splitOnce mark text.reverse).map fun halves => (halves.2.reverse, halves.1.reverse)

/-- One plugin for each key, by the keys. -/
def putPlugin (enabled : List EnabledCodexPlugin) (plugin : EnabledCodexPlugin) : List EnabledCodexPlugin :=
  (enabled.filter (·.configKey ≠ plugin.configKey)).orderedInsert (·.configKey ≤ ·.configKey) plugin

def enableCodexPlugin (enabled : List EnabledCodexPlugin) (entry : String × Option Bool) :
    Except String (List EnabledCodexPlugin) :=
  if entry.2 = some false then .ok enabled
  else
    match rsplitOnce '@' entry.1.toList with
    | none =>
      .error ("invalid enabled Codex plugin key " ++ host.debug entry.1 ++ "; expected `<plugin>@<marketplace>`, so the " ++
        "plugin hook inventory cannot be positively confirmed")
    | some (pluginName, marketplaceName) =>
      if validCodexPluginSegment pluginName && validCodexPluginSegment marketplaceName then
        .ok (putPlugin enabled
          { configKey := entry.1
            pluginName := String.ofList pluginName
            marketplaceName := String.ofList marketplaceName })
      else
        .error ("invalid enabled Codex plugin key " ++ host.debug entry.1 ++ "; plugin and marketplace segments may " ++
          "contain only ASCII letters, digits, `_`, and `-`, so the plugin hook inventory cannot be positively confirmed")

def enabledCodexPlugins (configured : List (String × Option Bool)) : Except String (List EnabledCodexPlugin) :=
  configured.foldlM host.enableCodexPlugin []

/-! ### Versions -/

def validCodexPluginVersion (version : String) : Bool :=
  version ≠ "" && version ≠ "." && version ≠ ".." &&
    version.toList.all fun char => char.isAlphanum || ['.', '+', '_', '-'].contains char

structure ParsedCodexSemver where
  major : Nat
  minor : Nat
  patch : Nat
  pre : Option (List Char)
  build : Option (List Char)
  deriving DecidableEq, Repr

def validSemverIdentifiers (rejectNumericLeadingZero : Bool) (value : List Char) : Bool :=
  value ≠ [] && (value.splitOn '.').all fun identifier =>
    identifier ≠ [] && (identifier.all fun char => char.isAlphanum || char = '-') &&
      !(rejectNumericLeadingZero && identifier.length > 1 && identifier.all Char.isDigit && identifier.head? = some '0')

def parseSemverNumber (number : List Char) : Option Nat :=
  let value := number.foldl (fun value digit => 10 * value + (digit.toNat - 48)) 0
  if number ≠ [] ∧ number.all Char.isDigit ∧ (number = ['0'] ∨ number.head? ≠ some '0') ∧ value < 2 ^ 64 then some value
  else none

/-- Before and behind the first mark, if there is one. -/
def splitMark (mark : Char) (text : List Char) : List Char × Option (List Char) :=
  match Redact.splitOnce mark text with
  | some (before, behind) => (before, some behind)
  | none => (text, none)

def parseCodexSemver (version : String) : Option ParsedCodexSemver :=
  let (withoutBuild, build) := splitMark '+' version.toList
  let (core, pre) := splitMark '-' withoutBuild
  if (build.any fun build => build.contains '+' || !validSemverIdentifiers false build) ||
      pre.any (!validSemverIdentifiers true ·) then none
  else
    match core.splitOn '.' with
    | [major, minor, patch] => do
      some { major := ← parseSemverNumber major, minor := ← parseSemverNumber minor, patch := ← parseSemverNumber patch, pre, build }
    | _ => none

/-- The first identifiers that differ decide. Numbers come before texts. -/
def compareIdentifiers (numeric : List Char → List Char → Ordering) : List (List Char) → List (List Char) → Ordering
  | [], [] => .eq
  | [], _ :: _ => .lt
  | _ :: _, [] => .gt
  | left :: lefts, right :: rights =>
    if left = right then compareIdentifiers numeric lefts rights
    else
      let order : Ordering :=
        match left.all Char.isDigit, right.all Char.isDigit with
        | true, false => .lt
        | false, true => .gt
        | true, true => numeric left right
        | false, false => compare left right
      order.then (compareIdentifiers numeric lefts rights)

/-- How a version without the part compares to one with it is `bare`. -/
def comparePart (bare : Ordering) (numeric : List Char → List Char → Ordering) :
    Option (List Char) → Option (List Char) → Ordering
  | none, none => .eq
  | none, some _ => bare
  | some _, none => bare.swap
  | some left, some right => compareIdentifiers numeric (left.splitOn '.') (right.splitOn '.')

def compareSemverPrerelease : Option (List Char) → Option (List Char) → Ordering :=
  comparePart .gt fun left right => (compare left.length right.length).then (compare left right)

def compareSemverBuild : Option (List Char) → Option (List Char) → Ordering :=
  comparePart .lt fun left right =>
    let leftValue := left.dropWhile (· = '0')
    let rightValue := right.dropWhile (· = '0')
    ((compare leftValue.length rightValue.length).then (compare leftValue rightValue)).then
      (compare left.length right.length)

def compareCodexPluginVersions (left right : String) : Ordering :=
  match parseCodexSemver left, parseCodexSemver right with
  | some left, some right =>
    ((((compare left.major right.major).then (compare left.minor right.minor)).then (compare left.patch right.patch)).then
      (compareSemverPrerelease left.pre right.pre)).then (compareSemverBuild left.build right.build)
  | _, _ => compare left right

/-- `local` wins, and otherwise the last of the sorted versions. -/
def activeVersion (sort : List String → List String) (versions : List String) : Option String :=
  if "local" ∈ versions then some "local" else (sort versions).getLast?

def pluginBase (codexHome : String) (plugin : EnabledCodexPlugin) : String :=
  CodexSetup.join (CodexSetup.join (CodexSetup.join codexHome "plugins/cache") plugin.marketplaceName) plugin.pluginName

/-- The versions among the entries of a plugin's directory. A link is no version. -/
def versionsOf (plugin : EnabledCodexPlugin) (base : String) (versions : List String)
    (entry : Except String DirEntry) : Except String (List String) := do
  let entry ← entry.mapError fun reason =>
    "cannot enumerate versions for enabled Codex plugin " ++ plugin.configKey ++ " at " ++ base ++ ": " ++ reason
  let isDir ← entry.isDir.mapError fun reason =>
    "cannot inspect version entry " ++ entry.path ++ " for enabled Codex plugin " ++ plugin.configKey ++ ": " ++ reason
  match isDir, entry.name with
  | true, some version => .ok (if validCodexPluginVersion version then versions ++ [version] else versions)
  | _, _ => .ok versions

def activeCodexPluginRoot (sort : List String → List String) (codexHome : String) (plugin : EnabledCodexPlugin)
    (files : CodexFiles) : Except String (Option String) :=
  let base := pluginBase codexHome plugin
  match files.readDir base with
  | .absent reason =>
    match files.linkMetadata base with
    | .found () =>
      .error ("cannot resolve enabled Codex plugin " ++ plugin.configKey ++ " at " ++ base ++ "; the plugin hook inventory " ++
        "cannot be positively confirmed: " ++ reason)
    | _ => .ok none
  | .failed reason =>
    .error ("cannot inspect enabled Codex plugin " ++ plugin.configKey ++ " at " ++ base ++ "; the plugin hook inventory " ++
      "cannot be positively confirmed: " ++ reason)
  | .found entries =>
    (entries.foldlM (versionsOf plugin base) []).map fun versions => (activeVersion sort versions).map (CodexSetup.join base)

/-! ### Manifests -/

def untrusted (message : String) : String :=
  message ++ "; refusing to trust a plugin hook inventory that cannot be positively confirmed"

def canonicalPluginRoot (plugin : EnabledCodexPlugin) (root : String) (files : CodexFiles) : Except String String :=
  match files.canonicalize root with
  | .error reason =>
    .error (untrusted ("cannot resolve active root " ++ root ++ " for enabled Codex plugin " ++ plugin.configKey) ++ ": " ++ reason)
  | .ok canonical =>
    if files.isKind .directory canonical then .ok canonical
    else
      .error (untrusted ("active root " ++ canonical ++ " for enabled Codex plugin " ++ plugin.configKey ++
        " is not a directory"))

/-- The first of the paths at which there is something. -/
def firstPresent (files : CodexFiles) : List String → Except String (Option String)
  | [] => .ok none
  | path :: rest =>
    match files.linkMetadata path with
    | .found () => .ok (some path)
    | .absent _ => firstPresent files rest
    | .failed reason => .error ("cannot inspect plugin manifest " ++ path ++ ": " ++ reason)

def manifestPath (root : String) (files : CodexFiles) : Except String (Option String) :=
  firstPresent files [CodexSetup.join root ".codex-plugin/plugin.json", CodexSetup.join root ".claude-plugin/plugin.json"]

/-- Paths are ordered by their components: the root, then dots, then names. -/
def rankedNames (path : String) : List (List Nat) :=
  let (rooted, names) := PathBuf.components ⟨path⟩
  (if rooted then [[0]] else []) ++ names.map fun name =>
    (if name = ['.'] then 1 else if name = ['.', '.'] then 2 else 3) :: name.map Char.toNat

def comparePaths (left right : String) : Ordering :=
  compare (rankedNames left) (rankedNames right)

def addFile (inventory : PluginHookInventory) (path : String) : PluginHookInventory :=
  if inventory.files.any fun known => comparePaths known path = .eq then inventory
  else { inventory with files := inventory.files.orderedInsert (fun left right => comparePaths left right ≠ .gt) path }

def startsWith (path directory : String) : Bool :=
  let (rooted, names) := PathBuf.components ⟨path⟩
  let (base, start) := PathBuf.components ⟨directory⟩
  rooted = base && start.isPrefixOf names

local instance : LawfulBEq (List Char) := inferInstance

/-- A declared path is relative and below the plugin's root, also behind links. -/
def resolvePluginHookPath (root canonicalRoot manifest declared : String) (files : CodexFiles) : Except String String :=
  let (rooted, names) := PathBuf.components ⟨declared⟩
  let declares := "plugin manifest " ++ manifest ++ " declares hooks path " ++ host.debug declared
  if !"./".toList.isPrefixOf declared.toList || rooted then
    .error (untrusted (declares ++ ", but plugin hook paths must be relative and start with `./`"))
  else if ['.', '.'] ∈ names then
    .error (untrusted (declares ++ " with traversal outside the plugin root"))
  else
    let declaredPath := CodexSetup.join root declared
    match files.canonicalize declaredPath with
    | .error reason =>
      .error (untrusted ("plugin manifest " ++ manifest ++ " declares a hooks file " ++ declaredPath ++
        " that cannot be resolved (" ++ reason ++ ")"))
    | .ok resolved =>
      if !startsWith resolved canonicalRoot then
        .error (untrusted ("plugin manifest " ++ manifest ++ " declares hooks path " ++ resolved ++
          " that resolves outside the canonical plugin root " ++ canonicalRoot))
      else if !files.isKind .file resolved then
        .error (untrusted ("plugin manifest " ++ manifest ++ " declares a hooks path " ++ resolved ++
          " that is not a regular file"))
      else .ok resolved

def validateInlinePluginHooks (manifest : String) (settings : Json) : Except String Unit :=
  match settings.asObject? with
  | none => .error "inline plugin hooks must be a JSON object"
  | some members =>
    match members.find? fun entry => entry.1 ≠ "description" ∧ entry.1 ≠ "hooks" with
    | some (key, _) =>
      .error ("plugin manifest " ++ manifest ++ " declares an inline hooks object with unknown field " ++ host.debug key ++
        "; Codex would reject that HooksFile and fall back to another source, so the plugin hook inventory cannot be " ++
        "positively confirmed")
    | none =>
      if (members.lookup "description").any fun value => value ≠ .null ∧ value.asString? = none then
        .error ("plugin manifest " ++ manifest ++ " declares a non-string inline hooks description; the plugin hook " ++
          "inventory cannot be positively confirmed")
      else if (members.lookup "hooks").any fun value => value.asObject? = none then
        .error ("plugin manifest " ++ manifest ++ " declares a non-object inline `hooks` value; the plugin hook inventory " ++
          "cannot be positively confirmed")
      else .ok ()

/-- The default source, which a plugin may lack. -/
def defaultHooks (root : String) (inventory : PluginHookInventory) (files : CodexFiles) : Except String PluginHookInventory :=
  let path := CodexSetup.join root "hooks/hooks.json"
  match files.metadata path with
  | .found .file =>
    match files.canonicalize path with
    | .ok resolved => .ok (addFile inventory resolved)
    | .error reason => .error ("cannot resolve plugin hook file " ++ path ++ ": " ++ reason)
  | .found _ | .absent _ => .ok inventory
  | .failed reason => .error ("cannot inspect plugin hook file " ++ path ++ ": " ++ reason)

def declaredFile (root canonicalRoot manifest : String) (files : CodexFiles) (inventory : PluginHookInventory)
    (declared : String) : Except String PluginHookInventory :=
  (host.resolvePluginHookPath root canonicalRoot manifest declared files).map (addFile inventory)

def inlineHook (manifest : String) (inventory : PluginHookInventory) (settings : Json × Nat) :
    Except String PluginHookInventory :=
  (host.validateInlinePluginHooks manifest settings.1).map fun _ =>
    { inventory with
      inline := inventory.inline ++ [{ manifestPath := manifest, index := settings.2, settings := settings.1 }] }

/-- A manifest's own hooks take the place of the default source. -/
def declaredHooks (root canonicalRoot manifest : String) (members : List (String × Json)) (inventory : PluginHookInventory)
    (files : CodexFiles) : Except String PluginHookInventory :=
  match members.lookup "hooks" with
  | none | some .null => defaultHooks root inventory files
  | some (.string declared) => host.declaredFile root canonicalRoot manifest files inventory declared
  | some (.object settings) => host.inlineHook manifest inventory (.object settings, 0)
  | some (.array entries) =>
    if entries.isEmpty then defaultHooks root inventory files
    else if entries.all (·.asString?.isSome) then
      (entries.filterMap Json.asString?).foldlM (host.declaredFile root canonicalRoot manifest files) inventory
    else if entries.all (·.asObject?.isSome) then entries.zipIdx.foldlM (host.inlineHook manifest) inventory
    else .error (mixed (.array entries))
  | some other => .error (mixed other)
where
  mixed (other : Json) : String :=
    untrusted ("plugin manifest " ++ manifest ++ " declares a `hooks` entry that is not one path, an array of paths, one " ++
      "inline hooks object, or an array of inline hooks objects (" ++ other.render ++ ")")

def parseManifest (manifest content : String) : Except String (List (String × Json)) :=
  match host.parseJson content with
  | .error reason => .error (untrusted ("plugin manifest " ++ manifest ++ " cannot be parsed (" ++ reason ++ ")"))
  | .ok value =>
    match value.asObject? with
    | some members => .ok members
    | none => .error (untrusted ("plugin manifest " ++ manifest ++ " must be a JSON object"))

def answered {α : Type} (question : CodexFiles → Except String α) : CodexRecording Digest α :=
  Recording.ask fun files => (question files).mapError .refused

def readManifest (manifest : String) : CodexRecording Digest String := do
  match ← host.recordRead manifest with
  | some content => pure content
  | none => Recording.fail (.refused "plugin manifest disappeared while its hook sources were enumerated")

def collectPlugin (codexHome : String) (inventory : PluginHookInventory) (plugin : EnabledCodexPlugin) :
    CodexRecording Digest PluginHookInventory := do
  match ← answered (activeCodexPluginRoot host.sortVersions codexHome plugin) with
  | none => pure inventory
  | some root =>
    let canonicalRoot ← answered (canonicalPluginRoot plugin root)
    match ← answered (manifestPath root) with
    | none => pure inventory
    | some manifest =>
      let content ← host.readManifest manifest
      let members ← orHalt (host.parseManifest manifest content)
      answered (host.declaredHooks root canonicalRoot manifest members inventory)

def inlineOrder (left right : InlinePluginHook) : Bool :=
  (comparePaths left.manifestPath right.manifestPath).then (compare left.index right.index) ≠ .gt

def collectPluginHooks (codexHome : String) (enabled : List EnabledCodexPlugin) :
    CodexRecording Digest PluginHookInventory := do
  let inventory ← enabled.foldlM (host.collectPlugin codexHome) {}
  pure { inventory with inline := inventory.inline.mergeSort inlineOrder }

end CodexHost
end Wisphive
