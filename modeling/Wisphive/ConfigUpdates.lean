import Wisphive.UserConfig

/-! The policy files on disk: the trusted read of the hook, and the read-modify-writes of
the daemon, the web page, the command line and the terminal UI. A write replaces the file by
a fresh one of the daemon's user, whatever was there before. -/

namespace Wisphive
open Foundation

inductive FileKind where
  | regular
  | symlink
  | other
  deriving DecidableEq, Repr

/-- What opening and reading a path yields where links are followed. A text that is no JSON
counts as `none`. -/
inductive FileRead where
  | notFound
  | denied
  | undecodable
  | contents (value : Option Json)
  deriving DecidableEq, Repr

structure StoredFile where
  kind : FileKind
  owner : Nat
  mode : BitVec 12
  read : FileRead
  deriving DecidableEq, Repr

inductive TrustError where
  | notOwned
  | looseMode (mode : BitVec 12)
  | notARegularFile
  | io
  deriving DecidableEq, Repr

/-- Read a regular file of the user that group and others cannot write. A link is not followed. -/
def readTrusted (effectiveUid : Nat) (file : StoredFile) : Except TrustError (Option Json) :=
  if file.kind = .symlink then .error .io
  else if file.read = .notFound ∨ file.read = .denied then .error .io
  else if file.kind ≠ .regular then .error .notARegularFile
  else if file.owner ≠ effectiveUid then .error .notOwned
  else if file.mode &&& 0o022 ≠ 0 then .error (.looseMode file.mode)
  else match file.read with
    | .contents value => .ok value
    | _ => .error .io

/-- Any trust or parse failure is as good as no file. -/
def trustedConfigJson (effectiveUid : Nat) (file : StoredFile) : Option Json :=
  match readTrusted effectiveUid file with
  | .ok value => value
  | .error _ => none

/-- The daemon's configuration. Without one that can be trusted and parsed it runs with
the defaults. -/
def loadUserConfig (effectiveUid : Nat) (file : StoredFile) : Option UserConfig :=
  match trustedConfigJson effectiveUid file with
  | some (.object members) => UserConfig.fromDocument members
  | _ => none

inductive ConfigUpdateError where
  | corrupt
  | notAnObject
  | rejected (reason : String)
  | io
  deriving DecidableEq, Repr

/-- A temporary file is renamed over the target. -/
def writeConfigAtomic (effectiveUid : Nat) (body : Json) : StoredFile :=
  { kind := .regular, owner := effectiveUid, mode := 0o600, read := .contents (some body) }

/-- The file as a writer parses it: a text becomes a value in which the keys of an object
differ. -/
def StoredFile.parsed (file : StoredFile) : StoredFile :=
  match file.read with
  | .contents value => { file with read := .contents (value.map Json.lastWins) }
  | _ => file

/-- A missing file starts from nothing, and a corrupt one refuses the update. -/
def updateJson (effectiveUid : Nat) (file : StoredFile) (mutate : Json.Members → Except String Json.Members) :
    Except ConfigUpdateError StoredFile :=
  match file.read with
  | .denied | .undecodable => .error .io
  | .contents none => .error .corrupt
  | .contents (some (.object members)) => finish members
  | .contents (some _) => .error .notAnObject
  | .notFound => finish []
where
  finish (members : Json.Members) : Except ConfigUpdateError StoredFile :=
    match mutate members with
    | .ok edited => .ok (writeConfigAtomic effectiveUid (.object edited))
    | .error reason => .error (.rejected reason)

structure PolicyFiles where
  effectiveUid : Nat
  config : StoredFile
  legacy : StoredFile
  deriving DecidableEq, Repr

/-- The items of a list with a tool at their end, unless it is among them. -/
def pushTool (items : List Json) (toolName : String) : List Json :=
  if items.any (·.asString? = some toolName) then items else items ++ [.string toolName]

/-- The edit of an Always Allow. -/
def allowTool (toolName : String) (members : Json.Members) : Except String Json.Members :=
  match (members.lookup "auto_approve_add").getD (.array []) with
  | .array items =>
    let added := Json.insertMember members "auto_approve_add" (.array (pushTool items toolName))
    match members.lookup "auto_approve_remove" with
    | some (.array removed) =>
      .ok (Json.insertMember added "auto_approve_remove" (.array (removed.filter (·.asString? ≠ some toolName))))
    | _ => .ok added
  | _ => .error "auto_approve_add exists but is not an array"

def allowLegacyTool (effectiveUid : Nat) (legacy : StoredFile) (toolName : String) :
    Except ConfigUpdateError StoredFile :=
  match legacy.read with
  | .denied | .undecodable => .error .io
  | .contents none => .error .corrupt
  | .contents (some (.object members)) => finish members
  | .contents (some _) => .error (.rejected "auto-approve.json is not an object")
  | .notFound => finish []
where
  finish (members : Json.Members) : Except ConfigUpdateError StoredFile :=
    match (members.lookup "auto_approve").getD (.array []) with
    | .array items =>
      .ok (writeConfigAtomic effectiveUid
        (.object (Json.insertMember members "auto_approve" (.array (pushTool items toolName)))))
    | _ => .error (.rejected "auto_approve is not an array")

/-- The legacy file counts only where there is no configuration. A dangling link is none. -/
def persistAutoApprove (toolName : String) (files : PolicyFiles) : Except ConfigUpdateError PolicyFiles :=
  match files.config.read with
  | .notFound => do return { files with legacy := ← allowLegacyTool files.effectiveUid files.legacy toolName }
  | _ => do return { files with config := ← updateJson files.effectiveUid files.config (allowTool toolName) }

/-- Null deletes a key, so it is allowed everywhere. -/
def validateField (platform : HookPlatform) (key : String) (value : Json) : Except String Unit :=
  if value = .null then .ok ()
  else if key ∈ ["notifications", "auto_approve_stop", "auto_approve_user_prompt", "auto_approve_config_change",
      "auto_approve_lifecycle", "auto_approve_dangerous"] then
    if value.asBool?.isSome then .ok () else .error "boolean config value must be true or false"
  else if key ∈ ["hook_timeout_secs", "agent_timeout_secs", "retention_max_rows", "retention_max_age_days",
      "log_retention_days", "retention_vacuum_max_mb", "archive_alert_max_mb", "disk_alert_free_mb",
      "audit_snapshot_limit"] then
    if (unsigned 64 value).isSome then .ok () else .error "numeric config value must be an unsigned integer"
  else if key = "auto_approve_level" then
    match value.asString? with
    | none => .error "auto_approve_level must be a string"
    | some level =>
      if (AutoApproveLevel.fromStr platform level).isSome then .ok () else .error "auto_approve_level is invalid"
  else if key ∈ ["auto_approve_add", "auto_approve_remove", "auto_approve", "always_ask", "always_ask_remove"] then
    match value.asArray? with
    | none => .error "tool-name lists must be arrays"
    | some items =>
      if items.all (·.asString?.isSome) then .ok () else .error "tool-name lists must contain only strings"
  else if key = "tool_rules" then
    match value.asObject? with
    | none => .error "tool_rules schema is invalid"
    | some rules =>
      if rules.all fun rule => rule.2 = .null || (ToolRule.fromValue rule.2).isSome then .ok () else .error "tool_rules schema is invalid"
  else .error "unknown config field"

def validateConfigJson (platform : HookPlatform) (value : Json) : Except String Unit :=
  match value.asObject? with
  | some members => members.forM fun (key, value) => validateField platform key value
  | none => .error "config must be a JSON object"

/-- A parsed body. The keys of an object differ, at every depth. -/
structure ParsedBody where
  value : Json
  distinct : value.Distinct

inductive UpdateRefusal where
  | badRequest (reason : String)
  | failed (error : ConfigUpdateError)
  deriving DecidableEq, Repr

/-- One change of the terminal UI's configuration view. -/
inductive ConfigMutation where
  | autoApproveLevel (level : AutoApproveLevel)
  | eventToggle (key : String) (enabled : Bool)
  | toolOverride (tool : String) (add remove : Bool)
  | toolRulePattern (tool pattern : String) (deny included : Bool)
  deriving DecidableEq, Repr

/-- The item leaves the list, and is put at its end where it is included. -/
def updateStringList (members : Json.Members) (key item : String) (included : Bool) : Except String Json.Members :=
  match members.lookup key with
  | none => finish []
  | some (.array items) =>
    match items.mapM (·.asString?) with
    | some names => finish names
    | none => .error (key ++ " must contain only strings")
  | some _ => .error (key ++ " must be a JSON array")
where
  finish (names : List String) : Except String Json.Members :=
    let items := names.filter (· ≠ item) ++ if included then [item] else []
    if items = [] then .ok (Json.removeMember members key)
    else .ok (Json.insertMember members key (.array (items.map .string)))

/-- An object under a key, or the empty one where there is none. -/
def objectOr (members : Json.Members) (key error : String) : Except String Json.Members :=
  match members.lookup key with
  | none => .ok []
  | some (.object inner) => .ok inner
  | some _ => .error error

/-- An object that became empty is dropped. -/
def storeObject (members : Json.Members) (key : String) (inner : Json.Members) : Json.Members :=
  if inner = [] then Json.removeMember members key else Json.insertMember members key (.object inner)

def ConfigMutation.applyTo (members : Json.Members) : ConfigMutation → Except String Json.Members
  | .autoApproveLevel level => .ok (Json.insertMember members "auto_approve_level" (.string level.display))
  | .eventToggle key enabled => .ok (Json.insertMember members key (.bool enabled))
  | .toolOverride tool add remove => do
    let added ← updateStringList members "auto_approve_add" tool add
    updateStringList added "auto_approve_remove" tool remove
  | .toolRulePattern tool pattern deny included => do
    let rules ← objectOr members "tool_rules" "tool_rules must be a JSON object"
    let rule ← objectOr rules tool ("tool_rules." ++ tool ++ " must be a JSON object")
    let edited ← updateStringList rule (if deny then "deny_patterns" else "allow_patterns") pattern included
    return storeObject members "tool_rules" (storeObject rules tool edited)

/-- The writers of the configuration. -/
inductive ConfigWriter where
  | alwaysAllow (toolName : String)
  | putConfig (body : ParsedBody)
  | cli (mutation : CliMutation)
  | tui (mutation : ConfigMutation)

namespace ConfigWriter

/-- What a writer makes of the members that it read. -/
def edit (members : Json.Members) : ConfigWriter → Except String Json.Members
  | .alwaysAllow toolName => allowTool toolName members
  | .putConfig body =>
    match Json.mergePatch (.object members) body.value with
    | .object merged => .ok merged
    | _ => .error "validated config patch did not produce an object"
  | .cli mutation => updateForWrite mutation members
  | .tui mutation => mutation.applyTo members

/-- What a writer refuses before it looks at the file. -/
def validate (platform : HookPlatform) : ConfigWriter → Except String Unit
  | .putConfig body => validateConfigJson platform body.value
  | _ => .ok ()

/-- A refused update leaves the files as they are. -/
def update (platform : HookPlatform) (writer : ConfigWriter) (files : PolicyFiles) : Except UpdateRefusal PolicyFiles :=
  match writer.validate platform with
  | .error reason => .error (.badRequest reason)
  | .ok () =>
    match writer with
    | .alwaysAllow toolName => (persistAutoApprove toolName files).mapError .failed
    | writer =>
      ((updateJson files.effectiveUid files.config (writer.edit ·)).map fun config => { files with config }).mapError .failed

end ConfigWriter

/-! ### What the command line tells about the hook's policy -/

/-- The configuration for display. Owner and mode of the file are not looked at, and without
a text that parses the defaults are shown. -/
def StoredFile.displayed (file : StoredFile) : UserConfig :=
  match file.read with
  | .contents (some (.object members)) => (UserConfig.fromDocument members).getD {}
  | _ => {}

/-- Repetitions that follow each other are dropped. -/
def dedup : List String → List String
  | [] => []
  | [name] => [name]
  | name :: next :: rest => if name = next then dedup (next :: rest) else name :: dedup (next :: rest)

def effectiveAlwaysAsk (config : UserConfig) : List String :=
  let removed := config.alwaysAskRemove.getD []
  dedup ((defaultAlwaysAsk ++ config.alwaysAsk.getD []).filter (· ∉ removed))

/-- The tools that are listed by name, in their order on the screen. -/
def allKnownTools : List String :=
  AutoApproveLevel.read.tierTools ++ defaultAlwaysAsk ++ AutoApproveLevel.write.tierTools ++
    AutoApproveLevel.execute.tierTools

structure AutoApproveStatus where
  level : AutoApproveLevel
  dangerous : Bool
  deferred : List String
  tools : List String
  added : List String
  removed : List String
  deriving DecidableEq, Repr

def autoApproveStatus (config : UserConfig) : AutoApproveStatus :=
  let level := config.autoApproveLevel.getD .read
  { level, dangerous := config.autoApproveDangerous
    deferred := if config.autoApproveDangerous then defaultAlwaysAsk else effectiveAlwaysAsk config
    tools := allKnownTools.filter (level.includes ·)
    added := config.autoApproveAdd.getD []
    removed := config.autoApproveRemove.getD [] }

namespace AutoApproveStatus

/-- The overrides follow a headline, if there are any. -/
def overrides (headline mark : String) (names : List String) : List String :=
  if names = [] then [] else headline :: names.map (mark ++ ·)

def lines (status : AutoApproveStatus) : List String :=
  ["Level: " ++ status.level.display,
    if status.dangerous then
      "Posture: DANGEROUS — operator always_ask tools are auto-approved too; only intrinsic prompts still defer:"
    else "Posture: balanced — these always defer to you regardless of level:"] ++
    status.deferred.map ("  ? " ++ ·) ++ ["Tools at this level:"] ++ status.tools.map ("  + " ++ ·) ++
    overrides "\nOverrides (added):" "  + " status.added ++
    overrides "\nOverrides (removed — queued despite level):" "  - " status.removed

/-- A tool of the level or of the additions that is not among the removals, which hold despite
the level. -/
def approves (status : AutoApproveStatus) (toolName : String) : Bool :=
  (status.tools.contains toolName || status.added.contains toolName) && !status.removed.contains toolName

end AutoApproveStatus

end Wisphive
