import Wisphive.Foundation.JsonMembers
import Wisphive.HookPolicy

/-! The typed configuration of the command line and the edits that its commands make. Only
the keys whose typed value an edit changes are written. -/

namespace Wisphive
open Foundation

structure ToolRule where
  denyPatterns : List String := []
  allowPatterns : List String := []
  deriving DecidableEq, Repr

def textsOf : Json → Option (List String)
  | .array items => items.mapM (·.asString?)
  | _ => none

/-- A missing field has its default. A present one must have its type. -/
def fieldOr {Value : Type} (default : Value) (parse : Json → Option Value) (field : Option Json) : Option Value :=
  match field with
  | some value => parse value
  | none => some default

namespace ToolRule

/-- An object of its fields, or a list of them in their order. -/
def fromValue : Json → Option ToolRule
  | .object members => do
    let denyPatterns ← fieldOr [] textsOf (members.lookup "deny_patterns")
    let allowPatterns ← fieldOr [] textsOf (members.lookup "allow_patterns")
    return { denyPatterns, allowPatterns }
  | .array [] => some {}
  | .array [deny] => do return { denyPatterns := ← textsOf deny }
  | .array [deny, allow] => do return { denyPatterns := ← textsOf deny, allowPatterns := ← textsOf allow }
  | _ => none

def texts (key : String) (patterns : List String) : Json.Members :=
  if patterns = [] then [] else [(key, .array (patterns.map .string))]

def toValue (rule : ToolRule) : Json :=
  .object (texts "deny_patterns" rule.denyPatterns ++ texts "allow_patterns" rule.allowPatterns)

end ToolRule

def unsigned (bits : Nat) : Json → Option Nat
  | .number (.integer value) => if 0 ≤ value ∧ value < 2 ^ bits then some value.toNat else none
  | _ => none

/-- An optional field is also absent where it is null. -/
def optional {Value : Type} (parse : Json → Option Value) : Json → Option (Option Value)
  | .null => some none
  | value => (parse value).map some

/-- A variant by its lowercase name, or as the only key of an object. -/
def AutoApproveLevel.fromValue : Json → Option AutoApproveLevel
  | .string name => variant name
  | .object [(name, .null)] => variant name
  | _ => none
where
  variant (name : String) : Option AutoApproveLevel :=
    [AutoApproveLevel.off, .read, .write, .execute, .all].find? (·.display = name)

def toolRulesOf : Json → Option (List (String × ToolRule))
  | .object rules => rules.mapM fun (tool, rule) => do return (tool, ← ToolRule.fromValue rule)
  | _ => none

structure UserConfig where
  notifications : Bool := true
  hookTimeoutSecs : Option Nat := none
  agentTimeoutSecs : Option Nat := none
  autoApproveLevel : Option AutoApproveLevel := none
  autoApproveAdd : Option (List String) := none
  autoApproveRemove : Option (List String) := none
  alwaysAsk : Option (List String) := none
  alwaysAskRemove : Option (List String) := none
  autoApproveDangerous : Bool := false
  codexAllowForeignHooks : Bool := false
  toolRules : Option (List (String × ToolRule)) := none
  retentionMaxRows : Option Nat := none
  retentionMaxAgeDays : Option Nat := none
  logRetentionDays : Option Nat := none
  retentionVacuumMaxMb : Option Nat := none
  archiveAlertMaxMb : Option Nat := none
  diskAlertFreeMb : Option Nat := none
  auditSnapshotLimit : Option Nat := none
  extra : Json.Members := []

namespace UserConfig

def modeledKeys : List String :=
  ["notifications", "hook_timeout_secs", "agent_timeout_secs", "auto_approve_level", "auto_approve_add",
    "auto_approve_remove", "always_ask", "always_ask_remove", "auto_approve_dangerous", "codex_allow_foreign_hooks",
    "tool_rules", "retention_max_rows", "retention_max_age_days", "log_retention_days", "retention_vacuum_max_mb",
    "archive_alert_max_mb", "disk_alert_free_mb", "audit_snapshot_limit"]

def fromValue (members : Json.Members) : Option UserConfig := do
  let flag (key : String) (default : Bool) := fieldOr default Json.asBool? (members.lookup key)
  let number (bits : Nat) (key : String) := fieldOr none (optional (unsigned bits)) (members.lookup key)
  let tools (key : String) := fieldOr none (optional textsOf) (members.lookup key)
  return {
    notifications := ← flag "notifications" true
    hookTimeoutSecs := ← number 64 "hook_timeout_secs"
    agentTimeoutSecs := ← number 64 "agent_timeout_secs"
    autoApproveLevel := ← fieldOr none (optional AutoApproveLevel.fromValue) (members.lookup "auto_approve_level")
    autoApproveAdd := ← tools "auto_approve_add"
    autoApproveRemove := ← tools "auto_approve_remove"
    alwaysAsk := ← tools "always_ask"
    alwaysAskRemove := ← tools "always_ask_remove"
    autoApproveDangerous := ← flag "auto_approve_dangerous" false
    codexAllowForeignHooks := ← flag "codex_allow_foreign_hooks" false
    toolRules := ← fieldOr none (optional toolRulesOf) (members.lookup "tool_rules")
    retentionMaxRows := ← number 64 "retention_max_rows"
    retentionMaxAgeDays := ← number 64 "retention_max_age_days"
    logRetentionDays := ← number 64 "log_retention_days"
    retentionVacuumMaxMb := ← number 64 "retention_vacuum_max_mb"
    archiveAlertMaxMb := ← number 64 "archive_alert_max_mb"
    diskAlertFreeMb := ← number 64 "disk_alert_free_mb"
    auditSnapshotLimit := ← number 32 "audit_snapshot_limit"
    extra := members.filter (·.1 ∉ modeledKeys) }

/-- No field stands twice. -/
def unrepeated (fields : List String) (members : Json.Members) : Bool :=
  ((members.map Prod.fst).filter (· ∈ fields)).Nodup

/-- No rule of the tools has a field twice. -/
def rulesUnrepeated : Option Json → Bool
  | some (.object rules) =>
    rules.all fun rule => unrepeated ["deny_patterns", "allow_patterns"] (rule.2.asObject?.getD [])
  | _ => true

/-- Of the rules under one name the last one counts. -/
def lastRules : List (String × ToolRule) → List (String × ToolRule)
  | [] => []
  | (tool, rule) :: rest => if tool ∈ rest.map Prod.fst then lastRules rest else (tool, rule) :: lastRules rest

/-- The text of a file, field by field. A field that stands twice is an error, and of other
keys that do the last one counts. -/
def fromDocument (members : Json.Members) : Option UserConfig :=
  if unrepeated modeledKeys members ∧ rulesUnrepeated (members.lookup "tool_rules") then
    (fromValue members).map fun config =>
      { config with toolRules := config.toolRules.map lastRules, extra := Json.lastMembers config.extra }
  else none

/-- An absent optional field is not written. -/
def field {Value : Type} (key : String) (encode : Value → Json) (value : Option Value) : Json.Members :=
  (value.map fun value => (key, encode value)).toList

def number (key : String) (value : Option Nat) : Json.Members :=
  field key (fun value => .number (.integer value)) value

def tools (key : String) (names : Option (List String)) : Json.Members :=
  field key (fun names => .array (names.map .string)) names

/-- A flag that is written only where it is set. -/
def setFlag (key : String) (value : Bool) : Json.Members :=
  if value then [(key, .bool true)] else []

def toValue (config : UserConfig) : Json.Members :=
  [("notifications", .bool config.notifications)] ++ number "hook_timeout_secs" config.hookTimeoutSecs ++
    number "agent_timeout_secs" config.agentTimeoutSecs ++
    field "auto_approve_level" (fun level => .string level.display) config.autoApproveLevel ++
    tools "auto_approve_add" config.autoApproveAdd ++ tools "auto_approve_remove" config.autoApproveRemove ++
    tools "always_ask" config.alwaysAsk ++ tools "always_ask_remove" config.alwaysAskRemove ++
    setFlag "auto_approve_dangerous" config.autoApproveDangerous ++
    setFlag "codex_allow_foreign_hooks" config.codexAllowForeignHooks ++
    field "tool_rules" (fun rules => .object (rules.map fun (tool, rule) => (tool, rule.toValue))) config.toolRules ++
    number "retention_max_rows" config.retentionMaxRows ++ number "retention_max_age_days" config.retentionMaxAgeDays ++
    number "log_retention_days" config.logRetentionDays ++
    number "retention_vacuum_max_mb" config.retentionVacuumMaxMb ++
    number "archive_alert_max_mb" config.archiveAlertMaxMb ++ number "disk_alert_free_mb" config.diskAlertFreeMb ++
    number "audit_snapshot_limit" config.auditSnapshotLimit ++ config.extra

end UserConfig

/-- One key of the file follows its typed value if that changed. -/
def applyChange (before after : Json.Members) (members : Json.Members) (key : String) : Json.Members :=
  if before.lookup key = after.lookup key then members
  else match after.lookup key with
    | some value => Json.insertMember members key value
    | none => Json.removeMember members key

/-- The keys of the old typed value, and then those that are new. -/
def applyChanges (members before after : Json.Members) : Json.Members :=
  let old := before.map Prod.fst
  (old ++ (after.map Prod.fst).filter (· ∉ old)).foldl (applyChange before after) members

/-- The commands that edit the configuration. -/
inductive CliMutation where
  | setNotifications (notifications : Bool)
  | setHookTimeoutSecs (secs : Nat)
  | setAgentTimeoutSecs (secs : Nat)
  | autoApproveLevel (level : AutoApproveLevel)
  | autoApproveAdd (tool : String)
  | autoApproveRemove (tool : String)
  | autoApproveReset
  | autoApproveMode (dangerous : Bool)
  | autoApproveDeferAdd (tool : String)
  | autoApproveDeferRemove (tool : String)
  deriving DecidableEq, Repr

/-- A name at the end of a list, unless it is among it. A missing list is begun. -/
def pushed (names : Option (List String)) (name : String) : List String :=
  if name ∈ names.getD [] then names.getD [] else names.getD [] ++ [name]

def without (names : Option (List String)) (name : String) : Option (List String) :=
  names.map (·.filter (· ≠ name))

def CliMutation.mutate (config : UserConfig) : CliMutation → UserConfig
  | .setNotifications notifications => { config with notifications }
  | .setHookTimeoutSecs secs => { config with hookTimeoutSecs := some secs }
  | .setAgentTimeoutSecs secs => { config with agentTimeoutSecs := some secs }
  | .autoApproveLevel level => { config with autoApproveLevel := some level }
  | .autoApproveAdd tool =>
    { config with
      autoApproveAdd := some (pushed config.autoApproveAdd tool)
      autoApproveRemove := without config.autoApproveRemove tool }
  | .autoApproveRemove tool =>
    { config with
      autoApproveRemove := some (pushed config.autoApproveRemove tool)
      autoApproveAdd := without config.autoApproveAdd tool }
  | .autoApproveReset =>
    { config with
      autoApproveLevel := none, autoApproveAdd := none, autoApproveRemove := none
      alwaysAsk := none, alwaysAskRemove := none, autoApproveDangerous := false }
  | .autoApproveMode dangerous =>
    { config with autoApproveLevel := some .all, autoApproveDangerous := dangerous }
  | .autoApproveDeferAdd tool =>
    let alwaysAskRemove := without config.alwaysAskRemove tool
    if defaultAlwaysAsk.contains tool then { config with alwaysAskRemove }
    else { config with alwaysAskRemove, alwaysAsk := some (pushed config.alwaysAsk tool) }
  | .autoApproveDeferRemove tool =>
    let alwaysAsk := without config.alwaysAsk tool
    if defaultAlwaysAsk.contains tool then
      { config with alwaysAsk, alwaysAskRemove := some (pushed config.alwaysAskRemove tool) }
    else { config with alwaysAsk }

def updateForWrite (mutation : CliMutation) (members : Json.Members) : Except String Json.Members :=
  match UserConfig.fromValue members with
  | some config => .ok (applyChanges members config.toValue (mutation.mutate config).toValue)
  | none => .error "existing config could not be parsed as a Wisphive config; refusing to overwrite it"

end Wisphive
