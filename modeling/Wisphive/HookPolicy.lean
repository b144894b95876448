import Wisphive.Types
import Wisphive.Redact

/-! The hook's local policy: which calls go to the native prompt, which are approved
without the daemon, and which are left to the human. A configuration that is missing,
untrusted or no JSON is `none`. -/

namespace Wisphive
open Foundation

/-- What the hook asks its host: Unicode lowercase, and whether a path or a command
reaches the state directory. -/
structure HookPlatform where
  toLowercase : String → String
  pathInDir : String → Bool
  commandReferencesDir : String → Bool

/-- Auto-approve permission levels. Higher levels include all tools from lower levels. -/
inductive AutoApproveLevel where
  | off
  | read
  | write
  | execute
  | all
  deriving DecidableEq, Repr

namespace AutoApproveLevel

def rank : AutoApproveLevel → Nat
  | .off => 0
  | .read => 1
  | .write => 2
  | .execute => 3
  | .all => 4

def display : AutoApproveLevel → String
  | .off => "off"
  | .read => "read"
  | .write => "write"
  | .execute => "execute"
  | .all => "all"

def fromStr (platform : HookPlatform) (text : String) : Option AutoApproveLevel :=
  match platform.toLowercase text with
  | "off" | "0" => some .off
  | "read" | "1" => some .read
  | "write" | "2" => some .write
  | "execute" | "exec" | "3" => some .execute
  | "all" | "4" => some .all
  | _ => none

/-- Tools added at this tier, not cumulative. -/
def tierTools : AutoApproveLevel → List String
  | .off => []
  | .read => ["Read", "Glob", "Grep", "LS", "LSP", "NotebookRead", "WebSearch", "WebFetch", "Agent", "Skill",
      "ToolSearch", "EnterWorktree", "ExitWorktree", "TaskCreate", "TaskUpdate", "TaskGet", "TaskList", "TaskOutput",
      "TaskStop", "TodoRead", "CronList"]
  | .write => ["Edit", "Write", "NotebookEdit", "CronCreate", "CronDelete"]
  | .execute => ["Bash"]
  | .all => []

/-- The tiers are searched upwards to the level itself. -/
def includes (level : AutoApproveLevel) (toolName : String) : Bool :=
  level = .all ||
    ([AutoApproveLevel.off, .read, .write, .execute].takeWhile (·.rank ≤ level.rank)).any
      (·.tierTools.contains toolName)

end AutoApproveLevel

/-- Intrinsic interactive prompts. No configuration releases them. -/
def defaultAlwaysAsk : List String :=
  ["AskUserQuestion", "EnterPlanMode", "ExitPlanMode", "Elicitation"]

/-- One event as the hook dispatches it, after the reports of finished tools have left. -/
structure HookCall where
  eventType : HookEventType
  toolName : String
  toolInput : Json
  deriving DecidableEq, Repr

namespace HookPolicy

/-- Whether a list of the configuration names a tool. -/
def lists (config : Json) (key toolName : String) : Bool :=
  match (config.get? key).bind Json.asArray? with
  | some items => items.any fun item => item.asString? = some toolName
  | none => false

def flag (config : Option Json) (key : String) (default : Bool) : Bool :=
  ((config.bind (·.get? key)).bind Json.asBool?).getD default

inductive DeferClass where
  | intrinsic
  | operator
  | releasedByDangerous
  | no
  deriving DecidableEq, Repr

/-- Removals win over additions, and the dangerous posture releases additions only. -/
def alwaysDeferClassification (config : Option Json) (toolName : String) : DeferClass :=
  if defaultAlwaysAsk.contains toolName then .intrinsic
  else match config with
    | none => .no
    | some fields =>
      let dangerous := flag config "auto_approve_dangerous" false
      if lists fields "always_ask_remove" toolName then .no
      else match lists fields "always_ask" toolName, dangerous with
        | true, true => .releasedByDangerous
        | true, false => .operator
        | false, _ => .no

/-- The toggle of an event type and its default. -/
def eventToggle : HookEventType → Option (String × Bool)
  | .stop | .subagentStop => some ("auto_approve_stop", false)
  | .userPromptSubmit => some ("auto_approve_user_prompt", true)
  | .configChange => some ("auto_approve_config_change", true)
  | .instructionsLoaded | .postToolUseFailure | .subagentStart | .stopFailure | .worktreeRemove | .postCompact
  | .sessionStart | .sessionEnd | .notification => some ("auto_approve_lifecycle", true)
  | _ => none

def eventAutoApprovedBy (config : Option Json) (eventType : HookEventType) : Option String :=
  match eventToggle eventType with
  | some (configKey, default) => if flag config configKey default then some configKey else none
  | none => none

def allowSelfModification (config : Option Json) : Bool :=
  flag config "allow_self_modification" false

/-- The field that holds the path which a file tool touches. -/
def pathField (toolName : String) : Option String :=
  if toolName = "Write" ∨ toolName = "Edit" ∨ toolName = "MultiEdit" then some "file_path"
  else if toolName = "NotebookEdit" then some "notebook_path"
  else none

def targetsControlPlane (platform : HookPlatform) (toolName : String) (toolInput : Json) : Bool :=
  if toolName = "Bash" then
    ((toolInput.get? "command").bind Json.asString?).any platform.commandReferencesDir
  else
    (((pathField toolName).bind (toolInput.get? ·)).bind Json.asString?).any platform.pathInDir

/-- The legacy list, and without one the read tier. -/
def legacyAutoApproved (legacy : Option Json) (toolName : String) : Option String :=
  match (legacy.bind (·.get? "auto_approve")).bind Json.asArray? with
  | some items => if items.any fun item => item.asString? = some toolName then some "legacy_list" else none
  | none => if AutoApproveLevel.read.tierTools.contains toolName then some "default:read_tier" else none

/-- The configured level. A text that names no level is no level. -/
def level (platform : HookPlatform) (config : Json) : Option AutoApproveLevel :=
  ((config.get? "auto_approve_level").bind Json.asString?).bind (AutoApproveLevel.fromStr platform)

/-- Explicit additions, then the level, then the legacy list. -/
def checkBaseApproved (platform : HookPlatform) (config : Json) (legacy : Option Json) (toolName : String) :
    Option String :=
  if lists config "auto_approve_add" toolName then some "auto_approve_add"
  else match level platform config with
    | some level => if level.includes toolName then some ("level:" ++ level.display) else none
    | none => legacyAutoApproved legacy toolName

/-- For Bash the command, for everything else the serialized input. -/
def toolInputText (toolName : String) (toolInput : Json) : String :=
  match (toolInput.get? "command").bind Json.asString? with
  | some command => if toolName = "Bash" then command else toolInput.render
  | none => toolInput.render

/-- The rule of a tool among the content-aware rules. -/
def toolRule (config : Json) (toolName : String) : Option Json :=
  ((config.get? "tool_rules").bind Json.asObject?).bind (·.lookup toolName)

/-- Whether a pattern of the rule occurs in the lowercased text. -/
def matchesAny (platform : HookPlatform) (rule : Json) (key inputLower : String) : Bool :=
  match (rule.get? key).bind Json.asArray? with
  | some patterns => patterns.any fun pattern =>
    match pattern.asString? with
    | some text => Redact.contains inputLower.toList (platform.toLowercase text).toList
    | none => false
  | none => false

/-- Explicit removals come first. -/
def baseRule (platform : HookPlatform) (config legacy : Option Json) (toolName : String) : Option String :=
  match config with
  | some fields =>
    if lists fields "auto_approve_remove" toolName then none
    else checkBaseApproved platform fields legacy toolName
  | none => legacyAutoApproved legacy toolName

/-- The base rule, then the rule's patterns: a base approval asks the deny patterns,
and without one the allow patterns are asked. -/
def autoApprovedBy (platform : HookPlatform) (config legacy : Option Json) (toolName : String) (toolInput : Json) :
    Option String :=
  match config.bind (toolRule · toolName) with
  | none => baseRule platform config legacy toolName
  | some rule =>
    let inputLower := platform.toLowercase (toolInputText toolName toolInput)
    match baseRule platform config legacy toolName with
    | some approval => if matchesAny platform rule "deny_patterns" inputLower then none else some approval
    | none =>
      if matchesAny platform rule "allow_patterns" inputLower then
        some ("tool_rules:" ++ toolName ++ ":allow_pattern")
      else none

/-- What the hook does with a call before it turns to the daemon. -/
inductive LocalAnswer where
  | alwaysDefer (deferClass : DeferClass)
  | approve (decidedBy : String)
  | askDaemon
  deriving DecidableEq, Repr

/-- The layers of `run_active` that come before the daemon, in their order. -/
def runLocally (platform : HookPlatform) (config legacy : Option Json) (call : HookCall) : LocalAnswer :=
  let deferClass := alwaysDeferClassification config call.toolName
  if deferClass = .intrinsic ∨ deferClass = .operator then .alwaysDefer deferClass
  else if !allowSelfModification config && targetsControlPlane platform call.toolName call.toolInput then .askDaemon
  else match eventAutoApprovedBy config call.eventType with
    | some toggleKey => .approve ("event_toggle:" ++ toggleKey)
    | none =>
      if call.eventType = .permissionRequest then .askDaemon
      else match autoApprovedBy platform config legacy call.toolName call.toolInput with
        | some rule =>
          .approve (if deferClass = .releasedByDangerous then "auto_approve_dangerous:" ++ rule else rule)
        | none => .askDaemon

end HookPolicy
end Wisphive
