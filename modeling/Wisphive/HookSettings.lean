import Wisphive.CodexAudit
import Wisphive.Foundation.JsonCodec
import Wisphive.Foundation.JsonMembers

/-! The audit of one hook-settings source: which of its hooks is the gate that the installer
writes, and which others the agent would load. -/

namespace Wisphive
open Foundation

inductive HookSettingsKind where
  | claude
  | codex
  deriving DecidableEq, Repr

namespace HookSettingsKind

def label : HookSettingsKind → String
  | .claude => "Claude"
  | .codex => "Codex"

def settingsPath (project : String) : HookSettingsKind → String
  | .claude => CodexSetup.join (CodexSetup.join project ".claude") "settings.json"
  | .codex => CodexSetup.join (CodexSetup.join project ".codex") "hooks.json"

end HookSettingsKind

/-- The verdict on a source. The locations are those of its gates. -/
structure HookVerdict extends HookSettingsSecurity where
  hasBlockingPretoolGate : Bool := false
  deriving DecidableEq, Repr

/-- What a rule and a hook both say about when they run. -/
structure HookTerms where
  disabled : Bool
  isAsync : Bool
  asyncRewake : Bool
  condition : Option String
  timeout : Option Nat

structure HookRule extends HookTerms where
  index : Nat
  matcher : Option String

structure HookEntry extends HookTerms where
  index : Nat
  hookType : String
  command : Option String

/-- What the inspection of a source is made for. -/
structure HookInspection where
  kind : HookSettingsKind
  expected : String
  daemonHookTimeoutSecs : Nat

namespace HookSettings

def claudeDefaultHookTimeoutSecs : Nat := 600

/-- In single quotes, unless every character is plain. -/
def installerShellQuote (command : String) : String :=
  if command.toList.all fun char => char.isAlphanum || ['/', '.', '_', '-'].contains char then command
  else
    String.ofList ('\'' :: command.toList.flatMap (fun char => if char = '\'' then ['\'', '\\', '\'', '\''] else [char]) ++
      ['\''])

def expectedHookCommand (kind : HookSettingsKind) (binaryPath : String) : String :=
  match kind with
  | .claude => installerShellQuote binaryPath
  | .codex => "env WISPHIVE_AGENT_TYPE=codex " ++ installerShellQuote binaryPath

/-- An optional field has to be of its type. -/
def optionalField {α : Type} (read : Json → Option α) (expected : String) (object : Json) (field context : String) :
    Except String (Option α) :=
  match object.get? field with
  | none => .ok none
  | some value =>
    match read value with
    | some content => .ok (some content)
    | none => .error (context ++ " " ++ field ++ " must be " ++ expected)

def optionalBool (object : Json) (field context : String) : Except String Bool :=
  (optionalField Json.asBool? "boolean" object field context).map (·.getD false)

def optionalU64 (object : Json) (field context : String) : Except String (Option Nat) :=
  (optionalField (Json.Codec.readInteger 0 18446744073709551616) "an unsigned integer" object field context).map
    (·.map Int.toNat)

def optionalCondition (object : Json) (context : String) : Except String (Option String) :=
  optionalField Json.asString? "a string" object "if" context

def orRefuse {α : Type} (value : Option α) (message : String) : Except String α :=
  match value with
  | some content => .ok content
  | none => .error message

def refuseWhen (bad : Bool) (message : String) : Except String Unit :=
  if bad then .error message else .ok ()

def optionalText (object : Json) (field message : String) : Except String (Option String) :=
  match object.get? field with
  | none => .ok none
  | some value => (orRefuse value.asString? message).map some

/-- The fields of a rule and those of a hook are read alike. -/
def readTerms (kind : HookSettingsKind) (what context : String) (object : Json) : Except String HookTerms := do
  refuseWhen (kind = .claude && (object.get? "disabled").isSome) ("Claude hook " ++ what ++ " do not support a disabled field")
  let disabled ← optionalBool object "disabled" context
  let isAsync ← optionalBool object "async" context
  let asyncRewake ← optionalBool object "asyncRewake" context
  let condition ← optionalCondition object context
  let timeout ← optionalU64 object "timeout" context
  .ok { disabled, isAsync, asyncRewake, condition, timeout }

def readRule (kind : HookSettingsKind) (event : String) (rule : Json) (index : Nat) :
    Except String (HookRule × List Json) := do
  let _ ← orRefuse rule.asObject? (kind.label ++ " " ++ event ++ " hook rule must be an object")
  let terms ← readTerms kind "rules" (kind.label ++ " hook rule") rule
  let matcher ← optionalText rule "matcher" (kind.label ++ " " ++ event ++ " hook matcher must be a string")
  let hooks ← orRefuse ((rule.get? "hooks").bind Json.asArray?) (kind.label ++ " " ++ event ++ " rule hooks must be an array")
  refuseWhen hooks.isEmpty (kind.label ++ " " ++ event ++ " hook rule contains no hook entries")
  .ok ({ terms with index, matcher }, hooks)

def readEntry (kind : HookSettingsKind) (hook : Json) (index : Nat) : Except String HookEntry := do
  let _ ← orRefuse hook.asObject? (kind.label ++ " hook entry must be an object")
  let terms ← readTerms kind "entries" (kind.label ++ " hook") hook
  let hookType ← orRefuse ((hook.get? "type").bind Json.asString?) (kind.label ++ " hook type must be a string")
  let command ← optionalText hook "command" (kind.label ++ " hook command must be a string")
  refuseWhen (hookType = "command" && command = none) (kind.label ++ " command hook is missing its command")
  .ok { terms with index, hookType, command }

/-- How a hook that is not the gate is reported. -/
def descriptor (hook : HookEntry) : String :=
  match hook.command with
  | some command => "<" ++ hook.hookType ++ " hook: " ++ command ++ ">"
  | none => "<" ++ hook.hookType ++ " hook>"

variable (inspection : HookInspection)

/-- A gate runs for every tool, unconditionally, and the agent waits for it. -/
def validShape (rule : HookRule) (hook : HookEntry) : Bool :=
  rule.matcher = some "" && !rule.isAsync && !hook.isAsync && !rule.asyncRewake && !hook.asyncRewake &&
    rule.condition = none && hook.condition = none

/-- The hook's own timeout, or its rule's. Only Claude is known to give up on a gate. -/
def adequateTimeout (timeout : Option Nat) : Bool :=
  inspection.kind ≠ .claude || timeout.getD claudeDefaultHookTimeoutSecs > inspection.daemonHookTimeoutSecs

def checkGate (rule : HookRule) (hook : HookEntry) : Except String Unit :=
  let timeout := hook.timeout.or rule.timeout
  if validShape rule hook then
    if adequateTimeout inspection timeout then .ok ()
    else
      let detail := match timeout with
        | none => "no timeout field (Claude Code's implicit " ++ toString claudeDefaultHookTimeoutSecs ++ "s applies)"
        | some seconds => "timeout " ++ toString seconds ++ "s"
      .error (inspection.kind.label ++ " Wisphive PreToolUse hook has " ++ detail ++ ", which does not exceed the daemon " ++
        "hook approval timeout (" ++ toString inspection.daemonHookTimeoutSecs ++ "s); the agent would cancel the blocking " ++
        "hook and abandon a pending approval before the daemon resolves it (itr#510) — reinstall the hooks to write an " ++
        "aligned timeout")
  else
    .error (inspection.kind.label ++ " has an active but non-blocking/conditional Wisphive PreToolUse variant")

/-- The hook runs the command that the installer writes, and nothing else. -/
def exactWisphive (hook : HookEntry) : Bool :=
  hook.hookType = "command" && hook.command = some inspection.expected

def judgeHook (disableAll : Bool) (event : String) (rule : HookRule) (verdict : HookVerdict) (hook : HookEntry) :
    Except String HookVerdict :=
  if disableAll || rule.disabled || hook.disabled then .ok verdict
  else if exactWisphive inspection hook then
    if event = "PreToolUse" then
      (checkGate inspection rule hook).map fun _ =>
        { verdict with
          hasBlockingPretoolGate := true
          gateLocations := verdict.gateLocations ++ [(rule.index, hook.index)] }
    else .ok verdict
  else .ok { verdict with foreignHooks := CodexSetup.addNew verdict.foreignHooks [descriptor hook] }

def inspectHook (disableAll : Bool) (event : String) (rule : HookRule) (verdict : HookVerdict) (hook : Json × Nat) :
    Except String HookVerdict := do
  let entry ← readEntry inspection.kind hook.1 hook.2
  judgeHook inspection disableAll event rule verdict entry

def inspectRule (disableAll : Bool) (event : String) (verdict : HookVerdict) (rule : Json × Nat) :
    Except String HookVerdict := do
  let (terms, hooks) ← readRule inspection.kind event rule.1 rule.2
  hooks.zipIdx.foldlM (inspectHook inspection disableAll event terms) verdict

def inspectEvent (disableAll : Bool) (verdict : HookVerdict) (event : String × Json) : Except String HookVerdict := do
  let rules ← orRefuse event.2.asArray? (inspection.kind.label ++ " " ++ event.1 ++ " hook rules must be an array")
  rules.zipIdx.foldlM (inspectRule inspection disableAll event.1) verdict

def inspectHookValue (path : String) (settings : Json) : Except String HookVerdict := do
  let _ ← orRefuse settings.asObject? (inspection.kind.label ++ " settings in " ++ path ++ " must be a JSON object")
  let disableAll ← optionalBool settings "disableAllHooks" (inspection.kind.label ++ " settings")
  refuseWhen (disableAll && inspection.kind = .codex)
    (inspection.kind.label ++ " hook source " ++ path ++ " sets `disableAllHooks: true`; its scope in Codex's " ++
      "merged hook inventory cannot be positively confirmed, so the managed spawn is refused")
  match settings.get? "hooks" with
  | none => .ok {}
  | some hooks =>
    let events ← orRefuse hooks.asObject? (inspection.kind.label ++ " hooks must be a JSON object")
    events.foldlM (inspectEvent inspection disableAll) {}

end HookSettings
end Wisphive
