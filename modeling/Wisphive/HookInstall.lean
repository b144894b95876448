import Wisphive.Foundation.JsonEdits
import Wisphive.Proofs.HookMatcher

/-! Installing the Wisphive hooks into a settings document, and removing them again. Only the
rules of the hook events and the allowed permissions are touched. -/

namespace Wisphive
open Foundation HookMatcher

/-- Why an install leaves the settings as they are. -/
inductive InstallFailure where
  | refused (message : String)
  /-- A permissions value of another kind is indexed like an object. -/
  | panics
  deriving DecidableEq, Repr

/-- The path of the hook: beside the running program, or just the name. -/
structure HookBinary where
  path : String
  named : path = "wisphive-hook" ∨ path.toList.head? = some '/' ∧ fileName path.toList = some hookName

namespace HookBinary

theorem accepts (binary : HookBinary) :
    isWisphiveHookCommand (shellQuoteCommand binary.path) = true ∧
      isWisphiveHookCommand (codexHookCommand binary.path) = true := by
  rcases binary.named with bare | ⟨absolute, named⟩
  · rw [bare]
    decide +kernel
  · exact ⟨accepts_shellQuoteCommand absolute named, accepts_codexHookCommand absolute named⟩

end HookBinary

/-- What is installed for one kind of agent. The command is one that the matcher accepts. -/
structure HookInstaller where
  events : List String
  command : String
  timeout : Option Nat
  managesPermissions : Bool
  distinct : events.Nodup
  accepted : isWisphiveHookCommand command = true

namespace HookInstaller

def claudeHookEvents : List String :=
  ["PreToolUse", "PostToolUse", "PermissionRequest", "Elicitation", "UserPromptSubmit", "Stop", "SubagentStop", "ConfigChange",
    "TeammateIdle", "TaskCompleted"]

def codexHookEvents : List String :=
  ["PreToolUse", "PostToolUse", "PermissionRequest", "UserPromptSubmit", "Stop"]

def wisphivePermissions : List String :=
  ["Bash(*)", "Edit(*)", "Write(*)", "NotebookEdit(*)"]

/-- A margin above the daemon's timeout. -/
def installedHookTimeoutSecs (daemonHookTimeoutSecs : Nat) : Nat :=
  min (daemonHookTimeoutSecs + 100) (2 ^ 64 - 1)

def claude (binary : HookBinary) (daemonHookTimeoutSecs : Nat) : HookInstaller where
  events := claudeHookEvents
  command := shellQuoteCommand binary.path
  timeout := some (installedHookTimeoutSecs daemonHookTimeoutSecs)
  managesPermissions := true
  distinct := by decide
  accepted := binary.accepts.1

def codex (binary : HookBinary) (daemonHookTimeoutSecs : Nat) : HookInstaller where
  events := codexHookEvents
  command := codexHookCommand binary.path
  timeout := some (installedHookTimeoutSecs daemonHookTimeoutSecs)
  managesPermissions := false
  distinct := by decide
  accepted := binary.accepts.2

/-! ### Rules -/

/-- The hook has a command that the matcher accepts. -/
def isOurs (hook : Json) : Bool :=
  ((hook.get? "command").bind Json.asString?).any isWisphiveHookCommand

/-- The hooks of a rule in the nested form. -/
def nested (rule : Json) : Option (List Json) :=
  (rule.get? "hooks").bind Json.asArray?

/-- Both forms count, also side by side in one rule. -/
def hasWisphiveHook (rule : Json) : Bool :=
  (nested rule).any (·.any isOurs) || isOurs rule

def onArray (f : List Json → List Json) : Json → Json
  | .array items => .array (f items)
  | value => value

variable (installer : HookInstaller)

def updateCommandHook (hook : Json) : Json :=
  match hook with
  | .object members =>
    let members := Json.assignMember members "command" (.string installer.command)
    .object (match installer.timeout with
      | some timeout => Json.assignMember members "timeout" (.number (.integer timeout))
      | none => members)
  | hook => hook

/-- Only the nested hooks are updated where there are any. -/
def updateRule (rule : Json) : Json :=
  match nested rule with
  | some _ => Json.adjustAt "hooks" (onArray (·.map fun hook => if isOurs hook then installer.updateCommandHook hook else hook)) rule
  | none => if isOurs rule then installer.updateCommandHook rule else rule

def isUpdated (rule : Json) : Bool :=
  match nested rule with
  | some hooks => hooks.any isOurs
  | none => isOurs rule

/-- The rule that is added. -/
def ownRule : Json :=
  let hook := [("type", .string "command"), ("command", .string installer.command)] ++
    match installer.timeout with
    | some timeout => [("timeout", .number (.integer timeout))]
    | none => []
  .object [("matcher", .string ""), ("hooks", .array [.object hook])]

/-- Hooks of ours are updated where they stand, and else a rule is added. -/
def addRule (rules : List Json) : List Json :=
  if rules.any isUpdated then rules.map installer.updateRule else rules ++ [installer.ownRule]

/-- Hooks of ours are taken out of a rule, and a rule without hooks is dropped. -/
def removeFromRule (rule : Json) : Option Json :=
  match nested rule with
  | some hooks =>
    if hooks.all isOurs then none else some (Json.adjustAt "hooks" (onArray (·.filter (!isOurs ·))) rule)
  | none => if isOurs rule then none else some rule

/-! ### Documents -/

def addHookEntryWithTimeout (hooks : Json.Members) (event : String) : Json.Members :=
  Json.adjust event (onArray installer.addRule) (Json.ensure event (.array []) hooks)

def removeHookEntries (hooks : Json.Members) (event : String) : Json.Members :=
  Json.adjust event (onArray (·.filterMap removeFromRule)) hooks

/-- Each managed permission that is not there is added. -/
def addAllowed (allowed : List Json) : List Json :=
  wisphivePermissions.foldl
    (fun allowed perm => if allowed.any (·.asString? = some perm) then allowed else allowed ++ [.string perm]) allowed

/-- Only texts are kept, and of them those that are not managed. -/
def keepsPermission (entry : Json) : Bool :=
  entry.asString?.any (· ∉ wisphivePermissions)

def allowIn : Json → Json
  | .object members => .object (Json.adjust "allow" (onArray addAllowed) (Json.ensure "allow" (.array []) members))
  | .null => .object [("allow", .array (addAllowed []))]
  | value => value

def addWisphivePermissions (root : Json.Members) : Except InstallFailure Json.Members :=
  let root := Json.ensure "permissions" (.object []) root
  match root.lookup "permissions" with
  | some (.object _) | some .null => .ok (Json.adjust "permissions" allowIn root)
  | _ => .error .panics

def removeWisphivePermissions (root : Json.Members) : Json.Members :=
  Json.adjust "permissions" (Json.adjustAt "allow" (onArray (·.filter keepsPermission))) root

/-- The members of a document, with a hooks object among them. -/
def ensureHooksObject (path : String) (settings : Json) : Except InstallFailure Json.Members :=
  match settings with
  | .object root =>
    let root := Json.ensure "hooks" (.object []) root
    match root.lookup "hooks" with
    | some (.object _) => .ok root
    | _ => .error (.refused (path ++ " has an invalid `hooks` value: `hooks` must be a JSON object; " ++
        "replace it with `\"hooks\": \x7b\x7d` or remove the key, then retry hook installation"))
  | _ => .error (.refused (path ++ " must contain a JSON object at the document root"))

def onObject (f : Json.Members → Json.Members) : Json → Json
  | .object members => .object (f members)
  | value => value

/-- What is written to the settings file at the path. -/
def install (path : String) (settings : Json) : Except InstallFailure Json := do
  let root ← ensureHooksObject path settings
  let root := Json.adjust "hooks" (onObject fun hooks => installer.events.foldl installer.addHookEntryWithTimeout hooks) root
  let root ← if installer.managesPermissions then addWisphivePermissions root else .ok root
  .ok (.object root)

def uninstall (settings : Json) : Json :=
  onObject (fun root =>
    let root := Json.adjust "hooks" (onObject fun hooks => installer.events.foldl removeHookEntries hooks) root
    if installer.managesPermissions then removeWisphivePermissions root else root) settings

/-! ### What is left of the user's content -/

/-- The rules of an event. -/
def rulesOf (settings : Json) (event : String) : List Json :=
  (((settings.get? "hooks").bind (·.get? event)).bind Json.asArray?).getD []

/-- The allowed permissions. -/
def allowedIn (settings : Json) : List Json :=
  (((settings.get? "permissions").bind (·.get? "allow")).bind Json.asArray?).getD []

/-- No rule of an event has a hook of ours. -/
def Clean (settings : Json) : Prop :=
  ∀ event ∈ installer.events, ∀ rule ∈ rulesOf settings event, hasWisphiveHook rule = false

def containers (value : Json) : Json :=
  match value with
  | .object members => .object (Json.ensure "allow" (.array []) members)
  | .null => .object [("allow", .array [])]
  | value => value

/-- The document with the empty containers that an install makes. -/
def withContainers (settings : Json) : Json :=
  onObject (fun root =>
    let root := Json.adjust "hooks" (onObject fun hooks => installer.events.foldl (fun hooks event => Json.ensure event (.array []) hooks) hooks)
      (Json.ensure "hooks" (.object []) root)
    if installer.managesPermissions then Json.adjust "permissions" containers (Json.ensure "permissions" (.object []) root)
    else root) settings

/-- The rule without hooks of ours. -/
def withoutOurs (rule : Json) : Json :=
  Json.adjustAt "hooks" (onArray (·.filter (!isOurs ·))) rule

/-- Something in the rule is the user's: the rule has no hook of ours, or a nested hook or a
command beside the nested hooks that is not ours. -/
def isUsers (rule : Json) : Bool :=
  !hasWisphiveHook rule || (nested rule).any (·.any (!isOurs ·)) ||
    ((nested rule).isSome && (rule.get? "command").isSome && !isOurs rule)

/-- The rules, hooks and permissions of the user are still there. -/
structure Survives (before after : Json) : Prop where
  rules : ∀ event, ∀ rule ∈ rulesOf before event, hasWisphiveHook rule = false → rule ∈ rulesOf after event
  contents : ∀ event, ∀ rule ∈ rulesOf before event, isUsers rule = true →
    ∃ kept ∈ rulesOf after event, withoutOurs kept = withoutOurs rule
  permissions : ∀ entry ∈ allowedIn before, (∀ perm ∈ wisphivePermissions, entry ≠ .string perm) → entry ∈ allowedIn after

/-! ### Where that goes wrong -/

/-- No rule has an empty list of hooks, and each allowed entry is a text that is not managed. -/
structure Restorable (settings : Json) : Prop where
  rules : ∀ event ∈ installer.events, ∀ rule ∈ rulesOf settings event, nested rule ≠ some []
  permissions : installer.managesPermissions = true → ∀ entry ∈ allowedIn settings, keepsPermission entry = true

/-- No rule with a nested hook of the user has a command of ours beside it. -/
def Unmixed (settings : Json) : Prop :=
  ∀ event ∈ installer.events, ∀ rule ∈ rulesOf settings event, isOurs rule = true → ∀ hooks ∈ nested rule, hooks.all isOurs = true

/-- No rule in which something is the user's is without a nested hook of the user, and each
allowed entry is a text. -/
structure Unlost (settings : Json) : Prop where
  rules : ∀ event ∈ installer.events, ∀ rule ∈ rulesOf settings event, isUsers rule = true →
    ∀ hooks ∈ nested rule, hooks.all isOurs = false
  permissions : installer.managesPermissions = true → ∀ entry ∈ allowedIn settings, entry.asString?.isSome = true

end HookInstaller
end Wisphive
