import Wisphive.Foundation.JsonRewriting
import Wisphive.HookTransport

/-! What the hook prints for its agent, and the exit code that it leaves, by the protocol of the
event. -/

namespace Wisphive
open Foundation

/-- What a hook leaves behind for the agent that ran it. -/
structure HookExit where
  stdout : String := ""
  stderr : String := ""
  code : Nat := 0
  deriving DecidableEq, Repr

namespace HookOutput

def codexNoNativePromptReason : String :=
  "Wisphive cannot defer to a native prompt on Codex; re-run after explicit approval in the Wisphive TUI/web UI."

def codexNoUpdatedInputReason : String :=
  "Wisphive blocked this tool call because Codex hooks do not support updatedInput yet. Re-run with the edited input."

/-- `print!` of a value. -/
def printed (output : Json) : HookExit :=
  { stdout := output.render }

/-- The object that names its event. The keys of an object are sorted. -/
def hookSpecificOutput (members : List (String × Json)) : Json :=
  .object [("hookSpecificOutput", .object members)]

def preToolUseDeny (reason : String) : Json :=
  hookSpecificOutput [("hookEventName", .string "PreToolUse"), ("permissionDecision", .string "deny"),
    ("permissionDecisionReason", .string reason)]

/-- An approval with extras. A bare one prints nothing. -/
def preToolUseApproveValue (resp : HookResponse) : Option Json :=
  if resp.updatedInput.isNone ∧ resp.additionalContext.isNone then none
  else some (hookSpecificOutput (
    Wire.optional "additionalContext" (resp.additionalContext.map .string) ++
    [("hookEventName", .string "PreToolUse"), ("permissionDecision", .string "allow")] ++
    Wire.optional "updatedInput" resp.updatedInput))

def preToolUseStdout (resp : HookResponse) : Option Json × Nat :=
  match resp.decision with
  | .ask =>
    -- Codex has no prompt here, and silence would approve.
    if resp.agentType = .codex then (some (preToolUseDeny codexNoNativePromptReason), 0)
    else (some (hookSpecificOutput [("hookEventName", .string "PreToolUse"), ("permissionDecision", .string "ask")]), 0)
  | .deny =>
    match resp.message with
    | some reason => (some (preToolUseDeny reason), 0)
    | none => (none, 2)
  | .approve =>
    if resp.agentType = .codex then
      if resp.updatedInput.isSome then (some (preToolUseDeny codexNoUpdatedInputReason), 0)
      else
        match resp.additionalContext with
        | some context => (some (hookSpecificOutput
            [("additionalContext", .string context), ("hookEventName", .string "PreToolUse")]), 0)
        | none => (none, 0)
    else (preToolUseApproveValue resp, 0)

def formatPreToolUse (resp : HookResponse) : HookExit :=
  match preToolUseStdout resp with
  | (some output, code) => { printed output with code }
  | (none, code) => { code }

/-- Codex knows no extras. -/
def permissionDecisionObject (resp : HookResponse) : Option (List (String × Json)) :=
  match resp.decision with
  | .approve =>
    if resp.agentType = .codex then some [("behavior", .string "allow")]
    else some ([("behavior", .string "allow")] ++ Wire.optional "updatedInput" resp.updatedInput ++
      Wire.optional "updatedPermissions" (resp.selectedPermission.map fun chosen => .array [chosen.toValue.sorted]))
  | .deny => some ([("behavior", .string "deny")] ++ Wire.optional "message" (resp.message.map .string))
  | .ask => none

def permissionResponseValue (resp : HookResponse) : Option Json :=
  (permissionDecisionObject resp).map fun decision =>
    hookSpecificOutput [("decision", .object decision), ("hookEventName", .string "PermissionRequest")]

def formatPermissionResponse (resp : HookResponse) : HookExit :=
  match permissionResponseValue resp with
  | some output => printed output
  | none => {}

def blockWith (reason : String) : HookExit :=
  printed (.object [("decision", .string "block"), ("reason", .string reason)])

/-- A denied stop keeps the agent at work. -/
def formatStopResponse (resp : HookResponse) : HookExit :=
  match resp.decision with
  | .approve => if resp.agentType = .codex then {} else printed (.object [("decision", .string "approve")])
  | .deny => blockWith (resp.message.getD "continue working")
  | .ask => {}

def formatBlockResponse (resp : HookResponse) : HookExit :=
  match resp.decision with
  | .approve =>
    match resp.additionalContext with
    | some context => printed (hookSpecificOutput
        [("additionalContext", .string context), ("hookEventName", .string resp.eventType.display)])
    | none => {}
  | .deny =>
    match resp.message with
    | some reason => blockWith reason
    | none => { code := 2 }
  | .ask => {}

def elicitationAction (resp : HookResponse) : Option String :=
  match resp.decision with
  | .approve => some "accept"
  | .deny => some (if resp.message = some "cancel" then "cancel" else "decline")
  | .ask => none

def formatElicitationResponse (resp : HookResponse) : HookExit :=
  match elicitationAction resp with
  | none => {}
  | some action => printed (hookSpecificOutput (
      [("action", .string action)] ++
      (if action = "accept" then Wire.optional "content" resp.updatedInput else []) ++
      [("hookEventName", .string resp.eventType.display)]))

/-- A denial feeds the message back, and the teammate continues. -/
def formatTeammateIdleResponse (resp : HookResponse) : HookExit :=
  match resp.decision with
  | .deny => { stderr := resp.message.getD "", code := 2 }
  | .approve => printed (.object
      [("continue", .bool false), ("stopReason", .string (resp.message.getD "stopped by user"))])
  | .ask => {}

def formatTaskCompletedResponse (resp : HookResponse) : HookExit :=
  match resp.decision with
  | .deny => { stderr := resp.message.getD "", code := 2 }
  | .approve | .ask => {}

def unknownEventNotice : String :=
  "Wisphive ignored an unknown hook event. Update wisphive_protocol::HookEventType.\n"

/-- What is telemetry only is never blocked. -/
def formatAndExit (resp : HookResponse) : HookExit :=
  match resp.eventType with
  | .preToolUse => formatPreToolUse resp
  | .permissionRequest => formatPermissionResponse resp
  | .postToolUse | .postToolUseFailure => {}
  | .stop | .subagentStop => formatStopResponse resp
  | .userPromptSubmit | .configChange | .preCompact => formatBlockResponse resp
  | .elicitation | .elicitationResult => formatElicitationResponse resp
  | .teammateIdle => formatTeammateIdleResponse resp
  | .taskCompleted => formatTaskCompletedResponse resp
  | .instructionsLoaded | .subagentStart | .stopFailure | .worktreeCreate | .worktreeRemove | .postCompact
  | .sessionStart | .sessionEnd | .notification => {}
  | .unknown => { stderr := unknownEventNotice }

end HookOutput
end Wisphive
