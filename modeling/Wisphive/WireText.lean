import Wisphive.EventFiles
import Wisphive.Foundation.JsonLayout
import Wisphive.Wire

/-! The text of the messages that a hook and the daemon exchange. A message is a line
of compact JSON, and members that are absent are skipped. -/

namespace Wisphive
open Foundation

/-! ### Identifiers -/

/-- Thirty-two hexadecimal digits. -/
def uuidOfDigits (digits : List Char) : Option Uuid :=
  if digits.length = 32 then (Json.hexNumber digits).map (BitVec.ofNat 128) else none

/-- Groups of 8, 4, 4, 4 and 12 digits. -/
def parseHyphenated (text : List Char) : Option Uuid :=
  if [8, 13, 18, 23].all (text[·]? = some '-') then
    uuidOfDigits (text.take 8 ++ (text.drop 9).take 4 ++ (text.drop 14).take 4 ++ (text.drop 19).take 4 ++ text.drop 24)
  else none

/-- `Uuid::parse_str`: plain digits, groups with hyphens, and those in braces or as a URN. -/
def parseUuid (text : String) : Option Uuid :=
  let chars := text.toList
  if chars.length = 32 then uuidOfDigits chars
  else if chars.length = 36 then parseHyphenated chars
  else if chars.length = 38 ∧ chars.head? = some '{' ∧ chars.getLast? = some '}' then
    parseHyphenated (chars.tail.dropLast)
  else if chars.length = 45 ∧ "urn:uuid:".toList <+: chars then parseHyphenated (chars.drop 9)
  else none

/-! ### Members -/

namespace Wire

/-- A member that is skipped when it is absent. -/
def optional (name : String) (value : Option Json) : List (String × Json) :=
  match value with
  | some value => [(name, value)]
  | none => []

/-- A member that must be there. -/
def required {α : Type} (parse : Json → Option α) (name : String) (value : Json) : Option α :=
  (value.get? name).bind parse

/-- A member that may be absent or null. -/
def optionalOf {α : Type} (parse : Json → Option α) (name : String) (value : Json) : Option (Option α) :=
  match value.get? name with
  | none | some .null => some none
  | some member => (parse member).map some

/-- A member that may be absent but not null. -/
def defaulted {α : Type} (parse : Json → Option α) (absent : α) (name : String) (value : Json) : Option α :=
  match value.get? name with
  | none => some absent
  | some member => parse member

/-- A unit variant is its name, or an object that maps the name to null. -/
def variantOf {α : Type} (name : α → String) (all : List α) : Json → Option α
  | .string text | .object [(text, .null)] => all.find? (name · = text)
  | _ => none

def uuidOf : Json → Option Uuid
  | .string text => parseUuid text
  | _ => none

/-- An integer of 32 bits. -/
def u32Of : Json → Option Nat
  | .number (.integer value) => if 0 ≤ value ∧ value < 4294967296 then some value.toNat else none
  | _ => none

/-- No name of a structure stands twice. -/
def single (names : List String) : Json → Bool
  | .object members => ((members.map (·.1)).filter (· ∈ names)).Nodup
  | _ => false

end Wire

open Wire

namespace PermissionRule

def toValue (rule : PermissionRule) : Json :=
  .object [("toolName", .string rule.toolName), ("ruleContent", .string rule.ruleContent)]

def fromValue (value : Json) : Option PermissionRule := do
  guard (single ["toolName", "ruleContent"] value)
  let toolName ← required (·.asString?) "toolName" value
  let ruleContent ← required (·.asString?) "ruleContent" value
  return { toolName, ruleContent }

end PermissionRule

namespace PermissionSuggestion

def toValue (suggestion : PermissionSuggestion) : Json :=
  .object (
    [("type", .string suggestion.suggestionType)] ++
    (if suggestion.rules = [] then [] else [("rules", .array (suggestion.rules.map (·.toValue)))]) ++
    [("behavior", .string suggestion.behavior), ("destination", .string suggestion.destination)] ++
    Wire.optional "mode" (suggestion.mode.map .string))

def fromValue (value : Json) : Option PermissionSuggestion := do
  guard (single ["type", "rules", "behavior", "destination", "mode"] value)
  let suggestionType ← required (·.asString?) "type" value
  let rules ← defaulted (fun rules => rules.asArray?.bind (·.mapM PermissionRule.fromValue)) [] "rules" value
  let behavior ← required (·.asString?) "behavior" value
  let destination ← required (·.asString?) "destination" value
  let mode ← optionalOf (·.asString?) "mode" value
  return { suggestionType, rules, behavior, destination, mode }

end PermissionSuggestion

namespace ServerMessage

/-- The kinds that no hook's connection carries have no text here. -/
def toValue : ServerMessage → Option Json
  | .welcome version => some (.object [("type", .string "welcome"), ("version", .number (.integer version))])
  | .decisionResponse id decision message updatedInput additionalContext selectedPermission =>
    some (.object (
      [("type", .string "decision_response"), ("id", .string (uuidText id)), ("decision", .string decision.word)] ++
      Wire.optional "message" (message.map .string) ++
      Wire.optional "updated_input" updatedInput ++
      Wire.optional "additional_context" (additionalContext.map .string) ++
      Wire.optional "selected_permission" (selectedPermission.map (·.toValue))))
  | .error message => some (.object [("type", .string "error"), ("message", .string message)])
  | .overloaded message => some (.object [("type", .string "overloaded"), ("message", .string message)])
  | _ => none

/-- The tags of the kinds that no hook's connection carries. -/
def otherTags : List String :=
  ["queue_snapshot", "new_decision", "decision_resolved", "audit_snapshot", "audit_decision", "deferred_resolved",
    "agent_connected", "agent_disconnected", "agent_spawned", "agent_exited", "agent_list", "agent_spawn_queued",
    "agent_stop_response", "command_error", "history_response", "sessions_response", "projects_response",
    "worktrees_response", "burn_response", "project_hook_status", "install_hooks_result", "agents_snapshot",
    "reimport_complete", "web_login_failure", "web_login_success", "web_device_registered", "web_device_revoked",
    "web_reauth_required", "mark_device_fresh_ack", "term_created", "term_list_response", "term_chunk", "term_catchup",
    "term_ended", "term_replay_chunk", "term_replay_done", "term_error", "disk_alert", "config_alert"]

/-- The tag comes first. Of the other kinds the members are not looked at. -/
def fromValue (value : Json) : Option ServerMessage := do
  guard (single ["type"] value)
  let tag ← required (·.asString?) "type" value
  if tag = "welcome" then
    guard (single ["version"] value)
    return .welcome (← required u32Of "version" value)
  else if tag = "decision_response" then
    guard (single ["id", "decision", "message", "updated_input", "additional_context", "selected_permission"] value)
    let id ← required uuidOf "id" value
    let decision ← required (variantOf Decision.word [.approve, .deny, .ask]) "decision" value
    let message ← optionalOf (·.asString?) "message" value
    let updatedInput ← optionalOf some "updated_input" value
    let additionalContext ← optionalOf (·.asString?) "additional_context" value
    let selectedPermission ← optionalOf PermissionSuggestion.fromValue "selected_permission" value
    return .decisionResponse id decision message updatedInput additionalContext selectedPermission
  else if tag = "error" then
    guard (single ["message"] value)
    return .error (← required (·.asString?) "message" value)
  else if tag = "overloaded" then
    guard (single ["message"] value)
    return .overloaded (← required (·.asString?) "message" value)
  else if tag ∈ otherTags then return .other
  else none

/-- `encode`: the JSON text and a line end. -/
def encode (message : ServerMessage) : Option String :=
  message.toValue.map fun value => value.render ++ "\n"

/-- `decode`. -/
def decode (float : String → Option String) (line : String) : Option ServerMessage :=
  (Json.parse float (EventIngest.trim line)).bind fromValue

end ServerMessage
end Wisphive
