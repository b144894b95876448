import Wisphive.Foundation.Json

/-! The protocol's data: decision requests, the human's answers, and the filter
of bulk commands. -/

namespace Wisphive
open Foundation

abbrev Uuid := BitVec 128

instance : LawfulBEq Uuid := inferInstance

/-- The hexadecimal digits, the highest one first. -/
def uuidDigits (id : Uuid) : List Char :=
  (List.range 32).map fun place => (id.extractLsb' (4 * (31 - place)) 4).toNat.digitChar

/-- Thirty-two hexadecimal digits in groups of 8, 4, 4, 4 and 12. -/
def uuidText (id : Uuid) : String :=
  let digits := uuidDigits id
  let group (start length : Nat) := String.ofList ((digits.drop start).take length)
  group 0 8 ++ "-" ++ group 8 4 ++ "-" ++ group 12 4 ++ "-" ++ group 16 4 ++ "-" ++ group 20 12

theorem digit_injective :
    ∀ first second : BitVec 4, first.toNat.digitChar = second.toNat.digitChar → first = second := by
  decide

theorem uuidDigits_injective {id other : Uuid} (same : uuidDigits id = uuidDigits other) : id = other := by
  have digits := List.map_inj_left.mp same
  apply BitVec.eq_of_getLsbD_eq
  intro index bound
  have nibble := digit_injective _ _ (digits (31 - index / 4) (List.mem_range.mpr (by omega)))
  have bit := congrArg (·.getLsbD (index % 4)) nibble
  have place : 4 * (31 - (31 - index / 4)) + index % 4 = index := by omega
  have inside : index % 4 < 4 := Nat.mod_lt _ (by decide)
  simpa [BitVec.getLsbD_extractLsb', inside, place] using bit

theorem digit_not_dash : ∀ nibble : BitVec 4, nibble.toNat.digitChar ≠ '-' := by
  decide

/-- Without the dashes the text gives the digits back. -/
theorem uuidText_digits (id : Uuid) : (uuidText id).toList.filter (· ≠ '-') = uuidDigits id := by
  have plain : ∀ char ∈ uuidDigits id, char ≠ '-' := by
    intro char member
    obtain ⟨place, _, rfl⟩ := List.mem_map.mp member
    exact digit_not_dash _
  have group : ∀ start length, (((uuidDigits id).drop start).take length).filter (· ≠ '-') =
      ((uuidDigits id).drop start).take length := by
    intro start length
    apply List.filter_eq_self.mpr
    intro char member
    exact decide_eq_true (plain char (List.mem_of_mem_drop (List.mem_of_mem_take member)))
  have dash : "-".toList.filter (· ≠ '-') = [] := rfl
  have length : (uuidDigits id).length = 32 := by rw [uuidDigits, List.length_map, List.length_range]
  simp only [uuidText, String.toList_append, String.toList_ofList, List.filter_append, group, dash, List.append_nil]
  have joined : ∀ first second : Nat, (uuidDigits id).take first ++ ((uuidDigits id).drop first).take second =
      (uuidDigits id).take (first + second) := fun first second => List.take_add.symm
  rw [List.drop_zero, joined 8 4, joined 12 4, joined 16 4, joined 20 12]
  exact List.take_of_length_le (Nat.le_of_eq length)

theorem uuidText_injective {id other : Uuid} (same : uuidText id = uuidText other) : id = other := by
  apply uuidDigits_injective
  rw [← uuidText_digits id, ← uuidText_digits other, same]

/-- Nanoseconds since the Unix epoch. -/
abbrev DateTime := Int

inductive AgentType where
  | codex
  | claudeCode
  | red
  | localLlm
  deriving DecidableEq, Repr

namespace AgentType

def display : AgentType → String
  | .codex => "codex"
  | .claudeCode => "claude_code"
  | .red => "red"
  | .localLlm => "local_llm"

/-- The JSON text in which the agent type is stored. -/
def column (agentType : AgentType) : String :=
  (Json.string agentType.display).render

end AgentType

/-- A Unix path. Paths are compared by their components, not by their text. -/
structure PathBuf where
  text : String
  deriving DecidableEq, Repr

namespace PathBuf

def segments : List Char → List (List Char)
  | [] => [[]]
  | char :: rest =>
    if char = '/' then [] :: segments rest
    else match segments rest with
      | [] => [[char]]
      | segment :: others => (char :: segment) :: others

/-- Whether the path starts at the root, and its names. Empty names are
dropped, and so is `.` unless it leads a relative path. -/
def components (path : PathBuf) : Bool × List (List Char) :=
  let rooted := path.text.toList.head? = some '/'
  match segments path.text.toList with
  | [] => (rooted, [])
  | first :: rest =>
    let later := rest.filter fun segment => segment ≠ [] ∧ segment ≠ ['.']
    if first = [] then (rooted, later) else (rooted, first :: later)

end PathBuf

structure PermissionRule where
  toolName : String
  ruleContent : String
  deriving DecidableEq, Repr

structure PermissionSuggestion where
  suggestionType : String
  rules : List PermissionRule := []
  behavior : String
  destination : String
  mode : Option String := none
  deriving DecidableEq, Repr

inductive HookEventType where
  | preToolUse
  | postToolUse
  | postToolUseFailure
  | permissionRequest
  | elicitation
  | elicitationResult
  | instructionsLoaded
  | userPromptSubmit
  | stop
  | subagentStop
  | subagentStart
  | stopFailure
  | configChange
  | teammateIdle
  | taskCompleted
  | worktreeCreate
  | worktreeRemove
  | preCompact
  | postCompact
  | sessionStart
  | sessionEnd
  | notification
  | unknown
  deriving DecidableEq, Repr

namespace HookEventType

def display : HookEventType → String
  | .preToolUse => "PreToolUse"
  | .postToolUse => "PostToolUse"
  | .postToolUseFailure => "PostToolUseFailure"
  | .permissionRequest => "PermissionRequest"
  | .elicitation => "Elicitation"
  | .elicitationResult => "ElicitationResult"
  | .instructionsLoaded => "InstructionsLoaded"
  | .userPromptSubmit => "UserPromptSubmit"
  | .stop => "Stop"
  | .subagentStop => "SubagentStop"
  | .subagentStart => "SubagentStart"
  | .stopFailure => "StopFailure"
  | .configChange => "ConfigChange"
  | .teammateIdle => "TeammateIdle"
  | .taskCompleted => "TaskCompleted"
  | .worktreeCreate => "WorktreeCreate"
  | .worktreeRemove => "WorktreeRemove"
  | .preCompact => "PreCompact"
  | .postCompact => "PostCompact"
  | .sessionStart => "SessionStart"
  | .sessionEnd => "SessionEnd"
  | .notification => "Notification"
  | .unknown => "Unknown"

end HookEventType

/-- A decision the human needs to make about a tool call or hook event. -/
structure DecisionRequest where
  id : Uuid
  agentId : String
  agentType : AgentType
  project : PathBuf
  toolName : String
  toolInput : Json
  timestamp : DateTime
  hookEventName : HookEventType := .preToolUse
  toolUseId : Option String := none
  permissionSuggestions : Option (List PermissionSuggestion) := none
  eventData : Option Json := none
  terminalSessionId : Option Uuid := none
  deriving DecidableEq, Repr

inductive Decision where
  | approve
  | deny
  | ask
  deriving DecidableEq, Repr

namespace Decision

def word : Decision → String
  | .approve => "approve"
  | .deny => "deny"
  | .ask => "ask"

/-- The JSON text in which the decision is stored. -/
def column (decision : Decision) : String :=
  (Json.string decision.word).render

end Decision

/-- The core decision with its feedback, its replacement input and the client
that made it. -/
structure RichDecision where
  decision : Decision
  message : Option String := none
  updatedInput : Option Json := none
  alwaysAllow : Bool := false
  additionalContext : Option String := none
  selectedPermission : Option PermissionSuggestion := none
  resolver : Option String := none
  deriving DecidableEq, Repr

namespace RichDecision

def approve : RichDecision := { decision := .approve }

def deny : RichDecision := { decision := .deny }

def ofDecision (decision : Decision) : RichDecision := { decision }

end RichDecision

/-- Request to spawn a new agent process. -/
structure SpawnAgentRequest where
  agentType : AgentType
  project : PathBuf
  prompt : String
  model : Option String := none
  name : Option String := none
  reasoning : Option String := none
  maxTurns : Option Nat := none
  permissionMode : Option String := none
  systemPrompt : Option String := none
  appendSystemPrompt : Option String := none
  allowedTools : Option (List String) := none
  disallowedTools : Option (List String) := none
  continueSession : Bool := false
  resume : Option String := none
  outputFormat : Option String := none
  verbose : Bool := false
  deriving DecidableEq, Repr

namespace SpawnAgentRequest

private def optional (name : String) (value : Option Json) : List (String × Json) :=
  match value with
  | some value => [(name, value)]
  | none => []

private def tools (names : List String) : Json :=
  .array (names.map .string)

/-- `serde_json::to_value`. Absent fields are skipped and names are sorted. -/
def toValue (req : SpawnAgentRequest) : Json :=
  .object (
    [("agent_type", .string req.agentType.display)] ++
    optional "allowed_tools" (req.allowedTools.map tools) ++
    optional "append_system_prompt" (req.appendSystemPrompt.map .string) ++
    [("continue_session", .bool req.continueSession)] ++
    optional "disallowed_tools" (req.disallowedTools.map tools) ++
    optional "max_turns" (req.maxTurns.map fun turns => .number (.integer turns)) ++
    optional "model" (req.model.map .string) ++
    optional "name" (req.name.map .string) ++
    optional "output_format" (req.outputFormat.map .string) ++
    optional "permission_mode" (req.permissionMode.map .string) ++
    [("project", .string req.project.text), ("prompt", .string req.prompt)] ++
    optional "reasoning" (req.reasoning.map .string) ++
    optional "resume" (req.resume.map .string) ++
    optional "system_prompt" (req.systemPrompt.map .string) ++
    [("verbose", .bool req.verbose)])

/-- A unit variant is its name, or an object that maps the name to null. -/
private def agentTypeOf : Json → Option AgentType
  | .string name | .object [(name, .null)] =>
    [AgentType.codex, .claudeCode, .red, .localLlm].find? (·.display = name)
  | _ => none

/-- A member that may be absent or null. -/
private def optionalOf {α : Type} (parse : Json → Option α) (name : String) (value : Json) : Option (Option α) :=
  match value.get? name with
  | none | some .null => some none
  | some member => (parse member).map some

private def boolOf : Json → Option Bool
  | .bool value => some value
  | _ => none

/-- An integer of 32 bits. -/
private def turnsOf : Json → Option Nat
  | .number (.integer value) => if 0 ≤ value ∧ value < 4294967296 then some value.toNat else none
  | _ => none

private def toolsOf : Json → Option (List String)
  | .array items => items.mapM (·.asString?)
  | _ => none

/-- A member that may be absent but not null. -/
private def defaulted {α : Type} (parse : Json → Option α) (absent : α) (name : String) (value : Json) : Option α :=
  match value.get? name with
  | none => some absent
  | some member => parse member

/-- `serde_json::from_value`, on an object. -/
def fromValue (value : Json) : Option SpawnAgentRequest := do
  let agentType ← defaulted agentTypeOf .claudeCode "agent_type" value
  let project ← (value.get? "project").bind (·.asString?)
  let prompt ← (value.get? "prompt").bind (·.asString?)
  let model ← optionalOf (·.asString?) "model" value
  let name ← optionalOf (·.asString?) "name" value
  let reasoning ← optionalOf (·.asString?) "reasoning" value
  let maxTurns ← optionalOf turnsOf "max_turns" value
  let permissionMode ← optionalOf (·.asString?) "permission_mode" value
  let systemPrompt ← optionalOf (·.asString?) "system_prompt" value
  let appendSystemPrompt ← optionalOf (·.asString?) "append_system_prompt" value
  let allowedTools ← optionalOf toolsOf "allowed_tools" value
  let disallowedTools ← optionalOf toolsOf "disallowed_tools" value
  let continueSession ← defaulted boolOf false "continue_session" value
  let resume ← optionalOf (·.asString?) "resume" value
  let outputFormat ← optionalOf (·.asString?) "output_format" value
  let verbose ← defaulted boolOf false "verbose" value
  return {
    agentType, project := ⟨project⟩, prompt, model, name, reasoning, maxTurns, permissionMode, systemPrompt,
    appendSystemPrompt, allowedTools, disallowedTools, continueSession, resume, outputFormat, verbose }

end SpawnAgentRequest

structure DecisionFilter where
  toolName : Option String := none
  project : Option PathBuf := none
  agentType : Option AgentType := none
  deriving DecidableEq, Repr

namespace DecisionFilter

/-- Every criterion that is present must agree. -/
def matchesRequest (filter : DecisionFilter) (req : DecisionRequest) : Bool :=
  if filter.toolName.any (req.toolName ≠ ·) then false
  else if filter.project.any (req.project.components ≠ ·.components) then false
  else if filter.agentType.any (req.agentType ≠ ·) then false
  else true

end DecisionFilter
end Wisphive
