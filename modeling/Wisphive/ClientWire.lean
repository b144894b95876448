import Wisphive.Foundation.JsonUnion
import Wisphive.HistorySearch
import Wisphive.Proofs.WireText
import Wisphive.ToolResults
import Wisphive.WebSessions

/-! Client commands as lines of JSON, with all that they carry. A command is an envelope
that is flattened around a message, and the fields of each message are listed in the
order in which they are written. -/

namespace Wisphive
open Foundation Foundation.Json

namespace Protocol

/-- The bits of a number of 32 bits with a fraction. -/
abbrev F32 := BitVec 32

/-- What the protocol takes from its libraries: numbers that are no integers and times.
The text of a number that was read, or that is no infinity, is a number again, which may be
another one. The text of a time stands for the time. -/
structure WirePlatform where
  float : String → Option String
  f32Text : F32 → Option String
  f32Of : Number → F32
  toRfc3339 : DateTime → String
  parseRfc3339 : String → Option DateTime
  rewritable : Rewritable float
  f32Rewritable : ∀ {speed text}, f32Text speed = some text → ReadAs float (.float text) (settle float (.float text))
  timestamps : ∀ time, parseRfc3339 (toRfc3339 time) = some time

/-- Environment variables, one value for each name. -/
abbrev Env := { entries : List (String × String) // Assoc.Keyed entries }

/-- Messages sent from clients to the daemon. -/
inductive ClientMessage where
  | hello (client : ClientType) (version : Nat)
  | decisionRequest (req : DecisionRequest)
  | approve (id : Uuid) (message : Option String) (updatedInput : Option Json) (alwaysAllow : Bool)
      (additionalContext : Option String)
  | deny (id : Uuid) (message : Option String)
  | ask (id : Uuid)
  | approveAll (filter : Option DecisionFilter) (confirm : Bool)
  | denyAll (filter : Option DecisionFilter)
  | spawnAgent (req : SpawnAgentRequest)
  | listAgents
  | stopAgent (agentId : String)
  | queryHistory (agentId : Option String) (limit : Option Nat) (requestId : Option String)
  | toolResult (result : ToolResult)
  | searchHistory (search : HistorySearch)
  | querySessions
  | queryProjects
  | queryWorktrees
  | queryBurn
  | installHooks (project : PathBuf)
  | queryProjectHookStatus (project : PathBuf)
  | agentRegister (agentId : String) (agentType : AgentType) (project : PathBuf)
  | reimportEvents
  | approvePermission (id : Uuid) (suggestionIndex : Nat) (message : Option String)
  | termCreate (label command : Option String) (args : Option (List String)) (cwd : Option PathBuf)
      (cols rows : Nat) (env : Option Env)
  | termAttach (id : Uuid)
  | termDetach (id : Uuid)
  | termInput (id : Uuid) (data : String)
  | termResize (id : Uuid) (cols rows : Nat)
  | termClose (id : Uuid)
  | termList
  | termReplay (id : Uuid) (fromSeq : Option Nat) (speed : Option F32)
  | termSetGroup (id : Uuid) (group : Option String)
  | termReorder (id : Uuid) (sortOrder : Int)
  | termSetPinned (id : Uuid) (pinned : Bool)
  | markDeviceFresh
  deriving DecidableEq

/-- A message with the context of the connection that it came over. -/
structure ClientCommand where
  body : ClientMessage
  deviceId : Option DeviceId := none
  correlationId : Option String := none
  deriving DecidableEq

/-! ### Values -/

section
variable {float : String → Option String} {depth : Nat}

theorem uuidOf_uuidText (id : Uuid) : Wire.uuidOf (.string (uuidText id)) = some id := by
  rw [Wire.uuidOf, parseUuid_uuidText]

def uuid : Codec float depth Uuid :=
  .closed (fun id => .string (uuidText id)) Wire.uuidOf (fun _ => True)
    (fun {id} _ => ⟨rereadable_string _, by rw [reread_string, uuidOf_uuidText]⟩) fun _ => trivial

/-- A path is UTF-8 text. -/
def path : Codec float depth PathBuf :=
  Codec.string.iso ⟨.mk, (·.text), fun _ => rfl, fun _ => rfl⟩

def deviceId : Codec float depth DeviceId :=
  Codec.string.iso ⟨.mk, (·.text), fun _ => rfl, fun _ => rfl⟩

def clientType : Codec float depth ClientType :=
  .enumeration (fun | .hook => "hook" | .tui => "tui") [.hook, .tui] none fun client => by cases client <;> rfl

def agentType : Codec float depth AgentType :=
  .enumeration AgentType.display [.codex, .claudeCode, .red, .localLlm] none fun agent => by cases agent <;> rfl

theorem agentType_kept (agent : AgentType) : (agentType : Codec float depth AgentType).Kept agent := trivial

/-- Every other name is an unknown event. -/
def hookEventType : Codec float depth HookEventType :=
  .enumeration HookEventType.display
    [.preToolUse, .postToolUse, .postToolUseFailure, .permissionRequest, .elicitation, .elicitationResult,
      .instructionsLoaded, .userPromptSubmit, .stop, .subagentStop, .subagentStart, .stopFailure, .configChange,
      .teammateIdle, .taskCompleted, .worktreeCreate, .worktreeRemove, .preCompact, .postCompact, .sessionStart,
      .sessionEnd, .notification]
    (some .unknown) fun event => by cases event <;> rfl

theorem hookEventType_kept (event : HookEventType) : (hookEventType : Codec float depth HookEventType).Kept event :=
  trivial

def permissionRule : Record float depth PermissionRule :=
  .iso
    (.field (.required "toolName" .string) <|
     .field (.required "ruleContent" .string) .done)
    ⟨fun (toolName, ruleContent, ()) => { toolName, ruleContent },
      fun rule => (rule.toolName, rule.ruleContent, ()), fun _ => rfl, fun _ => rfl⟩

def permissionSuggestion : Record float (depth + 2) PermissionSuggestion :=
  .iso
    (.field (.required "type" .string) <|
     .field (.nonempty "rules" (.record permissionRule)) <|
     .field (.required "behavior" .string) <|
     .field (.required "destination" .string) <|
     .field (.optional "mode" .string) .done)
    ⟨fun (suggestionType, rules, behavior, destination, mode, ()) =>
        { suggestionType, rules, behavior, destination, mode },
      fun suggestion => (suggestion.suggestionType, suggestion.rules, suggestion.behavior, suggestion.destination,
        suggestion.mode, ()), fun _ => rfl, fun _ => rfl⟩

def decisionFilter : Record float depth DecisionFilter :=
  .iso
    (.field (.optional "tool_name" .string) <|
     .field (.optional "project" path) <|
     .field (.optional "agent_type" agentType) .done)
    ⟨fun (toolName, project, agentType, ()) => { toolName, project, agentType },
      fun filter => (filter.toolName, filter.project, filter.agentType, ()), fun _ => rfl, fun _ => rfl⟩

def spawnAgentRequest : Record float (depth + 1) SpawnAgentRequest :=
  .iso
    (.field (.defaulted "agent_type" agentType .claudeCode (agentType_kept _)) <|
     .field (.required "project" path) <|
     .field (.required "prompt" .string) <|
     .field (.optional "model" .string) <|
     .field (.optional "name" .string) <|
     .field (.optional "reasoning" .string) <|
     .field (.optional "max_turns" (.natural 32)) <|
     .field (.optional "permission_mode" .string) <|
     .field (.optional "system_prompt" .string) <|
     .field (.optional "append_system_prompt" .string) <|
     .field (.optional "allowed_tools" (.list .string)) <|
     .field (.optional "disallowed_tools" (.list .string)) <|
     .field (.flag "continue_session") <|
     .field (.optional "resume" .string) <|
     .field (.optional "output_format" .string) <|
     .field (.flag "verbose") .done)
    ⟨fun (agentType, project, prompt, model, name, reasoning, maxTurns, permissionMode, systemPrompt,
          appendSystemPrompt, allowedTools, disallowedTools, continueSession, resume, outputFormat, verbose, ()) =>
        { agentType, project, prompt, model, name, reasoning, maxTurns, permissionMode, systemPrompt,
          appendSystemPrompt, allowedTools, disallowedTools, continueSession, resume, outputFormat, verbose },
      fun req => (req.agentType, req.project, req.prompt, req.model, req.name, req.reasoning, req.maxTurns,
        req.permissionMode, req.systemPrompt, req.appendSystemPrompt, req.allowedTools, req.disallowedTools,
        req.continueSession, req.resume, req.outputFormat, req.verbose, ()), fun _ => rfl, fun _ => rfl⟩

end

variable (platform : WirePlatform) {depth : Nat}

def timestamp : Codec platform.float depth DateTime :=
  .closed (fun time => .string (platform.toRfc3339 time)) (fun value => value.asString?.bind platform.parseRfc3339)
    (fun _ => True) (fun _ => ⟨rereadable_string _, platform.timestamps _⟩) fun _ => trivial

/-- A number without a text is written as a null. Every number can be read. -/
def speedField (name : String) : Field platform.float depth (Option F32) where
  name := name
  write content := content.map fun speed => match platform.f32Text speed with
    | some text => .number (.float text)
    | none => .null
  read
    | none | some .null => some none
    | some (.number value) => some (some (platform.f32Of value))
    | some _ => none
  Kept content := ∀ speed ∈ content, ∃ text, platform.f32Text speed = some text ∧
    platform.f32Of (settle platform.float (.float text)) = speed
  kept {content} held := by
    cases content with
    | none => exact ⟨by rintro value ⟨⟩, rfl⟩
    | some speed =>
      obtain ⟨text, written, back⟩ := held speed rfl
      constructor
      · rintro value ⟨⟩
        simp only [written]
        cases depth <;> exact platform.f32Rewritable written
      · simp only [Option.map_some, written, reread, mapNumbers, back]
  again {_ content} _ _ := by
    cases content with
    | none => exact ⟨by rintro value ⟨⟩, rfl⟩
    | some speed =>
      cases written : platform.f32Text speed with
      | none => exact ⟨by rintro value ⟨⟩; simp only [written]; cases depth <;> trivial, by simp [written]⟩
      | some text =>
        constructor
        · rintro value ⟨⟩
          simp only [written]
          cases depth <;> exact platform.f32Rewritable written
        · simp [written, reread, mapNumbers]

@[simp] theorem name_speedField (name : String) : (speedField platform name : Field _ depth _).name = name := rfl

def decisionRequest : Record platform.float (depth + 4) DecisionRequest :=
  .iso
    (.field (.required "id" uuid) <|
     .field (.required "agent_id" .string) <|
     .field (.required "agent_type" agentType) <|
     .field (.required "project" path) <|
     .field (.required "tool_name" .string) <|
     .field (.required "tool_input" .value) <|
     .field (.required "timestamp" (timestamp platform)) <|
     .field (.defaulted "hook_event_name" hookEventType .preToolUse (hookEventType_kept _)) <|
     .field (.optional "tool_use_id" .string) <|
     .field (.optional "permission_suggestions" (.list (.record permissionSuggestion))) <|
     .field (.optional "event_data" .value) <|
     .field (.optional "terminal_session_id" uuid) .done)
    ⟨fun (id, agentId, agentType, project, toolName, toolInput, timestamp, hookEventName, toolUseId,
          permissionSuggestions, eventData, terminalSessionId, ()) =>
        { id, agentId, agentType, project, toolName, toolInput, timestamp, hookEventName, toolUseId,
          permissionSuggestions, eventData, terminalSessionId },
      fun req => (req.id, req.agentId, req.agentType, req.project, req.toolName, req.toolInput, req.timestamp,
        req.hookEventName, req.toolUseId, req.permissionSuggestions, req.eventData, req.terminalSessionId, ()),
      fun _ => rfl, fun _ => rfl⟩

def toolResult : Record platform.float depth ToolResult :=
  .iso
    (.field (.required "agent_id" .string) <|
     .field (.required "tool_name" .string) <|
     .field (.required "tool_input" .value) <|
     .field (.required "tool_result" .value) <|
     .field (.required "timestamp" (timestamp platform)) <|
     .field (.optional "tool_use_id" .string) .done)
    ⟨fun (agentId, toolName, toolInput, toolResult, timestamp, toolUseId, ()) =>
        { agentId, toolName, toolInput, toolResult, timestamp, toolUseId },
      fun result => (result.agentId, result.toolName, result.toolInput, result.toolResult, result.timestamp,
        result.toolUseId, ()), fun _ => rfl, fun _ => rfl⟩

def historySearch : Record platform.float depth HistorySearch :=
  .iso
    (.field (.optional "query" .string) <|
     .field (.optional "tool_name" .string) <|
     .field (.optional "agent_id" .string) <|
     .field (.optional "limit" (.natural 32)) <|
     .field (.optional "request_id" .string) <|
     .field (.optional "since" (timestamp platform)) <|
     .field (.optional "project" .string) <|
     .field (.optional "decided_by" .string) .done)
    ⟨fun (query, toolName, agentId, limit, requestId, since, project, decidedBy, ()) =>
        { query, toolName, agentId, limit, requestId, since, project, decidedBy },
      fun search => (search.query, search.toolName, search.agentId, search.limit, search.requestId, search.since,
        search.project, search.decidedBy, ()), fun _ => rfl, fun _ => rfl⟩

/-! ### Messages -/

/-- A kind of message with its tag and its fields. The object of the command is one of
the containers that a document may nest. -/
abbrev MessageVariant := Variant platform.float 126 ClientMessage

namespace Variants

/-- A kind of message that has a tag only. -/
def plain (tag : String) (message : ClientMessage) : MessageVariant platform :=
  ⟨tag, Unit, .done, fun () => message⟩

/-- A kind of message with one field. -/
def single {α : Type} (tag : String) (field : Field platform.float 126 α) (build : α → ClientMessage) :
    MessageVariant platform :=
  ⟨tag, α × Unit, .field field .done, fun (content, ()) => build content⟩

def hello : MessageVariant platform :=
  ⟨"hello", _, .field (.required "client" clientType) <| .field (.required "version" (.natural 32)) .done,
    fun (client, version, ()) => .hello client version⟩

def decisionRequest : MessageVariant platform :=
  ⟨"decision_request", _, Protocol.decisionRequest platform, .decisionRequest⟩

def approve : MessageVariant platform :=
  ⟨"approve", _,
    .field (.required "id" uuid) <|
    .field (.optional "message" .string) <|
    .field (.optional "updated_input" .value) <|
    .field (.flag "always_allow") <|
    .field (.optional "additional_context" .string) .done,
    fun (id, message, updatedInput, alwaysAllow, additionalContext, ()) =>
      .approve id message updatedInput alwaysAllow additionalContext⟩

def deny : MessageVariant platform :=
  ⟨"deny", _, .field (.required "id" uuid) <| .field (.optional "message" .string) .done,
    fun (id, message, ()) => .deny id message⟩

def ask : MessageVariant platform :=
  single platform "ask" (.required "id" uuid) .ask

def approveAll : MessageVariant platform :=
  ⟨"approve_all", _, .field (.nullable "filter" (.record decisionFilter)) <| .field (.flag "confirm") .done,
    fun (filter, confirm, ()) => .approveAll filter confirm⟩

def denyAll : MessageVariant platform :=
  single platform "deny_all" (.nullable "filter" (.record decisionFilter)) .denyAll

def spawnAgent : MessageVariant platform :=
  ⟨"spawn_agent", _, spawnAgentRequest, .spawnAgent⟩

def listAgents : MessageVariant platform :=
  plain platform "list_agents" .listAgents

def stopAgent : MessageVariant platform :=
  single platform "stop_agent" (.required "agent_id" .string) .stopAgent

def queryHistory : MessageVariant platform :=
  ⟨"query_history", _,
    .field (.optional "agent_id" .string) <|
    .field (.optional "limit" (.natural 32)) <|
    .field (.optional "request_id" .string) .done,
    fun (agentId, limit, requestId, ()) => .queryHistory agentId limit requestId⟩

def toolResult : MessageVariant platform :=
  ⟨"tool_result", _, Protocol.toolResult platform, .toolResult⟩

def searchHistory : MessageVariant platform :=
  ⟨"search_history", _, historySearch platform, .searchHistory⟩

def querySessions : MessageVariant platform :=
  plain platform "query_sessions" .querySessions

def queryProjects : MessageVariant platform :=
  plain platform "query_projects" .queryProjects

def queryWorktrees : MessageVariant platform :=
  plain platform "query_worktrees" .queryWorktrees

def queryBurn : MessageVariant platform :=
  plain platform "query_burn" .queryBurn

def installHooks : MessageVariant platform :=
  single platform "install_hooks" (.required "project" path) .installHooks

def queryProjectHookStatus : MessageVariant platform :=
  single platform "query_project_hook_status" (.required "project" path) .queryProjectHookStatus

def agentRegister : MessageVariant platform :=
  ⟨"agent_register", _,
    .field (.required "agent_id" .string) <|
    .field (.required "agent_type" agentType) <|
    .field (.required "project" path) .done,
    fun (agentId, agentType, project, ()) => .agentRegister agentId agentType project⟩

def reimportEvents : MessageVariant platform :=
  plain platform "reimport_events" .reimportEvents

def approvePermission : MessageVariant platform :=
  ⟨"approve_permission", _,
    .field (.required "id" uuid) <|
    .field (.required "suggestion_index" (.natural 64)) <|
    .field (.optional "message" .string) .done,
    fun (id, suggestionIndex, message, ()) => .approvePermission id suggestionIndex message⟩

def termCreate : MessageVariant platform :=
  ⟨"term_create", _,
    .field (.optional "label" .string) <|
    .field (.optional "command" .string) <|
    .field (.optional "args" (.list .string)) <|
    .field (.optional "cwd" path) <|
    .field (.required "cols" (.natural 16)) <|
    .field (.required "rows" (.natural 16)) <|
    .field (.optional "env" (.map .string)) .done,
    fun (label, command, args, cwd, cols, rows, env, ()) => .termCreate label command args cwd cols rows env⟩

def termAttach : MessageVariant platform :=
  single platform "term_attach" (.required "id" uuid) .termAttach

def termDetach : MessageVariant platform :=
  single platform "term_detach" (.required "id" uuid) .termDetach

def termInput : MessageVariant platform :=
  ⟨"term_input", _, .field (.required "id" uuid) <| .field (.required "data" .string) .done,
    fun (id, data, ()) => .termInput id data⟩

def termResize : MessageVariant platform :=
  ⟨"term_resize", _,
    .field (.required "id" uuid) <|
    .field (.required "cols" (.natural 16)) <|
    .field (.required "rows" (.natural 16)) .done,
    fun (id, cols, rows, ()) => .termResize id cols rows⟩

def termClose : MessageVariant platform :=
  single platform "term_close" (.required "id" uuid) .termClose

def termList : MessageVariant platform :=
  plain platform "term_list" .termList

def termReplay : MessageVariant platform :=
  ⟨"term_replay", _,
    .field (.required "id" uuid) <|
    .field (.optional "from_seq" (.natural 64)) <|
    .field (speedField platform "speed") .done,
    fun (id, fromSeq, speed, ()) => .termReplay id fromSeq speed⟩

def termSetGroup : MessageVariant platform :=
  ⟨"term_set_group", _, .field (.required "id" uuid) <| .field (.optional "group" .string) .done,
    fun (id, group, ()) => .termSetGroup id group⟩

def termReorder : MessageVariant platform :=
  ⟨"term_reorder", _,
    .field (.required "id" uuid) <|
    .field (.required "sort_order" (.integer (-2 ^ 63) (2 ^ 63))) .done,
    fun (id, sortOrder, ()) => .termReorder id sortOrder⟩

def termSetPinned : MessageVariant platform :=
  ⟨"term_set_pinned", _, .field (.required "id" uuid) <| .field (.required "pinned" .bool) .done,
    fun (id, pinned, ()) => .termSetPinned id pinned⟩

def markDeviceFresh : MessageVariant platform :=
  plain platform "mark_device_fresh" .markDeviceFresh

/-- All kinds in the order of their declaration. -/
def all : List (MessageVariant platform) :=
  [hello platform, decisionRequest platform, approve platform, deny platform, ask platform, approveAll platform,
    denyAll platform, spawnAgent platform, listAgents platform, stopAgent platform, queryHistory platform,
    toolResult platform, searchHistory platform, querySessions platform, queryProjects platform,
    queryWorktrees platform, queryBurn platform, installHooks platform, queryProjectHookStatus platform,
    agentRegister platform, reimportEvents platform, approvePermission platform, termCreate platform,
    termAttach platform, termDetach platform, termInput platform, termResize platform, termClose platform,
    termList platform, termReplay platform, termSetGroup platform, termReorder platform, termSetPinned platform,
    markDeviceFresh platform]

/-- The kind of a message and the contents of its fields. -/
def shape : ClientMessage → (variant : MessageVariant platform) × variant.Payload
  | .hello client version => ⟨hello platform, client, version, ()⟩
  | .decisionRequest req => ⟨decisionRequest platform, req⟩
  | .approve id message updatedInput alwaysAllow additionalContext =>
    ⟨approve platform, id, message, updatedInput, alwaysAllow, additionalContext, ()⟩
  | .deny id message => ⟨deny platform, id, message, ()⟩
  | .ask id => ⟨ask platform, id, ()⟩
  | .approveAll filter confirm => ⟨approveAll platform, filter, confirm, ()⟩
  | .denyAll filter => ⟨denyAll platform, filter, ()⟩
  | .spawnAgent req => ⟨spawnAgent platform, req⟩
  | .listAgents => ⟨listAgents platform, ()⟩
  | .stopAgent agentId => ⟨stopAgent platform, agentId, ()⟩
  | .queryHistory agentId limit requestId => ⟨queryHistory platform, agentId, limit, requestId, ()⟩
  | .toolResult result => ⟨toolResult platform, result⟩
  | .searchHistory search => ⟨searchHistory platform, search⟩
  | .querySessions => ⟨querySessions platform, ()⟩
  | .queryProjects => ⟨queryProjects platform, ()⟩
  | .queryWorktrees => ⟨queryWorktrees platform, ()⟩
  | .queryBurn => ⟨queryBurn platform, ()⟩
  | .installHooks project => ⟨installHooks platform, project, ()⟩
  | .queryProjectHookStatus project => ⟨queryProjectHookStatus platform, project, ()⟩
  | .agentRegister agentId agentType project => ⟨agentRegister platform, agentId, agentType, project, ()⟩
  | .reimportEvents => ⟨reimportEvents platform, ()⟩
  | .approvePermission id suggestionIndex message => ⟨approvePermission platform, id, suggestionIndex, message, ()⟩
  | .termCreate label command args cwd cols rows env =>
    ⟨termCreate platform, label, command, args, cwd, cols, rows, env, ()⟩
  | .termAttach id => ⟨termAttach platform, id, ()⟩
  | .termDetach id => ⟨termDetach platform, id, ()⟩
  | .termInput id data => ⟨termInput platform, id, data, ()⟩
  | .termResize id cols rows => ⟨termResize platform, id, cols, rows, ()⟩
  | .termClose id => ⟨termClose platform, id, ()⟩
  | .termList => ⟨termList platform, ()⟩
  | .termReplay id fromSeq speed => ⟨termReplay platform, id, fromSeq, speed, ()⟩
  | .termSetGroup id group => ⟨termSetGroup platform, id, group, ()⟩
  | .termReorder id sortOrder => ⟨termReorder platform, id, sortOrder, ()⟩
  | .termSetPinned id pinned => ⟨termSetPinned platform, id, pinned, ()⟩
  | .markDeviceFresh => ⟨markDeviceFresh platform, ()⟩

theorem find_shape (message : ClientMessage) :
    (all platform).find? (·.tag = (shape platform message).1.tag) = some (shape platform message).1 := by
  cases message <;> rfl

theorem build_shape (message : ClientMessage) : (shape platform message).1.build (shape platform message).2 = message := by
  cases message <;> rfl

theorem shape_build :
    ∀ variant ∈ all platform, ∀ payload, shape platform (variant.build payload) = ⟨variant, payload⟩ := by
  simp only [all, List.forall_mem_cons]
  refine ⟨?_, ?_, ?_, ?_, ?_, ?_, ?_, ?_, ?_, ?_, ?_, ?_, ?_, ?_, ?_, ?_, ?_, ?_, ?_, ?_, ?_, ?_, ?_, ?_, ?_, ?_, ?_, ?_,
    ?_, ?_, ?_, ?_, ?_, ?_, fun _ member => nomatch member⟩ <;>
  exact fun _ => rfl

end Variants

theorem unlabelled :
    (Variants.all platform).all (fun variant => decide ("type" ∉ variant.record.names)) = true := rfl

def messages : Union platform.float 126 ClientMessage where
  label := "type"
  variants := Variants.all platform
  shape := Variants.shape platform
  found := Variants.find_shape platform
  built := Variants.build_shape platform
  shaped := Variants.shape_build platform
  unlabelled variant member := of_decide_eq_true (List.all_eq_true.mp (unlabelled platform) variant member)

/-! ### Commands -/

/-- The members next to those of the message. -/
def envelope : Record platform.float depth (Option DeviceId × Option String × Unit) :=
  .field (.optional "device_id" deviceId) <|
  .field (.optional "correlation_id" .string) .done

namespace ClientCommand

def toValue (command : ClientCommand) : Json :=
  (messages platform).writeWith (envelope platform) command.body (command.deviceId, command.correlationId, ())

def fromValue (value : Json) : Option ClientCommand :=
  ((messages platform).readWith (envelope platform) value).map fun (body, deviceId, correlationId, ()) =>
    { body, deviceId, correlationId }

end ClientCommand

/-- `encode`: the JSON text and a line end. -/
def encode (command : ClientCommand) : String :=
  (command.toValue platform).render ++ "\n"

/-- `decode`. -/
def decode (line : String) : Option ClientCommand :=
  (parse platform.float (EventIngest.trim line)).bind (ClientCommand.fromValue platform)

/-- A browser frame in an envelope with the authenticated device. What is no client
command is dropped. -/
def rewrapWithDevice (raw : String) (device : AuthedDevice) : Option String :=
  (decode platform raw).map fun command => encode platform { command with deviceId := some device.id }

/-! ### What a command can carry -/

/-- The ranges of the fields' types. The objects of a value are maps. -/
def ClientMessage.Typed : ClientMessage → Prop
  | .hello _ version => version < 2 ^ 32
  | .decisionRequest req => req.toolInput.Sorted ∧ ∀ data ∈ req.eventData, data.Sorted
  | .approve _ _ updatedInput _ _ => ∀ input ∈ updatedInput, input.Sorted
  | .spawnAgent req => ∀ turns ∈ req.maxTurns, turns < 2 ^ 32
  | .queryHistory _ limit _ => ∀ count ∈ limit, count < 2 ^ 32
  | .toolResult result => result.toolInput.Sorted ∧ result.toolResult.Sorted
  | .searchHistory search => ∀ count ∈ search.limit, count < 2 ^ 32
  | .approvePermission _ suggestionIndex _ => suggestionIndex < 2 ^ 64
  | .termCreate _ _ _ _ cols rows _ | .termResize _ cols rows => cols < 2 ^ 16 ∧ rows < 2 ^ 16
  | .termReplay _ fromSeq _ => ∀ seq ∈ fromSeq, seq < 2 ^ 64
  | .termReorder _ sortOrder => -2 ^ 63 ≤ sortOrder ∧ sortOrder < 2 ^ 63
  | _ => True

/-- The containers of a value nest to the depth that the command leaves, and its numbers
are read as themselves. -/
def Carries (value : Json) : Prop :=
  Legal platform.float 126 value ∧ reread platform.float value = value

/-- An optional value is no null, and a speed has a text that is read as the speed. -/
def ClientMessage.Carried : ClientMessage → Prop
  | .decisionRequest req => Carries platform req.toolInput ∧ ∀ data ∈ req.eventData, data ≠ .null ∧ Carries platform data
  | .approve _ _ updatedInput _ _ => ∀ input ∈ updatedInput, input ≠ .null ∧ Carries platform input
  | .toolResult result => Carries platform result.toolInput ∧ Carries platform result.toolResult
  | .termReplay _ _ speed => ∀ bits ∈ speed, ∃ text, platform.f32Text bits = some text ∧
      platform.f32Of (settle platform.float (.float text)) = bits
  | _ => True

end Protocol
end Wisphive
