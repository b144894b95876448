import Mathlib.Data.List.Infix
import Wisphive.HookOutput
import Wisphive.HookPolicy
import Wisphive.ToolResults

/-! One run of the hook, from the mode file to the exit code. What it reads of its host stands
still while it runs, and what it leaves in the event log is kept beside the response. -/

namespace Wisphive
open Foundation EventIngest

/-- The texts that the host's libraries write. -/
structure HookHost extends HookPlatform where
  float : String → Option String
  debug : String → String
  utf8Error : Bytes → String
  jsonError : String → String
  toRfc3339 : DateTime → String

inductive EnvVar where
  | notPresent
  | notUnicode
  | value (text : String)
  deriving DecidableEq, Repr

/-- `std::env::var(..).ok()`. -/
def EnvVar.ok : EnvVar → Option String
  | .value text => some text
  | .notPresent | .notUnicode => none

/-- What `fstat` says of an opened descriptor. -/
structure FileStat where
  kindFits : Bool
  uid : Nat
  mode : BitVec 12
  deriving DecidableEq, Repr

/-- The state directory and its mode file, behind the calls that open them. -/
structure StateDir where
  path : String
  effectiveUid : Nat
  openDirectory : Except String FileStat
  openMode : Except String FileStat
  readMode : Except String Bytes

/-- The configuration in the state directory, as far as it is trusted. -/
structure HookFiles where
  failMode : Option String := none
  config : Option Json := none
  legacy : Option Json := none
  configHash : Option String := none

structure HookWorld where
  env : String → EnvVar := fun _ => .notPresent
  state : StateDir
  files : HookFiles := {}
  stdin : Bytes
  stdinFault : Option String := none
  /-- The lines of a file up to the first that cannot be read. -/
  transcript : String → Option (List String) := fun _ => none
  currentDir : Option String := none
  processId : Nat
  socket : DaemonSocket
  now : DateTime
  requestId : Uuid

namespace HookEventType

/-- The names that a payload may carry. Any other is `Unknown`. -/
def named : List HookEventType :=
  [.preToolUse, .postToolUse, .postToolUseFailure, .permissionRequest, .elicitation, .elicitationResult,
    .instructionsLoaded, .userPromptSubmit, .stop, .subagentStop, .subagentStart, .stopFailure, .configChange,
    .teammateIdle, .taskCompleted, .worktreeCreate, .worktreeRemove, .preCompact, .postCompact, .sessionStart,
    .sessionEnd, .notification]

def fromStr (text : String) : HookEventType :=
  (named.find? (·.display = text)).getD .unknown

end HookEventType

namespace HookRun

def maxStdinBytes : Nat := 8 * 1024 * 1024
def maxAgentIdSuffixBytes : Nat := 64
def modeFileMaxBytes : Nat := 64

inductive ModeFileState where
  | active
  | off
  deriving DecidableEq, Repr

variable (host : HookHost)

/-! ### The mode file -/

/-- Four octal digits. -/
def octal (mode : BitVec 12) : String :=
  String.ofList ((List.range 4).map fun place => (mode.extractLsb' (3 * (3 - place)) 3).toNat.digitChar)

def modeFromContents (contents : String) : Except String ModeFileState :=
  match trim contents with
  | "active" => .ok .active
  | "off" => .ok .off
  | value => .error ("mode file contains invalid value " ++ host.debug value)

/-- The directory and the file are checked through the descriptors that are read. -/
def readModeFile (state : StateDir) : Except String ModeFileState := do
  let directory ← state.openDirectory.mapError fun error =>
    "cannot open state directory " ++ state.path ++ " (must exist and not be a symlink): " ++ error
  if !directory.kindFits || directory.uid ≠ state.effectiveUid || directory.mode ≠ 0o700 then
    .error ("state directory " ++ state.path ++ " must be a non-symlink directory owned by the effective user (uid " ++
      toString state.effectiveUid ++ ") with mode 0700 — found mode " ++ octal directory.mode ++ ", owner uid " ++
      toString directory.uid)
  let file ← state.openMode.mapError fun error =>
    "cannot open mode file " ++ state.path ++ "/mode (must exist and not be a symlink): " ++ error
  if !file.kindFits || file.uid ≠ state.effectiveUid || file.mode ≠ 0o600 then
    .error ("mode file " ++ state.path ++ "/mode must be a non-symlink regular file owned by the effective user (uid " ++
      toString state.effectiveUid ++ ") with mode 0600 — found mode " ++ octal file.mode ++ ", owner uid " ++
      toString file.uid)
  let bytes := (← state.readMode).take (modeFileMaxBytes + 1)
  if modeFileMaxBytes < bytes.length then .error ("mode file exceeds " ++ toString modeFileMaxBytes ++ " bytes")
  match decode bytes with
  | some contents => modeFromContents host contents
  | none => .error ("mode file is not UTF-8: " ++ host.utf8Error bytes)

/-- The denial says how the state is repaired. -/
def modeFailure (error dir : String) : String :=
  "Wisphive denied this hook because the mode file is missing, unreadable, or unsafe: " ++ error ++
  "\nRequired state: '" ++ dir ++ "' is a non-symlink directory owned by you with mode 0700, and '" ++ dir ++
  "/mode' is a non-symlink regular file owned by you with mode 0600 containing 'active' or 'off'.\n" ++
  "Repair (perms): chmod 700 '" ++ dir ++ "' && chmod 600 '" ++ dir ++ "/mode'\n" ++
  "Repair (foreign owner): chown \"$(id -un)\" '" ++ dir ++ "' '" ++ dir ++ "/mode'\n" ++
  "Repair (missing file): printf 'off' > '" ++ dir ++ "/mode' && chmod 600 '" ++ dir ++ "/mode'\n" ++
  "Or run: wisphive doctor --fix-perms\nOr run: scripts/wisphive-rescue.sh\n" ++
  "Emergency exit (disables all Wisphive gating): wisphive emergency-off"

def failModeParse (value : String) : Option FailMode :=
  match trim value with
  | "open" => some .openly
  | "closed" => some .closed
  | _ => none

def failModeFromContents (contents : Option String) : FailMode :=
  (contents.bind failModeParse).getD .closed

/-! ### The input -/

inductive ReadInputError where
  | tooLarge
  | io (message : String)
  | invalidUtf8 (message : String)
  deriving DecidableEq, Repr

def ReadInputError.display : ReadInputError → String
  | .tooLarge => "hook input exceeded the 8 MiB limit"
  | .io message | .invalidUtf8 message => message

/-- A fault behind the limit is not met. -/
def readLimitedToString (bytes : Bytes) (fault : Option String) : Except ReadInputError String :=
  let taken := bytes.take (maxStdinBytes + 1)
  if maxStdinBytes < taken.length then .error .tooLarge
  else
    match fault with
    | some message => .error (.io message)
    | none =>
      match decode taken with
      | some text => .ok text
      | none => .error (.invalidUtf8 (host.utf8Error taken))

/-- Who is served: an exact name, and without one what the payload looks like. -/
def detectAgentTypeFromEnv (value : Option String) (hookEvent : Json) : Option AgentType :=
  match value with
  | some "codex" => some .codex
  | some "claude_code" | some "claude" => some .claudeCode
  | some "" | none =>
    if (hookEvent.get? "model").isSome ∨ (hookEvent.get? "turn_id").isSome then some .codex else some .claudeCode
  | some _ => none

section
variable (world : HookWorld)

def detectAgentType (hookEvent : Json) : Option AgentType :=
  detectAgentTypeFromEnv (world.env "WISPHIVE_AGENT_TYPE").ok hookEvent

def preParseAgentType : AgentType :=
  (detectAgentType world .null).getD .claudeCode

/-- `unwrap_or_default` of the variable. -/
def rawAgentType : String :=
  (world.env "WISPHIVE_AGENT_TYPE").ok.getD ""

def beforeParse (message : String) : HookFailure :=
  { kind := .runtime, message, eventType := .preToolUse, agentType := preParseAgentType world }

def inputTooLarge : HookFailure :=
  { kind := .inputTooLarge
    message := "Wisphive denied this hook because stdin exceeded the 8 MiB limit."
    eventType := .preToolUse
    agentType := preParseAgentType world }

/-- The payload as a map. -/
def readHookEvent : Except HookFailure Json :=
  match readLimitedToString host world.stdin world.stdinFault with
  | .error .tooLarge => .error (inputTooLarge world)
  | .error other => .error (beforeParse world ("failed to read hook input: " ++ other.display))
  | .ok input =>
    match Json.parse host.float input with
    | some value => .ok value.sorted
    | none => .error (beforeParse world ("failed to parse hook input: " ++ host.jsonError input))

end

def eventTypeOf (hookEvent : Json) : HookEventType :=
  .fromStr ((field hookEvent "hook_event_name").getD "PreToolUse")

/-- A declared name is never overruled by the shape of the payload. -/
def isPostToolUse (eventType : HookEventType) (hookEvent : Json) : Bool :=
  eventType = .postToolUse || (hookEvent.get? "hook_event_name").isNone && (hookEvent.get? "tool_response").isSome

/-! ### Who asks -/

def agentIdPrefix : AgentType → String
  | .codex => "codex"
  | .claudeCode => "cc"
  | .red => "red"
  | .localLlm => "local"

def invalidAgentId : String :=
  "agent id must use a supported prefix and a 1-64 byte ASCII [A-Za-z0-9_-] suffix"

def suffixChar (char : Char) : Bool :=
  char.isAlphanum || char = '_' || char = '-'

/-- An id that may name a file in the directory of the sessions. -/
def validateAgentId (agentId : String) : Bool :=
  let chars := agentId.toList
  if '/' ∈ chars ∨ '\\' ∈ chars ∨ ['.', '.'] <:+: chars ∨ Char.ofNat 0 ∈ chars then false
  else
    match Redact.splitOnce '-' chars with
    | none => false
    | some (start, suffix) =>
      ["cc", "codex", "red", "local", "agent"].contains (String.ofList start) &&
        !suffix.isEmpty && decide ((suffix.map (·.utf8Size)).sum ≤ maxAgentIdSuffixBytes) && suffix.all suffixChar

/-- The session of the payload, then the agent that the daemon manages, then the process. -/
def resolveAgentId (sessionId managedAgentId : Option String) (agentType : AgentType) (processId : Nat) :
    Except String String :=
  let agentId :=
    match sessionId, managedAgentId with
    | some sessionId, _ => agentIdPrefix agentType ++ "-" ++ sessionId
    | none, some managed => managed
    | none, none => agentIdPrefix agentType ++ "-" ++ toString processId
  if validateAgentId agentId then .ok agentId else .error invalidAgentId

def agentIdFromHookEvent (world : HookWorld) (hookEvent : Json) (agentType : AgentType) : Except String String :=
  resolveAgentId (field hookEvent "session_id") (world.env "WISPHIVE_AGENT_ID").ok agentType world.processId

def agentProjectEnv : AgentType → Option String
  | .codex => some "CODEX_PROJECT_DIR"
  | .claudeCode => some "CLAUDE_PROJECT_DIR"
  | .red | .localLlm => none

/-- What is known of a call that is resolved. -/
structure Context where
  toolUseId : Option String
  agentId : String
  project : String
  toolName : String
  toolInput : Json
  eventType : HookEventType
  agentType : AgentType

/-- A line for the event log. -/
structure AutoApprovedLog where
  toolUseId : Option String
  agentId : String
  project : String
  toolName : String
  toolInput : Json
  eventType : HookEventType
  agentType : String
  event : String
  decidedBy : String

def Context.log (ctx : Context) (event decidedBy : String) : AutoApprovedLog :=
  { toolUseId := ctx.toolUseId, agentId := ctx.agentId, project := ctx.project, toolName := ctx.toolName,
    toolInput := ctx.toolInput, eventType := ctx.eventType, agentType := ctx.agentType.display, event, decidedBy }

def textOrNull (text : Option String) : Json :=
  (text.map Json.string).getD .null

/-- `log_auto_approved`: the entry whose text becomes a line. -/
def AutoApprovedLog.entry (log : AutoApprovedLog) (world : HookWorld) : Json :=
  .object [
    ("agent_id", .string log.agentId),
    ("agent_type", .string log.agentType),
    ("config_hash", textOrNull world.files.configHash),
    ("decided_by", .string log.decidedBy),
    ("event", .string (if log.event = "" then "auto_approved" else log.event)),
    ("hook_event_name", .string log.eventType.display),
    ("project", .string log.project),
    ("timestamp", .string (host.toRfc3339 world.now)),
    ("tool_input", Redact.redactValue log.toolInput),
    ("tool_name", .string log.toolName),
    ("tool_use_id", textOrNull log.toolUseId)]

/-! ### Where a question would land -/

inductive PromptSurface where
  | interactive
  | managedHeadless
  | unrecognizedManaged (value : String)
  deriving DecidableEq, Repr

def classifyPromptSurface (marker managedAgentId : Option String) : PromptSurface :=
  match marker.map trim with
  | some "headless" => .managedHeadless
  | some "" | none => if managedAgentId.any (trim · ≠ "") then .managedHeadless else .interactive
  | some other => .unrecognizedManaged other

def promptSurfaceFromEnv (world : HookWorld) : PromptSurface :=
  classifyPromptSurface (world.env "WISPHIVE_PROMPT_SURFACE").ok (world.env "WISPHIVE_AGENT_ID").ok

/-- Codex prompts for permission requests alone. -/
def nativePromptExists (surface : PromptSurface) (agentType : AgentType) (eventType : HookEventType) : Bool :=
  surface = .interactive && !(agentType = .codex && eventType = .preToolUse)

def promptShapedEvent (eventType : HookEventType) : Bool :=
  eventType = .preToolUse || eventType = .permissionRequest || eventType = .elicitation

def className : HookPolicy.DeferClass → String
  | .intrinsic => "intrinsic"
  | _ => "operator"

def unsetSurface : String :=
  "If this actually IS an attended interactive session (e.g. a shell or tmux server inherited from a managed spawn), " ++
  "unset WISPHIVE_PROMPT_SURFACE and WISPHIVE_AGENT_ID to restore the native prompt."

def response (ctx : Context) (decision : Decision) (message : Option String := none) : HookResponse :=
  { decision, message, eventType := ctx.eventType, agentType := ctx.agentType }

/-- Who denies a question that no prompt can receive, and what the agent is told. -/
def promptlessDefer (surface : PromptSurface) (cls : String) (tool : String) : String × String :=
  match surface with
  | .interactive => ("codex_ask_fail_closed:always_ask:" ++ cls, HookOutput.codexNoNativePromptReason)
  | .managedHeadless => ("always_ask:headless_no_prompt:" ++ cls,
      "Wisphive denied " ++ tool ++ ": it is an interactive prompt (always-defer, ADR-0002), and this agent is a " ++
      "Wisphive-managed HEADLESS spawn — no native prompt exists to render it, so an 'ask' would block silently and " ++
      "burn the run (itr#559). Restructure the spawn so it never needs " ++ tool ++ " (a permission_mode='plan' spawn " ++
      "calls ExitPlanMode by construction — prefer 'default' and put the plan or question in the prompt), or run this " ++
      "work in an attended interactive session. " ++ unsetSurface)
  | .unrecognizedManaged value => ("always_ask:unrecognized_surface:" ++ cls,
      "Wisphive denied " ++ tool ++ ": it is an interactive prompt (always-defer, ADR-0002), and " ++
      "WISPHIVE_PROMPT_SURFACE=" ++ host.debug value ++ " names a prompt surface this wisphive-hook build does not " ++
      "implement — no native prompt can be presumed to exist (itr#559). Recognized values: \"headless\" (managed " ++
      "unattended spawns; unset = interactive). Upgrade wisphive-hook to a build implementing this surface, or unset " ++
      "the variable for interactive sessions.")

/-- Claude Code asks twice about one call, and the second time it is not logged. -/
def resolveAlwaysDefer (surface : PromptSurface) (deferClass : HookPolicy.DeferClass) (ctx : Context) :
    HookResponse × List AutoApprovedLog :=
  if nativePromptExists surface ctx.agentType ctx.eventType || !promptShapedEvent ctx.eventType then
    (response ctx .ask,
      if ctx.eventType = .permissionRequest ∧ ctx.agentType = .claudeCode then []
      else [ctx.log "deferred" ("always_ask:" ++ className deferClass)])
  else
    let (decidedBy, reason) := promptlessDefer host surface (className deferClass) ctx.toolName
    (response ctx .deny reason, [ctx.log "denied" decidedBy])

def promptlessAsk (surface : PromptSurface) (tool : String) : String × String :=
  match surface with
  | .interactive => ("codex_ask_fail_closed:daemon_ask", HookOutput.codexNoNativePromptReason)
  | .managedHeadless => ("headless_no_prompt:daemon_ask",
      "Wisphive denied " ++ tool ++ ": the daemon resolved this call as 'ask' (defer to the native prompt), but this " ++
      "agent is a Wisphive-managed HEADLESS spawn with no native prompt — the ask would block silently (itr#559). " ++
      "Approve or deny the call explicitly in the Wisphive TUI/web UI instead. " ++ unsetSurface)
  | .unrecognizedManaged value => ("unrecognized_surface:daemon_ask",
      "Wisphive denied " ++ tool ++ ": the daemon resolved this call as 'ask' (defer to the native prompt), but " ++
      "WISPHIVE_PROMPT_SURFACE=" ++ host.debug value ++ " names a prompt surface this wisphive-hook build does not " ++
      "implement, so no native prompt can be presumed to exist (itr#559).")

def convertPromptlessDaemonAsk (surface : PromptSurface) (answer : HookResponse) (ctx : Context) :
    HookResponse × List AutoApprovedLog :=
  if answer.decision ≠ .ask ∨ nativePromptExists surface ctx.agentType ctx.eventType ∨ !promptShapedEvent ctx.eventType then
    (answer, [])
  else
    let (decidedBy, reason) := promptlessAsk host surface ctx.toolName
    (response ctx .deny reason, [ctx.log "denied" decidedBy])

/-! ### Refusals -/

/-- The label keeps at most 64 bytes, and no part of a character. -/
def clamp : Nat → List Char → List Char
  | _, [] => []
  | room, char :: rest => if char.utf8Size ≤ room then char :: clamp (room - char.utf8Size) rest else []

def unrecognizedProviderLabel (raw : String) : String :=
  "unrecognized:" ++ String.ofList (clamp maxAgentIdSuffixBytes raw.toList)

def unrecognizedProvider (raw : String) (eventType : HookEventType) : HookFailure :=
  { kind := .unrecognizedProvider
    message := "Wisphive refused this hook: WISPHIVE_AGENT_TYPE=" ++ host.debug raw ++ " is not a provider this hook can " ++
      "serve.\nRecognized values (byte-exact, case-sensitive): \"claude_code\", \"claude\", \"codex\". Unset the " ++
      "variable (or set it empty) to use payload-shape detection.\nWisphive refuses to emit a response shaped for a " ++
      "provider it cannot identify — an unparseable deny can be silently ignored and become an effective allow.\nAdding " ++
      "a provider requires an AgentType variant AND a response-formatter arm in wisphive-hook; until both exist the hook " ++
      "refuses rather than guesses."
    eventType
    agentType := .claudeCode
    decidedBy := some "agent_type:unrecognized" }

def outcomeWord (decision : Decision) : String :=
  if decision = .deny then "denied" else "auto_approved"

def auditUnrecognizedPreParse (world : HookWorld) (failure : HookFailure) (resolution : HookResponse) : AutoApprovedLog :=
  { toolUseId := none
    agentId := "unknown"
    project := ""
    toolName := "pre-parse"
    toolInput := .object [("pre_parse_failure", .string failure.message)]
    eventType := failure.eventType
    agentType := unrecognizedProviderLabel (rawAgentType world)
    event := outcomeWord resolution.decision
    decidedBy := "agent_type:unrecognized" }

def toolNameOf (hookEvent : Json) (eventType : HookEventType) : String :=
  (field hookEvent "tool_name").getD eventType.display

def toolInputOf (hookEvent : Json) : Json :=
  (hookEvent.get? "tool_input").getD .null

/-- What the hook leaves behind, beside its response. -/
structure Effects where
  log : List AutoApprovedLog := []
  /-- The session that is to be registered, and for which project. -/
  registers : Option (String × AgentType × String) := none
  reports : Option ToolResult := none
  asks : Option DecisionRequest := none

/-- An approval for a provider that is not known is bare. -/
def resolveUnrecognizedProvider (world : HookWorld) (hookEvent : Json) (eventType : HookEventType) :
    Except HookFailure HookResponse × Effects :=
  let raw := rawAgentType world
  let failure := unrecognizedProvider host raw eventType
  let resolution := responseForFailure failure (failModeFromContents world.files.failMode)
  let log : AutoApprovedLog :=
    { toolUseId := field hookEvent "tool_use_id"
      agentId := "unknown"
      project := (field hookEvent "cwd").getD ""
      toolName := toolNameOf hookEvent eventType
      toolInput := toolInputOf hookEvent
      eventType
      agentType := unrecognizedProviderLabel raw
      event := outcomeWord resolution.decision
      decidedBy := "agent_type:unrecognized" }
  (if resolution.decision = .deny then .error failure
    else .ok { decision := .approve, eventType := .preToolUse, agentType := .claudeCode },
    { log := [log] })

/-! ### What the daemon is asked -/

/-- The members of a payload that go with an event. -/
def eventFields : HookEventType → Option (List String)
  | .elicitation | .elicitationResult => some ["mcp_server_name", "message", "mode", "requested_schema", "url"]
  | .stop | .subagentStop => some ["last_assistant_message", "stop_hook_active"]
  | .userPromptSubmit => some ["prompt"]
  | .configChange => some ["source", "file_path"]
  | .teammateIdle => some ["teammate_name", "team_name"]
  | .taskCompleted => some ["task_id", "task_subject", "task_description"]
  | _ => none

def keepMember (hookEvent : Json) (data : List (String × Json)) (name : String) : List (String × Json) :=
  match hookEvent.get? name with
  | some value => Json.insertSorted name value data
  | none => data

def extractEventData (eventType : HookEventType) (hookEvent : Json) : Option (List (String × Json)) :=
  (eventFields eventType).map fun names => names.foldl (keepMember hookEvent) []

/-- The texts among the blocks of an assistant's message. -/
def textParts (content : List Json) : List String :=
  content.filterMap fun item => if field item "type" = some "text" then field item "text" else none

/-- The lines, the last one first. An assistant's message without a list of blocks ends the search. -/
def lastAssistantText : List String → Option String
  | [] => none
  | line :: earlier =>
    match (Json.parse host.float line).map Json.sorted with
    | none => lastAssistantText earlier
    | some entry =>
      if field entry "type" ≠ some "assistant" then lastAssistantText earlier
      else
        match ((entry.get? "message").bind (·.get? "content")).bind (·.asArray?) with
        | none => none
        | some content =>
          if textParts content = [] then lastAssistantText earlier
          else some ("\n".intercalate (textParts content))

def extractPlanFromTranscript (world : HookWorld) (path : String) : Option String :=
  (world.transcript path).bind fun lines => lastAssistantText host lines.reverse

def permissionSuggestionsOf (hookEvent : Json) : Option (List PermissionSuggestion) :=
  ((hookEvent.get? "permission_suggestions").bind (·.asArray?)).bind (·.mapM PermissionSuggestion.fromValue)

/-- The data of the event. A plan goes with it. -/
def eventDataOf (world : HookWorld) (ctx : Context) (hookEvent : Json) : Option Json :=
  let data := extractEventData ctx.eventType hookEvent
  let plan :=
    if ctx.toolName = "ExitPlanMode" then
      (field hookEvent "transcript_path").bind (extractPlanFromTranscript host world)
    else none
  match plan with
  | some plan => some (.object (Json.insertSorted "plan_content" (.string plan) (data.getD [])))
  | none => data.map .object

def decisionRequest (world : HookWorld) (ctx : Context) (hookEvent : Json) (terminalSessionId : Option Uuid) :
    DecisionRequest :=
  { id := world.requestId
    agentId := ctx.agentId
    agentType := ctx.agentType
    project := ⟨ctx.project⟩
    toolName := ctx.toolName
    toolInput := ctx.toolInput
    timestamp := world.now
    hookEventName := ctx.eventType
    toolUseId := ctx.toolUseId
    permissionSuggestions := if ctx.eventType = .permissionRequest then permissionSuggestionsOf hookEvent else none
    eventData := eventDataOf host world ctx hookEvent
    terminalSessionId }

/-- The result of a tool, on its way to the daemon. -/
def handlePostToolUse (world : HookWorld) (hookEvent : Json) (agentType : AgentType) : Option ToolResult :=
  (agentIdFromHookEvent world hookEvent agentType).toOption.map fun agentId =>
    { agentId
      toolName := (field hookEvent "tool_name").getD "unknown"
      toolInput := toolInputOf hookEvent
      toolResult := (hookEvent.get? "tool_response").getD .null
      timestamp := world.now
      toolUseId := field hookEvent "tool_use_id" }

/-- A daemon that answers by a rejection is resolved here, and leaves a line. -/
def gateDecisionWithAudit (world : HookWorld) (ctx : Context) : Except HookFailure HookResponse × List AutoApprovedLog :=
  match requestDecision host.float world.socket ctx.eventType ctx.agentType with
  | .ok answer => (.ok answer, [])
  | .error failure =>
    if failure.kind = .daemonRejected then
      let resolution := responseForFailure failure (failModeFromContents world.files.failMode)
      (.ok resolution,
        [ctx.log (outcomeWord resolution.decision) (failure.decidedBy.getD "daemon_rejected:unknown")])
    else (.error failure, [])

/-! ### The run -/

def invalidInput (message : String) (eventType : HookEventType) (agentType : AgentType) : HookFailure :=
  { kind := .invalidInput, message, eventType, agentType }

/-- `terminal_session_env`, as far as it is a UUID. -/
def terminalSessionId (world : HookWorld) (eventType : HookEventType) (agentType : AgentType) :
    Except HookFailure (Option Uuid) :=
  match world.env "WISPHIVE_TERMINAL_SESSION_ID" with
  | .notPresent => .ok none
  | .notUnicode => .error (invalidInput
      "Wisphive rejected WISPHIVE_TERMINAL_SESSION_ID: value is not UTF-8" eventType agentType)
  | .value text =>
    match parseUuid text with
    | some id => .ok (some id)
    | none => .error (invalidInput
        "Wisphive rejected WISPHIVE_TERMINAL_SESSION_ID: value must be a UUID" eventType agentType)

def projectOf (world : HookWorld) (hookEvent : Json) (agentType : AgentType) : String :=
  match (agentProjectEnv agentType).bind fun key => (world.env key).ok, field hookEvent "cwd" with
  | some project, _ => project
  | none, some cwd => cwd
  | none, none => world.currentDir.getD "."

def identify (world : HookWorld) (hookEvent : Json) (eventType : HookEventType) (agentType : AgentType) :
    Except HookFailure (Context × Option Uuid) := do
  let agentId ← (agentIdFromHookEvent world hookEvent agentType).mapError fun error =>
    invalidInput ("Wisphive rejected malformed hook identity: " ++ error) eventType agentType
  let terminalSessionId ← terminalSessionId world eventType agentType
  return (
    { toolUseId := field hookEvent "tool_use_id"
      agentId
      project := projectOf world hookEvent agentType
      toolName := toolNameOf hookEvent eventType
      toolInput := toolInputOf hookEvent
      eventType
      agentType }, terminalSessionId)

/-- An event without an input is logged with its data. -/
def toggledInput (config : Option Json) (ctx : Context) (hookEvent : Json) : Json :=
  if (HookPolicy.eventAutoApprovedBy config ctx.eventType).isSome ∧ ctx.toolInput = .null then
    ((extractEventData ctx.eventType hookEvent).map .object).getD ctx.toolInput
  else ctx.toolInput

def resolve (world : HookWorld) (ctx : Context) (hookEvent : Json) (terminalSessionId : Option Uuid) :
    Except HookFailure HookResponse × Effects :=
  let surface := promptSurfaceFromEnv world
  let registers := some (ctx.agentId, ctx.agentType, ctx.project)
  match HookPolicy.runLocally host.toHookPlatform world.files.config world.files.legacy
      ⟨ctx.eventType, ctx.toolName, ctx.toolInput⟩ with
  | .alwaysDefer deferClass =>
    let (answer, log) := resolveAlwaysDefer host surface deferClass ctx
    (.ok answer, { log, registers })
  | .approve decidedBy =>
    let logged := { ctx with toolInput := toggledInput world.files.config ctx hookEvent }
    (.ok (response ctx .approve), { log := [logged.log "auto_approved" decidedBy], registers })
  | .askDaemon =>
    let asks := some (decisionRequest host world ctx hookEvent terminalSessionId)
    match gateDecisionWithAudit host world ctx with
    | (.error failure, log) => (.error failure, { log, registers, asks })
    | (.ok answer, log) =>
      let (converted, denied) := convertPromptlessDaemonAsk host surface answer ctx
      (.ok converted, { log := log ++ denied, registers, asks })

def runActive (world : HookWorld) : Except HookFailure HookResponse × Effects :=
  match readHookEvent host world with
  | .error failure => (.error failure, {})
  | .ok hookEvent =>
    let eventType := eventTypeOf hookEvent
    match detectAgentType world hookEvent with
    | none => resolveUnrecognizedProvider host world hookEvent eventType
    | some agentType =>
      if isPostToolUse eventType hookEvent then
        (.ok { decision := .approve, eventType := .postToolUse, agentType },
          { reports := handlePostToolUse world hookEvent agentType })
      else
        match identify world hookEvent eventType agentType with
        | .error failure => (.error failure, {})
        | .ok (ctx, terminalSessionId) => resolve host world ctx hookEvent terminalSessionId

/-- A denial in no one's dialect is a text, and a response has its own. -/
abbrev Outcome := Except String HookResponse

/-- What became of the input is answered by the fail mode. A provider that is not known is
told on stderr alone. -/
def answerFailure (world : HookWorld) (failure : HookFailure) : Outcome × List AutoApprovedLog :=
  let answer := responseForFailure failure (failModeFromContents world.files.failMode)
  if (detectAgentType world .null).isNone then
    let log := [auditUnrecognizedPreParse world failure answer]
    if answer.decision = .deny then
      (.error (failure.message ++ "\nWISPHIVE_AGENT_TYPE=" ++ host.debug (rawAgentType world) ++ " is also not a provider " ++
        "this hook can serve (recognized: \"claude_code\", \"claude\", \"codex\"), so this denial uses the " ++
        "provider-agnostic exit-2 channel instead of provider-shaped JSON."), log)
    else (.ok answer, log)
  else (.ok answer, [])

/-- The end of a run in which the gate is active. -/
def finish (world : HookWorld) : Except HookFailure HookResponse × Effects → Outcome × Effects
  | (.ok answer, effects) => (.ok answer, effects)
  | (.error failure, effects) =>
    if failure.kind = .unrecognizedProvider then (.error failure.message, effects)
    else
      let (outcome, log) := answerFailure host world failure
      (outcome, { effects with log := effects.log ++ log })

def run (world : HookWorld) : Outcome × Effects :=
  match readModeFile host world.state with
  | .error error => (.error (modeFailure error world.state.path), {})
  | .ok .off => (.ok { decision := .approve, eventType := .preToolUse, agentType := preParseAgentType world }, {})
  | .ok .active => finish host world (runActive host world)

/-- `main`: what the agent is left with. -/
def exit (world : HookWorld) : HookExit :=
  match (run host world).1 with
  | .ok answer => HookOutput.formatAndExit answer
  | .error message => { stderr := message ++ "\n", code := 2 }

end HookRun
end Wisphive
