import Wisphive.Daemon

/-! Managed spawns: a request is queued for review, its decision is claimed, made
durable and only then released, and an approved one is launched. -/

namespace Wisphive
open Foundation

def inspect (id : Uuid) : Daemon (Option DecisionRequest × Bool) :=
  .request (.inspect id) .pure

def snapshot : Daemon (List (DecisionRequest × Bool)) :=
  .request .snapshot .pure

def claim (id : Uuid) (decision : Decision) : Daemon Claimed :=
  .request (.claim id decision) .pure

def completeClaim (held : ClaimedDecision) (rich : RichDecision) : Daemon Unit :=
  .request (.completeClaim held rich) .pure

/-- A statement under a timeout. -/
def executeTimed (statement : Statement) : Daemon (Except String statement.Reply) :=
  .request (.executeTimed statement) .pure

def receive (channel : Channel) : Daemon (Option RichDecision) :=
  .request (.receive channel) .pure

/-- The checks of a spawn request, which resolve its project to a canonical path. -/
def validateSpawnRequest (req : SpawnAgentRequest) : Daemon (Except String SpawnAgentRequest) :=
  .request (.validateProject req) fun project => .pure (project.map fun project => { req with project })

/-- The daemon's own queue item for a spawn request. -/
def spawnApprovalRequest (req : SpawnAgentRequest) : Daemon DecisionRequest :=
  .request .newV4 fun id => .request .utcNow fun timestamp => .pure
    { id
      agentId := spawnDecisionAgentId
      agentType := req.agentType
      project := req.project
      toolName := spawnDecisionTool
      toolInput := req.toValue
      timestamp }

def requiredFields : List String := ["agent_type", "project", "prompt"]

def allowedFields : List String :=
  ["agent_type", "project", "prompt", "model", "name", "reasoning", "max_turns", "permission_mode",
    "system_prompt", "append_system_prompt", "allowed_tools", "disallowed_tools", "continue_session",
    "resume", "output_format", "verbose"]

/-- The reason that deserialization gives is left out of the last message. -/
def decodeCompleteSpawnInput (input : Json) : Except String SpawnAgentRequest :=
  match input with
  | .object members =>
    match requiredFields.find? fun field => !members.any (·.1 = field) with
    | some field => .error ("SpawnAgent complete request is missing required field '" ++ field ++ "'")
    | none =>
      match members.find? fun member => member.1 ∉ allowedFields with
      | some (field, _) => .error ("SpawnAgent complete request contains unknown field '" ++ field ++ "'")
      | none =>
        match SpawnAgentRequest.fromValue input with
        | some req => .ok req
        | none => .error "SpawnAgent complete request is invalid"
  | _ => .error "SpawnAgent input must be a JSON object"

def failclosedSpawnDecision (message resolver : String) : RichDecision :=
  { RichDecision.deny with message := some message, resolver := some resolver }

/-- The row is stored before the request becomes visible, and taken back when the
queue is full. -/
def enqueueSpawnForApproval (req : SpawnAgentRequest) : Daemon (Except String (DecisionRequest × Channel)) := do
  let decision ← spawnApprovalRequest req
  match ← execute (.persistPending decision) with
  | .error error => return .error error
  | .ok () =>
    match ← execute (.pendingIsManagedSpawn decision.id) with
    | .error error => return .error error
    | .ok false => return .error "SpawnAgent pending id collided with an existing non-spawn row"
    | .ok true =>
      match ← (.request (.enqueueManagedSpawn decision) .pure : Daemon (Option Channel)) with
      | some channel => return .ok (decision, channel)
      | none =>
        let _ ← execute (.deleteManagedSpawnPending decision.id)
        return .error "pending SpawnAgent limit (8) reached"

/-- An approval carries the complete request that was reviewed. -/
def reviewSpawn (pending : DecisionRequest) (rich : RichDecision) :
    Daemon (Except String (Option SpawnAgentRequest × RichDecision)) := do
  if rich.decision = .approve then
    match decodeCompleteSpawnInput (rich.updatedInput.getD pending.toolInput) with
    | .error error => return .error error
    | .ok edited =>
      match ← validateSpawnRequest edited with
      | .error error => return .error ("reviewed SpawnAgent request is invalid: " ++ error)
      | .ok reviewed => return .ok (some reviewed, { rich with updatedInput := some reviewed.toValue })
  else return .ok (none, rich)

/-- What makes the decision durable. -/
def persistSpawn (held : ClaimedDecision) (decision : Decision) (reviewed : Option SpawnAgentRequest)
    (resolver : String) : Daemon (Except String Bool) :=
  match decision, reviewed with
  | .approve, some reviewed => executeTimed (.resolveSpawnPendingBy held.request.id reviewed resolver)
  | .ask, _ => executeTimed (.deleteManagedSpawnPending held.request.id)
  | _, _ => executeTimed (.forceFailclosedSpawnResolution held.request.id resolver held.request)

/-- Release a denial, then make the tables agree with it. -/
def releaseFailclosed (held : ClaimedDecision) (message context refusal : String) :
    Daemon (Except String Bool) := do
  completeClaim held (failclosedSpawnDecision message "daemon:persistence_failure")
  match ← execute (.forceFailclosedSpawnResolution held.request.id "spawn_persistence_failure:deny"
    held.request) with
  | .error _ => return .error context
  | .ok _ => return .error refusal

/-- The decision is released as it is only when it is durable. -/
def settleClaim (held : ClaimedDecision) (reviewed : Option SpawnAgentRequest) (rich : RichDecision)
    (resolver : String) : Daemon (Except String Bool) := do
  match ← persistSpawn held rich.decision reviewed resolver with
  | .ok true =>
    completeClaim held rich
    return .ok true
  | .ok false =>
    releaseFailclosed held "SpawnAgent approval could not be recorded; launch refused"
      "reconciling unrecorded SpawnAgent approval fail closed"
      "SpawnAgent approval was not recorded; launch refused"
  | .error _ =>
    releaseFailclosed held "SpawnAgent decision persistence failed; launch refused"
      "reconciling failed SpawnAgent persistence fail closed"
      "persisting SpawnAgent decision before release"

def finalizeSpawnDecision (id : Uuid) (rich : RichDecision) (resolver : String) :
    Daemon (Except String Bool) := do
  match ← inspect id with
  | (none, _) => return .ok false
  | (some _, false) => return .error ("decision " ++ uuidText id ++ " is not a SpawnAgent request")
  | (some pending, true) =>
    match ← reviewSpawn pending rich with
    | .error error => return .error error
    | .ok (reviewed, rich) =>
      match ← claim id rich.decision with
      | .absent => return .ok false
      | .expired => return .error "SpawnAgent approval window expired; launch refused"
      | .claimed held => settleClaim held reviewed rich resolver

def finalizeSpawnAbandonment (id : Uuid) (decidedBy : String) : Daemon (Except String Unit) := do
  match (← snapshot).find? (·.1.id = id) with
  | none => return .error "abandoned SpawnAgent request is missing"
  | some (_, false) => return .error "abandoned decision is not a managed SpawnAgent"
  | some (fallback, true) =>
    match ← execute (.forceFailclosedSpawnResolution id decidedBy fallback) with
    | .error error => return .error error
    | .ok _ =>
      let _ ← finalizeLocal id .deny
      return .ok ()

inductive SpawnRunError where
  | denied (message : String)
  | deferred
  | channelClosed
  | invalidRequest (reason : String)
  | action (reason : String)
  deriving DecidableEq, Repr

def SpawnRunError.display : SpawnRunError → String
  | .denied message => message
  | .deferred => "agent spawn was deferred; explicit approval is required"
  | .channelClosed => "approval channel closed; refusing managed-agent spawn"
  | .invalidRequest reason => "approved SpawnAgent request is invalid: " ++ reason
  | .action reason => "approved SpawnAgent action failed: " ++ reason

def spawnModeError : String :=
  "Wisphive hooks do not have a secure active mode; refusing managed spawn"

/-- The launch: the mode is checked once more. -/
def spawnAction (reviewed : SpawnAgentRequest) : Daemon (Except SpawnRunError Unit) := do
  match ← hookDecisionModeDenial with
  | some _ => return .error (.action spawnModeError)
  | none =>
    .request (.spawnAgent reviewed) fun launched => .pure
      (match launched with
        | .ok () => .ok ()
        | .error reason => .error (.action reason))

/-- The action runs only after an explicit, complete, revalidated Approve. -/
def runAfterSpawnApproval (channel : Channel) (original : SpawnAgentRequest) :
    Daemon (Except SpawnRunError Unit) := do
  match ← receive channel with
  | none => return .error .channelClosed
  | some rich =>
    match rich.decision with
    | .deny => return .error (.denied (rich.message.getD "agent spawn denied by human reviewer"))
    | .ask => return .error .deferred
    | .approve =>
      match decodeCompleteSpawnInput (rich.updatedInput.getD original.toValue) with
      | .error reason => return .error (.invalidRequest reason)
      | .ok edited =>
        match ← validateSpawnRequest edited with
        | .error reason => return .error (.invalidRequest reason)
        | .ok reviewed => spawnAction reviewed

/-- The task that denies a spawn request whose window has passed. -/
def expireSpawn (id : Uuid) : Daemon Unit :=
  .request (.startExpiry id) fun () => do
    let _ ← finalizeSpawnDecision id
      (failclosedSpawnDecision "SpawnAgent approval expired" "spawn_timeout:deny") "spawn_timeout:deny"
    .request (.endExpiry id) .pure

/-- An expiry that has started is awaited, one that has not is stopped. -/
def settleSpawnExpiry (id : Uuid) : Daemon Unit :=
  .request (.loadStarted id) fun started =>
    if started then .request (.awaitExpiry id) .pure else .request (.abortExpiry id) .pure

/-- What is recorded about a spawn that did not run. -/
def recordSpawnError (id : Uuid) : SpawnRunError → Daemon Unit
  | .channelClosed => do
    let _ ← finalizeSpawnAbandonment id "spawn_channel_drop:deny"
  | .invalidRequest reason | .action reason => do
    let _ ← execute (.recordSpawnActionFailure id reason)
  | .denied _ | .deferred => return ()

def spawnErrorReply (message : String) (correlationId : Option String) (deviceId : Option DeviceId) :
    ServerMessage :=
  match deviceId with
  | some _ => .commandError message correlationId
  | none => .error message

/-- The worker that waits for the decision on a queued spawn request. -/
def spawnWorker (decision : DecisionRequest) (channel : Channel) (req : SpawnAgentRequest)
    (correlationId : Option String) (deviceId : Option DeviceId) : Daemon Unit := do
  let result ← runAfterSpawnApproval channel req
  settleSpawnExpiry decision.id
  match result with
  | .ok () => return ()
  | .error error =>
    recordSpawnError decision.id error
    let _ ← writeMsg (spawnErrorReply ("failed to spawn agent: " ++ error.display) correlationId deviceId)

/-- The `SpawnAgent` arm. A client that asked for an acknowledgement and cannot be
written to gets no worker. -/
def handleSpawnAgent (req : SpawnAgentRequest) (correlationId : Option String) (deviceId : Option DeviceId) :
    Daemon Unit := do
  match ← hookDecisionModeDenial with
  | some _ =>
    let _ ← writeMsg (spawnErrorReply ("failed to queue agent spawn: " ++ spawnModeError) correlationId deviceId)
  | none =>
    match ← validateSpawnRequest req with
    | .error error =>
      let _ ← writeMsg (spawnErrorReply ("invalid agent spawn request: " ++ error) correlationId deviceId)
    | .ok req =>
      match ← enqueueSpawnForApproval req with
      | .error error =>
        let _ ← writeMsg (spawnErrorReply ("failed to queue agent spawn: " ++ error) correlationId deviceId)
      | .ok (decision, channel) =>
        let acknowledged ←
          if correlationId.isSome then writeMsg (.agentSpawnQueued decision correlationId) else pure true
        if acknowledged then spawnWorker decision channel req correlationId deviceId

end Wisphive
