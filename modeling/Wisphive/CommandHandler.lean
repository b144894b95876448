import Wisphive.SpawnDecisions

/-! The daemon's side of a client's command: the decision arms with their sudo
gates, and the commands that neither decide nor spawn. -/

namespace Wisphive
open Foundation

def resolve (id : Uuid) (rich : RichDecision) : Daemon Bool :=
  .request (.resolve id rich) .pure

def resolveListed (ids : List Uuid) (rich : RichDecision) : Daemon (List Uuid) :=
  .request (.resolveListed ids rich) .pure

def resolveOrdinary (ids : List Uuid) (rich : RichDecision) : Daemon (List Uuid) :=
  .request (.resolveOrdinary ids rich) .pure

def isFresh (device : DeviceId) : Daemon Bool :=
  .request (.isFresh device) .pure

/-- Audit-trail identity of the resolving client. -/
def resolverLabel : Option DeviceId → String
  | some device => "human:web:" ++ device.text
  | none => "human:tui"

/-- Errors of the eager write are only warned about. -/
def eagerPersist (id : Uuid) (decision : Decision) (resolver : String) : Daemon Unit := do
  let _ ← resolvePendingBy id decision resolver

def eagerPersistEach (decision : Decision) (resolver : String) : List Uuid → Daemon Unit
  | [] => .pure ()
  | id :: rest => do
    eagerPersist id decision resolver
    eagerPersistEach decision resolver rest

def writeEach : List ServerMessage → Daemon Unit
  | [] => .pure ()
  | message :: rest => do
    if ← writeMsg message then writeEach rest

/-- Whether the gate holds a web device's approval of a request back. The registry
is asked only about sudo-class requests. -/
def sudoGate (deviceId : Option DeviceId) (pending : Option DecisionRequest) : Daemon (Option ServerMessage) :=
  match deviceId, pending with
  | some device, some req =>
    if isSudoTool req.toolName then do
      if ← isFresh device then return none
      else return some (.webReauthRequired device.text (uuidText req.id) req.toolName)
    else return none
  | _, _ => return none

/-- The sudo-class items that a stale device may not approve, and the others. -/
def partitionSudoGated (fresh : Bool) (items : List (Uuid × String)) :
    List (Uuid × String) × List (Uuid × String) :=
  if fresh then ([], items) else items.partition fun item => isSudoTool item.2

/-- A decision about a managed spawn. Its failure is reported to the client. -/
def decideSpawn (id : Uuid) (rich : RichDecision) (resolver failure : String) : Daemon Unit := do
  match ← finalizeSpawnDecision id rich resolver with
  | .ok _ => return ()
  | .error error =>
    let _ ← writeMsg (.error (failure ++ error))

/-- An approval that the gate let pass. -/
def approve (id : Uuid) (isSpawn : Bool) (rich : RichDecision) (resolver : String) : Daemon Unit := do
  if isSpawn then decideSpawn id rich resolver "SpawnAgent approval rejected: "
  else if ← resolve id rich then eagerPersist id .approve resolver

def handleApprove (deviceId : Option DeviceId) (id : Uuid) (message : Option String)
    (updatedInput : Option Json) (alwaysAllow : Bool) (additionalContext : Option String) : Daemon Unit := do
  let (pending, isSpawn) ← inspect id
  match ← sudoGate deviceId pending with
  | some held =>
    let _ ← writeMsg held
  | none =>
    approve id isSpawn
      { decision := .approve, message, updatedInput, alwaysAllow, additionalContext
        resolver := some (resolverLabel deviceId) }
      (resolverLabel deviceId)

def handleDeny (deviceId : Option DeviceId) (id : Uuid) (message : Option String) : Daemon Unit := do
  let rich : RichDecision := { decision := .deny, message, resolver := some (resolverLabel deviceId) }
  if (← inspect id).2 then decideSpawn id rich (resolverLabel deviceId) "SpawnAgent denial persistence failed: "
  else if ← resolve id rich then eagerPersist id .deny (resolverLabel deviceId)

/-- A deferral is not written to the log. -/
def handleAsk (deviceId : Option DeviceId) (id : Uuid) : Daemon Unit := do
  if (← inspect id).2 then
    decideSpawn id { decision := .ask, resolver := some (resolverLabel deviceId) } (resolverLabel deviceId)
      "SpawnAgent deferral cleanup failed: "
  else
    let _ ← resolve id (.ofDecision .ask)

/-- A web device's bulk approval: what matches is listed, the gate holds back the
sudo-class items of a stale device, and the rest is resolved. -/
def approveAllWeb (device : DeviceId) (filter : Option DecisionFilter) : Daemon Unit := do
  let matching := ((← snapshot).filter fun item => filter.all (·.matchesRequest item.1)).map
    fun item => (item.1.id, item.1.toolName)
  let (gated, allowed) := partitionSudoGated (← isFresh device) matching
  let resolver := resolverLabel (some device)
  let resolved ← resolveOrdinary (allowed.map (·.1)) { decision := .approve, resolver := some resolver }
  eagerPersistEach .approve resolver resolved
  writeEach (gated.map fun item => .webReauthRequired device.text (uuidText item.1) item.2)

def handleApproveAll (deviceId : Option DeviceId) (filter : Option DecisionFilter) (confirm : Bool) :
    Daemon Unit := do
  if filter.isNone && !confirm then
    let _ ← writeMsg (.error "approve_all without a filter requires confirm=true")
  else
    match deviceId with
    | some device => approveAllWeb device filter
    | none =>
      let ids ← (.request (.resolveAll filter .approve (some (resolverLabel none))) .pure : Daemon (List Uuid))
      eagerPersistEach .approve (resolverLabel none) ids

/-- The managed spawns of a bulk denial, each on its own. The first error is kept. -/
def denySpawns (resolver : String) : List Uuid → Daemon (Option String)
  | [] => .pure none
  | id :: rest => do
    let decided ← finalizeSpawnDecision id { decision := .deny, resolver := some resolver } resolver
    let later ← denySpawns resolver rest
    match decided with
    | .ok _ => return later
    | .error error => return some error

def handleDenyAll (deviceId : Option DeviceId) (filter : Option DecisionFilter) : Daemon Unit := do
  let resolver := resolverLabel deviceId
  let matching := (← snapshot).filter fun item => filter.all (·.matchesRequest item.1)
  let (spawns, ordinary) := matching.partition (·.2)
  let resolved ← resolveListed (ordinary.map (·.1.id)) { decision := .deny, resolver := some resolver }
  eagerPersistEach .deny resolver resolved
  match ← denySpawns resolver (spawns.map (·.1.id)) with
  | none => return ()
  | some _ =>
    let _ ← writeMsg (.error
      "one or more bulk denials failed: one or more managed SpawnAgent bulk denials failed")

/-- Only a command that names its device refreshes anything. -/
def handleMarkDeviceFresh : Option DeviceId → Daemon Unit
  | some device =>
    .request (.touch device) fun () => do
      let _ ← writeMsg (.markDeviceFreshAck device.text)
  | none => return ()

/-- The suggestion is taken from the request that the gate saw, and the approval is
recorded whether or not it resolved anything. -/
def handleApprovePermission (deviceId : Option DeviceId) (id : Uuid) (suggestionIndex : Nat)
    (message : Option String) : Daemon Unit := do
  let pending := (← inspect id).1
  match ← sudoGate deviceId pending with
  | some held =>
    let _ ← writeMsg held
  | none =>
    match pending.bind fun req => req.permissionSuggestions.bind (·[suggestionIndex]?) with
    | none =>
      let _ ← writeMsg (.error ("invalid suggestion_index " ++ toString suggestionIndex ++ " for decision " ++
        uuidText id ++ "; request left pending"))
    | some selected =>
      let _ ← resolve id
        { decision := .approve, message, selectedPermission := some selected
          resolver := some (resolverLabel deviceId) }
      eagerPersist id .approve (resolverLabel deviceId)

/-- Installing hooks is sudo-class whatever the project. -/
def handleInstallHooks (deviceId : Option DeviceId) (project : PathBuf) : Daemon Unit := do
  let allowed ← match deviceId with
    | some device => isFresh device
    | none => pure true
  if allowed then .request (.installHooks project) .pure
  else
    match deviceId with
    | some device =>
      let _ ← writeMsg (.webReauthRequired device.text project.text "InstallHooks")
    | none => return ()

def handleDecisionCommand (deviceId : Option DeviceId) : ClientMessage → Daemon Unit
  | .approve id message updatedInput alwaysAllow additionalContext =>
    handleApprove deviceId id message updatedInput alwaysAllow additionalContext
  | .deny id message => handleDeny deviceId id message
  | .ask id => handleAsk deviceId id
  | .approveAll filter confirm => handleApproveAll deviceId filter confirm
  | .denyAll filter => handleDenyAll deviceId filter
  | .markDeviceFresh => handleMarkDeviceFresh deviceId
  | .approvePermission id suggestionIndex message => handleApprovePermission deviceId id suggestionIndex message
  | .installHooks project => handleInstallHooks deviceId project
  | _ => return ()

/-- Of the commands that decide nothing, `SpawnAgent` alone works on what the handlers
share. (Re-ingestion of events only adds log rows of its own.) -/
def dispatchCommand (command : ClientCommand) : Daemon Unit :=
  match command.body with
  | .spawnAgent req => handleSpawnAgent req command.correlationId command.deviceId
  | body => handleDecisionCommand command.deviceId body

end Wisphive
