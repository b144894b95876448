import Mathlib.Data.List.Basic
import Wisphive.EventIngest
import Wisphive.Migration
import Wisphive.Retention
import Wisphive.TerminalEdits
import Wisphive.TerminalEnv
import Wisphive.TerminalStore
import Wisphive.TerminalRespawn
import Wisphive.ToolResults

/-! The operations of the store that write, each with its own statements. An operation that
fails between two statements keeps what the first one did, unless they share a transaction. -/

namespace Wisphive
open Foundation

/-- The texts and hashes that other crates make, and SQLite's date arithmetic. -/
structure StorePlatform where
  clock : TextClock
  ingest : IngestPlatform
  epochMs : String → Option Int

structure TerminalSessionMeta where
  id : Uuid
  label : Option String := none
  command : String
  args : List String := []
  cwd : PathBuf
  cols : BitVec 16
  rows : BitVec 16
  startedAt : DateTime
  endedAt : Option DateTime := none
  exitCode : Option Int := none
  status : TerminalStatus := .running
  groupName : Option String := none
  sortOrder : Int
  createdBy : Option String := none
  replayAcl : List String := []
  pinned : Bool := false
  deriving DecidableEq, Repr

def TerminalStatus.display : TerminalStatus → String
  | .running => "running"
  | .exited => "exited"
  | .killed => "killed"
  | .orphaned => "orphaned"

def TerminalDirection.display : TerminalDirection → String
  | .input => "input"
  | .output => "output"
  | .resize => "resize"

/-- Empty parts are skipped. -/
def TerminalEnvSpec.toJson (spec : TerminalEnvSpec) : Json :=
  .object
    ((if spec.set.entries.isEmpty then [] else
        [("set", .object (spec.set.entries.map fun entry => (entry.1, .string entry.2)))]) ++
      if spec.inheritNames.isEmpty then [] else [("inherit_names", .array (spec.inheritNames.map .string))])

/-- The row that took a tool result, and whether it was a deferral. -/
structure AttachedResult where
  id : Uuid
  wasDeferred : Bool
  deriving DecidableEq, Repr

namespace Store
open Sql (Command Value)

variable (platform : StorePlatform)

def idValue (id : Uuid) : Value :=
  .text (uuidText id)

def timeValue (instant : DateTime) : Value :=
  .text (platform.clock.toRfc3339 instant)

def flagValue (flag : Bool) : Value :=
  .integer (if flag then 1 else 0)

def hasId (id : Uuid) (row : Sql.Row StoreColumn) : Bool :=
  row .id = idValue id

/-- The provenance that only the daemon's own rows carry. -/
def managed (row : Sql.Row StoreColumn) : Bool :=
  row .agentId = .text spawnDecisionAgentId && row .toolName = .text spawnDecisionTool

/-- Texts are compared, and null is before nothing. -/
def isBefore (value : Value) (cutoff : String) : Bool :=
  value.asText?.any fun text => decide (text < cutoff)

/-! ### Pending decisions -/

def pendingValues (row : PendingRow) : List (StoreColumn × Value) :=
  [(.id, idValue row.id), (.agentId, .text row.agentId), (.agentType, .text row.agentType), (.project, .text row.project),
    (.toolName, .text row.toolName), (.toolInput, .text row.toolInput),
    (.timestamp, .text (platform.clock.text row.timestamp)), (.toolUseId, .ofText row.toolUseId),
    (.hookEventName, .text row.hookEventName), (.terminalSessionId, .ofText (row.terminalSessionId.map uuidText))]

def persistPending (req : DecisionRequest) : Store Unit :=
  (Command.insert .pendingDecisions (pendingValues platform (.ofRequest req)) .ignore).void

def deletePending (id : Uuid) : Store Unit :=
  (Command.delete .pendingDecisions (hasId id)).void

def deleteManagedSpawnPending (id : Uuid) : Store Bool := do
  let deleted ← Command.delete .pendingDecisions fun row => hasId id row && managed row
  return deleted = 1

def resolvedValues (id : Uuid) (row : Sql.Row StoreColumn) (decision : Decision) (decidedBy : String) (now : DateTime) :
    List (StoreColumn × Value) :=
  [(.id, idValue id), (.agentId, row .agentId), (.agentType, row .agentType), (.project, row .project),
    (.toolName, row .toolName), (.toolInput, row .toolInput), (.decision, .text decision.column),
    (.requestedAt, row .timestamp), (.resolvedAt, timeValue platform now), (.toolUseId, row .toolUseId),
    (.hookEventName, row .hookEventName), (.terminalSessionId, row .terminalSessionId), (.decidedBy, .text decidedBy)]

/-- The audit row of a pending row, and how many rows were inserted. -/
def logResolved (id : Uuid) (decision : Decision) (decidedBy : String) (now : DateTime) :
    Option (Sql.Row StoreColumn) → Store Nat
  | some row => Command.insert .decisionLog (resolvedValues platform id row decision decidedBy now) .ignore
  | none => return 0

def resolvePendingBy (id : Uuid) (decision : Decision) (decidedBy : String) (now : DateTime) : Store Unit := do
  let rows ← Command.select .pendingDecisions (hasId id)
  let _ ← logResolved platform id decision decidedBy now rows.head?
  deletePending id

def resolvePending (id : Uuid) (decision : Decision) (now : DateTime) : Store Unit :=
  resolvePendingBy platform id decision "human" now

/-- A row whose id does not parse is only deleted. -/
def drainRow (now : DateTime) (row : Sql.Row StoreColumn) : Store Unit :=
  match (row .id).asText?.bind platform.ingest.parseUuid with
  | some id =>
    if managed row then resolvePendingBy platform id .deny "daemon_restart:failclosed_spawn" now
    else resolvePendingBy platform id .approve "daemon_restart:failopen" now
  | none => (Command.delete .pendingDecisions fun other => other .id ≠ .null && other .id = row .id).void

def drainOrphanedPending (now : DateTime) : Store Nat := do
  let rows ← Command.select .pendingDecisions fun _ => true
  Command.forEach rows (drainRow platform now)
  return rows.countP fun row => ((row .id).asText?.bind platform.ingest.parseUuid).isSome

/-- The move of a reviewed spawn into the log. -/
def approveSpawn (id : Uuid) (decidedBy : String) (now : DateTime) : Store Bool := do
  let rows ← Command.select .pendingDecisions fun row => hasId id row && managed row
  if rows.isEmpty then Command.fail (.raised "no rows returned")
  else
    let inserted ← logResolved platform id .approve decidedBy now rows.head?
    deletePending id
    return inserted ≠ 0

def resolveSpawnPendingBy (id : Uuid) (reviewed : SpawnAgentRequest) (decidedBy : String) (now : DateTime) : Store Bool :=
  Command.transaction do
    let updated ← Command.update .pendingDecisions
      [(.agentType, fun _ => .text reviewed.agentType.column), (.project, fun _ => .text reviewed.project.text),
        (.toolInput, fun _ => .text (Redact.redactValue reviewed.toValue).render)]
      fun row => hasId id row && managed row
    if updated = 0 then return false else approveSpawn platform id decidedBy now

/-- Every managed row of an id says Deny. -/
def denyManaged (id : Uuid) (decidedBy : String) (now : DateTime) : Store Nat :=
  Command.update .decisionLog
    [(.decision, fun _ => .text Decision.deny.column), (.resolvedAt, fun _ => timeValue platform now),
      (.decidedBy, fun _ => .text decidedBy)]
    fun row => hasId id row && managed row

def fallbackValues (fallback : DecisionRequest) (decidedBy : String) (now : DateTime) : List (StoreColumn × Value) :=
  [(.id, idValue fallback.id), (.agentId, .text fallback.agentId), (.agentType, .text fallback.agentType.column),
    (.project, .text fallback.project.text), (.toolName, .text fallback.toolName),
    (.toolInput, .text (Redact.redactValue fallback.toolInput).render), (.decision, .text Decision.deny.column),
    (.requestedAt, timeValue platform fallback.timestamp), (.resolvedAt, timeValue platform now),
    (.toolUseId, .ofText fallback.toolUseId), (.hookEventName, .text fallback.hookEventName.display),
    (.terminalSessionId, .ofText (fallback.terminalSessionId.map uuidText)), (.decidedBy, .text decidedBy)]

def forceFailclosedSpawnResolution (id : Uuid) (decidedBy : String) (fallback : DecisionRequest) (now : DateTime) :
    Store Bool :=
  if fallback.id ≠ id ∨ fallback.agentId ≠ spawnDecisionAgentId ∨ fallback.toolName ≠ spawnDecisionTool then
    Command.fail (.raised "fail-closed SpawnAgent fallback lacks daemon provenance")
  else
    Command.transaction do
      let _ ← denyManaged platform id decidedBy now
      let rows ← Command.select .pendingDecisions fun row => hasId id row && managed row
      let _ ← logResolved platform id .deny decidedBy now rows.head?
      let _ ← Command.insert .decisionLog (fallbackValues platform fallback decidedBy now) .ignore
      let reconciled ← denyManaged platform id decidedBy now
      let _ ← Command.delete .pendingDecisions fun row => hasId id row && managed row
      return reconciled > 0

def recordSpawnActionFailure (id : Uuid) (error : String) : Store Bool := do
  let result := Redact.redactValue (.object [("error", .string error), ("spawn_status", .string "action_failed")])
  let updated ← Command.update .decisionLog
    [(.toolResult, fun _ => .text result.render),
      (.decidedBy, fun row => .text (Database.actionFailedBy (row .decidedBy).asText?))]
    fun row => hasId id row && managed row && row .decision = .text Decision.approve.column
  return updated > 0

/-! ### The decision log -/

/-- The statement that stores a result in the row that was selected for it. -/
def storeToolResult (result : String) (id : Value) : Store Unit :=
  (Command.update .decisionLog [(.toolResult, fun _ => .text result)] fun row => row .id ≠ .null && row .id = id).void

def attachTo (result : String) (row : Sql.Row StoreColumn) : Store (Option AttachedResult) := do
  storeToolResult result (row .id)
  return ((row .id).asText?.bind platform.ingest.parseUuid).map fun id =>
    { id, wasDeferred := row .decision = .text Decision.ask.column }

def selectExact : Option String → Store (List (Sql.Row StoreColumn))
  | some toolUseId => Command.select .decisionLog fun row => row .toolUseId = .text toolUseId && row .toolResult = .null
  | none => return []

/-- The rows that no other one is later than. -/
def latest (rows : List (Sql.Row StoreColumn)) : List (Sql.Row StoreColumn) :=
  rows.filter fun row => rows.all fun other =>
    decide ((other .resolvedAt).asText?.getD "" ≤ (row .resolvedAt).asText?.getD "")

/-- The fuzzy match. Which of several latest rows is taken is `tie`. -/
def attachLatest (agentId toolName result : String) (now : DateTime) (tie : Nat) : Store (Option AttachedResult) := do
  let cutoff := platform.clock.toRfc3339 (now - ToolResults.attachWindow)
  let rows ← Command.select .decisionLog fun row =>
    row .agentId = .text agentId && row .toolName = .text toolName && row .toolResult = .null &&
      (row .resolvedAt).asText?.any fun text => decide (cutoff < text)
  match (latest rows)[tie]? with
  | some row => attachTo platform result row
  | none => return none

def attachToolResult (agentId toolName : String) (toolResult : Json) (toolUseId : Option String) (now : DateTime)
    (tie : Nat) : Store (Option AttachedResult) := do
  let result := (Redact.redactValue toolResult).render
  let exact ← selectExact toolUseId
  match exact with
  | row :: _ => attachTo platform result row
  | [] => attachLatest platform agentId toolName result now tie

def logAutoApproved (entry : AutoApprovedEntry) : Store Bool := do
  let row := entry.row platform.ingest
  let inserted ← Command.insert .decisionLog
    [(.id, idValue row.id), (.agentId, .text row.agentId), (.agentType, .text row.agentType),
      (.project, .text row.project), (.toolName, .text row.toolName), (.toolInput, .text row.toolInput),
      (.decision, .text row.decision), (.requestedAt, .text (platform.clock.text row.requestedAt)),
      (.resolvedAt, .text (platform.clock.text row.resolvedAt)), (.autoApproved, flagValue row.autoApproved),
      (.toolUseId, .ofText row.toolUseId), (.hookEventName, .text row.hookEventName),
      (.decidedBy, .ofText row.decidedBy), (.configHash, .ofText row.configHash)]
    .ignore
  return inserted > 0

/-- Each chunk is written to the archive before its rows go. The file takes `durable`
chunks before a write fails. -/
def archiveChunks : Nat → List (List Value) → Store Nat
  | _, [] => return 0
  | durable, chunk :: rest => do
    let rows ← Command.select .decisionLog fun row => row .id ∈ chunk
    match durable with
    | 0 => Command.fail (.raised "archive write")
    | durable + 1 =>
      let _ ← Command.delete .decisionLog fun row => row .id ∈ chunk
      let later ← archiveChunks durable rest
      return rows.length + later

def archiveRowsByIds (durable : Nat) (ids : List Value) : Store Nat :=
  archiveChunks durable (ids.toChunks Retention.batchSize)

/-- `ORDER BY resolved_at ASC, id ASC`. -/
def earlier (row other : Sql.Row StoreColumn) : Bool :=
  let text (row : Sql.Row StoreColumn) (column : StoreColumn) := (row column).asText?.getD ""
  text row .resolvedAt < text other .resolvedAt ||
    text row .resolvedAt = text other .resolvedAt && decide (text row .id ≤ text other .id)

def orderedIds (rows : List (Sql.Row StoreColumn)) : List Value :=
  (rows.mergeSort earlier).map (· .id)

/-- `byAge` and `byCount` are how many chunks the archive takes in the two phases. -/
def archiveAndPrune (byAge byCount maxRows : Nat) (cutoff : DateTime) : Store Nat := do
  let old ← Command.select .decisionLog fun row => isBefore (row .resolvedAt) (platform.clock.toRfc3339 cutoff)
  let first ← archiveRowsByIds byAge (orderedIds old)
  let rows ← Command.select .decisionLog fun _ => true
  let second ← archiveRowsByIds byCount ((orderedIds rows).take (rows.length - maxRows))
  return first + second

/-! ### Terminals -/

def createTerminalSession (data : TerminalSessionMeta) (env : Option TerminalEnvSpec) : Store Unit :=
  (Command.insert .terminalSessions
    [(.id, idValue data.id), (.label, .ofText data.label), (.command, .text data.command),
      (.args, .text (Json.array (data.args.map .string)).render), (.cwd, .text data.cwd.text),
      (.envJson, .ofText (env.map (·.toJson.render))), (.cols, .integer data.cols.toNat), (.rows, .integer data.rows.toNat),
      (.startedAt, timeValue platform data.startedAt), (.endedAt, .ofText (data.endedAt.map platform.clock.toRfc3339)),
      (.exitCode, data.exitCode.elim .null .integer), (.status, .text data.status.display),
      (.groupName, .ofText data.groupName), (.sortOrder, .integer data.sortOrder), (.createdBy, .ofText data.createdBy),
      (.replayAcl, .text (ReplayGrants.writeAcl data.replayAcl)), (.pinned, flagValue data.pinned)]).void

def setTerminalGroup (id : Uuid) (group : Option String) : Store Unit :=
  (Command.update .terminalSessions [(.groupName, fun _ => .ofText group)] (hasId id)).void

def setTerminalSortOrder (id : Uuid) (sortOrder : Int) : Store Unit :=
  (Command.update .terminalSessions [(.sortOrder, fun _ => .integer sortOrder)] (hasId id)).void

def setTerminalPinned (id : Uuid) (pinned : Bool) : Store Unit :=
  (Command.update .terminalSessions [(.pinned, fun _ => flagValue pinned)] (hasId id)).void

def endTerminalSession (id : Uuid) (exitCode : Option Int) (status : TerminalStatus) (now : DateTime) : Store Unit :=
  (Command.update .terminalSessions
    [(.endedAt, fun _ => timeValue platform now), (.exitCode, fun _ => exitCode.elim .null .integer),
      (.status, fun _ => .text status.display)]
    (hasId id)).void

def grantTerminalReplayAccess (id : Uuid) (requester : String) : Store Unit := do
  let rows ← Command.select .terminalSessions (hasId id)
  match rows with
  | [] => pure ()
  | row :: _ =>
    let acl := ReplayGrants.readAcl (row .replayAcl).asText?
    if requester ∈ acl then pure ()
    else
      (Command.update .terminalSessions
        [(.replayAcl, fun _ => .text (ReplayGrants.writeAcl (acl ++ [requester])))] (hasId id)).void

/-- `seq as i64` wraps. -/
def insertTerminalEvent (entry : Uuid × TermFrame) : Store Unit :=
  (Command.insert .terminalEvents
    [(.sessionId, idValue entry.1), (.seq, .integer (BitVec.ofNat 64 entry.2.seq).toInt), (.tsUs, .integer entry.2.tsUs),
      (.direction, .text entry.2.direction.display), (.payload, .blob entry.2.bytes)]
    .ignore).void

def insertTerminalEventsBatch (rows : List (Uuid × TermFrame)) : Store Unit :=
  if rows.isEmpty then pure () else Command.transaction (Command.forEach rows insertTerminalEvent)

/-- One statement, which returns the pinned rows that it swept. -/
def markRunningTerminalsOrphaned (now : DateTime) : Store (List Uuid) := do
  let running (row : Sql.Row StoreColumn) : Bool := row .status = .text "running"
  let rows ← Command.select .terminalSessions running
  let _ ← Command.update .terminalSessions
    [(.status, fun _ => .text "orphaned"),
      (.endedAt, fun row => if row .endedAt = .null then timeValue platform now else row .endedAt)]
    running
  return (rows.filter fun row => row .pinned ≠ .integer 0).filterMap fun row =>
    (row .id).asText?.bind platform.ingest.parseUuid

def resurrectTerminalSession (id : Uuid) : Store Unit :=
  (Command.update .terminalSessions
    [(.status, fun _ => .text "running"), (.endedAt, fun _ => .null), (.exitCode, fun _ => .null)] (hasId id)).void

def pruneTerminalEvents (cutoff : DateTime) : Store Nat := do
  let ended ← Command.select .terminalSessions fun row => isBefore (row .endedAt) (platform.clock.toRfc3339 cutoff)
  Command.delete .terminalEvents fun row => ended.any fun session => session .id ≠ .null && session .id = row .sessionId

/-- The checkpoint and the vacuum behind it change no row. -/
def runRetention (byAge byCount maxRows : Nat) (cutoff : DateTime) : Store (Nat × Nat) := do
  let archived ← archiveAndPrune platform byAge byCount maxRows cutoff
  let pruned ← pruneTerminalEvents platform cutoff
  return (archived, pruned)

/-! ### The web tables and the watched configuration -/

/-- The snapshot comes as its JSON text. -/
def saveConfigWatchSnapshot (snapshot : String) (hash : Option String) (now : DateTime) : Store Unit :=
  (Command.insert .configWatchState
    [(.id, .integer 1), (.snapshot, .text snapshot), (.hash, .ofText hash), (.updatedAt, timeValue platform now)]
    (.doUpdate [.id] [.snapshot, .hash, .updatedAt])).void

def passwordValues (argon2Hash : String) (now : DateTime) : List (StoreColumn × Value) :=
  [(.id, .integer 1), (.argon2Hash, .text argon2Hash), (.updatedAt, timeValue platform now)]

def setWebPassword (argon2Hash : String) (now : DateTime) : Store Unit :=
  (Command.insert .webPassword (passwordValues platform argon2Hash now) (.doUpdate [.id] [.argon2Hash, .updatedAt])).void

def trySetInitialWebPassword (argon2Hash : String) (now : DateTime) : Store Bool := do
  let inserted ← Command.insert .webPassword (passwordValues platform argon2Hash now) .ignore
  return inserted = 1

def insertWebDevice (id name tokenHash : String) (now : DateTime) : Store Unit :=
  (Command.insert .webDevices
    [(.id, .text id), (.name, .text name), (.tokenHash, .text tokenHash), (.createdAt, timeValue platform now)]).void

def trySetInitialWebPasswordAndDevice (argon2Hash id name tokenHash : String) (now : DateTime) : Store Bool :=
  Command.transaction do
    let created ← trySetInitialWebPassword platform argon2Hash now
    if created then
      insertWebDevice platform id name tokenHash now
      return true
    else return false

def replaceWebPasswordHashIfCurrent (expected replacement : String) (now : DateTime) : Store Bool := do
  let updated ← Command.update .webPassword
    [(.argon2Hash, fun _ => .text replacement), (.updatedAt, fun _ => timeValue platform now)]
    fun row => row .id = .integer 1 && row .argon2Hash = .text expected
  return updated = 1

def resetWebPassword : Store Unit :=
  Command.transaction do
    let _ ← Command.delete .webPasskeys fun _ => true
    let _ ← Command.delete .webDevices fun _ => true
    (Command.delete .webPassword fun _ => true).void

def active (id : String) (row : Sql.Row StoreColumn) : Bool :=
  row .id = .text id && row .revokedAt = .null

def revokeWebDevice (id : String) (now : DateTime) : Store Unit := do
  let changed ← Command.update .webDevices [(.revokedAt, fun _ => timeValue platform now)] (active id)
  if changed = 1 then pure ()
  else
    let rows ← Command.select .webDevices fun row => row .id = .text id
    if rows.isEmpty then Command.fail (.raised "not found") else pure ()

def touchWebDevice (id : String) (ip : Option String) (now : DateTime) : Store Unit :=
  (Command.update .webDevices [(.lastSeenAt, fun _ => timeValue platform now), (.lastIp, fun _ => .ofText ip)]
    (active id)).void

/-- The longest front part that takes no more bytes. -/
def truncated : Nat → List Char → List Char
  | _, [] => []
  | bytes, char :: rest => if char.utf8Size ≤ bytes then char :: truncated (bytes - char.utf8Size) rest else []

def appendWebAudit (event : String) (deviceId ip detail : Option String) (now : DateTime) : Store Unit :=
  (Command.insert .webAudit
    [(.loggedAt, timeValue platform now), (.event, .text event), (.deviceId, .ofText deviceId), (.ip, .ofText ip),
      (.detail, .ofText (detail.map fun text => String.ofList (truncated 4096 text.toList)))]).void

def insertWebPasskey (id deviceId : String) (publicKey : List UInt8) (signCount : Int) (transports aaguid : Option String)
    (rpId : String) (now : DateTime) : Store Unit :=
  (Command.insert .webPasskeys
    [(.id, .text id), (.deviceId, .text deviceId), (.publicKey, .blob publicKey), (.signCount, .integer signCount),
      (.transports, .ofText transports), (.createdAt, timeValue platform now), (.aaguid, .ofText aaguid),
      (.rpId, .text rpId)]).void

def updatePasskeySignCountAndLastUsed (credentialId : String) (newSignCount : Int) (now : DateTime) : Store Unit :=
  (Command.update .webPasskeys
    [(.signCount, fun _ => .integer newSignCount), (.lastUsedAt, fun _ => timeValue platform now)]
    fun row => row .id = .text credentialId).void

end Store

/-- One operation of the store with its arguments, the time at which it runs, and what
decides how far it gets. -/
inductive StoreWrite where
  /-- Another start of a daemon or a client, which migrates. -/
  | openRaw
  | persistPending (req : DecisionRequest)
  | deletePending (id : Uuid)
  | deleteManagedSpawnPending (id : Uuid)
  | drainOrphanedPending (now : DateTime)
  | resolvePending (id : Uuid) (decision : Decision) (now : DateTime)
  | resolvePendingBy (id : Uuid) (decision : Decision) (decidedBy : String) (now : DateTime)
  | resolveSpawnPendingBy (id : Uuid) (reviewed : SpawnAgentRequest) (decidedBy : String) (now : DateTime)
  | forceFailclosedSpawnResolution (id : Uuid) (decidedBy : String) (fallback : DecisionRequest) (now : DateTime)
  | recordSpawnActionFailure (id : Uuid) (error : String)
  | attachToolResult (agentId toolName : String) (toolResult : Json) (toolUseId : Option String) (now : DateTime)
      (tie : Nat)
  /-- The update of an attachment whose select ran earlier. Other operations may lie between them. -/
  | storeToolResult (toolResult : Json) (id : String)
  | logAutoApproved (entry : AutoApprovedEntry)
  | archiveAndPrune (byAge byCount maxRows : Nat) (cutoff : DateTime)
  | runRetention (byAge byCount maxRows : Nat) (cutoff : DateTime)
  | createTerminalSession (data : TerminalSessionMeta) (env : Option TerminalEnvSpec)
  | setTerminalGroup (id : Uuid) (group : Option String)
  | setTerminalSortOrder (id : Uuid) (sortOrder : Int)
  | setTerminalPinned (id : Uuid) (pinned : Bool)
  | endTerminalSession (id : Uuid) (exitCode : Option Int) (status : TerminalStatus) (now : DateTime)
  | grantTerminalReplayAccess (id : Uuid) (requester : String)
  | insertTerminalEventsBatch (rows : List (Uuid × TermFrame))
  | markRunningTerminalsOrphaned (now : DateTime)
  | resurrectTerminalSession (id : Uuid)
  | pruneTerminalEvents (cutoff : DateTime)
  | saveConfigWatchSnapshot (snapshot : String) (hash : Option String) (now : DateTime)
  | setWebPassword (argon2Hash : String) (now : DateTime)
  | trySetInitialWebPassword (argon2Hash : String) (now : DateTime)
  | trySetInitialWebPasswordAndDevice (argon2Hash id name tokenHash : String) (now : DateTime)
  | replaceWebPasswordHashIfCurrent (expected replacement : String) (now : DateTime)
  | resetWebPassword
  | insertWebDevice (id name tokenHash : String) (now : DateTime)
  | revokeWebDevice (id : String) (now : DateTime)
  | touchWebDevice (id : String) (ip : Option String) (now : DateTime)
  | appendWebAudit (event : String) (deviceId ip detail : Option String) (now : DateTime)
  | insertWebPasskey (id deviceId : String) (publicKey : List UInt8) (signCount : Int)
      (transports aaguid : Option String) (rpId : String) (now : DateTime)
  | updatePasskeySignCountAndLastUsed (credentialId : String) (newSignCount : Int) (now : DateTime)

namespace StoreWrite
open Sql (Command)

variable (platform : StorePlatform)

/-- The statements of an operation. Its reply is dropped. -/
def perform : StoreWrite → Store Unit
  | .openRaw => Migration.migrate platform.epochMs
  | .persistPending req => Store.persistPending platform req
  | .deletePending id => Store.deletePending id
  | .deleteManagedSpawnPending id => (Store.deleteManagedSpawnPending id).void
  | .drainOrphanedPending now => (Store.drainOrphanedPending platform now).void
  | .resolvePending id decision now => Store.resolvePending platform id decision now
  | .resolvePendingBy id decision decidedBy now => Store.resolvePendingBy platform id decision decidedBy now
  | .resolveSpawnPendingBy id reviewed decidedBy now =>
    (Store.resolveSpawnPendingBy platform id reviewed decidedBy now).void
  | .forceFailclosedSpawnResolution id decidedBy fallback now =>
    (Store.forceFailclosedSpawnResolution platform id decidedBy fallback now).void
  | .recordSpawnActionFailure id error => (Store.recordSpawnActionFailure id error).void
  | .attachToolResult agentId toolName toolResult toolUseId now tie =>
    (Store.attachToolResult platform agentId toolName toolResult toolUseId now tie).void
  | .storeToolResult toolResult id => Store.storeToolResult (Redact.redactValue toolResult).render (.text id)
  | .logAutoApproved entry => (Store.logAutoApproved platform entry).void
  | .archiveAndPrune byAge byCount maxRows cutoff => (Store.archiveAndPrune platform byAge byCount maxRows cutoff).void
  | .runRetention byAge byCount maxRows cutoff => (Store.runRetention platform byAge byCount maxRows cutoff).void
  | .createTerminalSession data env => Store.createTerminalSession platform data env
  | .setTerminalGroup id group => Store.setTerminalGroup id group
  | .setTerminalSortOrder id sortOrder => Store.setTerminalSortOrder id sortOrder
  | .setTerminalPinned id pinned => Store.setTerminalPinned id pinned
  | .endTerminalSession id exitCode status now => Store.endTerminalSession platform id exitCode status now
  | .grantTerminalReplayAccess id requester => Store.grantTerminalReplayAccess id requester
  | .insertTerminalEventsBatch rows => Store.insertTerminalEventsBatch rows
  | .markRunningTerminalsOrphaned now => (Store.markRunningTerminalsOrphaned platform now).void
  | .resurrectTerminalSession id => Store.resurrectTerminalSession id
  | .pruneTerminalEvents cutoff => (Store.pruneTerminalEvents platform cutoff).void
  | .saveConfigWatchSnapshot snapshot hash now => Store.saveConfigWatchSnapshot platform snapshot hash now
  | .setWebPassword argon2Hash now => Store.setWebPassword platform argon2Hash now
  | .trySetInitialWebPassword argon2Hash now => (Store.trySetInitialWebPassword platform argon2Hash now).void
  | .trySetInitialWebPasswordAndDevice argon2Hash id name tokenHash now =>
    (Store.trySetInitialWebPasswordAndDevice platform argon2Hash id name tokenHash now).void
  | .replaceWebPasswordHashIfCurrent expected replacement now =>
    (Store.replaceWebPasswordHashIfCurrent platform expected replacement now).void
  | .resetWebPassword => Store.resetWebPassword
  | .insertWebDevice id name tokenHash now => Store.insertWebDevice platform id name tokenHash now
  | .revokeWebDevice id now => Store.revokeWebDevice platform id now
  | .touchWebDevice id ip now => Store.touchWebDevice platform id ip now
  | .appendWebAudit event deviceId ip detail now => Store.appendWebAudit platform event deviceId ip detail now
  | .insertWebPasskey id deviceId publicKey signCount transports aaguid rpId now =>
    Store.insertWebPasskey platform id deviceId publicKey signCount transports aaguid rpId now
  | .updatePasskeySignCountAndLastUsed credentialId newSignCount now =>
    Store.updatePasskeySignCountAndLastUsed platform credentialId newSignCount now

/-- An order of 0 is given only to sessions that the backfill would order so. -/
def Spares (db : StateDb) : StoreWrite → Prop
  | .createTerminalSession data _ =>
    data.sortOrder = 0 → platform.epochMs (platform.clock.toRfc3339 data.startedAt) = some 0
  | .setTerminalSortOrder id sortOrder =>
    sortOrder = 0 → ∀ row ∈ db.rows .terminalSessions, Store.hasId id row = true →
      Migration.backfillValue platform.epochMs row = .integer 0
  | _ => True

/-- Operations on a database that was migrated at `created`. Each comes with what
`CURRENT_TIMESTAMP` reads while it runs. -/
def machine (created : String) : Machine StateDb (String × StoreWrite) where
  start := (Migration.migrate platform.epochMs created {}).2
  step db event := some (event.2.perform platform event.1 db).2

end StoreWrite
end Wisphive
