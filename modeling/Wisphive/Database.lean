import Wisphive.Foundation.Table
import Wisphive.Redact
import Wisphive.Types

/-! The two decision tables and the statements that the daemon runs on them. Every
definition here is one statement or one transaction; `resolvePendingBy` and the
startup drain run theirs in sequence. -/

namespace Wisphive
open Foundation

/-- A stored time: the RFC 3339 text of an instant, or a text that was taken over. -/
inductive StoredTime where
  | rfc3339 (instant : DateTime)
  | raw (text : String)
  deriving DecidableEq, Repr

/-- The daemon's clock text. Times are compared as texts. -/
structure TextClock where
  toRfc3339 : DateTime → String

namespace TextClock

def text (clock : TextClock) : StoredTime → String
  | .rfc3339 instant => clock.toRfc3339 instant
  | .raw text => text

end TextClock

structure PendingRow where
  id : Uuid
  agentId : String
  agentType : String
  project : String
  toolName : String
  toolInput : String
  timestamp : StoredTime
  toolUseId : Option String
  hookEventName : String
  terminalSessionId : Option Uuid
  deriving DecidableEq, Repr

/-- No statement writes the selected permission. -/
structure LogRow where
  id : Uuid
  agentId : String
  agentType : String
  project : String
  toolName : String
  toolInput : String
  decision : String
  requestedAt : StoredTime
  resolvedAt : StoredTime
  autoApproved : Bool := false
  toolUseId : Option String
  hookEventName : String
  terminalSessionId : Option Uuid
  decidedBy : Option String
  configHash : Option String := none
  toolResult : Option String := none
  selectedPermission : Option String := none
  deriving DecidableEq, Repr

def spawnDecisionAgentId : String := "wisphive-daemon:spawn"

def spawnDecisionTool : String := "SpawnAgent"

/-- Tool inputs are scrubbed before they are stored. A request without one stores
its event data. -/
def storedInput (req : DecisionRequest) : Json :=
  if req.toolInput = .null then
    match req.eventData with
    | some data => Redact.redactValue data
    | none => req.toolInput
  else Redact.redactValue req.toolInput

namespace PendingRow

def ofRequest (req : DecisionRequest) : PendingRow where
  id := req.id
  agentId := req.agentId
  agentType := req.agentType.column
  project := req.project.text
  toolName := req.toolName
  toolInput := (storedInput req).render
  timestamp := .rfc3339 req.timestamp
  toolUseId := req.toolUseId
  hookEventName := req.hookEventName.display
  terminalSessionId := req.terminalSessionId

/-- The primary key. -/
def conflicts (row other : PendingRow) : Bool :=
  row.id = other.id

/-- The provenance that only the daemon's own rows carry. -/
def managed (row : PendingRow) : Bool :=
  row.agentId = spawnDecisionAgentId ∧ row.toolName = spawnDecisionTool

/-- The audit row into which a pending row is moved. -/
def resolved (row : PendingRow) (decision : Decision) (decidedBy : String) (now : DateTime) : LogRow where
  id := row.id
  agentId := row.agentId
  agentType := row.agentType
  project := row.project
  toolName := row.toolName
  toolInput := row.toolInput
  decision := decision.column
  requestedAt := row.timestamp
  resolvedAt := .rfc3339 now
  toolUseId := row.toolUseId
  hookEventName := row.hookEventName
  terminalSessionId := row.terminalSessionId
  decidedBy := some decidedBy

end PendingRow

namespace LogRow

/-- The primary key, and the unique index on the tool use ids that are not null. -/
def conflicts (row other : LogRow) : Bool :=
  row.id = other.id ∨ row.toolUseId.isSome ∧ row.toolUseId = other.toolUseId

theorem distinct_nil : Table.Distinct conflicts [] :=
  List.Pairwise.nil

def managed (row : LogRow) : Bool :=
  row.agentId = spawnDecisionAgentId ∧ row.toolName = spawnDecisionTool

end LogRow

structure Database where
  pending : List PendingRow := []
  log : List LogRow := []
  deriving DecidableEq, Repr

namespace Database

def persistPending (db : Database) (req : DecisionRequest) : Database :=
  { db with pending := (Table.insertOrIgnore PendingRow.conflicts db.pending (.ofRequest req)).2 }

def deletePending (db : Database) (id : Uuid) : Database :=
  { db with pending := (Table.delete db.pending (·.id = id)).2 }

def pendingIsManagedSpawn (db : Database) (id : Uuid) : Bool :=
  db.pending.countP (fun row => row.id = id && row.managed) = 1

def deleteManagedSpawnPending (db : Database) (id : Uuid) : Bool × Database :=
  let (deleted, pending) := Table.delete db.pending fun row => row.id = id && row.managed
  (deleted = 1, { db with pending })

def selectPending (db : Database) (id : Uuid) : Option PendingRow :=
  db.pending.find? (·.id = id)

def insertLog (db : Database) (row : LogRow) : Bool × Database :=
  let (inserted, log) := Table.insertOrIgnore LogRow.conflicts db.log row
  (inserted, { db with log })

/-- Move a pending row into the log. A conflict is only warned about, and the
pending row is deleted all the same. -/
def resolvePendingBy (db : Database) (id : Uuid) (decision : Decision) (decidedBy : String) (now : DateTime) :
    Database :=
  match db.selectPending id with
  | some row => (db.insertLog (row.resolved decision decidedBy now)).2.deletePending id
  | none => db.deletePending id

/-- What an orphaned row is drained as. -/
def drainOutcome (row : PendingRow) : Decision × String :=
  if row.managed then (.deny, "daemon_restart:failclosed_spawn") else (.approve, "daemon_restart:failopen")

def drainRows (db : Database) (now : DateTime) : List PendingRow → Database
  | [] => db
  | row :: rest =>
    let (decision, decidedBy) := drainOutcome row
    (db.resolvePendingBy row.id decision decidedBy now).drainRows now rest

/-- The ids are keys of this table's rows, so none of them fails to parse. -/
def drainOrphanedPending (db : Database) (now : DateTime) : Nat × Database :=
  (db.pending.length, db.drainRows now db.pending)

/-- One transaction: the reviewed request replaces the stored one, the row moves to
the log as approved, and `false` reports that it was missing or conflicted. -/
def resolveSpawnPendingBy (db : Database) (id : Uuid) (reviewed : SpawnAgentRequest) (decidedBy : String)
    (now : DateTime) : Bool × Database :=
  let review (row : PendingRow) : PendingRow :=
    { row with
      agentType := reviewed.agentType.column
      project := reviewed.project.text
      toolInput := (Redact.redactValue reviewed.toValue).render }
  let (updated, pending) := Table.update db.pending (fun row => row.id = id && row.managed) review
  if updated = 0 then (false, db)
  else
    match pending.find? fun row => row.id = id && row.managed with
    | none => (false, db)
    | some row =>
      let (inserted, moved) := { db with pending }.insertLog (row.resolved .approve decidedBy now)
      (inserted, moved.deletePending id)

/-- Make every managed row of an id say Deny. -/
def denyManaged (db : Database) (id : Uuid) (decidedBy : String) (now : DateTime) : Nat × Database :=
  let (changed, log) := Table.update db.log (fun row => row.id = id && row.managed) fun row =>
    { row with decision := Decision.deny.column, resolvedAt := .rfc3339 now, decidedBy := some decidedBy }
  (changed, { db with log })

/-- The row that is reconstructed from the request in memory. -/
def fallbackRow (fallback : DecisionRequest) (decidedBy : String) (now : DateTime) : LogRow where
  id := fallback.id
  agentId := fallback.agentId
  agentType := fallback.agentType.column
  project := fallback.project.text
  toolName := fallback.toolName
  toolInput := (Redact.redactValue fallback.toolInput).render
  decision := Decision.deny.column
  requestedAt := .rfc3339 fallback.timestamp
  resolvedAt := .rfc3339 now
  toolUseId := fallback.toolUseId
  hookEventName := fallback.hookEventName.display
  terminalSessionId := fallback.terminalSessionId
  decidedBy := some decidedBy

/-- One transaction: a committed approval is overwritten, a pending row is moved as
denied, and a missing one is reconstructed from the request in memory. A fallback
without the daemon's provenance is refused. -/
def forceFailclosedSpawnResolution (db : Database) (id : Uuid) (decidedBy : String)
    (fallback : DecisionRequest) (now : DateTime) : Option (Bool × Database) :=
  if fallback.id ≠ id ∨ fallback.agentId ≠ spawnDecisionAgentId ∨ fallback.toolName ≠ spawnDecisionTool then
    none
  else
    let overwritten := (db.denyManaged id decidedBy now).2
    let moved :=
      match overwritten.pending.find? fun row => row.id = id && row.managed with
      | some row => (overwritten.insertLog (row.resolved .deny decidedBy now)).2
      | none => overwritten
    let reconstructed := (moved.insertLog (fallbackRow fallback decidedBy now)).2
    let (reconciled, settled) := reconstructed.denyManaged id decidedBy now
    some (reconciled > 0, (settled.deleteManagedSpawnPending id).2)

/-- `LIKE '%…'`: an underscore stands for any character, and case does not count. -/
def likeSuffix (suffix text : List Char) : Bool :=
  suffix.length ≤ text.length &&
    (suffix.zip (text.drop (text.length - suffix.length))).all fun (pattern, char) =>
      pattern = '_' || pattern.toLower = char.toLower

def actionFailedBy (decidedBy : Option String) : String :=
  let suffix := ":spawn_action_failed"
  match decidedBy with
  | some by_ => if likeSuffix suffix.toList by_.toList then by_ else by_ ++ suffix
  | none => "unknown" ++ suffix

def recordSpawnActionFailure (db : Database) (id : Uuid) (error : String) : Bool × Database :=
  let result := Redact.redactValue (.object [("error", .string error), ("spawn_status", .string "action_failed")])
  let (updated, log) := Table.update db.log
    (fun row => row.id = id && row.managed && row.decision = Decision.approve.column) fun row =>
      { row with toolResult := some result.render, decidedBy := some (actionFailedBy row.decidedBy) }
  (updated > 0, { db with log })

end Database
end Wisphive
