import Wisphive.Foundation.Sql

/-! The migration that every start of the daemon and of the command line client runs on the
database: tables, columns and indexes, one backfill, and the search index. -/

namespace Wisphive
open Foundation

inductive StoreTable where
  | pendingDecisions | decisionLog | terminalSessions | terminalEvents | schemaMigrations | configWatchState
  | webPassword | webDevices | webPasskeys | webAudit
  deriving DecidableEq, Repr

inductive StoreColumn where
  | id | agentId | agentType | project | toolName | toolInput | timestamp | permissionSuggestions | toolUseId
  | hookEventName | terminalSessionId | decision | requestedAt | resolvedAt | toolResult | selectedPermission
  | autoApproved | decidedBy | configHash | label | command | args | cwd | envJson | cols | rows | startedAt | endedAt
  | exitCode | status | groupName | sortOrder | createdBy | replayAcl | pinned | sessionId | seq | tsUs | direction
  | payload | name | appliedAt | snapshot | hash | updatedAt | argon2Hash | tokenHash | createdAt | lastSeenAt | lastIp
  | revokedAt | deviceId | publicKey | signCount | transports | lastUsedAt | aaguid | rpId | loggedAt | event | ip | detail
  deriving DecidableEq, Repr

/-- Indexes, the search table and its triggers. -/
inductive StoreObject where
  | terminalEventsSessionSeq | terminalSessionsStatusStarted | terminalSessionsSortOrder | decisionLogAgentToolResolved
  | decisionLogResolvedAt | decisionLogToolUseId | webAuditAt | webDevicesRevoked | decisionLogFts | ftsAfterInsert
  | ftsAfterDelete | ftsAfterUpdate
  deriving DecidableEq, Repr

abbrev StateDb := Sql.Database StoreTable StoreColumn StoreObject

abbrev Store (α : Type) := Sql.Command StoreTable StoreColumn StoreObject α

/-- How the migration takes the error of a statement. -/
inductive MigrationStep where
  | execute (statement : Sql.Statement StoreTable StoreColumn StoreObject)
  /-- `.ok()`. -/
  | attempt (statement : Sql.Statement StoreTable StoreColumn StoreObject)
  | tryAddColumn (table : StoreTable) (column : Sql.ColumnDef StoreColumn)
  deriving DecidableEq, Repr

namespace Migration
open Sql (Command Value)

/-- The error whose message says `duplicate column name`. -/
def isDuplicateColumnError : Sql.Error StoreTable StoreColumn → Bool
  | .duplicateColumn _ => true
  | _ => false

def tryAddColumn (table : StoreTable) (column : Sql.ColumnDef StoreColumn) : Store Unit := fun clock db =>
  match (Sql.Statement.addColumn table column).execute clock db with
  | (.ok (), after) => (.ok (), after)
  | (.error error, after) => if isDuplicateColumnError error then (.ok (), after) else (.error error, after)

def runStep : MigrationStep → Store Unit
  | .execute statement => statement.execute
  | .attempt statement => Command.attempt statement.execute
  | .tryAddColumn table column => tryAddColumn table column

def nullable (column : StoreColumn) : Sql.ColumnDef StoreColumn := { name := column }

def required (column : StoreColumn) : Sql.ColumnDef StoreColumn := { name := column, notNull := true }

def defaulting (column : StoreColumn) (value : Value) : Sql.ColumnDef StoreColumn :=
  { name := column, notNull := true, default := .value value }

/-- The decision tables, and the sessions up to their manual order. -/
def tables : List MigrationStep :=
  [.execute (.createTable .pendingDecisions
      { columns := nullable .id :: [.agentId, .agentType, .project, .toolName, .toolInput, .timestamp].map required
        keys := [[.id]] }),
    .execute (.createTable .decisionLog
      { columns := nullable .id ::
          [.agentId, .agentType, .project, .toolName, .toolInput, .decision, .requestedAt, .resolvedAt].map required
        keys := [[.id]] }),
    .attempt (.addColumn .decisionLog (nullable .toolResult)),
    .attempt (.addColumn .pendingDecisions (nullable .permissionSuggestions)),
    .attempt (.addColumn .decisionLog (nullable .selectedPermission)),
    .attempt (.addColumn .decisionLog { name := .autoApproved, default := .value (.integer 0) }),
    .attempt (.addColumn .decisionLog (nullable .toolUseId)),
    .attempt (.addColumn .pendingDecisions (nullable .toolUseId)),
    .attempt (.addColumn .pendingDecisions { name := .hookEventName, default := .value (.text "PreToolUse") }),
    .attempt (.addColumn .decisionLog { name := .hookEventName, default := .value (.text "PreToolUse") }),
    .attempt (.addColumn .pendingDecisions (nullable .terminalSessionId)),
    .attempt (.addColumn .decisionLog (nullable .terminalSessionId)),
    .attempt (.addColumn .decisionLog (nullable .decidedBy)),
    .attempt (.addColumn .decisionLog (nullable .configHash)),
    .execute (.createTable .terminalSessions
      { columns := [nullable .id, nullable .label, required .command, required .args, required .cwd, nullable .envJson,
          required .cols, required .rows, required .startedAt, nullable .endedAt, nullable .exitCode,
          defaulting .status (.text "running")]
        keys := [[.id]] }),
    .attempt (.addColumn .terminalSessions (nullable .groupName)),
    .attempt (.addColumn .terminalSessions (defaulting .sortOrder (.integer 0)))]

/-- `-CAST((julianday(started_at) - 2440587.5) * 86400000 AS INTEGER)`. SQLite's part is
`epochMs`, which knows no number for a text that is no date. -/
def backfillValue (epochMs : String → Option Int) (row : Sql.Row StoreColumn) : Value :=
  match row .startedAt with
  | .text startedAt =>
    match epochMs startedAt with
    | some ms => .integer (-ms)
    | none => .null
  | _ => .null

/-- The rows whose order is 0 are taken for rows from before the column. -/
def backfill (epochMs : String → Option Int) : Store Nat :=
  Command.update .terminalSessions [(.sortOrder, backfillValue epochMs)] fun row => row .sortOrder = .integer 0

def sessions : List MigrationStep :=
  [.tryAddColumn .terminalSessions (nullable .createdBy),
    .tryAddColumn .terminalSessions (defaulting .replayAcl (.text "[]")),
    .tryAddColumn .terminalSessions (defaulting .pinned (.integer 0)),
    .execute (.createTable .terminalEvents
      { columns := [.sessionId, .seq, .tsUs, .direction, .payload].map required
        keys := [[.sessionId, .seq]]
        references := [{ column := .sessionId, table := .terminalSessions, key := .id }] }),
    .execute (.createIndex .terminalEventsSessionSeq .terminalEvents [.sessionId, .seq]),
    .execute (.createIndex .terminalSessionsStatusStarted .terminalSessions [.status, .startedAt]),
    .execute (.createIndex .terminalSessionsSortOrder .terminalSessions [.sortOrder]),
    .execute (.createIndex .decisionLogAgentToolResolved .decisionLog [.agentId, .toolName, .resolvedAt]),
    .execute (.createIndex .decisionLogResolvedAt .decisionLog [.resolvedAt])]

def ftsMarker : Value := .text "decision_log_fts_trigram_v1"

/-- The search table mirrors the log and keeps no rows of its own. The marker of its
installation is claimed with it. -/
def migrateDecisionLogFts : Store Unit := do
  Sql.Statement.execute (.createTable .schemaMigrations
    { columns := [nullable .name, { name := .appliedAt, notNull := true, default := .currentTimestamp }]
      keys := [[.name]] })
  Command.transaction do
    let claimed ← Command.insert .schemaMigrations [(.name, ftsMarker)] (.doNothing [.name])
    if claimed = 1 then
      Command.forEach [.ftsAfterInsert, .ftsAfterDelete, .ftsAfterUpdate, .decisionLogFts] Command.dropObject
      Command.createObject .decisionLogFts
      Command.notify .decisionLogFts
      Command.forEach [.ftsAfterInsert, .ftsAfterDelete, .ftsAfterUpdate] Command.createObject
    else pure ()

def web : List MigrationStep :=
  [.execute (.createIndex .decisionLogToolUseId .decisionLog [.toolUseId] true),
    .execute (.createTable .configWatchState
      { columns := [nullable .id, required .snapshot, nullable .hash, required .updatedAt]
        keys := [[.id]], checks := [(.id, .integer 1)], rowid := some .id }),
    .execute (.createTable .webPassword
      { columns := [nullable .id, required .argon2Hash, required .updatedAt]
        keys := [[.id]], checks := [(.id, .integer 1)], rowid := some .id }),
    .execute (.createTable .webDevices
      { columns := [nullable .id, required .name, required .tokenHash, required .createdAt, nullable .lastSeenAt,
          nullable .lastIp, nullable .revokedAt]
        keys := [[.id], [.tokenHash]] }),
    .execute (.createTable .webPasskeys
      { columns := [nullable .id, required .deviceId, required .publicKey, required .signCount, nullable .transports,
          required .createdAt, nullable .lastUsedAt, nullable .aaguid, defaulting .rpId (.text "")]
        keys := [[.id]]
        references := [{ column := .deviceId, table := .webDevices, key := .id, cascades := true }] }),
    .tryAddColumn .webPasskeys (nullable .aaguid),
    .tryAddColumn .webPasskeys (defaulting .rpId (.text "")),
    .execute (.createTable .webAudit
      { columns := [nullable .id, required .loggedAt, required .event, nullable .deviceId, nullable .ip, nullable .detail]
        keys := [[.id]], rowid := some .id }),
    .execute (.createIndex .webAuditAt .webAudit [.loggedAt]),
    .execute (.createIndex .webDevicesRevoked .webDevices [.revokedAt])]

/-- The pragmas at its end change neither the schema nor a row. -/
def migrate (epochMs : String → Option Int) : Store Unit := do
  Command.forEach tables runStep
  Command.attempt (backfill epochMs)
  Command.forEach sessions runStep
  migrateDecisionLogFts
  Command.forEach web runStep

end Migration
end Wisphive
