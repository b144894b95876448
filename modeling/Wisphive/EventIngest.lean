import Wisphive.Database
import Wisphive.Foundation.Trace

/-! Ingestion of the hook's event log: decisions that no human made in the console,
each written as an audit row under an id that is hashed from the event. -/

namespace Wisphive
open Foundation

/-- The parts of ingestion that belong to other crates: JSON text, the standard
hasher over the bytes written to it, RFC 3339 times and UUID texts. -/
structure IngestPlatform where
  fromStr : String → Option Json
  finish : List UInt8 → BitVec 64
  parseFromRfc3339 : String → Option DateTime
  parseUuid : String → Option Uuid

structure AutoApprovedEntry where
  agentId : String
  agentType : String
  project : String
  toolName : String
  toolInput : String
  timestamp : String
  toolUseId : Option String
  hookEventName : Option String
  decision : String
  decidedBy : Option String
  configHash : Option String
  deriving DecidableEq, Repr

inductive AuditDecisionKind where
  | autoApproved
  | deferred
  | denied
  deriving DecidableEq, Repr

structure AuditDecision where
  kind : AuditDecisionKind
  decidedBy : Option String
  project : PathBuf
  agentId : String
  terminalSessionId : Option Uuid
  toolName : String
  ts : DateTime
  toolUseId : Option String
  resolved : Option Bool
  toolInput : Option Json
  deriving DecidableEq, Repr

namespace AutoApprovedEntry

/-- A string writes its bytes and an end marker to the hasher. -/
def hashStr (text : String) : List UInt8 :=
  text.toUTF8.toList ++ [0xff]

/-- With a tool use id the hash covers nothing else. -/
def hashInput (entry : AutoApprovedEntry) : List UInt8 :=
  match entry.toolUseId with
  | some toolUseId => hashStr toolUseId
  | none => hashStr entry.agentId ++ hashStr entry.toolName ++ hashStr entry.timestamp ++ hashStr entry.toolInput

/-- The eight bytes of the hash, the lowest one first, and eight zero bytes. -/
def uuidOfHash (hash : BitVec 64) : Uuid :=
  let byte (index : Nat) : BitVec 8 := hash.extractLsb' (8 * index) 8
  byte 0 ++ byte 1 ++ byte 2 ++ byte 3 ++ byte 4 ++ byte 5 ++ byte 6 ++ byte 7 ++ 0#64

def row (platform : IngestPlatform) (entry : AutoApprovedEntry) : LogRow :=
  let decision := if entry.decision = "" then "approve" else entry.decision
  { id := uuidOfHash (platform.finish entry.hashInput)
    agentId := entry.agentId
    agentType := entry.agentType
    project := entry.project
    toolName := entry.toolName
    toolInput := entry.toolInput
    decision := "\"" ++ decision ++ "\""
    requestedAt := .raw entry.timestamp
    resolvedAt := .raw entry.timestamp
    autoApproved := decision = "approve"
    toolUseId := entry.toolUseId
    hookEventName := entry.hookEventName.getD "PreToolUse"
    terminalSessionId := none
    decidedBy := entry.decidedBy
    configHash := entry.configHash }

end AutoApprovedEntry

def Database.logAutoApproved (platform : IngestPlatform) (db : Database) (entry : AutoApprovedEntry) :
    Bool × Database :=
  db.insertLog (entry.row platform)

namespace EventIngest

/-- A string member of an event. -/
def field (event : Json) (name : String) : Option String :=
  (event.get? name).bind (·.asString?)

def kindOf : String → Option (String × AuditDecisionKind)
  | "auto_approved" => some ("approve", .autoApproved)
  | "deferred" => some ("ask", .deferred)
  | "denied" => some ("deny", .denied)
  | _ => none

/-- The decision event in a parsed line. Any other event is skipped. -/
def decisionEntry (event : Json) : Option (AutoApprovedEntry × AuditDecisionKind) :=
  (kindOf ((field event "event").getD "")).map fun (decision, kind) =>
    ({ agentId := (field event "agent_id").getD "unknown"
       agentType := "\"" ++ (field event "agent_type").getD "claude_code" ++ "\""
       project := (field event "project").getD ""
       toolName := (field event "tool_name").getD "unknown"
       toolInput := ((event.get? "tool_input").map (·.render)).getD "\x7b\x7d"
       timestamp := (field event "timestamp").getD ""
       toolUseId := field event "tool_use_id"
       hookEventName := field event "hook_event_name"
       decision
       decidedBy := field event "decided_by"
       configHash := field event "config_hash" }, kind)

/-- The live event for a row that was inserted. -/
def auditDecision (platform : IngestPlatform) (now : DateTime) (event : Json) (entry : AutoApprovedEntry)
    (kind : AuditDecisionKind) : AuditDecision where
  kind
  decidedBy := entry.decidedBy
  project := ⟨entry.project⟩
  agentId := entry.agentId
  terminalSessionId := (field event "terminal_session_id").bind platform.parseUuid
  toolName := entry.toolName
  ts := (platform.parseFromRfc3339 entry.timestamp).getD now
  toolUseId := entry.toolUseId
  resolved := none
  toolInput := match kind with
    | .deferred => event.get? "tool_input"
    | .autoApproved | .denied => none

/-- The outer `none` is a line that is no JSON, the inner one a line that is skipped
or whose row was already there. -/
def ingestLine (platform : IngestPlatform) (now : DateTime) (line : String) (db : Database) :
    Option (Option AuditDecision × Database) :=
  (platform.fromStr line).map fun event =>
    match decisionEntry event with
    | none => (none, db)
    | some (entry, kind) =>
      let (inserted, after) := db.logAutoApproved platform entry
      (if inserted then some (auditDecision platform now event entry kind) else none, after)

end EventIngest

/-! ### Runs of the three writers of the log -/

inductive AuditOperation where
  | persistPending (req : DecisionRequest)
  | resolvePendingBy (id : Uuid) (decision : Decision) (decidedBy : String) (now : DateTime)
  | ingestLine (line : String) (now : DateTime)
  | drainOrphanedPending (now : DateTime)

structure AuditRun where
  db : Database := {}
  owed : List LogRow := []
  lines : List String := []
  deriving DecidableEq

namespace AuditRun
variable (platform : IngestPlatform)

/-- The row of an event line, if it records a decision. -/
def lineRow (line : String) : Option LogRow :=
  ((platform.fromStr line).bind EventIngest.decisionEntry).map fun decided => decided.1.row platform

/-- The rows that an operation owes: one for each request that it finalizes, and
one for a decision event whose line is new. -/
def owes (run : AuditRun) : AuditOperation → List LogRow
  | .persistPending _ => []
  | .resolvePendingBy id decision decidedBy now =>
    ((run.db.selectPending id).map (·.resolved decision decidedBy now)).toList
  | .ingestLine line _ => if line ∈ run.lines then [] else (lineRow platform line).toList
  | .drainOrphanedPending now =>
    run.db.pending.map fun row => row.resolved (Database.drainOutcome row).1 (Database.drainOutcome row).2 now

def perform (db : Database) : AuditOperation → Database
  | .persistPending req => db.persistPending req
  | .resolvePendingBy id decision decidedBy now => db.resolvePendingBy id decision decidedBy now
  | .ingestLine line now => ((EventIngest.ingestLine platform now line db).map (·.2)).getD db
  | .drainOrphanedPending now => (db.drainOrphanedPending now).2

def step (run : AuditRun) (operation : AuditOperation) : Option AuditRun :=
  some
    { db := perform platform run.db operation
      owed := run.owed ++ run.owes platform operation
      lines := match operation with
        | .ingestLine line _ => line :: run.lines
        | _ => run.lines }

def machine : Machine AuditRun AuditOperation where
  start := {}
  step := step platform

/-- Every row that an operation inserts meets no row with its id or its tool use id. -/
def Meets (run : AuditRun) (operation : AuditOperation) : Prop :=
  Table.ClearAll LogRow.conflicts run.db.log (run.owes platform operation)

instance (run : AuditRun) (operation : AuditOperation) : Decidable (run.Meets platform operation) :=
  inferInstanceAs (Decidable (Table.ClearAll _ _ _))

/-- Every row that is owed has a row of the log for itself. -/
def Audited (run : AuditRun) : Prop :=
  run.owed.Subperm run.db.log

end AuditRun

end Wisphive
