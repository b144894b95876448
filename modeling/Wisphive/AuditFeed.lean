import Mathlib.Data.List.Sort
import Wisphive.Daemon
import Wisphive.EventIngest
import Wisphive.Foundation.Assoc
import Wisphive.Foundation.Trace

/-! Audit rows as the web page sees them: live from the ingestion of an event, and out of the
log in the snapshot of a connection. -/

namespace Wisphive
open Foundation

def auditKindFromRow (autoApproved : Bool) (decision : String) (decidedBy : Option String) : Option AuditDecisionKind :=
  if autoApproved then some .autoApproved
  else if decision = "\"ask\"" then some .deferred
  else if decision = "\"deny\"" then
    match decidedBy with
    | some by_ => if by_ ≠ "human" ∧ ¬ "human:".toList <+: by_.toList then some .denied else none
    | none => none
  else none

/-- `LIKE 'human:%'`, for which the case of ASCII letters does not count. -/
def likeHuman (text : String) : Bool :=
  (text.toList.take 6).map Char.toLower = "human:".toList

namespace LogRow
variable (clock : TextClock) (platform : IngestPlatform)

/-- The decisions that no human made in the console. -/
def audited (row : LogRow) : Bool :=
  row.autoApproved || row.decision = "\"ask\"" || row.decision = "\"deny\"" &&
    match row.decidedBy with
    | some by_ => !likeHuman by_ && by_ ≠ "human"
    | none => false

/-- A row of the snapshot. A deferred one is resolved once it has a result. -/
def auditDecision (row : LogRow) : Option AuditDecision :=
  (auditKindFromRow row.autoApproved row.decision row.decidedBy).bind fun kind =>
    ((platform.parseFromRfc3339 (clock.text row.resolvedAt)).or
        (platform.parseFromRfc3339 (clock.text row.requestedAt))).map fun ts =>
      { kind
        decidedBy := row.decidedBy
        project := ⟨row.project⟩
        agentId := row.agentId
        terminalSessionId := (row.terminalSessionId.map uuidText).bind platform.parseUuid
        toolName := row.toolName
        ts
        toolUseId := row.toolUseId
        resolved := match kind with
          | .deferred => some row.toolResult.isSome
          | .autoApproved | .denied => none
        toolInput := none }

end LogRow

namespace Database
variable (clock : TextClock)

def auditRows (db : Database) (since : DateTime) : List LogRow :=
  db.log.filter fun row => clock.toRfc3339 since ≤ clock.text row.resolvedAt && row.audited

/-- The rows that `ORDER BY resolved_at DESC LIMIT` may give. The order among equals is open. A
snapshot has an item for each of them that can be read. -/
def RecentRows (db : Database) (since : DateTime) (limit : Nat) (rows : List LogRow) : Prop :=
  ∃ older, (rows ++ older).Perm (db.auditRows clock since) ∧
    (rows ++ older).Pairwise (fun row later => clock.text later.resolvedAt ≤ clock.text row.resolvedAt) ∧
    rows.length = min limit (db.auditRows clock since).length

end Database

/-- What changes the log behind an ingested row: the handlers' statements, other event lines,
results that are attached, and retention. -/
inductive LogChange where
  | execute (statement : Statement) (now : DateTime)
  | ingestLine (line : String) (now : DateTime)
  | attachToolResult (id : Uuid) (stored : String)
  | prune (ids : List Uuid)

namespace LogChange
variable (platform : IngestPlatform)

def perform (db : Database) : LogChange → Option Database
  | .execute statement now => (statement.execute now db).map (·.2)
  | .ingestLine line now => (EventIngest.ingestLine platform now line db).map (·.2)
  | .attachToolResult id stored =>
    some { db with log := (Table.update db.log (·.id = id) fun row => { row with toolResult := some stored }).2 }
  | .prune ids => some { db with log := db.log.filter (·.id ∉ ids) }

def machine (initial : Database) : Machine Database LogChange where
  start := initial
  step := perform platform

/-- The managed spawn whose row a change overwrites. -/
def spawn : LogChange → Option Uuid
  | .execute (.forceFailclosedSpawnResolution id ..) _ | .execute (.recordSpawnActionFailure id _) _ => some id
  | _ => none

def pruned : LogChange → List Uuid
  | .prune ids => ids
  | _ => []

/-- Whether an id has the variant bit of the random UUIDs that spawns are given. -/
def isRandom (id : Uuid) : Bool :=
  id.getLsbD 63

/-- The row stays in the log, and spawns have ids of their own. -/
def Leaves (id : Uuid) (_ : Database) (change : LogChange) : Prop :=
  id ∉ change.pruned ∧ ∀ spawn ∈ change.spawn, isRandom spawn = true

instance (id : Uuid) (db : Database) (change : LogChange) : Decidable (Leaves id db change) :=
  inferInstanceAs (Decidable (_ ∧ _))

end LogChange

namespace AuditDecisionKind

def text : AuditDecisionKind → String
  | .autoApproved => "auto_approved"
  | .deferred => "deferred"
  | .denied => "denied"

end AuditDecisionKind

/-- The fields on which a live row and a stored one are to agree. -/
def AuditDecision.Agrees (live stored : AuditDecision) : Prop :=
  live = { stored with resolved := live.resolved, toolInput := live.toolInput }

/-- What the page receives about audit rows. -/
inductive AuditMessage where
  | auditSnapshot (items : List AuditDecision)
  | auditDecision (audit : AuditDecision)
  | deferredResolved (toolUseId : String)
  deriving DecidableEq

/-- No snapshot returns the row of the event: its time is no RFC 3339 text, or it is a denial by
nobody or by a human, or no snapshot reaches back to it. -/
def AutoApprovedEntry.Unreturned (clock : TextClock) (platform : IngestPlatform) (entry : AutoApprovedEntry)
    (kind : AuditDecisionKind) : Prop :=
  platform.parseFromRfc3339 entry.timestamp = none ∨
    (kind = .denied ∧ ∀ by_ ∈ entry.decidedBy, likeHuman by_ = true ∨ by_ = "human") ∨
    ∀ since, ¬ clock.toRfc3339 since ≤ entry.timestamp

namespace AuditPage
variable (wireTime : DateTime → String)

/-- A field that is absent counts as empty. -/
def auditKey (audit : AuditDecision) : String :=
  String.intercalate "\x00"
    [audit.kind.text, wireTime audit.ts, audit.project.text, audit.agentId,
      (audit.terminalSessionId.map uuidText).getD "", audit.toolName, audit.decidedBy.getD "",
      audit.toolUseId.getD ""]

/-- The latest first, by milliseconds. -/
def later (audit other : AuditDecision) : Prop :=
  other.ts / 1000000 ≤ audit.ts / 1000000

instance : DecidableRel later := fun audit other =>
  inferInstanceAs (Decidable (other.ts / 1000000 ≤ audit.ts / 1000000))

def mergeAuditDecisions (primary secondary : List AuditDecision) : List AuditDecision :=
  (Assoc.firsts (auditKey wireTime) [] (primary ++ secondary)).insertionSort later

/-- The page's list after a message. -/
def receive (audits : List AuditDecision) : AuditMessage → List AuditDecision
  | .auditSnapshot items => mergeAuditDecisions wireTime [] items
  | .auditDecision audit => mergeAuditDecisions wireTime [audit] audits
  | .deferredResolved toolUseId =>
    audits.filter fun audit => ¬(audit.kind = .deferred ∧ audit.toolUseId = some toolUseId)

def receiveAll (audits : List AuditDecision) (messages : List AuditMessage) : List AuditDecision :=
  messages.foldl (receive wireTime) audits

/-- The live row arrives, a snapshot with the stored one does, every snapshot has it, and
nothing resolves it. Other live rows may arrive in between. -/
structure Delivers (live stored : AuditDecision) (messages : List AuditMessage) : Prop where
  broadcast : .auditDecision live ∈ messages
  snapshot : ∃ items, .auditSnapshot items ∈ messages
  contains : ∀ items, .auditSnapshot items ∈ messages → stored ∈ items
  unresolved : ∀ toolUseId, .deferredResolved toolUseId ∉ messages

/-- How many entries of the page's list are the event: as its live row or as its stored one. -/
def shown (live stored : AuditDecision) (audits : List AuditDecision) : Nat :=
  audits.countP fun audit =>
    auditKey wireTime audit = auditKey wireTime live ∨ auditKey wireTime audit = auditKey wireTime stored

/-- While the row of the event stays in the log, every snapshot that returns it agrees with the
live row, and the page shows the event once, whichever of them it receives first. -/
def Consistent (clock : TextClock) (platform : IngestPlatform) (live : AuditDecision) (id : Uuid)
    (ingested : Database) : Prop :=
  ∀ changes final since limit rows row stored,
    (LogChange.machine platform ingested).run (LogChange.Leaves id) ingested changes = some final →
    final.RecentRows clock since limit rows → row ∈ rows → row.id = id →
    row.auditDecision clock platform = some stored →
    live.Agrees stored ∧ ∀ audits messages, Delivers live stored messages →
      shown wireTime live stored (receiveAll wireTime audits messages) = 1

end AuditPage
end Wisphive
