import Mathlib.Data.List.Sort
import Wisphive.Database
import Wisphive.Foundation.Trace

/-! Retention: old rows of the decision log are written to the archive and deleted, batch
by batch. A line of the archive reads back as the value that was written, unless it shares
its line with a fragment that an interrupted write left. -/

namespace Wisphive
open Foundation

namespace Retention
variable (clock : TextClock) (fromStr : String → Option Json)

/-- The lines that read back, and whether the file ends in a fragment. -/
structure ArchiveFile where
  lines : List Json := []
  torn : Bool := false
  deriving DecidableEq, Repr

namespace ArchiveFile

/-- A fragment spoils the line that is written behind it. -/
def append (file : ArchiveFile) : List Json → ArchiveFile
  | [] => file
  | line :: rest => { lines := file.lines ++ (if file.torn then rest else line :: rest), torn := false }

/-- An interrupted write leaves some lines and perhaps a fragment of the next one. -/
def appendCut (file : ArchiveFile) (lines : List Json) (survive : Nat) (fragment : Bool) : ArchiveFile :=
  let kept := file.append (lines.take survive)
  if fragment ∧ survive < lines.length then { kept with torn := true } else kept

end ArchiveFile

def orNull : Option String → Json
  | some text => .string text
  | none => .null

/-- The hand-written archive entry of a row. -/
def archiveEntry (row : LogRow) : Json :=
  .object
    [("agent_id", .string row.agentId),
      ("config_hash", orNull row.configHash),
      ("decided_by", orNull row.decidedBy),
      ("decision", .string row.decision),
      ("hook_event_name", .string row.hookEventName),
      ("id", .string (uuidText row.id)),
      ("project", .string row.project),
      ("requested_at", .string (clock.text row.requestedAt)),
      ("resolved_at", .string (clock.text row.resolvedAt)),
      ("terminal_session_id", orNull (row.terminalSessionId.map uuidText)),
      ("tool_input", (fromStr row.toolInput).getD .null),
      ("tool_name", .string row.toolName),
      ("tool_result", (row.toolResult.bind fromStr).getD .null),
      ("tool_use_id", orNull row.toolUseId)]

/-- `ORDER BY resolved_at ASC, id ASC`. -/
def earlier (row other : LogRow) : Prop :=
  clock.text row.resolvedAt < clock.text other.resolvedAt ∨
    clock.text row.resolvedAt = clock.text other.resolvedAt ∧ uuidText row.id ≤ uuidText other.id

instance (row other : LogRow) : Decidable (earlier clock row other) :=
  inferInstanceAs (Decidable (_ ∨ _))

def ordered (log : List LogRow) : List LogRow :=
  log.insertionSort (earlier clock)

/-- Where a batch stands: `rows` are on their way to the file or durable in it. -/
inductive Stage where
  | openFile
  | read
  | write (rows : List LogRow)
  | delete
  deriving DecidableEq, Repr

/-- One pass over the table. `trim` keeps the row limit while the second phase is ahead. -/
inductive Sweep where
  | idle
  | archive (trim : Option Nat) (ids : List Uuid) (stage : Stage)
  | count (maxRows : Nat)
  deriving DecidableEq, Repr

/-- Beside the table and the files, a run keeps the ids that were ever recorded and the
rows as they were when they were deleted. -/
structure Run where
  log : List LogRow
  rotated : List ArchiveFile := []
  archive : ArchiveFile := {}
  sweep : Sweep := .idle
  recorded : List Uuid
  deleted : List LogRow := []
  deriving DecidableEq, Repr

inductive Event where
  | insertLog (row : LogRow)
  | attachToolResult (id : Uuid) (stored : String)
  | archiveAndPrune (maxRows : Nat) (cutoff : DateTime)
  | advance (rotates : Bool)
  | interrupt (survive : Nat) (fragment : Bool)

def batchSize : Nat := 500

namespace Run

/-- Every line of the archive that reads back. -/
def lines (run : Run) : List Json :=
  run.rotated.flatMap (·.lines) ++ run.archive.lines

/-- The second phase follows the first one, and nothing the second. -/
def afterArchive : Option Nat → Sweep
  | some maxRows => .count maxRows
  | none => .idle

def archiveIds (trim : Option Nat) : List Uuid → Sweep
  | [] => afterArchive trim
  | ids => .archive trim ids .openFile

/-- The next statement or write of the pass. A large file is set aside before a phase writes. -/
def advance (run : Run) (rotates : Bool) : Option Run :=
  match run.sweep with
  | .idle => none
  | .count maxRows =>
    let excess := run.log.length - maxRows
    some { run with sweep := archiveIds none (((ordered clock run.log).take excess).map (·.id)) }
  | .archive trim ids .openFile =>
    let reading := { run with sweep := .archive trim ids .read }
    some (if rotates then { reading with rotated := run.rotated ++ [run.archive], archive := {} } else reading)
  | .archive trim ids .read =>
    some { run with sweep := match ids with
      | [] => afterArchive trim
      | _ => .archive trim ids (.write (run.log.filter (·.id ∈ ids.take batchSize))) }
  | .archive trim ids (.write rows) =>
    some { run with
      archive := run.archive.append (rows.map (archiveEntry clock fromStr))
      sweep := .archive trim ids .delete }
  | .archive trim ids .delete =>
    some { run with
      log := run.log.filter (·.id ∉ ids.take batchSize)
      deleted := run.deleted ++ run.log.filter (·.id ∈ ids.take batchSize)
      sweep := .archive trim (ids.drop batchSize) .read }

/-- A crash or a failed statement ends the pass where it stands. -/
def interrupt (run : Run) (survive : Nat) (fragment : Bool) : Run :=
  match run.sweep with
  | .archive _ _ (.write rows) =>
    { run with
      archive := run.archive.appendCut (rows.map (archiveEntry clock fromStr)) survive fragment
      sweep := .idle }
  | _ => { run with sweep := .idle }

def step (run : Run) : Event → Option Run
  | .insertLog row =>
    some { run with
      log := (Table.insertOrIgnore LogRow.conflicts run.log row).2
      recorded := if (Table.insertOrIgnore LogRow.conflicts run.log row).1 then row.id :: run.recorded
        else run.recorded }
  | .attachToolResult id stored =>
    some { run with log := (Table.update run.log (·.id = id) fun row => { row with toolResult := some stored }).2 }
  | .archiveAndPrune maxRows cutoff =>
    if run.sweep = .idle then
      let old := run.log.filter fun row => decide (clock.text row.resolvedAt < clock.toRfc3339 cutoff)
      some { run with sweep := archiveIds (some maxRows) ((ordered clock old).map (·.id)) }
    else none
  | .advance rotates => run.advance clock fromStr rotates
  | .interrupt survive fragment => some (run.interrupt clock fromStr survive fragment)

/-- A log as it stands when the archive is empty. -/
structure Start where
  log : List LogRow
  unique : Table.Distinct LogRow.conflicts log

def machine (start : Start) : Machine Run Event where
  start := { log := start.log, recorded := start.log.map (·.id) }
  step := step clock fromStr

end Run

/-- The columns of the decision log. -/
inductive Column where
  | id
  | agentId
  | agentType
  | project
  | toolName
  | toolInput
  | decision
  | requestedAt
  | resolvedAt
  | toolResult
  | selectedPermission
  | autoApproved
  | toolUseId
  | hookEventName
  | terminalSessionId
  | decidedBy
  | configHash
  deriving DecidableEq, Repr

namespace Column

def name : Column → String
  | .id => "id"
  | .agentId => "agent_id"
  | .agentType => "agent_type"
  | .project => "project"
  | .toolName => "tool_name"
  | .toolInput => "tool_input"
  | .decision => "decision"
  | .requestedAt => "requested_at"
  | .resolvedAt => "resolved_at"
  | .toolResult => "tool_result"
  | .selectedPermission => "selected_permission"
  | .autoApproved => "auto_approved"
  | .toolUseId => "tool_use_id"
  | .hookEventName => "hook_event_name"
  | .terminalSessionId => "terminal_session_id"
  | .decidedBy => "decided_by"
  | .configHash => "config_hash"

/-- The column as SQLite stores it. -/
def value (row : LogRow) : Column → Option String
  | .id => some (uuidText row.id)
  | .agentId => some row.agentId
  | .agentType => some row.agentType
  | .project => some row.project
  | .toolName => some row.toolName
  | .toolInput => some row.toolInput
  | .decision => some row.decision
  | .requestedAt => some (clock.text row.requestedAt)
  | .resolvedAt => some (clock.text row.resolvedAt)
  | .toolResult => row.toolResult
  | .selectedPermission => row.selectedPermission
  | .autoApproved => some (if row.autoApproved then "1" else "0")
  | .toolUseId => row.toolUseId
  | .hookEventName => some row.hookEventName
  | .terminalSessionId => row.terminalSessionId.map uuidText
  | .decidedBy => row.decidedBy
  | .configHash => row.configHash

def readText : Json → Option (Option String)
  | .string text => some (some text)
  | .null => some none
  | _ => none

/-- The two JSON columns are embedded as values, and only the result may be null. -/
def readInput (value : Json) : Option (Option String) :=
  some (some value.render)

def readResult : Json → Option (Option String)
  | .null => some none
  | value => some (some value.render)

/-- Reading a column back from a line. -/
def recover (line : Json) (column : Column) : Option (Option String) :=
  (line.get? column.name).bind fun stored =>
    match column with
    | .toolInput => readInput stored
    | .toolResult => readResult stored
    | _ => readText stored

/-- Whether the archive entry has the column at all. -/
def archived : Column → Bool
  | .agentType | .autoApproved | .selectedPermission => false
  | _ => true

end Column

/-- A line of the archive for the row's id gives the column's value. -/
def Recoverable (lines : List Json) (row : LogRow) (column : Column) : Prop :=
  ∃ line ∈ lines, line.get? "id" = some (.string (uuidText row.id)) ∧
    column.recover line = some (column.value clock row)

/-- The claim of the archive: what was deleted is recoverable, and what was recorded is
in the table or in the archive. -/
structure Lossless (run : Run) : Prop where
  recovered : ∀ row ∈ run.deleted, ∀ column, Recoverable clock run.lines row column
  present : ∀ id ∈ run.recorded, (∃ row ∈ run.log, row.id = id) ∨
    ∃ line ∈ run.lines, line.get? "id" = some (.string (uuidText id))

end Retention
end Wisphive
