import Wisphive.Database
import Wisphive.Foundation.Trace

/-! Tool results on their way into the log. Each message has its own task, which runs
select and update as separate statements and retries while no row matches. -/

namespace Wisphive
open Foundation

/-- A tool execution result reported by the PostToolUse hook. -/
structure ToolResult where
  agentId : String
  toolName : String
  toolInput : Json
  toolResult : Json
  timestamp : DateTime
  toolUseId : Option String := none
  deriving DecidableEq, Repr

/-- The broadcast that clears a waiting prompt from the inbox. -/
structure DeferredResolved where
  toolUseId : String
  agentId : String
  toolName : String
  ts : DateTime
  answerSummary : Option String
  deriving DecidableEq, Repr

namespace ToolResults

/-- The chosen answers in one line of at most two hundred characters. -/
def summarizeDeferredAnswer (toolName : String) (toolResult : Json) : Option String :=
  if toolName ≠ "AskUserQuestion" then none
  else
    (((Redact.redactValue toolResult).get? "answers").bind Json.asObject?).bind fun answers =>
      let joined := String.intercalate "; " (answers.filterMap fun (_, answer) => answer.asString?)
      if joined = "" then none
      else if joined.length > 200 then some (String.ofList (joined.toList.take 200) ++ "…")
      else some joined

/-- The delays between attempts, in milliseconds. -/
def attachRetryDelays : List Nat :=
  [250, 1000, 3000, 10000]

def attachWindow : Int := 10 * 60 * 1000000000

/-- Where the task of one message stands. `update` has selected a row and knows whether
it was deferred. -/
inductive Stage where
  | selectExact
  | selectFallback
  | update (id : Uuid) (wasDeferred : Bool)
  | sleep
  deriving DecidableEq, Repr

structure Task where
  result : ToolResult
  delays : List Nat
  stage : Stage
  deriving DecidableEq, Repr

variable (clock : TextClock)

/-- Same agent, same tool, no result yet, and resolved within ten minutes. -/
def fallbackMatches (now : DateTime) (result : ToolResult) (row : LogRow) : Bool :=
  row.agentId = result.agentId && row.toolName = result.toolName && row.toolResult.isNone &&
    decide (clock.toRfc3339 (now - attachWindow) < clock.text row.resolvedAt)

/-- The matching rows that none of them is later than. -/
def fallbackRows (now : DateTime) (log : List LogRow) (result : ToolResult) : List LogRow :=
  let rows := log.filter (fallbackMatches clock now result)
  rows.filter fun row => rows.all fun other => decide (clock.text other.resolvedAt ≤ clock.text row.resolvedAt)

def exactRow (log : List LogRow) (toolUseId : String) : Option LogRow :=
  log.find? fun row => row.toolUseId = some toolUseId && row.toolResult.isNone

def attachTo (row : LogRow) : Stage :=
  .update row.id (row.decision = Decision.ask.column)

/-- A result and the row as it was when the result was stored in it. -/
structure Stamp where
  result : ToolResult
  before : LogRow
  holder : Option ToolResult
  deriving DecidableEq, Repr

structure Broadcast where
  row : Uuid
  message : DeferredResolved
  deriving DecidableEq, Repr

/-- `stamps` and `broadcasts` keep what the tasks did, the latest first. -/
structure Run where
  log : List LogRow
  tasks : List Task := []
  stamps : List Stamp := []
  broadcasts : List Broadcast := []
  deriving DecidableEq, Repr

inductive Event where
  | logRow (row : LogRow)
  | deliver (result : ToolResult)
  | execute (position : Nat) (now : DateTime) (tie : Nat)
  | wake (position : Nat)
  | fail (position : Nat)

namespace Run

/-- Whose result a row holds, if it was stored in this run. -/
def holder (run : Run) (id : Uuid) : Option ToolResult :=
  (run.stamps.find? (·.before.id = id)).map (·.result)

def toStage (run : Run) (position : Nat) (task : Task) (stage : Stage) : Run :=
  { run with tasks := run.tasks.set position { task with stage } }

/-- The attempt found no row. Without a delay left the result is dropped. -/
def unmatched (run : Run) (position : Nat) (task : Task) : Run :=
  match task.delays with
  | [] => { run with tasks := run.tasks.eraseIdx position }
  | _ :: later => { run with tasks := run.tasks.set position { task with delays := later, stage := .sleep } }

def resolvedMessage (result : ToolResult) (now : DateTime) (toolUseId : String) : DeferredResolved where
  toolUseId
  agentId := result.agentId
  toolName := result.toolName
  ts := now
  answerSummary := summarizeDeferredAnswer result.toolName result.toolResult

/-- Store the result, and tell the clients if it answers a prompt. -/
def attach (run : Run) (position : Nat) (task : Task) (now : DateTime) (id : Uuid) (wasDeferred : Bool) : Run :=
  let stored := (Redact.redactValue task.result.toolResult).render
  { log := (Table.update run.log (·.id = id) fun row => { row with toolResult := some stored }).2
    tasks := run.tasks.eraseIdx position
    stamps := (run.log.filter (·.id = id)).map (fun row => ⟨task.result, row, run.holder id⟩) ++ run.stamps
    broadcasts := match wasDeferred, task.result.toolUseId with
      | true, some toolUseId => ⟨id, resolvedMessage task.result now toolUseId⟩ :: run.broadcasts
      | _, _ => run.broadcasts }

/-- The next statement of a task. -/
def execute (run : Run) (position : Nat) (task : Task) (now : DateTime) (tie : Nat) : Option Run :=
  match task.stage with
  | .selectExact =>
    match task.result.toolUseId.bind (exactRow run.log) with
    | some row => some (run.toStage position task (attachTo row))
    | none => some (run.toStage position task .selectFallback)
  | .selectFallback =>
    match fallbackRows clock now run.log task.result with
    | [] => some (run.unmatched position task)
    | rows => rows[tie]?.map fun row => run.toStage position task (attachTo row)
  | .update id wasDeferred => some (run.attach position task now id wasDeferred)
  | .sleep => none

def step (run : Run) : Event → Option Run
  | .logRow row => some { run with log := (Table.insertOrIgnore LogRow.conflicts run.log row).2 }
  | .deliver result => some { run with tasks := run.tasks ++ [⟨result, attachRetryDelays, .selectExact⟩] }
  | .execute position now tie => run.tasks[position]?.bind fun task => run.execute clock position task now tie
  | .wake position =>
    match run.tasks[position]? with
    | some task =>
      if task.stage = .sleep then some (run.toStage position task .selectExact) else none
    | none => none
  | .fail position => some { run with tasks := run.tasks.eraseIdx position }

/-- A log as it stands when the first result arrives. -/
structure Start where
  log : List LogRow
  unique : Table.Distinct LogRow.conflicts log

def machine (start : Start) : Machine Run Event where
  start := { log := start.log }
  step := step clock

end Run
end ToolResults
end Wisphive
