import Wisphive.EventTail
import Wisphive.Retention
import Wisphive.SegmentRecovery

/-! The event log, its rotated segments, the decision log and the archive together: one line
of the log may be read again at every start, while retention moves its row to the archive. -/

namespace Wisphive
open Foundation

namespace Restarts
variable (platform : IngestPlatform) (clock : TextClock)

/-- The insert of an event's row into the stores of retention. -/
def insertLog (row : LogRow) (store : Retention.Run) : Retention.Run :=
  (store.step clock platform.fromStr (.insertLog row)).getD store

/-- What the ingest task reads: the live file for the backlog of the start and then for its
tail, and the segment that it has just rotated. -/
inductive Reader where
  | backlog (position resume : Nat)
  | tail (position : Nat)
  | segment (content : Bytes) (name : String) (position : Nat)
  deriving DecidableEq, Repr

structure Run where
  live : Bytes
  directory : SegmentRecovery.Run Retention.Run
  reader : Reader := .tail 0
  deriving DecidableEq, Repr

/-- A restart kills the pass of retention that is under way. The recovery's events are those
of the log directory. -/
inductive Event where
  | append (piece : Bytes)
  | readLine (fails renames : Bool)
  | rotate (name : String) (modified : DateTime)
  | retention (event : Retention.Event)
  | restart (survive : Nat) (fragment : Bool) (unreadable : List String)
  | reimport (faults : List Bool) (renames removes : Bool)
  | serve (cutoff : DateTime) (kept : List String)

namespace Run

/-- The bytes that the reader has before it. -/
def ahead (run : Run) : Bytes :=
  match run.reader with
  | .backlog position _ | .tail position => run.live.drop position
  | .segment content _ position => content.drop position

def nextLine (run : Run) : Option Bytes :=
  (Lines.pieces EventIngest.newline run.ahead).head?

def advance (run : Run) (length : Nat) : Run :=
  { run with reader := match run.reader with
      | .backlog position resume => .backlog (position + length) resume
      | .tail position => .tail (position + length)
      | .segment content name position => .segment content name (position + length) }

/-- The end of a re-import. One that failed keeps its segment under the failed name. -/
def finish (run : Run) (ok renames : Bool) : Run :=
  match run.reader with
  | .tail _ => run
  | .backlog _ resume => { run with reader := .tail resume }
  | .segment _ name _ =>
    { run with
      directory := if ok || !renames then run.directory else run.directory.preserve platform name
      reader := .tail 0 }

/-- The next line of the reader. A line that fails ends a re-import, and is lost to the tail. -/
def readLine (run : Run) (fails renames : Bool) : Run :=
  match run.nextLine with
  | none => run.finish platform true renames
  | some line =>
    let failed := (run.advance line.length).finish platform false renames
    match EventIngest.readLine platform line with
    | .invalid => failed
    | .skipped => run.advance line.length
    | .decision _ row =>
      if fails then failed
      else
        let read := run.advance line.length
        { read with directory := { read.directory with
            store := insertLog platform clock row read.directory.store } }

def step (run : Run) : Event → Option Run
  | .append piece => some { run with live := run.live ++ piece }
  | .readLine fails renames =>
    if run.directory.phase = .up then some (run.readLine platform clock fails renames) else none
  | .rotate name modified =>
    match run.reader with
    | .backlog _ _ | .segment _ _ _ => none
    | .tail position =>
      if run.directory.phase = .up ∧ EventTail.eventsLogMaxBytes ≤ position ∧ SegmentRecovery.isNormal name ∧
          name ∉ run.directory.files.map (·.name) then
        some
          { live := []
            directory := { run.directory with
              files := run.directory.files ++ [{ name, content := run.live, modified }] }
            reader := .segment run.live name 0 }
      else none
  | .retention event =>
    if run.directory.phase = .up then
      (run.directory.store.step clock platform.fromStr event).map fun store =>
        { run with directory := { run.directory with store } }
    else none
  | .restart survive fragment unreadable =>
    let stopped := { run.directory with
      store := run.directory.store.interrupt clock platform.fromStr survive fragment }
    (stopped.step platform (insertLog platform clock) (.recover unreadable)).map fun directory =>
      { run with directory }
  | .reimport faults renames removes =>
    (run.directory.step platform (insertLog platform clock) (.reimport faults renames removes)).map fun directory =>
      { run with directory }
  | .serve cutoff kept =>
    (run.directory.step platform (insertLog platform clock) (.prune cutoff kept)).map fun directory =>
      { run with directory, reader := .backlog 0 run.live.length }

/-- A daemon that is down, with the files and the table of an earlier one and no archive. -/
structure Start where
  live : Bytes
  directory : SegmentRecovery.Run.Start Retention.Run.Start

def machine (start : Start) : Machine Run Event where
  start :=
    { live := start.live
      directory :=
        { files := start.directory.files
          store := { log := start.directory.store.log, recorded := start.directory.store.log.map (·.id) } } }
  step := step platform clock

end Run

/-- The ids of the batch that is in the archive and about to be deleted. -/
def written (store : Retention.Run) : List Uuid :=
  match store.sweep with
  | .archive _ ids .delete => ids.take Retention.batchSize
  | _ => []

def archivedAs (id : Uuid) (line : Json) : Bool :=
  line.get? "id" = some (.string (uuidText id))

/-- How many records of an id the archive and the table hold. A row whose line is durable
and whose delete is under way counts once. -/
def records (store : Retention.Run) (id : Uuid) : Nat :=
  store.lines.countP (archivedAs id) + store.log.countP fun row => row.id = id && row.id ∉ written store

/-- Every event line contributes one record at most. -/
def SingleRecords (run : Run) : Prop :=
  ∀ line text row, EventIngest.lineDecision platform line = some (text, row) → records run.directory.store row.id ≤ 1

end Restarts
end Wisphive
