import Wisphive.EventFiles
import Wisphive.Foundation.Trace

/-! The tail of the event log: it keeps a byte position across notifications, reads to the
end of the file, and rotates the file once it is large. -/

namespace Wisphive
open Foundation

namespace EventTail
variable (platform : IngestPlatform)

def eventsLogMaxBytes : Nat := 16 * 1024 * 1024

/-- The rows of the decision lines among some lines. -/
def rowsOf (lines : List Bytes) : List LogRow :=
  (EventIngest.decisions platform lines).map (·.2)

/-- The table, and beside it the rows that ingestion inserted. -/
structure Store where
  log : List LogRow
  inserted : List LogRow := []
  deriving DecidableEq, Repr

def Store.insert (row : LogRow) (store : Store) : Store where
  log := (Table.insertOrIgnore LogRow.conflicts store.log row).2
  inserted := if (Table.insertOrIgnore LogRow.conflicts store.log row).1 then store.inserted ++ [row] else store.inserted

/-- The file at the path is `live`, and the reader stands in the file that it opened.
`offset` counts what was read as lines. Beside that a run keeps the last rotated segment and
the rows of the decision lines that were completed since the start. -/
structure Run where
  live : Bytes
  identity : Nat := 0
  opened : Nat := 0
  position : Nat
  offset : Nat
  rotating : Bool := false
  notified : Bool := false
  store : Store
  segment : Bytes := []
  owed : List LogRow := []
  deriving DecidableEq, Repr

inductive Event where
  | append (piece : Bytes)
  | truncate (length : Nat)
  | replace
  | wake (faults : List Bool)
  | rotate (renames : Bool) (faults : List Bool)
  | lateAppend (piece : Bytes)
  | reimport (faults : List Bool)
  | logRow (row : LogRow)

/-- The lines that a piece completes. -/
def completed (content piece : Bytes) : List Bytes :=
  Lines.complete EventIngest.newline (Lines.rest EventIngest.newline content ++ piece)

namespace Run

/-- The file is shorter than what was read, or another one. -/
def Reset (run : Run) : Prop :=
  run.live.length < run.offset ∨ run.identity ≠ run.opened

instance (run : Run) : Decidable run.Reset :=
  inferInstanceAs (Decidable (_ ∨ _))

/-- Where the next read starts. -/
def readFrom (run : Run) : Nat :=
  if run.Reset then 0 else run.position

def unread (run : Run) : Bytes :=
  run.live.drop run.readFrom

/-- The lines behind the position are read to the end, or to the first one that is no UTF-8. -/
def drain (run : Run) (faults : List Bool) : Run :=
  let pieces := Lines.pieces EventIngest.newline run.unread
  let result := EventIngest.readNewLines platform Store.insert run.unread faults run.store
  let counted := if result.ok then result.read else result.read - 1
  let offset := (if run.Reset then 0 else run.offset) + (pieces.take counted).flatten.length
  { run with
    opened := run.identity
    position := run.readFrom + (pieces.take result.read).flatten.length
    offset
    rotating := eventsLogMaxBytes ≤ offset
    notified := false
    store := result.store }

/-- The file is renamed and re-imported, and an empty one takes its place. -/
def rotateEventsLog (run : Run) (faults : List Bool) : Run :=
  { run with
    live := []
    identity := run.identity + 1
    opened := run.identity + 1
    position := 0
    offset := 0
    rotating := false
    store := (EventIngest.reimportAll platform Store.insert run.live faults run.store).store
    segment := run.live }

def step (run : Run) : Event → Option Run
  | .append piece =>
    some { run with
      live := run.live ++ piece
      notified := true
      owed := run.owed ++ rowsOf platform (completed run.live piece) }
  | .truncate length => some { run with live := run.live.take length, notified := true }
  | .replace => some { run with live := [], identity := run.identity + 1, notified := true }
  | .wake faults => if run.rotating then none else some (run.drain platform faults)
  | .rotate renames faults =>
    if run.rotating then
      some (if renames then run.rotateEventsLog platform faults else { run with rotating := false })
    else none
  | .lateAppend piece =>
    some { run with
      segment := run.segment ++ piece
      owed := run.owed ++ rowsOf platform (completed run.segment piece) }
  | .reimport faults =>
    some { run with store := (EventIngest.reimportAll platform Store.insert run.live faults run.store).store }
  | .logRow row =>
    some { run with store := { run.store with
      log := (Table.insertOrIgnore LogRow.conflicts run.store.log row).2 } }

/-- The file and the table when the tail starts at the end of the file. -/
structure Start where
  live : Bytes
  log : List LogRow
  unique : Table.Distinct LogRow.conflicts log

def machine (initial : Start) : Machine Run Event where
  start :=
    { live := initial.live
      position := initial.live.length
      offset := initial.live.length
      store := { log := initial.log } }
  step := step platform

end Run

/-- No line that was completed is inserted twice, and once every notification has been
handled each one has been inserted. -/
structure Ingested (run : Run) : Prop where
  once : ∀ row ∈ run.owed, run.store.inserted.count row ≤ run.owed.count row
  all : run.notified = false → ∀ row ∈ run.owed, run.store.inserted.count row = run.owed.count row

end EventTail
end Wisphive
