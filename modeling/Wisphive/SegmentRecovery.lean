import Mathlib.Data.List.Sort
import Mathlib.Data.String.Basic
import Wisphive.EventFiles
import Wisphive.Foundation.Trace

/-! The log directory: rotated segments of the event log are re-imported at every start,
then the old ones are pruned by name and age. -/

namespace Wisphive
open Foundation

namespace SegmentRecovery
variable (platform : IngestPlatform)

def startsWith (name mark : String) : Bool :=
  mark.toList.isPrefixOf name.toList

def endsWith (name mark : String) : Bool :=
  mark.toList.isSuffixOf name.toList

def isFailed (name : String) : Bool :=
  startsWith name "events-" && endsWith name ".failed.jsonl"

def isNormal (name : String) : Bool :=
  startsWith name "events-" && endsWith name ".jsonl" && !isFailed name

def isSegment (name : String) : Bool :=
  isNormal name || isFailed name

def isReapable (name : String) : Bool :=
  if endsWith name ".failed.jsonl" then false
  else if startsWith name "decision_log.jsonl" then false
  else startsWith name "wisphive.log" || startsWith name "events-" && endsWith name ".jsonl"

/-- `with_extension("failed.jsonl")` of a name that ends in `.jsonl`. -/
def failedName (name : String) : String :=
  String.ofList (name.toList.take (name.toList.length - 5) ++ "failed.jsonl".toList)

/-- A regular file of the log directory. -/
structure LogFile where
  name : String
  content : Bytes
  modified : DateTime
  deriving DecidableEq, Repr

/-- The texts of the decision lines among some lines. -/
def textsOf (lines : List Bytes) : List String :=
  (EventIngest.decisions platform lines).map (·.1)

namespace LogFile

def lines (file : LogFile) : List Bytes :=
  Lines.pieces EventIngest.newline file.content

/-- Every decision line of the file. -/
def texts (file : LogFile) : List String :=
  textsOf platform file.lines

/-- The decision lines before the first line that is no UTF-8. -/
def reachable (file : LogFile) : List String :=
  textsOf platform (file.lines.takeWhile EventIngest.valid)

end LogFile

/-- A recovery has segments ahead of it, and has skipped entries that it could not read. -/
inductive Phase where
  | down
  | recovering (skipped todo : List String)
  | up
  deriving DecidableEq, Repr

/-- Beside the directory and the store, a run keeps the decision lines that `ingest_line`
accepted, those of them that the last recovery passed to it, and those that went with a
segment before they were accepted. -/
structure Run (Store : Type) where
  files : List LogFile
  store : Store
  phase : Phase := .down
  accepted : List String := []
  passed : List (String × String) := []
  lost : List (String × String) := []
  deriving DecidableEq, Repr

inductive Event where
  | recover (unreadable : List String)
  | reimport (faults : List Bool) (renames removes : Bool)
  | prune (cutoff : DateTime) (kept : List String)
  | rotate (file : LogFile) (faults : List Bool) (renames : Bool)

namespace Run
variable {Store : Type} (insert : LogRow → Store → Store)

def find (run : Run Store) (name : String) : Option LogFile :=
  run.files.find? (·.name = name)

/-- The segments that can be read, in the order of their names. -/
def collectRecoverySegments (run : Run Store) (unreadable : List String) : List String :=
  ((run.files.filter fun file => isSegment file.name && file.name ∉ unreadable).map (·.name)).insertionSort (· ≤ ·)

/-- Files go away. What a segment among them held is lost unless it was accepted. -/
def discard (run : Run Store) (gone : LogFile → Bool) : Run Store :=
  { run with
    files := run.files.filter fun file => !gone file
    lost := run.lost ++ ((run.files.filter fun file => gone file && isSegment file.name).flatMap fun file =>
      (file.texts platform).map (file.name, ·)).filter (·.2 ∉ run.accepted) }

/-- The rename to the failed name overwrites what has this name. -/
def preserve (run : Run Store) (name : String) : Run Store :=
  let overwritten := run.discard platform (·.name = failedName name)
  { overwritten with
    files := overwritten.files.map fun file => if file.name = name then { file with name := failedName name } else file }

def reimportAll (run : Run Store) (file : LogFile) (faults : List Bool) : EventIngest.Import Store :=
  EventIngest.reimportAll platform insert file.content faults run.store

/-- The run with what an import left in the store. -/
def imported (run : Run Store) (result : EventIngest.Import Store) : Run Store :=
  { run with store := result.store, accepted := run.accepted ++ result.accepted }

/-- The next segment of a recovery. A failed rename ends the start. -/
def reimport (run : Run Store) (faults : List Bool) (renames removes : Bool) : Option (Run Store) :=
  match run.phase with
  | .down | .up | .recovering _ [] => none
  | .recovering skipped (name :: rest) =>
    match run.find name with
    | none => some { run with phase := .recovering skipped rest }
    | some file =>
      let result := run.reimportAll platform insert file faults
      let taken := { run.imported result with
        passed := run.passed ++ result.accepted.map (name, ·)
        phase := .recovering skipped rest }
      some (if result.ok then
          if isFailed name && removes then taken.discard platform (·.name = name) else taken
        else if isFailed name then taken
        else if renames then taken.preserve platform name
        else { taken with phase := .down })

/-- A live rotation, under a stamp that no file has. -/
def rotate (run : Run Store) (file : LogFile) (faults : List Bool) (renames : Bool) : Option (Run Store) :=
  if run.phase = .up ∧ isNormal file.name ∧ file.name ∉ run.files.map (·.name) then
    let result := run.reimportAll platform insert file faults
    let added := { run.imported result with files := run.files ++ [file] }
    some (if result.ok || !renames then added else added.preserve platform file.name)
  else none

def step (run : Run Store) : Event → Option (Run Store)
  | .recover unreadable =>
    let skipped := (run.files.map (·.name)).filter (· ∈ unreadable)
    some { run with phase := .recovering skipped (run.collectRecoverySegments unreadable), passed := [] }
  | .reimport faults renames removes => run.reimport platform insert faults renames removes
  | .prune cutoff kept =>
    match run.phase with
    | .recovering _ [] =>
      some { run.discard platform fun file => isReapable file.name && file.modified < cutoff && file.name ∉ kept with
        phase := .up }
    | _ => none
  | .rotate file faults renames => run.rotate platform insert file faults renames

/-- A log directory. -/
structure Start (Store : Type) where
  files : List LogFile
  store : Store
  unique : (files.map (·.name)).Nodup

def machine (start : Start Store) : Machine (Run Store) Event where
  start := { files := start.files, store := start.store }
  step := step platform insert

end Run
end SegmentRecovery
end Wisphive
