import Wisphive.Database
import Wisphive.Foundation.Trace
import Mathlib.Data.List.Perm.Basic

/-! Crashes between the statements that move a pending decision, and the drain of the
next start. A row whose id is no UUID can only be deleted. -/

namespace Wisphive
open Foundation

/-- An id that does not parse. The ids that the daemon writes are canonical texts. -/
abbrev ForeignId (parse : String → Option Uuid) := { text : String // parse text = none }

namespace PendingRecovery
variable (parse : String → Option Uuid)

/-- The two decision tables, and the pending rows under ids that do not parse. -/
structure Tables where
  db : Database := {}
  foreign : List (ForeignId parse) := []
  deriving DecidableEq

/-- The pending rows in the order in which a query returns them. -/
abbrev Orphans := List (ForeignId parse ⊕ PendingRow)

def Tables.orphans (tables : Tables parse) : Orphans parse :=
  tables.foreign.map .inl ++ tables.db.pending.map .inr

/-- Persisting or resolving, before its next statement. -/
inductive Task where
  | persist (req : DecisionRequest)
  | select (id : Uuid) (decision : Decision) (decidedBy : String)
  | insert (row : PendingRow) (decision : Decision) (decidedBy : String)
  | delete (id : Uuid)
  deriving DecidableEq

/-- One statement, and what is left to do. -/
def Task.step (now : DateTime) (db : Database) : Task → Database × Option Task
  | .persist req => (db.persistPending req, none)
  | .select id decision decidedBy =>
    match db.selectPending id with
    | some row => (db, some (.insert row decision decidedBy))
    | none => (db, some (.delete id))
  | .insert row decision decidedBy =>
    ((db.insertLog (row.resolved decision decidedBy now)).2, some (.delete row.id))
  | .delete id => (db.deletePending id, none)

/-- A live daemon, a dead one, or one that drains what it found. -/
inductive Phase where
  | live (tasks : List Task)
  | down
  | draining (current : Option Task) (rest : Orphans parse)
  deriving DecidableEq

/-- `crashed` keeps the tables that the last live daemon left. -/
structure Run where
  tables : Tables parse
  phase : Phase parse := .down
  crashed : Tables parse
  deriving DecidableEq

inductive Event where
  | persistPending (req : DecisionRequest)
  | resolvePendingBy (id : Uuid) (decision : Decision) (decidedBy : String)
  | execute (position : Nat) (now : DateTime)
  | fail (position : Nat)
  | crash
  | restart (order : Orphans parse)
  | drain (now : DateTime)
  | failDrain

/-- Tables as any earlier version may have left them: keys are unique. -/
structure Leftover where
  tables : Tables parse
  distinct : (tables.db.pending.map (·.id)).Nodup
  unique : Table.Distinct LogRow.conflicts tables.db.log

namespace Run
variable {parse}

def begin (run : Run parse) (task : Task) : Option (Run parse) :=
  match run.phase with
  | .live tasks => some { run with phase := .live (tasks ++ [task]) }
  | _ => none

/-- One statement of the drain. A parsed id is resolved like a live one, any other row
is deleted by its text. -/
def drain (run : Run parse) (now : DateTime) : Option Task → Orphans parse → Run parse
  | some task, rest =>
    let (db, current) := task.step now run.tables.db
    { run with tables := { run.tables with db }, phase := .draining current rest }
  | none, [] => { run with phase := .live [] }
  | none, .inl id :: rest =>
    { run with
      tables := { run.tables with foreign := run.tables.foreign.filter (· ≠ id) }
      phase := .draining none rest }
  | none, .inr row :: rest =>
    let (decision, decidedBy) := Database.drainOutcome row
    { run with phase := .draining (some (.select row.id decision decidedBy)) rest }

/-- A crash forgets the tasks. A failed statement ends its task, and a failed drain is
only warned about. -/
def step (run : Run parse) : Event parse → Option (Run parse)
  | .persistPending req => run.begin (.persist req)
  | .resolvePendingBy id decision decidedBy => run.begin (.select id decision decidedBy)
  | .execute position now =>
    match run.phase with
    | .live tasks => tasks[position]?.map fun task =>
      let (db, left) := task.step now run.tables.db
      { run with
        tables := { run.tables with db }
        phase := .live (match left with
          | some next => tasks.set position next
          | none => tasks.eraseIdx position) }
    | _ => none
  | .fail position =>
    match run.phase with
    | .live tasks => some { run with phase := .live (tasks.eraseIdx position) }
    | _ => none
  | .crash =>
    match run.phase with
    | .live _ => some { run with phase := .down, crashed := run.tables }
    | .draining _ _ => some { run with phase := .down }
    | .down => none
  | .restart order =>
    if run.phase = .down ∧ order.Perm run.tables.orphans then some { run with phase := .draining none order }
    else none
  | .drain now =>
    match run.phase with
    | .draining current rest => some (run.drain now current rest)
    | _ => none
  | .failDrain =>
    match run.phase with
    | .draining _ _ => some { run with phase := .live [] }
    | _ => none

def machine (left : Leftover parse) : Machine (Run parse) (Event parse) where
  start := { tables := left.tables, crashed := left.tables }
  step := step

end Run

/-- What the drain owes: nothing is pending, each pending row of the crash has one row
of the log, what the log said before still stands, and no managed spawn is approved. -/
structure Recovered {parse : String → Option Uuid} (crashed tables : Tables parse) : Prop where
  emptied : tables.orphans = []
  recorded : ∀ row ∈ crashed.db.pending, (tables.db.log.filter (·.id = row.id)).length = 1
  kept : ∀ logged ∈ crashed.db.log, logged ∈ tables.db.log
  denied : ∀ row ∈ crashed.db.pending, row.managed = true → ∀ logged ∈ tables.db.log, logged.id = row.id →
    logged.decision = Decision.deny.column

end PendingRecovery
end Wisphive
