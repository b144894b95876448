import Mathlib.Algebra.Ring.Nat
import Mathlib.Data.Bool.Basic
import Wisphive.Foundation.Assoc

/-! Relational databases: a schema, the rows of its tables and the statements on them. A
statement that the constraints refuse changes nothing, and neither does a transaction that fails. -/

namespace Foundation
namespace Sql

inductive Value where
  | null
  | integer (number : Int)
  | text (chars : String)
  | blob (bytes : List UInt8)
  deriving DecidableEq, Repr

namespace Value

def ofText : Option String → Value
  | some chars => .text chars
  | none => .null

def asText? : Value → Option String
  | .text chars => some chars
  | _ => none

end Value

/-- What a column holds where an insert does not name it. -/
inductive Default where
  | value (value : Value)
  | currentTimestamp
  deriving DecidableEq, Repr

def Default.eval (clock : String) : Default → Value
  | .value given => given
  | .currentTimestamp => .text clock

structure ColumnDef (Column : Type) where
  name : Column
  notNull : Bool := false
  default : Default := .value .null
  deriving DecidableEq, Repr

structure Reference (Table Column : Type) where
  column : Column
  table : Table
  key : Column
  /-- `ON DELETE CASCADE`. -/
  cascades : Bool := false
  deriving DecidableEq, Repr

/-- `keys` lists the primary key and the unique keys, and `checks` the values that columns
have to have. The database fills in `rowid` by itself. -/
structure TableDef (Table Column : Type) where
  columns : List (ColumnDef Column)
  keys : List (List Column) := []
  references : List (Reference Table Column) := []
  checks : List (Column × Value) := []
  rowid : Option Column := none
  deriving DecidableEq, Repr

/-- `objects` are the indexes, the triggers and the virtual tables. -/
structure Schema (Table Column Object : Type) where
  tables : List (Table × TableDef Table Column) := []
  objects : List Object := []
  deriving DecidableEq, Repr

/-- The columns that a table lacks are null in its rows. -/
abbrev Row (Column : Type) := Column → Value

@[ext] structure Database (Table Column Object : Type) where
  schema : Schema Table Column Object := {}
  rows : Table → List (Row Column) := fun _ => []

inductive Error (Table Column : Type) where
  | noSuchTable (table : Table)
  | noSuchColumn
  | noSuchObject
  | objectExists
  | duplicateColumn (column : Column)
  | notNull
  | check
  | unique
  | foreignKey
  /-- An error of the program between its statements. -/
  | raised (message : String)
  deriving DecidableEq, Repr

/-- A program of statements, over the clock that `CURRENT_TIMESTAMP` reads. -/
def Command (Table Column Object α : Type) : Type :=
  String → Database Table Column Object → Except (Error Table Column) α × Database Table Column Object

variable {Table Column Object α β : Type}

namespace Command

instance : Monad (Command Table Column Object) where
  pure value := fun _ db => (.ok value, db)
  bind program next := fun clock db =>
    match program clock db with
    | (.ok value, after) => next value clock after
    | (.error error, after) => (.error error, after)

def fail (error : Error Table Column) : Command Table Column Object α :=
  fun _ db => (.error error, db)

/-- The reply is dropped. -/
def void (program : Command Table Column Object α) : Command Table Column Object Unit := do
  let _ ← program
  pure ()

/-- An error is dropped. -/
def attempt (program : Command Table Column Object α) : Command Table Column Object Unit :=
  fun clock db => (.ok (), (program clock db).2)

/-- An error takes everything back. -/
def transaction (program : Command Table Column Object α) : Command Table Column Object α :=
  fun clock db =>
    match program clock db with
    | (.ok value, after) => (.ok value, after)
    | (.error error, _) => (.error error, db)

/-- One program for each element. -/
def forEach (elements : List β) (program : β → Command Table Column Object Unit) : Command Table Column Object Unit :=
  match elements with
  | [] => pure ()
  | element :: rest => do
    program element
    forEach rest program

end Command

section Definitions
variable [DecidableEq Table] [DecidableEq Column] [DecidableEq Object]

def Schema.table (schema : Schema Table Column Object) (table : Table) : Option (TableDef Table Column) :=
  schema.tables.lookup table

/-! ### Constraints -/

namespace TableDef
variable (definition : TableDef Table Column)

def has (column : Column) : Bool :=
  definition.columns.any (·.name = column)

/-- Null is no key value. -/
def agrees (key : List Column) (row other : Row Column) : Bool :=
  key.all fun column => row column ≠ .null && row column = other column

def clashes (row other : Row Column) : Bool :=
  definition.keys.any fun key => agrees key row other

def violation (row : Row Column) : Option (Error Table Column) :=
  if definition.columns.any fun column => column.notNull && row column.name = .null then some .notNull
  else if definition.checks.any fun check => row check.1 ≠ check.2 then some .check
  else none

def distinct : List (Row Column) → Bool
  | [] => true
  | row :: rest => !rest.any (definition.clashes row) && distinct rest

end TableDef

namespace Database
variable (db : Database Table Column Object)

/-- The row that a reference asks for. -/
def referred (reference : Reference Table Column) (row : Row Column) : Bool :=
  row reference.column = .null || (db.rows reference.table).any fun parent => parent reference.key = row reference.column

def intact : Bool :=
  db.schema.tables.all fun entry =>
    entry.2.references.all fun reference => (db.rows entry.1).all (db.referred reference)

def store (table : Table) (rows : List (Row Column)) : Database Table Column Object :=
  { db with rows := Function.update db.rows table rows }

/-- The new rows of a table are stored if they meet the constraints. -/
def put (table : Table) (definition : TableDef Table Column) (rows : List (Row Column)) (count : Nat) :
    Except (Error Table Column) Nat × Database Table Column Object :=
  match rows.findSome? definition.violation with
  | some error => (.error error, db)
  | none =>
    if definition.distinct rows then
      if (db.store table rows).intact then (.ok count, db.store table rows) else (.error .foreignKey, db)
    else (.error .unique, db)

/-- The rows are taken out whose parent is gone. -/
def dropOrphans : Database Table Column Object :=
  { db with rows := fun table =>
      match db.schema.table table with
      | some definition => (db.rows table).filter fun row =>
          definition.references.all fun reference => !reference.cascades || db.referred reference row
      | none => db.rows table }

def cascade : Nat → Database Table Column Object → Database Table Column Object
  | 0, db => db
  | count + 1, db => cascade count db.dropOrphans

/-- As many rounds as there are rows leave no orphan. -/
def size : Nat :=
  (db.schema.tables.map fun entry => (db.rows entry.1).length).sum

end Database

/-! ### Definitions -/

inductive Statement (Table Column Object : Type) where
  /-- `CREATE TABLE IF NOT EXISTS`. -/
  | createTable (table : Table) (definition : TableDef Table Column)
  | addColumn (table : Table) (column : ColumnDef Column)
  /-- `CREATE INDEX IF NOT EXISTS`. -/
  | createIndex (index : Object) (table : Table) (columns : List Column) (unique : Bool := false)
  deriving DecidableEq, Repr

namespace Schema

def replace (schema : Schema Table Column Object) (table : Table) (definition : TableDef Table Column) :
    Schema Table Column Object :=
  { schema with tables := schema.tables.map fun entry => if entry.1 = table then (table, definition) else entry }

end Schema

namespace Statement

/-- A column is added to a table with rows only under a constant default that it may hold. -/
def execute : Statement Table Column Object → Command Table Column Object Unit
  | .createTable table definition, _, db =>
    match db.schema.table table with
    | some _ => (.ok (), db)
    | none => (.ok (), { db.store table [] with
        schema := { db.schema with tables := db.schema.tables ++ [(table, definition)] } })
  | .addColumn table column, clock, db =>
    match db.schema.table table with
    | none => (.error (.noSuchTable table), db)
    | some definition =>
      if definition.has column.name then (.error (.duplicateColumn column.name), db)
      else if !(db.rows table).isEmpty ∧
          (column.default = .currentTimestamp ∨ column.notNull ∧ column.default = .value .null) then (.error .notNull, db)
      else
        let filled := (db.rows table).map fun row => Function.update row column.name (column.default.eval clock)
        (.ok (), { db.store table filled with
          schema := db.schema.replace table { definition with columns := definition.columns ++ [column] } })
  | .createIndex index table columns unique, _, db =>
    if index ∈ db.schema.objects then (.ok (), db)
    else
      match db.schema.table table with
      | none => (.error (.noSuchTable table), db)
      | some definition =>
        let keyed := if unique then { definition with keys := definition.keys ++ [columns] } else definition
        if columns.all definition.has = false then (.error .noSuchColumn, db)
        else if keyed.distinct (db.rows table) = false then (.error .unique, db)
        else (.ok (), { db with
          schema := { db.schema.replace table keyed with objects := db.schema.objects ++ [index] } })

/-- The statement has nothing left to do. A column can only be refused. -/
def done (schema : Schema Table Column Object) : Statement Table Column Object → Bool
  | .createTable table _ => (schema.table table).isSome
  | .addColumn table column => (schema.table table).any (·.has column.name)
  | .createIndex index _ _ _ => index ∈ schema.objects

/-- What a statement replies that is done. -/
def again : Statement Table Column Object → Except (Error Table Column) Unit
  | .addColumn _ column => .error (.duplicateColumn column.name)
  | .createTable .. | .createIndex .. => .ok ()

end Statement

namespace Command

/-- `CREATE TRIGGER` or `CREATE VIRTUAL TABLE`. -/
def createObject (object : Object) : Command Table Column Object Unit := fun _ db =>
  if object ∈ db.schema.objects then (.error .objectExists, db)
  else (.ok (), { db with schema := { db.schema with objects := db.schema.objects ++ [object] } })

/-- `DROP … IF EXISTS`. -/
def dropObject (object : Object) : Command Table Column Object Unit := fun _ db =>
  (.ok (), { db with schema := { db.schema with objects := db.schema.objects.erase object } })

/-- A command to a virtual table that keeps no rows of its own. -/
def notify (object : Object) : Command Table Column Object Unit := fun _ db =>
  if object ∈ db.schema.objects then (.ok (), db) else (.error .noSuchObject, db)

/-! ### Rows -/

def select (table : Table) (selected : Row Column → Bool) : Command Table Column Object (List (Row Column)) :=
  fun _ db =>
    match db.schema.table table with
    | some _ => (.ok ((db.rows table).filter selected), db)
    | none => (.error (.noSuchTable table), db)

end Command

/-- The number behind the highest one that is taken. -/
def nextId (rows : List (Row Column)) (column : Column) : Int :=
  rows.foldl (fun highest row => match row column with | .integer number => max highest number | _ => highest) 0 + 1

/-- The row that an insert makes of the values it names. -/
def TableDef.rowOf (definition : TableDef Table Column) (clock : String) (rows : List (Row Column))
    (values : List (Column × Value)) : Row Column := fun column =>
  match values.lookup column with
  | some value => value
  | none =>
    if definition.rowid = some column then .integer (nextId rows column)
    else ((definition.columns.find? (·.name = column)).map (·.default.eval clock)).getD .null

inductive OnConflict (Column : Type) where
  | abort
  /-- `INSERT OR IGNORE`. -/
  | ignore
  | doNothing (key : List Column)
  /-- `DO UPDATE`, with the columns that are taken from the row that was refused. -/
  | doUpdate (key : List Column) (columns : List Column)
  deriving DecidableEq, Repr

/-- Only a foreign key fails an insert that ignores what it violates. -/
def ignored (before : Database Table Column Object) :
    Except (Error Table Column) Nat × Database Table Column Object →
    Except (Error Table Column) Nat × Database Table Column Object
  | (.error .foreignKey, after) => (.error .foreignKey, after)
  | (.error _, _) => (.ok 0, before)
  | (.ok count, after) => (.ok count, after)

namespace Command

/-- The reply of a statement that changes rows is how many it changed. -/
def insert (table : Table) (values : List (Column × Value)) (onConflict : OnConflict Column := .abort) :
    Command Table Column Object Nat := fun clock db =>
  match db.schema.table table with
  | none => (.error (.noSuchTable table), db)
  | some definition =>
    let rows := db.rows table
    let row := definition.rowOf clock rows values
    if values.all fun entry => definition.has entry.1 then
      match onConflict with
      | .abort => db.put table definition (rows ++ [row]) 1
      | .ignore => ignored db (db.put table definition (rows ++ [row]) 1)
      | .doNothing key =>
        if rows.any (TableDef.agrees key row) then (.ok 0, db) else db.put table definition (rows ++ [row]) 1
      | .doUpdate key columns =>
        if rows.any (TableDef.agrees key row) then
          let taken (other : Row Column) : Row Column := fun column =>
            if column ∈ columns then row column else other column
          db.put table definition (rows.map fun other => if TableDef.agrees key row other then taken other else other) 1
        else db.put table definition (rows ++ [row]) 1
    else (.error .noSuchColumn, db)

/-- A row with new values in the columns that are assigned. -/
def assigned (assignments : List (Column × (Row Column → Value))) (row : Row Column) : Row Column := fun column =>
  match assignments.lookup column with
  | some value => value row
  | none => row column

def update (table : Table) (assignments : List (Column × (Row Column → Value))) (selected : Row Column → Bool) :
    Command Table Column Object Nat := fun _ db =>
  match db.schema.table table with
  | none => (.error (.noSuchTable table), db)
  | some definition =>
    if assignments.all fun entry => definition.has entry.1 then
      db.put table definition ((db.rows table).map fun row => if selected row then assigned assignments row else row)
        ((db.rows table).countP selected)
    else (.error .noSuchColumn, db)

def delete (table : Table) (selected : Row Column → Bool) : Command Table Column Object Nat := fun _ db =>
  match db.schema.table table with
  | none => (.error (.noSuchTable table), db)
  | some _ =>
    let remaining := db.store table ((db.rows table).filter fun row => !selected row)
    let after := Database.cascade remaining.size remaining
    if after.intact then (.ok ((db.rows table).countP selected), after) else (.error .foreignKey, db)

end Command

end Definitions

theorem bind_ok {program : Command Table Column Object α} {next : α → Command Table Column Object β} {clock : String}
    {db after : Database Table Column Object} {value : α} (ran : program clock db = (.ok value, after)) :
    (program >>= next) clock db = next value clock after := by
  change (match program clock db with
    | (.ok value, after) => next value clock after
    | (.error error, after) => (.error error, after)) = next value clock after
  rw [ran]

/-! ### What the constraints promise -/

variable {definition : TableDef Table Column} {table : Table} {rows : List (Row Column)} {count : Nat}
  {db : Database Table Column Object}

theorem TableDef.distinct_iff :
    definition.distinct rows = true ↔ rows.Pairwise fun row other => definition.clashes row other = false := by
  induction rows with
  | nil => exact ⟨fun _ => .nil, fun _ => rfl⟩
  | cons row rest ih =>
    simp only [TableDef.distinct, Bool.and_eq_true, Bool.not_eq_true', List.any_eq_false, List.pairwise_cons, ih,
      Bool.not_eq_true]

variable [DecidableEq Table]

/-- Every row meets the constraints of its table, and every reference finds its parent. -/
structure Database.Sound (db : Database Table Column Object) : Prop where
  rows : ∀ table definition, db.schema.table table = some definition →
    (∀ row ∈ db.rows table, definition.violation row = none) ∧ definition.distinct (db.rows table) = true
  intact : db.intact = true

/-- A statement is refused, or what it stores meets the constraints. -/
theorem put_cases (db : Database Table Column Object) (table : Table) (definition : TableDef Table Column)
    (rows : List (Row Column)) (count : Nat) :
    (db.put table definition rows count).2 = db ∨
      (db.put table definition rows count).2 = db.store table rows ∧
        (∀ row ∈ rows, definition.violation row = none) ∧ definition.distinct rows = true ∧
        (db.store table rows).intact = true := by
  rw [Database.put]
  split
  · exact .inl rfl
  · next clean =>
    split
    · next distinct =>
      split
      · next intact => exact .inr ⟨rfl, List.findSome?_eq_none_iff.mp clean, distinct, intact⟩
      · exact .inl rfl
    · exact .inl rfl

@[simp] theorem rows_store_self : (db.store table rows).rows table = rows :=
  Function.update_self ..

theorem rows_store_of_ne {other : Table} (apart : other ≠ table) : (db.store table rows).rows other = db.rows other :=
  Function.update_of_ne apart ..

theorem Database.Sound.put (sound : db.Sound) (defined : db.schema.table table = some definition) :
    (db.put table definition rows count).2.Sound := by
  rcases put_cases db table definition rows count with same | ⟨stored, clean, distinct, intact⟩
  · rwa [same]
  · rw [stored]
    refine ⟨fun other found known => ?_, intact⟩
    by_cases own : other = table
    · subst own
      cases known.symm.trans defined
      rw [rows_store_self]
      exact ⟨clean, distinct⟩
    · rw [rows_store_of_ne own]
      exact sound.rows other found known

/-- Fewer rows meet the constraints as well, if the references still find their parents. -/
theorem Database.Sound.shrink {after : Database Table Column Object} (sound : db.Sound)
    (schema : after.schema = db.schema) (fewer : ∀ table, (after.rows table).Sublist (db.rows table))
    (intact : after.intact = true) : after.Sound := by
  refine ⟨fun table definition defined => ?_, intact⟩
  obtain ⟨clean, distinct⟩ := sound.rows table definition (schema ▸ defined)
  exact ⟨fun row member => clean row ((fewer table).subset member),
    TableDef.distinct_iff.mpr ((TableDef.distinct_iff.mp distinct).sublist (fewer table))⟩

/-- No key, check or reference reads the column. -/
def Schema.Unbound (schema : Schema Table Column Object) (table : Table) (column : Column) : Prop :=
  ∀ entry ∈ schema.tables,
    (entry.1 = table → (∀ key ∈ entry.2.keys, column ∉ key) ∧ (∀ check ∈ entry.2.checks, check.1 ≠ column) ∧
      ∀ reference ∈ entry.2.references, reference.column ≠ column) ∧
    ∀ reference ∈ entry.2.references, reference.table = table → reference.key ≠ column

instance [DecidableEq Column] (schema : Schema Table Column Object) (table : Table) (column : Column) :
    Decidable (schema.Unbound table column) :=
  inferInstanceAs (Decidable (∀ entry ∈ schema.tables, _))

section Confined
variable {change : Row Column → Row Column}
  (confined : ∀ row column, ¬ db.schema.Unbound table column → change row column = row column)
include confined

theorem agrees_change (defined : db.schema.table table = some definition) {key : List Column}
    (member : key ∈ definition.keys) (row other : Row Column) :
    TableDef.agrees key (change row) (change other) = TableDef.agrees key row other := by
  have kept : ∀ column ∈ key, ∀ row, change row column = row column := fun column listed row =>
    confined row column fun unbound => ((unbound _ (Assoc.mem_of_lookup defined)).1 rfl).1 key member listed
  refine Bool.eq_iff_iff.mpr ?_
  simp only [TableDef.agrees, List.all_eq_true]
  exact forall₂_congr fun column listed => by rw [kept column listed, kept column listed]

theorem clashes_change (defined : db.schema.table table = some definition) (row other : Row Column) :
    definition.clashes (change row) (change other) = definition.clashes row other := by
  refine Bool.eq_iff_iff.mpr ?_
  simp only [TableDef.clashes, List.any_eq_true]
  exact exists_congr fun key => and_congr_right fun member => by rw [agrees_change confined defined member]

theorem violation_change (defined : db.schema.table table = some definition) {row : Row Column}
    (clean : definition.violation row = none)
    (filled : ∀ column ∈ definition.columns, column.notNull = true → change row column.name ≠ .null) :
    definition.violation (change row) = none := by
  have held : definition.columns.any (fun column => column.notNull && change row column.name = .null) = false := by
    simpa using filled
  have checked : definition.checks.any (fun check => change row check.1 ≠ check.2) =
      definition.checks.any fun check => row check.1 ≠ check.2 := by
    refine Bool.eq_iff_iff.mpr ?_
    simp only [List.any_eq_true]
    refine exists_congr fun check => and_congr_right fun member => ?_
    rw [confined row check.1 fun unbound => ((unbound _ (Assoc.mem_of_lookup defined)).1 rfl).2.1 check member rfl]
  rw [TableDef.violation] at clean ⊢
  rw [held, checked]
  split at clean
  · cases clean
  · simpa using clean

/-- The references find their parents as before. -/
theorem intact_change (intact : db.intact = true) :
    (db.store table ((db.rows table).map change)).intact = true := by
  simp only [Database.intact, List.all_eq_true] at intact ⊢
  intro entry member reference listed
  have parent : ∀ row : Row Column, db.referred reference row = true →
      (db.store table ((db.rows table).map change)).referred reference row = true := by
    intro row found
    rw [Database.referred] at found ⊢
    by_cases own : reference.table = table
    · rw [own] at found
      rw [own, rows_store_self, List.any_map]
      have kept : ∀ row : Row Column, change row reference.key = row reference.key := fun row =>
        confined row _ fun unbound => (unbound entry member).2 reference listed own rfl
      simpa only [Function.comp_def, kept] using found
    · rwa [rows_store_of_ne own]
  intro row stored
  by_cases own : entry.1 = table
  · rw [own, rows_store_self, List.mem_map] at stored
    obtain ⟨old, present, rfl⟩ := stored
    have kept : change old reference.column = old reference.column := confined old _ fun unbound =>
      ((unbound entry member).1 own).2.2 reference listed rfl
    have found := parent old (intact entry member reference listed old (own ▸ present))
    rwa [Database.referred, kept, ← Database.referred]
  · rw [rows_store_of_ne own] at stored
    exact parent row (intact entry member reference listed row stored)

/-- A change of unbound columns is stored, unless it leaves a column null that may not be. -/
theorem put_change (sound : db.Sound) (defined : db.schema.table table = some definition)
    (filled : ∀ row ∈ db.rows table, ∀ column ∈ definition.columns, column.notNull = true →
      change row column.name ≠ .null) :
    db.put table definition ((db.rows table).map change) count =
      (.ok count, db.store table ((db.rows table).map change)) := by
  obtain ⟨clean, distinct⟩ := sound.rows table definition defined
  have still : ((db.rows table).map change).findSome? definition.violation = none := by
    rw [List.findSome?_eq_none_iff]
    intro row member
    obtain ⟨old, present, rfl⟩ := List.mem_map.mp member
    exact violation_change confined defined (clean old present) (filled old present)
  have apart : definition.distinct ((db.rows table).map change) = true := by
    rw [TableDef.distinct_iff, List.pairwise_map]
    simpa only [clashes_change confined defined] using TableDef.distinct_iff.mp distinct
  rw [Database.put, still]
  simp only [apart, intact_change confined sound.intact, if_true]

end Confined

/-- A statement that is done does nothing. -/
theorem execute_done [DecidableEq Column] [DecidableEq Object] {statement : Statement Table Column Object}
    (clock : String) (done : statement.done db.schema = true) : statement.execute clock db = (statement.again, db) := by
  cases statement with
  | createTable table definition =>
    obtain ⟨found, defined⟩ := Option.isSome_iff_exists.mp done
    rw [Statement.execute, defined, Statement.again]
  | addColumn table column =>
    obtain ⟨found, defined, held⟩ := (Option.any_eq_true ..).mp done
    rw [Statement.execute, defined]
    exact if_pos held
  | createIndex index table columns unique =>
    rw [Statement.execute, if_pos (of_decide_eq_true done), Statement.again]

/-- An insert that does nothing where its key is taken. -/
theorem insert_taken [DecidableEq Column] {values : List (Column × Value)} {key : List Column} (clock : String)
    (defined : db.schema.table table = some definition)
    (named : values.all (fun entry => definition.has entry.1) = true)
    (taken : (db.rows table).any (TableDef.agrees key (definition.rowOf clock (db.rows table) values)) = true) :
    Command.insert table values (.doNothing key) clock db = (.ok 0, db) := by
  rw [Command.insert, defined]
  dsimp only
  rw [if_pos named]
  exact if_pos taken

theorem assigned_one [DecidableEq Column] (column : Column) (value : Row Column → Value) (row : Row Column) :
    Command.assigned [(column, value)] row = Function.update row column (value row) := by
  funext other
  rw [Command.assigned, List.lookup_cons, List.lookup_nil]
  by_cases same : other = column
  · rw [same, Function.update_self, beq_self_eq_true]
  · rw [Function.update_of_ne same, beq_false_of_ne same]

theorem update_eq [DecidableEq Column] {assignments : List (Column × (Row Column → Value))}
    {selected : Row Column → Bool} (clock : String) (defined : db.schema.table table = some definition)
    (named : assignments.all (fun entry => definition.has entry.1) = true) :
    Command.update table assignments selected clock db =
      db.put table definition
        ((db.rows table).map fun row => if selected row then Command.assigned assignments row else row)
        ((db.rows table).countP selected) := by
  rw [Command.update, defined]
  exact if_pos named

/-! ### What a program may make of the rows -/

/-- What may become of the rows of each table. -/
structure Evolution (Table Column : Type) where
  allows : Table → List (Row Column) → List (Row Column) → Prop
  refl : ∀ table rows, allows table rows rows
  trans : ∀ {table first middle last}, allows table first middle → allows table middle last → allows table first last

/-- The schema is as before, the constraints are still met, and the rows became what they may. -/
structure Evolved (fixed : Schema Table Column Object) (evolution : Evolution Table Column)
    (before after : Database Table Column Object) : Prop where
  schema : after.schema = fixed
  sound : after.Sound
  rows : ∀ table, evolution.allows table (before.rows table) (after.rows table)

/-- Under the schema, the program makes of the rows what they may become. -/
def Evolves (fixed : Schema Table Column Object) (evolution : Evolution Table Column)
    (program : Command Table Column Object α) : Prop :=
  ∀ clock db, db.schema = fixed → db.Sound → Evolved fixed evolution db (program clock db).2

/-- The tables whose rows go with their parents. -/
def Schema.Cascading (schema : Schema Table Column Object) (table : Table) : Prop :=
  ∃ definition, schema.table table = some definition ∧ definition.references.any (·.cascades) = true

variable {fixed : Schema Table Column Object} {evolution : Evolution Table Column}

namespace Evolved

theorem refl (schema : db.schema = fixed) (sound : db.Sound) : Evolved fixed evolution db db :=
  ⟨schema, sound, fun table => evolution.refl table _⟩

theorem trans {before middle after : Database Table Column Object} (first : Evolved fixed evolution before middle)
    (later : Evolved fixed evolution middle after) : Evolved fixed evolution before after :=
  ⟨later.schema, later.sound, fun table => evolution.trans (first.rows table) (later.rows table)⟩

theorem put (schema : db.schema = fixed) (sound : db.Sound) (defined : db.schema.table table = some definition)
    (allowed : evolution.allows table (db.rows table) rows) :
    Evolved fixed evolution db (db.put table definition rows count).2 := by
  rcases put_cases db table definition rows count with refused | ⟨stored, _⟩
  · rw [refused]
    exact .refl schema sound
  · refine ⟨by rwa [stored], sound.put defined, fun other => ?_⟩
    rw [stored]
    by_cases own : other = table
    · rwa [own, rows_store_self]
    · rw [rows_store_of_ne own]
      exact evolution.refl other _

/-- An update of a database whose rows it may change so. -/
theorem update [DecidableEq Column] {assignments : List (Column × (Row Column → Value))} {selected : Row Column → Bool}
    (clock : String) (schema : db.schema = fixed) (sound : db.Sound)
    (allowed : evolution.allows table (db.rows table)
      ((db.rows table).map fun row => if selected row then Command.assigned assignments row else row)) :
    Evolved fixed evolution db (Command.update table assignments selected clock db).2 := by
  rw [Command.update]
  split
  · exact .refl schema sound
  next definition defined =>
    split
    · exact .put schema sound defined allowed
    · exact .refl schema sound

/-- An insert may append the row, and an upsert may change its table at will. -/
theorem insert [DecidableEq Column] {values : List (Column × Value)} {onConflict : OnConflict Column}
    (clock : String) (schema : db.schema = fixed) (sound : db.Sound)
    (appended : ∀ definition, fixed.table table = some definition →
      evolution.allows table (db.rows table) (db.rows table ++ [definition.rowOf clock (db.rows table) values]))
    (replaced : ∀ key columns, onConflict = .doUpdate key columns → ∀ rows, evolution.allows table (db.rows table) rows) :
    Evolved fixed evolution db (Command.insert table values onConflict clock db).2 := by
  have stored : ∀ definition, db.schema.table table = some definition → Evolved fixed evolution db
      (db.put table definition (db.rows table ++ [definition.rowOf clock (db.rows table) values]) 1).2 :=
    fun definition defined => .put schema sound defined (appended definition (schema ▸ defined))
  rw [Command.insert]
  split
  · exact .refl schema sound
  next definition defined =>
    dsimp only
    split
    · cases onConflict with
      | abort => exact stored definition defined
      | ignore =>
        have evolved := stored definition defined
        dsimp only
        revert evolved
        cases db.put table definition (db.rows table ++ [definition.rowOf clock (db.rows table) values]) 1 with
        | mk reply after =>
          intro evolved
          rcases reply with error | count
          · cases error <;> first | exact evolved | exact .refl schema sound
          · exact evolved
      | doNothing key =>
        dsimp only
        split
        · exact .refl schema sound
        · exact stored definition defined
      | doUpdate key columns =>
        dsimp only
        split
        · exact .put schema sound defined (replaced key columns rfl _)
        · exact stored definition defined
    · exact .refl schema sound

end Evolved

theorem schema_cascade (rounds : Nat) (db : Database Table Column Object) :
    (Database.cascade rounds db).schema = db.schema := by
  induction rounds generalizing db with
  | zero => rfl
  | succ rounds ih => exact ih db.dropOrphans

theorem rows_cascade (rounds : Nat) (db : Database Table Column Object) (table : Table) :
    ((Database.cascade rounds db).rows table).Sublist (db.rows table) := by
  induction rounds generalizing db with
  | zero => exact List.Sublist.refl _
  | succ rounds ih =>
    refine (ih db.dropOrphans).trans ?_
    rw [Database.dropOrphans]
    dsimp only
    split
    · exact List.filter_sublist
    · exact List.Sublist.refl _

/-- The cascade passes by the tables that do not cascade. -/
theorem rows_cascade_of_not (rounds : Nat) (db : Database Table Column Object) {table : Table}
    (sheltered : ¬ db.schema.Cascading table) : (Database.cascade rounds db).rows table = db.rows table := by
  induction rounds generalizing db with
  | zero => rfl
  | succ rounds ih =>
    refine (ih db.dropOrphans sheltered).trans ?_
    rw [Database.dropOrphans]
    dsimp only
    split
    · next definition defined =>
      rw [List.filter_eq_self]
      intro row _
      rw [List.all_eq_true]
      intro reference listed
      have plain : reference.cascades = false := by
        by_contra cascades
        exact sheltered ⟨definition, defined, List.any_eq_true.mpr ⟨reference, listed, Bool.eq_true_of_not_eq_false cascades⟩⟩
      rw [plain, Bool.not_false, Bool.true_or]
    · rfl

theorem Evolved.bind {program : Command Table Column Object α} {next : α → Command Table Column Object β} {clock : String}
    (first : Evolved fixed evolution db (program clock db).2) (rest : ∀ value, Evolves fixed evolution (next value)) :
    Evolved fixed evolution db ((program >>= next) clock db).2 := by
  change Evolved fixed evolution db (match program clock db with
    | (.ok value, after) => next value clock after
    | (.error error, after) => (.error error, after)).2
  split
  · next value after ran =>
    rw [ran] at first
    exact first.trans (rest value clock after first.schema first.sound)
  · next error after ran =>
    rwa [ran] at first

namespace Evolves
variable {program : Command Table Column Object α}

theorem pure (value : α) : Evolves fixed evolution (Pure.pure value : Command Table Column Object α) :=
  fun _ _ schema sound => .refl schema sound

theorem fail (error : Error Table Column) :
    Evolves fixed evolution (Command.fail error : Command Table Column Object α) :=
  fun _ _ schema sound => .refl schema sound

theorem bind {next : α → Command Table Column Object β} (first : Evolves fixed evolution program)
    (rest : ∀ value, Evolves fixed evolution (next value)) : Evolves fixed evolution (program >>= next) :=
  fun clock db schema sound => (first clock db schema sound).bind rest

theorem void (evolves : Evolves fixed evolution program) : Evolves fixed evolution program.void :=
  evolves.bind fun _ => .pure ()

theorem transaction (evolves : Evolves fixed evolution program) : Evolves fixed evolution program.transaction := by
  intro clock db schema sound
  have ends := evolves clock db schema sound
  rw [Command.transaction]
  split
  · next value after ran => rwa [ran] at ends
  · exact .refl schema sound

theorem forEach {elements : List β} {body : β → Command Table Column Object Unit}
    (evolves : ∀ element ∈ elements, Evolves fixed evolution (body element)) :
    Evolves fixed evolution (Command.forEach elements body) := by
  induction elements with
  | nil => exact .pure ()
  | cons element rest ih =>
    exact (evolves element List.mem_cons_self).bind fun _ =>
      ih fun other member => evolves other (List.mem_cons_of_mem _ member)

theorem select (table : Table) (selected : Row Column → Bool) :
    Evolves fixed evolution (Command.select table selected : Command Table Column Object _) := by
  intro clock db schema sound
  rw [Command.select]
  split <;> exact .refl schema sound

theorem insert [DecidableEq Column] {values : List (Column × Value)} {onConflict : OnConflict Column}
    (appended : ∀ rows row, evolution.allows table rows (rows ++ [row]))
    (replaced : ∀ key columns, onConflict = .doUpdate key columns → ∀ before after, evolution.allows table before after) :
    Evolves fixed evolution (Command.insert table values onConflict : Command Table Column Object _) :=
  fun clock _ schema sound => .insert clock schema sound (fun _ _ => appended _ _)
    fun key columns updates _ => replaced key columns updates _ _

theorem update [DecidableEq Column] {assignments : List (Column × (Row Column → Value))} {selected : Row Column → Bool}
    (allowed : ∀ rows, evolution.allows table rows
      (rows.map fun row => if selected row then Command.assigned assignments row else row)) :
    Evolves fixed evolution (Command.update table assignments selected : Command Table Column Object _) :=
  fun clock _ schema sound => .update clock schema sound (allowed _)

/-- The rows that go are the selected ones and those that cascade. -/
theorem delete {selected : Row Column → Bool} (shrinks : ∀ rows, evolution.allows table rows (rows.filter fun row => !selected row))
    (cascading : ∀ other, fixed.Cascading other → ∀ rows fewer : List (Row Column), fewer.Sublist rows →
      evolution.allows other rows fewer) :
    Evolves fixed evolution (Command.delete table selected : Command Table Column Object _) := by
  intro clock db schema sound
  rw [Command.delete]
  split
  · exact .refl schema sound
  next definition defined =>
    dsimp only
    split
    · next intact =>
      have fewer (other : Table) :
          ((db.store table ((db.rows table).filter fun row => !selected row)).rows other).Sublist (db.rows other) := by
        by_cases own : other = table
        · rw [own, rows_store_self]
          exact List.filter_sublist
        · rw [rows_store_of_ne own]
      refine ⟨(schema_cascade _ _).trans schema,
        sound.shrink (schema_cascade _ _) (fun other => (rows_cascade _ _ other).trans (fewer other)) intact,
        fun other => ?_⟩
      by_cases cascades : fixed.Cascading other
      · exact cascading other cascades _ _ ((rows_cascade _ _ other).trans (fewer other))
      · rw [rows_cascade_of_not _ _ (by rwa [← schema] at cascades)]
        by_cases own : other = table
        · rw [own, rows_store_self]
          exact shrinks _
        · rw [rows_store_of_ne own]
          exact evolution.refl other _
    · exact .refl schema sound

end Evolves
end Sql
end Foundation
