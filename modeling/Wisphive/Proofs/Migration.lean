import Mathlib.Computability.Primrec.List
import Mathlib.Data.List.Permutation
import Wisphive.StoreWrites

/-! What a second migration does. Its schema is there, its marker is claimed, and only the
backfill is left, which reads the order 0 as a row that is older than the column. -/

namespace Wisphive
open Foundation Sql

namespace Migration

/-! ### The installed schema -/

/-- The schema that a migration of an empty database arrives at. -/
def installed : Schema StoreTable StoreColumn StoreObject :=
  (migrate (fun _ => none) "" {}).2.schema

variable {epochMs : String → Option Int} {created clock : String} {db : StateDb}

theorem schema_migrate_empty : (migrate epochMs created {}).2.schema = installed := by
  cbv

/-- The statement of a step is done. -/
def stepDone (schema : Schema StoreTable StoreColumn StoreObject) : MigrationStep → Bool
  | .execute statement | .attempt statement => statement.done schema
  | .tryAddColumn table column => (Statement.addColumn table column).done schema

/-- A refused column is an error of a plain step only. -/
def plain : MigrationStep → Bool
  | .execute (.addColumn ..) => false
  | _ => true

theorem runStep_done {step : MigrationStep} (settled : stepDone db.schema step = true) (plainly : plain step = true) :
    runStep step clock db = (.ok (), db) := by
  cases step with
  | execute statement =>
    rw [runStep, execute_done clock settled]
    cases statement with
    | addColumn => cases plainly
    | createTable | createIndex => rfl
  | attempt statement => rw [runStep, Command.attempt, execute_done clock settled]
  | tryAddColumn table column =>
    have refused : (Statement.addColumn table column).execute clock db = (.error (.duplicateColumn column.name), db) :=
      execute_done clock settled
    rw [runStep, tryAddColumn, refused]
    rfl

theorem forEach_done {steps : List MigrationStep}
    (settled : steps.all (fun step => stepDone db.schema step && plain step) = true) :
    Command.forEach steps runStep clock db = (.ok (), db) := by
  induction steps with
  | nil => rfl
  | cons step rest ih =>
    rw [List.all_cons, Bool.and_eq_true, Bool.and_eq_true] at settled
    exact (bind_ok (runStep_done settled.1.1 settled.1.2)).trans (ih settled.2)

/-- Every step is done in the schema it leads to. -/
theorem settled_steps : (tables ++ sessions ++ web).all (fun step => stepDone installed step && plain step) = true := by
  decide +kernel

theorem forEach_installed (schema : db.schema = installed) {steps : List MigrationStep}
    (among : ∀ step ∈ steps, step ∈ tables ++ sessions ++ web) :
    Command.forEach steps runStep clock db = (.ok (), db) := by
  apply forEach_done
  rw [schema, List.all_eq_true]
  exact fun step member => List.all_eq_true.mp settled_steps step (among step member)

/-- The marker of the search index is there. -/
def Marked (db : StateDb) : Prop :=
  ∃ row ∈ db.rows .schemaMigrations, row .name = ftsMarker

/-- The table of a database whose migration is done. -/
theorem table_installed (schema : db.schema = installed) {table : StoreTable} {found : TableDef StoreTable StoreColumn}
    (defined : installed.table table = some found) : db.schema.table table = some found := by
  rw [schema, defined]

def markers : TableDef StoreTable StoreColumn :=
  { columns := [nullable .name, { name := .appliedAt, notNull := true, default := .currentTimestamp }]
    keys := [[.name]] }

theorem table_markers : installed.table .schemaMigrations = some markers := by
  decide +kernel

theorem migrateDecisionLogFts_marked (schema : db.schema = installed) (marked : Marked db) :
    migrateDecisionLogFts clock db = (.ok (), db) := by
  obtain ⟨row, member, named⟩ := marked
  have defined := table_installed schema table_markers
  have created : (Statement.createTable .schemaMigrations markers : Statement _ _ StoreObject).execute clock db =
      (.ok (), db) :=
    execute_done clock (Option.isSome_iff_exists.mpr ⟨markers, defined⟩)
  have taken : (db.rows .schemaMigrations).any
      (TableDef.agrees [.name] (markers.rowOf clock (db.rows .schemaMigrations) [(.name, ftsMarker)])) = true := by
    rw [List.any_eq_true]
    refine ⟨row, member, ?_⟩
    rw [TableDef.agrees, List.all_cons, named]
    rfl
  refine (bind_ok created).trans ?_
  have inserted := insert_taken clock defined rfl taken
  rw [Command.transaction, bind_ok inserted]
  rfl

/-- A second migration is its backfill. -/
theorem migrate_installed (schema : db.schema = installed)
    (after : (backfill epochMs clock db).2.schema = installed) (still : Marked (backfill epochMs clock db).2) :
    migrate epochMs clock db = (.ok (), (backfill epochMs clock db).2) := by
  have first : Command.forEach tables runStep clock db = (.ok (), db) :=
    forEach_installed schema fun step member => List.mem_append_left _ (List.mem_append_left _ member)
  have second : Command.attempt (backfill epochMs) clock db = (.ok (), (backfill epochMs clock db).2) := rfl
  have third : Command.forEach sessions runStep clock (backfill epochMs clock db).2 = (.ok (), _) :=
    forEach_installed after fun step member => List.mem_append_left _ (List.mem_append_right _ member)
  have last : Command.forEach web runStep clock (backfill epochMs clock db).2 = (.ok (), _) :=
    forEach_installed after fun step member => List.mem_append_right _ member
  rw [migrate, bind_ok first, bind_ok second, bind_ok third, bind_ok (migrateDecisionLogFts_marked after still), last]

/-! ### The backfill -/

/-- A database between two operations: its migration is done, and its constraints are met. -/
structure Live (db : StateDb) : Prop where
  schema : db.schema = installed
  sound : db.Sound
  marked : Marked db

/-- The markers stay as they are. -/
def marking : Evolution StoreTable StoreColumn where
  allows table before after := table = .schemaMigrations → after = before
  refl _ _ _ := rfl
  trans first later named := (later named).trans (first named)

theorem Live.evolved {evolution : Evolution StoreTable StoreColumn} {after : StateDb} (live : Live db)
    (evolved : Evolved installed evolution db after)
    (marks : ∀ before after, evolution.allows .schemaMigrations before after → after = before) : Live after := by
  obtain ⟨row, member, named⟩ := live.marked
  refine ⟨evolved.schema, evolved.sound, row, ?_, named⟩
  rw [marks _ _ (evolved.rows .schemaMigrations)]
  exact member

theorem backfill_evolves {evolution : Evolution StoreTable StoreColumn}
    (edits : ∀ before after, evolution.allows .terminalSessions before after) :
    Evolves installed evolution (backfill epochMs) :=
  .update fun _ => edits _ _

theorem Live.backfill (live : Live db) : Live (backfill epochMs clock db).2 := by
  have evolved : Evolved installed marking db (Migration.backfill epochMs clock db).2 :=
    backfill_evolves (fun _ _ other => nomatch other) clock db live.schema live.sound
  exact live.evolved evolved fun _ _ kept => kept rfl

/-- A row as the backfill leaves it. -/
def ordered (epochMs : String → Option Int) (row : Row StoreColumn) : Row StoreColumn :=
  if row .sortOrder = .integer 0 then Function.update row .sortOrder (backfillValue epochMs row) else row

theorem ordered_of_ne (row : Row StoreColumn) {column : StoreColumn} (other : column ≠ .sortOrder) :
    ordered epochMs row column = row column := by
  rw [ordered]
  split
  · exact Function.update_of_ne other ..
  · rfl

theorem ordered_eq_self (row : Row StoreColumn) :
    ordered epochMs row = row ↔ (row .sortOrder = .integer 0 → backfillValue epochMs row = .integer 0) := by
  rw [ordered]
  split
  · next zero =>
    rw [Function.update_eq_self_iff, zero]
    exact ⟨fun same _ => same, fun same => same rfl⟩
  · next other => exact ⟨fun _ zero => absurd zero other, fun _ => rfl⟩

/-- The column of the order may not be null. -/
theorem sessions_table : ∃ definition, installed.table .terminalSessions = some definition ∧
    definition.has .sortOrder = true ∧ ∃ column ∈ definition.columns, column.name = .sortOrder ∧ column.notNull = true := by
  have defined : (installed.table .terminalSessions).any (fun definition =>
      definition.has .sortOrder && definition.columns.any fun column => column.name = .sortOrder && column.notNull) = true := by
    decide +kernel
  obtain ⟨definition, found, held⟩ := (Option.any_eq_true ..).mp defined
  rw [Bool.and_eq_true, List.any_eq_true] at held
  obtain ⟨column, member, both⟩ := held.2
  rw [Bool.and_eq_true, decide_eq_true_eq] at both
  exact ⟨definition, found, held.1, column, member, both⟩

theorem backfill_eq (live : Live db) {definition : TableDef StoreTable StoreColumn}
    (defined : installed.table .terminalSessions = some definition) (held : definition.has .sortOrder = true) :
    Migration.backfill epochMs clock db =
      db.put .terminalSessions definition ((db.rows .terminalSessions).map (ordered epochMs))
        ((db.rows .terminalSessions).countP fun row => row .sortOrder = .integer 0) := by
  have named : [(StoreColumn.sortOrder, backfillValue epochMs)].all (fun entry => definition.has entry.1) = true := by
    rw [List.all_cons, held]
    rfl
  have rows : ((db.rows .terminalSessions).map fun row =>
      if decide (row .sortOrder = .integer 0) then Command.assigned [(.sortOrder, backfillValue epochMs)] row else row) =
      (db.rows .terminalSessions).map (ordered epochMs) := by
    refine List.map_congr_left fun row _ => ?_
    simp only [assigned_one, ordered, decide_eq_true_eq]
  have here := table_installed live.schema defined
  rw [Migration.backfill, update_eq clock here named, rows]

/-- A single row without a date makes SQLite refuse the whole update. -/
theorem backfill_refused (live : Live db) {row : Row StoreColumn} (member : row ∈ db.rows .terminalSessions)
    (zero : row .sortOrder = .integer 0) (undated : backfillValue epochMs row = .null) :
    (Migration.backfill epochMs clock db).2 = db := by
  obtain ⟨definition, defined, held, column, listed, named, filled⟩ := sessions_table
  rw [backfill_eq live defined held]
  rcases put_cases db .terminalSessions definition ((db.rows .terminalSessions).map (ordered epochMs))
    ((db.rows .terminalSessions).countP fun row => row .sortOrder = .integer 0) with refused | ⟨_, clean, _⟩
  · exact refused
  · have violates := clean (ordered epochMs row) (List.mem_map_of_mem member)
    have empty : ordered epochMs row .sortOrder = .null := by
      rw [ordered, if_pos zero, Function.update_self, undated]
    have found : definition.columns.any (fun column => column.notNull && ordered epochMs row column.name = .null) = true :=
      List.any_eq_true.mpr ⟨column, listed, by rw [filled, named, empty]; rfl⟩
    rw [TableDef.violation, if_pos found] at violates
    cases violates

theorem backfill_stored (live : Live db)
    (dated : ∀ row ∈ db.rows .terminalSessions, row .sortOrder = .integer 0 → backfillValue epochMs row ≠ .null) :
    (Migration.backfill epochMs clock db).2 =
      db.store .terminalSessions ((db.rows .terminalSessions).map (ordered epochMs)) := by
  obtain ⟨definition, defined, held, _⟩ := sessions_table
  have here := table_installed live.schema defined
  have confined : ∀ (row : Row StoreColumn) column, ¬ db.schema.Unbound .terminalSessions column →
      ordered epochMs row column = row column := by
    intro row column bound
    refine ordered_of_ne row fun same => bound ?_
    rw [same, live.schema]
    decide +kernel
  rw [backfill_eq live defined held, put_change confined live.sound here]
  intro row member column listed filled
  have clean := (live.sound.rows _ _ here).1 row member
  by_cases order : column.name = .sortOrder ∧ row .sortOrder = .integer 0
  · rw [order.1, ordered, if_pos order.2, Function.update_self]
    exact dated row member order.2
  · have same : ordered epochMs row column.name = row column.name := by
      by_cases other : column.name = .sortOrder
      · rw [ordered, if_neg fun zero => order ⟨other, zero⟩]
      · exact ordered_of_ne row other
    rw [same]
    intro null
    have found : definition.columns.any (fun column => column.notNull && row column.name = .null) = true :=
      List.any_eq_true.mpr ⟨column, listed, by rw [filled, null]; rfl⟩
    rw [TableDef.violation, if_pos found] at clean
    cases clean

/-- No session with the order 0 is reordered: one of them has no date, or each computes to 0. -/
def Resting (epochMs : String → Option Int) (db : StateDb) : Prop :=
  (∃ row ∈ db.rows .terminalSessions, row .sortOrder = .integer 0 ∧ backfillValue epochMs row = .null) ∨
    ∀ row ∈ db.rows .terminalSessions, row .sortOrder = .integer 0 → backfillValue epochMs row = .integer 0

theorem rows_migrate_iff (live : Live db) : (migrate epochMs clock db).2.rows = db.rows ↔ Resting epochMs db := by
  have filled : Live (Migration.backfill epochMs clock db).2 := live.backfill
  rw [migrate_installed live.schema filled.schema filled.marked]
  by_cases undated : ∃ row ∈ db.rows .terminalSessions, row .sortOrder = .integer 0 ∧ backfillValue epochMs row = .null
  · obtain ⟨row, member, zero, null⟩ := undated
    rw [backfill_refused live member zero null]
    exact ⟨fun _ => .inl ⟨row, member, zero, null⟩, fun _ => rfl⟩
  · have dated : ∀ row ∈ db.rows .terminalSessions, row .sortOrder = .integer 0 → backfillValue epochMs row ≠ .null :=
      fun row member zero null => undated ⟨row, member, zero, null⟩
    rw [backfill_stored live dated, Resting, or_iff_right undated]
    constructor
    · intro same row member
      have kept := congrFun same .terminalSessions
      rw [rows_store_self] at kept
      exact (ordered_eq_self row).mp (List.map_inj_left.mp (kept.trans (List.map_id _).symm) row member)
    · intro resting
      have kept : (db.rows .terminalSessions).map (ordered epochMs) = db.rows .terminalSessions :=
        (List.map_congr_left fun row member => (ordered_eq_self row).mpr (resting row member)).trans (List.map_id _)
      rw [kept]
      exact Function.update_eq_self ..

end Migration
end Wisphive
