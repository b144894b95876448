import Wisphive.DaemonRuns
import Wisphive.Proofs.AuditLog
import Wisphive.Proofs.Footprints

/-! What a statement leaves of the two tables: rows of the log are never taken back,
and an ordinary pending row is removed by nothing but its own deletion. -/

namespace Wisphive
open Foundation

/-- A change that keeps what the log says about a request. -/
def LogRow.Tells (before after : List LogRow) : Prop :=
  ∀ logged ∈ before, ∃ later ∈ after, ∀ row, logged.tells row = true → later.tells row = true

namespace LogRow.Tells
variable {rows middle later : List LogRow}

theorem refl (rows : List LogRow) : Tells rows rows :=
  fun logged member => ⟨logged, member, fun _ told => told⟩

theorem trans (first : Tells rows middle) (second : Tells middle later) : Tells rows later := by
  intro logged member
  obtain ⟨between, present, told⟩ := first logged member
  obtain ⟨last, found, kept⟩ := second between present
  exact ⟨last, found, fun row said => kept row (told row said)⟩

theorem update (selected : LogRow → Bool) (change : LogRow → LogRow)
    (same : ∀ logged, (change logged).id = logged.id ∧ (change logged).toolName = logged.toolName ∧
      (change logged).toolInput = logged.toolInput ∧ (change logged).agentId = logged.agentId) :
    Tells rows (Table.update rows selected change).2 := by
  intro logged member
  refine ⟨_, List.mem_map.mpr ⟨logged, member, rfl⟩, fun row told => ?_⟩
  split
  · obtain ⟨id, toolName, toolInput, agentId⟩ := same logged
    simpa only [LogRow.tells, id, toolName, toolInput, agentId] using told
  · exact told

theorem insert (row : LogRow) : Tells rows (Table.insertOrIgnore LogRow.conflicts rows row).2 :=
  fun logged member => ⟨logged, Table.mem_insertOrIgnore member, fun _ told => told⟩

end LogRow.Tells

namespace Database
variable {db after : Database} {now : DateTime}

theorem tells_iff {row : PendingRow} : db.tells row = true ↔ ∃ logged ∈ db.log, logged.tells row = true :=
  List.any_eq_true

theorem tells_kept (grown : LogRow.Tells db.log after.log) {row : PendingRow} (told : db.tells row = true) :
    after.tells row = true := by
  obtain ⟨logged, member, said⟩ := tells_iff.mp told
  obtain ⟨later, present, kept⟩ := grown logged member
  exact tells_iff.mpr ⟨later, present, kept row said⟩

theorem resolved_tells (row : PendingRow) (decision : Decision) (decidedBy : String) (now : DateTime) :
    (row.resolved decision decidedBy now).tells row = true := by
  simp [LogRow.tells, PendingRow.resolved]

theorem insertLog_log (row : LogRow) : (db.insertLog row).2.log = (Table.insertOrIgnore LogRow.conflicts db.log row).2 :=
  rfl

theorem denyManaged_log (id : Uuid) (decidedBy : String) : LogRow.Tells db.log (db.denyManaged id decidedBy now).2.log :=
  .update _ _ fun _ => ⟨rfl, rfl, rfl, rfl⟩

end Database

open Database

/-- What a statement leaves of the tables. -/
structure Database.Keeps (statement : Statement) (before after : Database) : Prop where
  log : LogRow.Tells before.log after.log
  pending : ∀ row ∈ before.pending, row.managed = false → statement ≠ .deletePending row.id → row ∈ after.pending
  distinct : (after.pending.map (·.id)).Nodup

namespace Database
variable {db after : Database} {now : DateTime}

theorem persistPending_keeps (distinct : (db.pending.map (·.id)).Nodup) (req : DecisionRequest) :
    Keeps (.persistPending req) db (db.persistPending req) where
  log := .refl _
  pending _ member _ _ := Table.mem_insertOrIgnore member
  distinct := AuditRun.persist_distinct distinct req

theorem deletePending_keeps (distinct : (db.pending.map (·.id)).Nodup) (id : Uuid) :
    Keeps (.deletePending id) db (db.deletePending id) where
  log := .refl _
  pending row member _ other := by
    refine List.mem_filter.mpr ⟨member, ?_⟩
    have differ : row.id ≠ id := fun same => other (congrArg Statement.deletePending same.symm)
    simpa using differ
  distinct := distinct.sublist (List.filter_sublist.map _)

theorem deleteManagedSpawnPending_pending (id : Uuid) {row : PendingRow} (member : row ∈ db.pending)
    (ordinary : row.managed = false) : row ∈ (db.deleteManagedSpawnPending id).2.pending :=
  List.mem_filter.mpr ⟨member, by simp [ordinary]⟩

/-- A review changes no ids. -/
theorem review_ids (selected : PendingRow → Bool) (change : PendingRow → PendingRow)
    (same : ∀ row, (change row).id = row.id) (rows : List PendingRow) :
    (Table.update rows selected change).2.map (·.id) = rows.map (·.id) := by
  rw [Table.update, List.map_map]
  apply List.map_congr_left
  intro row _
  simp only [Function.comp_apply]
  split
  · exact same row
  · rfl

/-- The row that an approval stores before it moves it. -/
def reviewedRow (reviewed : SpawnAgentRequest) (row : PendingRow) : PendingRow :=
  { row with
    agentType := reviewed.agentType.column
    project := reviewed.project.text
    toolInput := (Redact.redactValue reviewed.toValue).render }

/-- An approval finds a managed row, which it reviews, moves and deletes, or changes
nothing. -/
theorem resolveSpawnPendingBy_cases (id : Uuid) (reviewed : SpawnAgentRequest) (decidedBy : String) :
    db.resolveSpawnPendingBy id reviewed decidedBy now = (false, db) ∨
    ∃ row ∈ db.pending, row.id = id ∧ row.managed = true ∧
      db.resolveSpawnPendingBy id reviewed decidedBy now =
        ((db.insertLog ((reviewedRow reviewed row).resolved .approve decidedBy now)).1,
          { pending := ((Table.update db.pending (fun row => row.id = id && row.managed) (reviewedRow reviewed)).2).filter
              fun row => !(row.id = id)
            log := (db.insertLog ((reviewedRow reviewed row).resolved .approve decidedBy now)).2.log }) := by
  unfold Database.resolveSpawnPendingBy
  dsimp only
  split
  · exact .inl rfl
  · split
    next => exact .inl rfl
    next row found =>
      obtain ⟨chosen, _, _⟩ := List.find?_eq_some_iff_append.mp found
      obtain ⟨before, present, same⟩ := List.mem_map.mp (List.mem_of_find?_eq_some found)
      split at same
      next selected =>
        obtain ⟨equal, owned⟩ := Bool.and_eq_true_iff.mp selected
        subst same
        exact .inr ⟨before, present, of_decide_eq_true equal, owned, rfl⟩
      next unselected =>
        subst same
        exact absurd chosen unselected

/-- The reviewed row is a managed one, so no ordinary row has its id. -/
theorem resolveSpawnPendingBy_keeps (distinct : (db.pending.map (·.id)).Nodup) (id : Uuid)
    (reviewed : SpawnAgentRequest) (decidedBy : String) :
    Keeps (.resolveSpawnPendingBy id reviewed decidedBy) db (db.resolveSpawnPendingBy id reviewed decidedBy now).2 := by
  obtain same | ⟨row, present, equal, owned, same⟩ := resolveSpawnPendingBy_cases id reviewed decidedBy
  · rw [same]
    exact ⟨.refl _, fun _ member _ _ => member, distinct⟩
  · rw [same]
    refine ⟨.insert _, fun other member ordinary _ => ?_, ?_⟩
    · refine List.mem_filter.mpr ⟨List.mem_map.mpr ⟨other, member, ?_⟩, ?_⟩
      · simp [ordinary]
      · have differ : other.id ≠ id := by
          intro meet
          have both : other = row := List.inj_on_of_nodup_map distinct member present (meet.trans equal.symm)
          rw [both, owned] at ordinary
          cases ordinary
        simpa using differ
    · rw [← review_ids (fun row => row.id = id && row.managed) (reviewedRow reviewed) (fun _ => rfl) db.pending] at distinct
      exact distinct.sublist (List.filter_sublist.map _)

/-- A denial that is forced, step by step: the log is overwritten, a managed pending row
is moved, the request in memory is inserted, the log is overwritten again, and the
managed row is deleted. -/
theorem forceFailclosed_cases {id : Uuid} {decidedBy : String} {fallback : DecisionRequest} {changed : Bool}
    (executed : db.forceFailclosedSpawnResolution id decidedBy fallback now = some (changed, after)) :
    (fallback.id = id ∧ fallback.agentId = spawnDecisionAgentId ∧ fallback.toolName = spawnDecisionTool) ∧
    ∃ moved : Database, moved.pending = db.pending ∧
      (moved = (db.denyManaged id decidedBy now).2 ∨
        ∃ row ∈ db.pending, row.id = id ∧ row.managed = true ∧
          moved = ((db.denyManaged id decidedBy now).2.insertLog (row.resolved .deny decidedBy now)).2) ∧
      after = (((moved.insertLog (fallbackRow fallback decidedBy now)).2.denyManaged id decidedBy
        now).2.deleteManagedSpawnPending id).2 := by
  unfold forceFailclosedSpawnResolution at executed
  split at executed
  next => cases executed
  next owned =>
    simp only [not_or, ne_eq, not_not] at owned
    cases executed
    refine ⟨owned, _, ?_, ?_, rfl⟩
    · split <;> rfl
    · split
      next row found =>
        have chosen := List.find?_some found
        obtain ⟨equal, managed⟩ := Bool.and_eq_true_iff.mp chosen
        exact .inr ⟨row, List.mem_of_find?_eq_some found, of_decide_eq_true equal, managed, rfl⟩
      next => exact .inl rfl

theorem forceFailclosed_keeps (distinct : (db.pending.map (·.id)).Nodup) {id : Uuid} {decidedBy : String}
    {fallback : DecisionRequest} {changed : Bool}
    (executed : db.forceFailclosedSpawnResolution id decidedBy fallback now = some (changed, after)) :
    Keeps (.forceFailclosedSpawnResolution id decidedBy fallback) db after := by
  obtain ⟨_, moved, pending, found, rfl⟩ := forceFailclosed_cases executed
  have overwritten : LogRow.Tells db.log (db.denyManaged id decidedBy now).2.log := denyManaged_log id decidedBy
  have first : LogRow.Tells db.log moved.log := by
    obtain rfl | ⟨row, _, _, _, rfl⟩ := found
    · exact overwritten
    · exact overwritten.trans (.insert _)
  have inserted : LogRow.Tells db.log (moved.insertLog (fallbackRow fallback decidedBy now)).2.log :=
    first.trans (.insert _)
  refine ⟨inserted.trans (denyManaged_log id decidedBy), fun row member ordinary _ => ?_, ?_⟩
  · apply deleteManagedSpawnPending_pending id _ ordinary
    change row ∈ moved.pending
    rw [pending]
    exact member
  · rw [← pending] at distinct
    exact distinct.sublist (List.filter_sublist.map _)

end Database

theorem Statement.execute_keeps {statement : Statement} {db after : Database} {now : DateTime}
    {reply : statement.Reply} (distinct : (db.pending.map (·.id)).Nodup)
    (executed : statement.execute now db = some (reply, after)) : Database.Keeps statement db after := by
  cases statement with
  | persistPending req =>
    cases executed
    exact persistPending_keeps distinct req
  | selectPending | pendingIsManagedSpawn =>
    cases executed
    exact ⟨.refl _, fun _ member _ _ => member, distinct⟩
  | insertResolved row decision decidedBy =>
    cases executed
    exact ⟨.insert _, fun _ member _ _ => member, distinct⟩
  | deletePending id =>
    cases executed
    exact deletePending_keeps distinct id
  | deleteManagedSpawnPending id =>
    cases executed
    exact ⟨.refl _, fun _ member ordinary _ => deleteManagedSpawnPending_pending id member ordinary,
      distinct.sublist (List.filter_sublist.map _)⟩
  | resolveSpawnPendingBy id reviewed decidedBy =>
    obtain rfl : (db.resolveSpawnPendingBy id reviewed decidedBy now).2 = after :=
      congrArg Prod.snd (Option.some.inj executed)
    exact resolveSpawnPendingBy_keeps distinct id reviewed decidedBy
  | forceFailclosedSpawnResolution id decidedBy fallback => exact forceFailclosed_keeps distinct executed
  | recordSpawnActionFailure id error =>
    cases executed
    exact ⟨.update _ _ fun _ => ⟨rfl, rfl, rfl, rfl⟩, fun _ member _ _ => member, distinct⟩

namespace Shared
variable {choice : Choice} {request : Request} {shared after : Shared} {reply : request.Reply}

/-- A step changes the tables by the statement that it runs, if at all. -/
theorem perform_db (performed : shared.perform choice request = some (reply, after)) :
    after.db = shared.db ∨ ∃ statement value, statement.execute shared.wall shared.db = some (value, after.db) ∧
      ((∀ task, (Entry.performed task request shared reply : Entry daemon) =
        .performed task (.execute statement) shared (.ok value)) ∨ request = .executeTimed statement) := by
  cases request with
  | execute statement =>
    rcases executes_cases performed with ⟨value, db, executed, rfl, rfl⟩ | ⟨_, _, rfl⟩
    · exact .inr ⟨statement, value, executed, .inl fun _ => rfl⟩
    · exact .inl rfl
  | executeTimed statement =>
    simp only [perform] at performed
    split at performed
    next =>
      cases performed
      exact .inl rfl
    next =>
      rcases executes_cases performed with ⟨value, db, executed, _, rfl⟩ | ⟨_, _, rfl⟩
      · exact .inr ⟨statement, value, executed, .inr rfl⟩
      · exact .inl rfl
  | receive channel =>
    obtain ⟨waited, received, same⟩ := Option.map_eq_some_iff.mp performed
    cases same
    exact .inl rfl
  | wait channel =>
    simp only [perform] at performed
    split at performed
    · obtain ⟨waited, received, same⟩ := Option.map_eq_some_iff.mp performed
      cases same
      exact .inl rfl
    all_goals
      cases performed
      try exact .inl rfl
  | write | modeDenial | newV4 | validateProject | spawnAgent | startExpiry | awaitExpiry =>
    simp only [perform] at performed
    split at performed
    all_goals
      cases performed
      try exact .inl rfl
  | _ =>
    cases performed
    exact .inl rfl

/-- A statement is on its way once it was given up. -/
theorem perform_inFlight (performed : shared.perform choice request = some (reply, after)) :
    after.inFlight = shared.inFlight ∨
      ∃ statement, request = .executeTimed statement ∧ after.inFlight = shared.inFlight ++ [statement] := by
  cases request with
  | execute statement =>
    obtain ⟨db, rfl⟩ := executes_frame performed
    exact .inl rfl
  | executeTimed statement =>
    simp only [perform] at performed
    split at performed
    next =>
      cases performed
      exact .inr ⟨statement, rfl, rfl⟩
    next =>
      obtain ⟨db, rfl⟩ := executes_frame performed
      exact .inl rfl
  | receive channel =>
    obtain ⟨waited, received, same⟩ := Option.map_eq_some_iff.mp performed
    cases same
    exact .inl rfl
  | wait channel =>
    simp only [perform] at performed
    split at performed
    · obtain ⟨waited, received, same⟩ := Option.map_eq_some_iff.mp performed
      cases same
      exact .inl rfl
    all_goals
      cases performed
      try exact .inl rfl
  | write | modeDenial | newV4 | validateProject | spawnAgent | startExpiry | awaitExpiry =>
    simp only [perform] at performed
    split at performed
    all_goals
      cases performed
      try exact .inl rfl
  | _ =>
    cases performed
    exact .inl rfl

/-- Without the handlers, the tables change by a statement that was on its way. -/
theorem drift_db {drift : Drift} (drifted : shared.drift drift = some after) :
    (after.db = shared.db ∨ ∃ statement ∈ shared.inFlight, ∃ value,
      statement.execute shared.wall shared.db = some (value, after.db)) ∧
    ∀ statement ∈ after.inFlight, statement ∈ shared.inFlight := by
  cases drift with
  | tick elapsed wall =>
    cases drifted
    exact ⟨.inl rfl, fun _ member => member⟩
  | settle position commits =>
    obtain ⟨statement, found, same⟩ := Option.map_eq_some_iff.mp drifted
    have member : statement ∈ shared.inFlight := List.mem_of_getElem? found
    have fewer : ∀ other ∈ shared.inFlight.eraseIdx position, other ∈ shared.inFlight :=
      fun _ => List.mem_of_mem_eraseIdx
    cases commits with
    | false =>
      cases same
      exact ⟨.inl rfl, fewer⟩
    | true =>
      cases executed : statement.execute shared.wall shared.db with
      | none =>
        simp only [executed, if_true] at same
        cases same
        exact ⟨.inl rfl, fewer⟩
      | some result =>
        simp only [executed, if_true] at same
        cases same
        exact ⟨.inr ⟨statement, member, result.1, executed⟩, fewer⟩

end Shared
end Wisphive
