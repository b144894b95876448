import Mathlib.Data.List.Nodup
import Mathlib.Data.List.Perm.Subperm
import Wisphive.EventIngest

/-! The log is what was owed, in order, as long as no insert meets a conflict. After
an insert that was ignored it is short by a row for good. -/

namespace Wisphive
open Foundation

variable {platform : IngestPlatform}

namespace PendingRow
variable {rows : List PendingRow}

theorem find_of_mem (distinct : (rows.map (·.id)).Nodup) {row : PendingRow} (member : row ∈ rows) :
    rows.find? (·.id = row.id) = some row := by
  induction rows with
  | nil => cases member
  | cons first rest ih =>
    obtain ⟨absent, distinct⟩ := List.nodup_cons.mp distinct
    rcases List.mem_cons.mp member with rfl | later
    · exact List.find?_cons_of_pos (by simp)
    · have differ : first.id ≠ row.id := fun same => absent (List.mem_map.mpr ⟨row, later, same.symm⟩)
      rw [List.find?_cons_of_neg (by simpa using differ)]
      exact ih distinct later

theorem find_filter {id other : Uuid} (differ : other ≠ id) :
    (rows.filter fun row => !(row.id = id)).find? (·.id = other) = rows.find? (·.id = other) := by
  induction rows with
  | nil => rfl
  | cons first rest ih =>
    by_cases same : first.id = id
    · have passed : first.id ≠ other := fun equal => differ (equal.symm.trans same)
      rw [List.filter_cons_of_neg (by simpa using same), List.find?_cons_of_neg (by simpa using passed), ih]
    · rw [List.filter_cons_of_pos (by simpa using same), List.find?_cons, List.find?_cons, ih]

end PendingRow

namespace Database
open PendingRow
variable {db : Database}

theorem resolvePendingBy_log (id : Uuid) (decision : Decision) (decidedBy : String) (now : DateTime) :
    (db.resolvePendingBy id decision decidedBy now).log = Table.insertAll LogRow.conflicts db.log
      ((db.selectPending id).map (·.resolved decision decidedBy now)).toList := by
  unfold resolvePendingBy
  cases db.selectPending id <;> rfl

theorem resolvePendingBy_pending (id : Uuid) (decision : Decision) (decidedBy : String) (now : DateTime) :
    (db.resolvePendingBy id decision decidedBy now).pending = db.pending.filter fun row => !(row.id = id) := by
  unfold resolvePendingBy
  cases db.selectPending id <;> rfl

/-- The drain finds each of the rows that it set out with. -/
theorem drainRows_log (now : DateTime) (rows : List PendingRow) (distinct : (rows.map (·.id)).Nodup)
    (present : ∀ row ∈ rows, db.selectPending row.id = some row) :
    (db.drainRows now rows).log = Table.insertAll LogRow.conflicts db.log
      (rows.map fun row => row.resolved (drainOutcome row).1 (drainOutcome row).2 now) := by
  induction rows generalizing db with
  | nil => rfl
  | cons row rest ih =>
    obtain ⟨absent, distinct⟩ := List.nodup_cons.mp distinct
    have remaining : ∀ other ∈ rest, (db.resolvePendingBy row.id (drainOutcome row).1 (drainOutcome row).2
        now).selectPending other.id = some other := by
      intro other member
      have differ : other.id ≠ row.id := fun same => absent (List.mem_map.mpr ⟨other, member, same⟩)
      rw [selectPending, resolvePendingBy_pending, find_filter differ]
      exact present other (List.mem_cons_of_mem _ member)
    rw [drainRows, ih distinct remaining, resolvePendingBy_log, present row (List.mem_cons_self ..)]
    rfl

theorem drainRows_pending (now : DateTime) (rows : List PendingRow) :
    (db.drainRows now rows).pending.Sublist db.pending := by
  induction rows generalizing db with
  | nil => exact List.Sublist.refl _
  | cons row rest ih =>
    rw [drainRows]
    apply ih.trans
    rw [resolvePendingBy_pending]
    exact List.filter_sublist

end Database

namespace AuditRun
variable {run : AuditRun}

/-- Pending rows have distinct ids, a line that was read once is refused from then
on, and the log never outgrows what is owed. -/
structure Valid (platform : IngestPlatform) (run : AuditRun) : Prop where
  distinct : (run.db.pending.map (·.id)).Nodup
  read : ∀ line ∈ run.lines, ∀ row, lineRow platform line = some row →
    ¬ Table.Clear LogRow.conflicts run.db.log row
  bounded : run.db.log.length ≤ run.owed.length

theorem ingest_log (line : String) (now : DateTime) :
    (perform platform run.db (.ingestLine line now)).log =
      Table.insertAll LogRow.conflicts run.db.log (lineRow platform line).toList := by
  cases parsed : platform.fromStr line with
  | none => simp only [perform, EventIngest.ingestLine, lineRow, parsed, Option.map_none, Option.getD_none,
      Option.bind_none, Option.toList_none, Table.insertAll]
  | some event =>
    simp only [perform, EventIngest.ingestLine, lineRow, parsed, Option.map_some, Option.getD_some,
      Option.bind_some]
    cases EventIngest.decisionEntry event with
    | none => rfl
    | some decided => rfl

/-- The log after an operation: the owed rows are inserted one after the other. -/
theorem perform_log (valid : Valid platform run) (operation : AuditOperation) :
    (perform platform run.db operation).log =
      Table.insertAll LogRow.conflicts run.db.log (run.owes platform operation) := by
  cases operation with
  | persistPending req => rfl
  | resolvePendingBy id decision decidedBy now => exact Database.resolvePendingBy_log id decision decidedBy now
  | ingestLine line now =>
    rw [ingest_log]
    by_cases known : line ∈ run.lines
    · simp only [owes, known, if_true, Table.insertAll]
      cases entry : lineRow platform line with
      | none => rfl
      | some row =>
        simp only [Option.toList_some, Table.insertAll, Table.insertOrIgnore_conflict (valid.read line known row entry)]
    · simp only [owes, known, if_false]
  | drainOrphanedPending now =>
    exact Database.drainRows_log now run.db.pending valid.distinct
      fun row member => PendingRow.find_of_mem valid.distinct member

theorem persist_distinct {db : Database} (distinct : (db.pending.map (·.id)).Nodup) (req : DecisionRequest) :
    ((db.persistPending req).pending.map (·.id)).Nodup := by
  by_cases clear : Table.Clear PendingRow.conflicts db.pending (.ofRequest req)
  · simp only [Database.persistPending, Table.insertOrIgnore_clear clear, List.map_append, List.map_singleton]
    apply List.Nodup.append distinct (List.nodup_singleton _)
    apply List.disjoint_singleton.mpr
    intro member
    obtain ⟨other, present, same⟩ := List.mem_map.mp member
    have differ := clear other present
    simp [PendingRow.conflicts, same] at differ
  · simp only [Database.persistPending, Table.insertOrIgnore_conflict clear]
    exact distinct

theorem perform_distinct (valid : Valid platform run) (operation : AuditOperation) :
    ((perform platform run.db operation).pending.map (·.id)).Nodup := by
  cases operation with
  | persistPending req => exact persist_distinct valid.distinct req
  | resolvePendingBy id decision decidedBy now =>
    simp only [perform, Database.resolvePendingBy_pending]
    exact valid.distinct.sublist (List.filter_sublist.map _)
  | ingestLine line now =>
    have same : (perform platform run.db (.ingestLine line now)).pending = run.db.pending := by
      cases parsed : platform.fromStr line with
      | none => simp only [perform, EventIngest.ingestLine, parsed, Option.map_none, Option.getD_none]
      | some event =>
        simp only [perform, EventIngest.ingestLine, parsed, Option.map_some, Option.getD_some]
        cases EventIngest.decisionEntry event <;> rfl
    rw [same]
    exact valid.distinct
  | drainOrphanedPending now =>
    exact valid.distinct.sublist ((Database.drainRows_pending now run.db.pending).map _)

theorem Valid.start : Valid platform {} where
  distinct := List.nodup_nil
  read _ member := nomatch member
  bounded := Nat.le_refl _

theorem read_kept (valid : Valid platform run) (operation : AuditOperation) {line : String} {row : LogRow}
    (known : line ∈ run.lines) (entry : lineRow platform line = some row) :
    ¬ Table.Clear LogRow.conflicts (perform platform run.db operation).log row := by
  rw [perform_log valid operation]
  exact Table.not_clear_grows (valid.read line known row entry) fun _ member => Table.mem_insertAll member

theorem Valid.step (valid : Valid platform run) {operation : AuditOperation} {after : AuditRun}
    (taken : run.step platform operation = some after) : Valid platform after := by
  cases taken
  refine ⟨perform_distinct valid operation, fun line member row entry => ?_, ?_⟩
  · cases operation with
    | ingestLine latest now =>
      rcases List.mem_cons.mp member with rfl | known
      · simp only [ingest_log, entry, Option.toList_some, Table.insertAll]
        exact Table.not_clear_inserted (by simp [LogRow.conflicts])
      · exact read_kept valid _ known entry
    | persistPending | resolvePendingBy | drainOrphanedPending => exact read_kept valid _ member entry
  · simp only [perform_log valid operation, List.length_append]
    have bound : (Table.insertAll LogRow.conflicts run.db.log (run.owes platform operation)).length ≤
      run.db.log.length + (run.owes platform operation).length := Table.insertAll_length
    have := valid.bounded
    omega

/-- What is owed grows by what is inserted, unless an insert is ignored. -/
theorem step_exact (valid : Valid platform run) (full : run.db.log = run.owed) {operation : AuditOperation}
    (met : run.Meets platform operation) {after : AuditRun} (taken : run.step platform operation = some after) :
    after.db.log = after.owed := by
  cases taken
  change (perform platform run.db operation).log = run.owed ++ run.owes platform operation
  rw [perform_log valid operation, Table.insertAll_clear met, full]

theorem short_stays (valid : Valid platform run) (short : run.db.log.length < run.owed.length)
    {operation : AuditOperation} {after : AuditRun} (taken : run.step platform operation = some after) :
    after.db.log.length < after.owed.length := by
  cases taken
  simp only [perform_log valid operation, List.length_append]
  have bound : (Table.insertAll LogRow.conflicts run.db.log (run.owes platform operation)).length ≤
    run.db.log.length + (run.owes platform operation).length := Table.insertAll_length
  omega

theorem met_of_full (valid : Valid platform run) {operation : AuditOperation} {after : AuditRun}
    (taken : run.step platform operation = some after) (full : run.db.log = run.owed)
    (later : after.owed.length ≤ after.db.log.length) : run.Meets platform operation := by
  cases taken
  simp only [perform_log valid operation, List.length_append, ← full] at later
  exact Table.clearAll_of_length later

theorem guarded_exact {events : List AuditOperation} {after : AuditRun} (valid : Valid platform run)
    (full : run.db.log = run.owed) (taken : (machine platform).run (Meets platform) run events = some after) :
    after.db.log = after.owed := by
  have kept : Valid platform after ∧ after.db.log = after.owed :=
    Machine.run_preserves (fun run => Valid platform run ∧ run.db.log = run.owed)
      (fun _ _ _ exact met taken => ⟨exact.1.step taken, step_exact exact.1 exact.2 met taken⟩)
      ⟨valid, full⟩ taken
  exact kept.2

theorem run_short {events : List AuditOperation} {after : AuditRun} (valid : Valid platform run)
    (short : run.db.log.length < run.owed.length)
    (taken : (machine platform).run Machine.free run events = some after) :
    after.db.log.length < after.owed.length := by
  have kept : Valid platform after ∧ after.db.log.length < after.owed.length :=
    Machine.run_preserves (fun run => Valid platform run ∧ run.db.log.length < run.owed.length)
      (fun _ _ _ lost _ taken => ⟨lost.1.step taken, short_stays lost.1 lost.2 taken⟩)
      ⟨valid, short⟩ taken
  exact kept.2

/-- A run that ends without a loss met the guard at every operation. -/
theorem guarded_of_full {events : List AuditOperation} {after : AuditRun} (valid : Valid platform run)
    (full : run.db.log = run.owed) (taken : (machine platform).run Machine.free run events = some after)
    (kept : after.owed.length ≤ after.db.log.length) :
    (machine platform).run (Meets platform) run events = some after := by
  induction events generalizing run with
  | nil => exact taken
  | cons operation rest ih =>
    rw [Machine.run, if_pos (show Machine.free run operation from trivial)] at taken
    obtain ⟨next, first, later⟩ := Option.bind_eq_some_iff.mp taken
    have whole : next.owed.length ≤ next.db.log.length := by
      by_contra short
      have lost := run_short (valid.step first) (Nat.lt_of_not_le short) later
      omega
    have met : run.Meets platform operation := met_of_full valid first full whole
    rw [Machine.run, if_pos met]
    apply Option.bind_eq_some_iff.mpr
    exact ⟨next, first, ih (valid.step first) (step_exact valid full met first) later⟩

end AuditRun

/-- A run ends with a row for each decision exactly when no decision met a row with
its id or its tool use id. -/
theorem every_decision_audited_iff {events : List AuditOperation} {after : AuditRun}
    (taken : (AuditRun.machine platform).run Machine.free {} events = some after) :
    after.Audited ↔ (AuditRun.machine platform).run (AuditRun.Meets platform) {} events = some after := by
  constructor
  · intro audited
    exact AuditRun.guarded_of_full AuditRun.Valid.start rfl taken audited.length_le
  · intro guarded
    have exact : after.db.log = after.owed := AuditRun.guarded_exact AuditRun.Valid.start rfl guarded
    rw [AuditRun.Audited, exact]

/-- The event of a deferred call. -/
private def deferredEvent : Json :=
  .object [("event", .string "deferred"), ("tool_name", .string "Write"), ("tool_use_id", .string "t1")]

private def deferredLine : String := "\x7b\"event\":\"deferred\",\"tool_name\":\"Write\",\"tool_use_id\":\"t1\"\x7d"

/-- The permission prompt of the same call. -/
private def promptOf (toolUseId : String) : DecisionRequest where
  id := 7
  agentId := "cc-1"
  agentType := .claudeCode
  project := ⟨"/work"⟩
  toolName := "Write"
  toolInput := .object []
  timestamp := 0
  hookEventName := .permissionRequest
  toolUseId := some toolUseId

private def eventPlatform : IngestPlatform where
  fromStr line := if line = deferredLine then some deferredEvent else none
  finish bytes := bytes.length
  parseFromRfc3339 _ := none
  parseUuid _ := none

private def deferredThenDenied (toolUseId : String) : List AuditOperation :=
  [.ingestLine deferredLine 0, .persistPending (promptOf toolUseId),
    .resolvePendingBy 7 .deny "human:tui" 1]

/-- Another call's prompt is audited beside the event. -/
theorem every_decision_audited_iff_distinct :
    (((AuditRun.machine eventPlatform).run Machine.free {} (deferredThenDenied "t2")).get
      (by decide +kernel)).Audited :=
  (every_decision_audited_iff (Option.some_get _).symm).mpr (by decide +kernel)

/-- The log keeps the deferral, the human's Deny of the same call leaves no row, and
its pending row is gone. -/
theorem denied_prompt_unaudited :
    ∃ after, (AuditRun.machine eventPlatform).run Machine.free {} (deferredThenDenied "t1") = some after ∧
      after.db.log.map (·.decision) = [Decision.ask.column] ∧ after.db.pending = [] ∧ ¬ after.Audited := by
  refine ⟨((AuditRun.machine eventPlatform).run Machine.free {} (deferredThenDenied "t1")).get
    (by decide +kernel), (Option.some_get _).symm, by decide +kernel, by decide +kernel, fun audited => ?_⟩
  have bound := audited.length_le
  revert bound
  decide +kernel

end Wisphive
