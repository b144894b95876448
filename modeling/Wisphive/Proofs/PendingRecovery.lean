import Wisphive.PendingRecovery
import Wisphive.Proofs.AuditLog

/-! What a finished drain leaves, from any crash and through any number of drains that
were cut short. -/

namespace Wisphive
open Foundation

theorem LogRow.conflicts_symm (row other : LogRow) : row.conflicts other = other.conflicts row := by
  have same : (row.id = other.id ∨ row.toolUseId.isSome = true ∧ row.toolUseId = other.toolUseId) ↔
      (other.id = row.id ∨ other.toolUseId.isSome = true ∧ other.toolUseId = row.toolUseId) := by
    constructor
    · rintro (id | ⟨some, use⟩)
      · exact .inl id.symm
      · exact .inr ⟨use ▸ some, use.symm⟩
    · rintro (id | ⟨some, use⟩)
      · exact .inl id.symm
      · exact .inr ⟨use ▸ some, use.symm⟩
  simp only [LogRow.conflicts, same]

namespace PendingRecovery
variable {parse : String → Option Uuid}

/-- Both ids are there and equal. -/
def SameUse (first second : Option String) : Prop :=
  first.isSome = true ∧ first = second

/-- The log has no row under the id of a pending row. -/
def Unrecorded (tables : Tables parse) (row : PendingRow) : Prop :=
  ∀ logged ∈ tables.db.log, logged.id ≠ row.id

/-- The pending rows that are still to be recorded share their tool use ids neither with
the log nor with each other, and the log does not approve a pending managed spawn. -/
structure Recoverable (crashed : Tables parse) : Prop where
  separate : ∀ row ∈ crashed.db.pending, Unrecorded crashed row →
    ∀ logged ∈ crashed.db.log, ¬ SameUse row.toolUseId logged.toolUseId
  apart : ∀ row ∈ crashed.db.pending, Unrecorded crashed row →
    ∀ other ∈ crashed.db.pending, Unrecorded crashed other → row.id ≠ other.id →
      ¬ SameUse row.toolUseId other.toolUseId
  denied : ∀ row ∈ crashed.db.pending, row.managed = true → ∀ logged ∈ crashed.db.log, logged.id = row.id →
    logged.decision = Decision.deny.column

/-- The drain's own record of a pending row. -/
def drained (row : PendingRow) (now : DateTime) : LogRow :=
  row.resolved (Database.drainOutcome row).1 (Database.drainOutcome row).2 now

/-- The log has taken the row, or a row that its insert met. -/
def Settled (log : List LogRow) (row : PendingRow) : Prop :=
  ∃ logged ∈ log, logged.id = row.id ∨ SameUse row.toolUseId logged.toolUseId

/-- The keys of both tables. -/
structure Keyed (tables : Tables parse) : Prop where
  distinct : (tables.db.pending.map (·.id)).Nodup
  unique : Table.Distinct LogRow.conflicts tables.db.log

/-- Between the crash and the next live daemon the log only grows by the drain's records,
and a row leaves the pending table after it was settled. -/
structure Draining (crashed tables : Tables parse) : Prop where
  found : (crashed.db.pending.map (·.id)).Nodup
  kept : ∀ logged ∈ crashed.db.log, logged ∈ tables.db.log
  origin : ∀ logged ∈ tables.db.log, logged ∈ crashed.db.log ∨
    ∃ row ∈ crashed.db.pending, Unrecorded crashed row ∧ ∃ now, logged = drained row now
  settled : ∀ row ∈ crashed.db.pending, row ∈ tables.db.pending ∨ Settled tables.db.log row
  shrinks : ∀ row ∈ tables.db.pending, row ∈ crashed.db.pending

/-- The statement that the drain comes to next belongs to a row of the crash. -/
def Owns (crashed tables : Tables parse) : Task → Prop
  | .persist _ => False
  | .select id decision decidedBy => ∃ row ∈ crashed.db.pending, row.id = id ∧
    (decision, decidedBy) = Database.drainOutcome row
  | .insert row decision decidedBy => row ∈ crashed.db.pending ∧ (decision, decidedBy) = Database.drainOutcome row
  | .delete id => ∀ row ∈ crashed.db.pending, row.id = id → Settled tables.db.log row

def Task.id : Task → Uuid
  | .persist req => req.id
  | .select id _ _ => id
  | .insert row _ _ => row.id
  | .delete id => id

/-- Every row that is still there has its turn ahead. -/
structure Ahead (tables : Tables parse) (current : Option Task) (rest : Orphans parse) : Prop where
  rows : ∀ row ∈ tables.db.pending, .inr row ∈ rest ∨ ∃ task, current = some task ∧ task.id = row.id
  foreign : ∀ id ∈ tables.foreign, .inl id ∈ rest

structure Valid (run : Run parse) : Prop where
  keyed : Keyed run.tables
  afterCrash : (∀ tasks, run.phase ≠ .live tasks) → Draining run.crashed run.tables
  turn : ∀ current rest, run.phase = .draining current rest →
    (∀ task, current = some task → Owns run.crashed run.tables task) ∧
    (∀ row, .inr row ∈ rest → row ∈ run.crashed.db.pending) ∧ Ahead run.tables current rest

theorem Draining.start {tables : Tables parse} (keyed : Keyed tables) : Draining tables tables where
  found := keyed.distinct
  kept _ member := member
  origin _ member := .inl member
  settled _ member := .inl member
  shrinks _ member := member

theorem Settled.grows {log later : List LogRow} {row : PendingRow} (settled : Settled log row)
    (kept : ∀ logged ∈ log, logged ∈ later) : Settled later row := by
  obtain ⟨logged, member, meets⟩ := settled
  exact ⟨logged, kept logged member, meets⟩

theorem Keyed.step {tables : Tables parse} (keyed : Keyed tables) (now : DateTime) (task : Task) :
    Keyed { tables with db := (task.step now tables.db).1 } := by
  cases task with
  | persist req => exact ⟨AuditRun.persist_distinct keyed.distinct req, keyed.unique⟩
  | select id decision decidedBy =>
    simp only [Task.step]
    cases tables.db.selectPending id <;> exact ⟨keyed.distinct, keyed.unique⟩
  | insert row decision decidedBy =>
    exact ⟨keyed.distinct, keyed.unique.insertOrIgnore LogRow.conflicts_symm⟩
  | delete id => exact ⟨keyed.distinct.sublist (List.filter_sublist.map _), keyed.unique⟩

/-- An insert takes the row or meets one, so the row is settled. -/
theorem settled_insert {log : List LogRow} {row : PendingRow} {decision : Decision} {decidedBy : String}
    {now : DateTime} :
    Settled (Table.insertOrIgnore LogRow.conflicts log (row.resolved decision decidedBy now)).2 row := by
  by_cases clear : Table.Clear LogRow.conflicts log (row.resolved decision decidedBy now)
  · rw [Table.insertOrIgnore_clear clear]
    refine ⟨_, List.mem_append_right _ (List.mem_singleton.mpr rfl), .inl rfl⟩
  · rw [Table.insertOrIgnore_conflict clear]
    simp only [Table.Clear, not_forall, Bool.not_eq_false, LogRow.conflicts, decide_eq_true_eq] at clear
    obtain ⟨logged, member, meets⟩ := clear
    refine ⟨logged, member, ?_⟩
    rcases meets with id | use
    · exact .inl id.symm
    · exact .inr use

theorem Draining.insert {crashed tables : Tables parse} (draining : Draining crashed tables) {row : PendingRow}
    (member : row ∈ crashed.db.pending) (now : DateTime) :
    Draining crashed { tables with db := (tables.db.insertLog (drained row now)).2 } where
  found := draining.found
  kept logged before := Table.mem_insertOrIgnore (draining.kept logged before)
  origin logged present := by
    rcases Table.of_mem_insertOrIgnore present with before | ⟨rfl, clear⟩
    · exact draining.origin logged before
    · refine .inr ⟨row, member, fun earlier recorded same => ?_, now, rfl⟩
      have free := clear earlier (draining.kept earlier recorded)
      simp [LogRow.conflicts, drained, PendingRow.resolved, same] at free
  settled other pending :=
    (draining.settled other pending).imp_right (Settled.grows · fun _ => Table.mem_insertOrIgnore)
  shrinks := draining.shrinks

theorem Draining.delete {crashed tables : Tables parse} (draining : Draining crashed tables) {id : Uuid}
    (settled : ∀ row ∈ crashed.db.pending, row.id = id → Settled tables.db.log row) :
    Draining crashed { tables with db := tables.db.deletePending id } where
  found := draining.found
  kept := draining.kept
  origin := draining.origin
  settled row member := by
    by_cases gone : row.id = id
    · exact .inr (settled row member gone)
    · refine (draining.settled row member).imp_left fun pending => ?_
      exact List.mem_filter.mpr ⟨pending, by simpa using gone⟩
  shrinks row member := draining.shrinks row (List.mem_filter.mp member).1

theorem Draining.same_row {crashed tables : Tables parse} (draining : Draining crashed tables)
    {row other : PendingRow} (member : row ∈ crashed.db.pending) (present : other ∈ crashed.db.pending)
    (same : row.id = other.id) : row = other :=
  List.inj_on_of_nodup_map draining.found member present same

/-- A statement of the drain keeps to its row, and the last one removes it. -/
structure Advanced (crashed before after : Tables parse) (task : Task) (left : Option Task) : Prop where
  draining : Draining crashed after
  owns : ∀ next, left = some next → Owns crashed after next ∧ next.id = task.id
  shrinks : ∀ row ∈ after.db.pending, row ∈ before.db.pending
  removes : left = none → ∀ row ∈ after.db.pending, row.id ≠ task.id

theorem advanced {crashed tables : Tables parse} (draining : Draining crashed tables) {task : Task}
    (owns : Owns crashed tables task) (now : DateTime) :
    Advanced crashed tables { tables with db := (task.step now tables.db).1 } task (task.step now tables.db).2 := by
  cases task with
  | persist req => cases owns
  | select id decision decidedBy =>
    obtain ⟨row, member, rfl, outcome⟩ := owns
    simp only [Task.step]
    cases found : tables.db.selectPending row.id with
    | some chosen =>
      have same : chosen.id = row.id := by simpa using List.find?_some found
      have present := draining.shrinks chosen (List.mem_of_find?_eq_some found)
      obtain rfl := draining.same_row present member same
      refine ⟨draining, fun next left => ?_, fun _ kept => kept, fun none => by cases none⟩
      obtain rfl := Option.some.inj left
      exact ⟨⟨member, outcome⟩, rfl⟩
    | none =>
      refine ⟨draining, fun next left => ?_, fun _ kept => kept, fun none => by cases none⟩
      obtain rfl := Option.some.inj left
      refine ⟨fun other present same => ?_, rfl⟩
      rcases draining.settled other present with pending | settled
      · have absent := List.find?_eq_none.mp found other pending
        simp [same] at absent
      · exact settled
  | insert row decision decidedBy =>
    obtain ⟨member, outcome⟩ := owns
    obtain ⟨rfl, rfl⟩ := Prod.mk.inj outcome
    refine ⟨draining.insert member now, fun next left => ?_, fun _ kept => kept, fun none => by cases none⟩
    obtain rfl := Option.some.inj left
    refine ⟨fun other present same => ?_, rfl⟩
    obtain rfl := draining.same_row present member same
    exact settled_insert
  | delete id =>
    refine ⟨draining.delete owns, fun _ left => (by cases left), fun row member => (List.mem_filter.mp member).1, fun _ row member => ?_⟩
    have differ := (List.mem_filter.mp member).2
    simp only [Bool.not_eq_true', decide_eq_false_iff_not] at differ
    exact differ

theorem Ahead.advance {crashed before after : Tables parse} {task : Task} {left : Option Task}
    {rest : Orphans parse} (ahead : Ahead before (some task) rest) (step : Advanced crashed before after task left)
    (foreign : after.foreign = before.foreign) : Ahead after left rest where
  rows row member := by
    rcases ahead.rows row (step.shrinks row member) with later | ⟨current, turn, same⟩
    · exact .inl later
    · obtain rfl := Option.some.inj turn
      cases left with
      | none => exact absurd same.symm (step.removes rfl row member)
      | some next => exact .inr ⟨next, rfl, (step.owns next rfl).2.trans same⟩
  foreign id member := ahead.foreign id (foreign ▸ member)

theorem Valid.drain {run : Run parse} (valid : Valid run) (now : DateTime) {current : Option Task}
    {rest : Orphans parse} (phase : run.phase = .draining current rest) : Valid (run.drain now current rest) := by
  obtain ⟨owned, ahead, turn⟩ := valid.turn current rest phase
  have draining := valid.afterCrash fun tasks live => by rw [phase] at live; cases live
  cases current with
  | some task =>
    have step := advanced draining (owned task rfl) now
    refine ⟨valid.keyed.step now task, fun _ => step.draining, fun left later same => ?_⟩
    obtain ⟨rfl, rfl⟩ := Phase.draining.inj same
    exact ⟨fun next left => (step.owns next left).1, ahead, turn.advance step rfl⟩
  | none =>
    match rest with
    | [] => exact ⟨valid.keyed, fun live => absurd rfl (live []), fun _ _ same => by cases same⟩
    | .inl id :: rest =>
      refine ⟨⟨valid.keyed.distinct, valid.keyed.unique⟩, fun _ => ⟨draining.found, draining.kept, draining.origin,
        draining.settled, draining.shrinks⟩, fun left later same => ?_⟩
      obtain ⟨rfl, rfl⟩ := Phase.draining.inj same
      refine ⟨fun _ none => (by cases none),
        fun row member => ahead row (List.mem_cons_of_mem _ member), ?_, ?_⟩
      · intro row member
        rcases turn.rows row member with later | ⟨_, none, _⟩
        · exact .inl ((List.mem_cons.mp later).resolve_left Sum.inr_ne_inl)
        · cases none
      · intro other member
        obtain ⟨present, differ⟩ := List.mem_filter.mp member
        rcases List.mem_cons.mp (turn.foreign other present) with same | later
        · obtain rfl := Sum.inl.inj same
          simp at differ
        · exact later
    | .inr row :: rest =>
      refine ⟨valid.keyed, fun _ => draining, fun left later same => ?_⟩
      obtain ⟨rfl, rfl⟩ := Phase.draining.inj same
      refine ⟨fun task turn => ?_, fun other member => ahead other (List.mem_cons_of_mem _ member), ?_, ?_⟩
      · obtain rfl := Option.some.inj turn
        exact ⟨row, ahead row (List.mem_cons_self ..), rfl, rfl⟩
      · intro other member
        rcases turn.rows other member with later | ⟨_, none, _⟩
        · rcases List.mem_cons.mp later with same | later
          · obtain rfl := Sum.inr.inj same
            exact .inr ⟨_, rfl, rfl⟩
          · exact .inl later
        · cases none
      · intro id member
        exact (List.mem_cons.mp (turn.foreign id member)).resolve_left Sum.inl_ne_inr

theorem Valid.start (left : Leftover parse) : Valid (Run.machine left).start where
  keyed := ⟨left.distinct, left.unique⟩
  afterCrash _ := .start ⟨left.distinct, left.unique⟩
  turn _ _ same := by cases same

theorem Valid.live {run : Run parse} (keyed : Keyed run.tables) {tasks : List Task}
    (phase : run.phase = .live tasks) : Valid run where
  keyed := keyed
  afterCrash dead := absurd phase (dead tasks)
  turn _ _ draining := by rw [phase] at draining; cases draining

theorem Valid.down {run : Run parse} (keyed : Keyed run.tables) (draining : Draining run.crashed run.tables)
    (phase : run.phase = .down) : Valid run where
  keyed := keyed
  afterCrash _ := draining
  turn _ _ same := by rw [phase] at same; cases same

theorem Valid.step {run after : Run parse} (valid : Valid run) {event : Event parse}
    (taken : run.step event = some after) : Valid after := by
  cases event with
  | persistPending req =>
    simp only [Run.step, Run.begin] at taken
    split at taken
    · cases taken
      exact .live valid.keyed rfl
    · cases taken
  | resolvePendingBy id decision decidedBy =>
    simp only [Run.step, Run.begin] at taken
    split at taken
    · cases taken
      exact .live valid.keyed rfl
    · cases taken
  | execute position now =>
    simp only [Run.step] at taken
    split at taken
    · obtain ⟨task, _, rfl⟩ := Option.map_eq_some_iff.mp taken
      exact .live (valid.keyed.step now task) rfl
    · cases taken
  | fail position =>
    simp only [Run.step] at taken
    split at taken
    · cases taken
      exact .live valid.keyed rfl
    · cases taken
  | crash =>
    simp only [Run.step] at taken
    split at taken
    · cases taken
      exact .down valid.keyed (.start valid.keyed) rfl
    next phase =>
      cases taken
      exact .down valid.keyed (valid.afterCrash fun tasks live => by rw [phase] at live; cases live) rfl
    · cases taken
  | restart order =>
    simp only [Run.step] at taken
    split at taken
    next fetched =>
      obtain ⟨down, order⟩ := fetched
      cases taken
      have draining := valid.afterCrash fun tasks live => by rw [down] at live; cases live
      refine ⟨valid.keyed, fun _ => draining, fun current rest same => ?_⟩
      obtain ⟨rfl, rfl⟩ := Phase.draining.inj same
      refine ⟨fun _ none => (by cases none), fun row member => ?_, fun row member => .inl ?_,
        fun id member => ?_⟩
      · have stored := order.mem_iff.mp member
        simp only [Tables.orphans, List.mem_append, List.mem_map, reduceCtorEq, and_false, exists_false,
          Sum.inr.injEq, exists_eq_right, false_or] at stored
        exact draining.shrinks row stored
      · exact order.mem_iff.mpr (List.mem_append_right _ (List.mem_map_of_mem member))
      · exact order.mem_iff.mpr (List.mem_append_left _ (List.mem_map_of_mem member))
    · cases taken
  | drain now =>
    simp only [Run.step] at taken
    split at taken
    next phase =>
      cases taken
      exact valid.drain now phase
    · cases taken
  | failDrain =>
    simp only [Run.step] at taken
    split at taken
    · cases taken
      exact .live valid.keyed rfl
    · cases taken

theorem Valid.reached {left : Leftover parse} {run : Run parse}
    (reached : Machine.Reachable (Run.machine left) Machine.free run) : Valid run :=
  reached.invariant (.start left) fun _ _ _ valid _ taken => valid.step taken

/-- A row that the log gains for an unrecorded pending row is the drain's own record of it. -/
theorem Draining.record {crashed tables : Tables parse} (draining : Draining crashed tables) {row : PendingRow}
    (member : row ∈ crashed.db.pending) (fresh : Unrecorded crashed row) {logged : LogRow}
    (present : logged ∈ tables.db.log) (same : logged.id = row.id) : ∃ now, logged = drained row now := by
  rcases draining.origin logged present with before | ⟨other, pending, _, now, rfl⟩
  · exact absurd same (fresh logged before)
  · obtain rfl := draining.same_row pending member same
    exact ⟨now, rfl⟩

theorem Recovered.record {crashed tables : Tables parse} (recovered : Recovered crashed tables)
    (draining : Draining crashed tables) {row : PendingRow} (member : row ∈ crashed.db.pending)
    (fresh : Unrecorded crashed row) : ∃ now, drained row now ∈ tables.db.log := by
  obtain ⟨logged, only⟩ := List.length_eq_one_iff.mp (recovered.recorded row member)
  have inside : logged ∈ tables.db.log.filter (·.id = row.id) := by rw [only]; exact List.mem_singleton.mpr rfl
  obtain ⟨present, same⟩ := List.mem_filter.mp inside
  obtain ⟨now, rfl⟩ := draining.record member fresh present (of_decide_eq_true same)
  exact ⟨now, present⟩

theorem conflicts_of_use {row other : LogRow} (same : SameUse row.toolUseId other.toolUseId) :
    row.conflicts other = true :=
  decide_eq_true (.inr same)

theorem recoverable_of_recovered {crashed tables : Tables parse} (recovered : Recovered crashed tables)
    (draining : Draining crashed tables) (unique : Table.Distinct LogRow.conflicts tables.db.log) :
    Recoverable crashed where
  separate row member fresh logged present use := by
    obtain ⟨now, record⟩ := recovered.record draining member fresh
    have meet : (drained row now).conflicts logged = true := conflicts_of_use use
    have same := unique.eq_of_conflict LogRow.conflicts_symm record (draining.kept logged present) meet
    exact fresh logged present (congrArg LogRow.id same).symm
  apart row member fresh other present freshOther differ use := by
    obtain ⟨now, record⟩ := recovered.record draining member fresh
    obtain ⟨later, recordOther⟩ := recovered.record draining present freshOther
    have meet : (drained row now).conflicts (drained other later) = true := conflicts_of_use use
    have same := unique.eq_of_conflict LogRow.conflicts_symm record recordOther meet
    exact differ (congrArg LogRow.id same)
  denied row member managed logged present same :=
    recovered.denied row member managed logged (draining.kept logged present) same

/-- Without shared tool use ids, settled means recorded. -/
theorem Recoverable.recorded {crashed tables : Tables parse} (recoverable : Recoverable crashed)
    (draining : Draining crashed tables) {row : PendingRow} (member : row ∈ crashed.db.pending)
    (settled : Settled tables.db.log row) : ∃ logged ∈ tables.db.log, logged.id = row.id := by
  by_cases fresh : Unrecorded crashed row
  · obtain ⟨logged, present, same | use⟩ := settled
    · exact ⟨logged, present, same⟩
    · rcases draining.origin logged present with before | ⟨other, pending, freshOther, now, rfl⟩
      · exact absurd use (recoverable.separate row member fresh logged before)
      · by_cases differ : row.id = other.id
        · exact ⟨_, present, differ.symm⟩
        · exact absurd use (recoverable.apart row member fresh other pending freshOther differ)
  · simp only [Unrecorded, not_forall, ne_eq, not_not] at fresh
    obtain ⟨logged, before, same⟩ := fresh
    exact ⟨logged, draining.kept logged before, same⟩

theorem recovered_of_recoverable {crashed tables : Tables parse} (recoverable : Recoverable crashed)
    (draining : Draining crashed tables) (unique : Table.Distinct LogRow.conflicts tables.db.log)
    (emptied : tables.orphans = []) : Recovered crashed tables where
  emptied := emptied
  recorded row member := by
    have pending : tables.db.pending = [] := List.map_eq_nil_iff.mp (List.append_eq_nil_iff.mp emptied).2
    have settled : Settled tables.db.log row :=
      (draining.settled row member).resolve_left fun present => by rw [pending] at present; cases present
    obtain ⟨logged, present, same⟩ := recoverable.recorded draining member settled
    have meet : ∀ first second : LogRow, decide (first.id = row.id) = true → decide (second.id = row.id) = true →
        first.conflicts second = true := by
      intro first second chosen other
      simp [LogRow.conflicts, of_decide_eq_true chosen, of_decide_eq_true other]
    rw [unique.filter_eq meet present (decide_eq_true same), List.length_singleton]
  kept := draining.kept
  denied row member managed logged present same := by
    rcases draining.origin logged present with before | ⟨other, pending, _, now, rfl⟩
    · exact recoverable.denied row member managed logged before same
    · obtain rfl := draining.same_row pending member same
      simp only [drained, PendingRow.resolved, Database.drainOutcome, managed, if_true]

/-- When a drain has run to its end, the crash is recovered exactly if it left no shared
tool use id and no approved managed spawn among what was still pending. -/
theorem drained_recovered_iff {left : Leftover parse} {run : Run parse}
    (reached : Machine.Reachable (Run.machine left) Machine.free run) (finished : run.phase = .draining none []) :
    Recovered run.crashed run.tables ↔ Recoverable run.crashed := by
  have valid := Valid.reached reached
  have draining := valid.afterCrash fun tasks live => by rw [finished] at live; cases live
  constructor
  · intro recovered
    exact recoverable_of_recovered recovered draining valid.keyed.unique
  · intro recoverable
    obtain ⟨_, _, ahead⟩ := valid.turn none [] finished
    refine recovered_of_recoverable recoverable draining valid.keyed.unique ?_
    rw [Tables.orphans, List.append_eq_nil_iff, List.map_eq_nil_iff, List.map_eq_nil_iff]
    constructor
    · apply List.eq_nil_iff_forall_not_mem.mpr
      intro id member
      exact absurd (ahead.foreign id member) List.not_mem_nil
    · apply List.eq_nil_iff_forall_not_mem.mpr
      intro row member
      rcases ahead.rows row member with later | ⟨_, none, _⟩
      · exact absurd later List.not_mem_nil
      · cases none

/-- The statements that resolve one row, when nothing comes between them. -/
theorem drain_row {left : Leftover parse} {run : Run parse} {row : PendingRow} {rest : Orphans parse}
    (phase : run.phase = .draining none (.inr row :: rest)) (now : DateTime) :
    ∃ count, (Run.machine left).run Machine.free run (List.replicate count (.drain now)) =
      some ⟨⟨run.tables.db.resolvePendingBy row.id (Database.drainOutcome row).1 (Database.drainOutcome row).2 now,
        run.tables.foreign⟩, .draining none rest, run.crashed⟩ := by
  obtain ⟨⟨db, foreign⟩, _, crashed⟩ := run
  cases phase
  cases found : db.selectPending row.id with
  | some chosen =>
    have same : chosen.id = row.id := by simpa using List.find?_some found
    refine ⟨4, ?_⟩
    simp only [List.replicate, Machine.run_free_cons, Machine.run_free_nil, Run.machine, Run.step, Run.drain, Task.step, found,
      Option.bind_eq_bind, Option.bind_some, Database.resolvePendingBy, same]
  | none =>
    refine ⟨3, ?_⟩
    simp only [List.replicate, Machine.run_free_cons, Machine.run_free_nil, Run.machine, Run.step, Run.drain, Task.step, found,
      Option.bind_eq_bind, Option.bind_some, Database.resolvePendingBy]

/-- A drain that nothing interrupts is the drain of the decision tables in one go. -/
theorem uninterrupted_drain {left : Leftover parse} {run : Run parse} {now : DateTime} {rows : List PendingRow}
    (phase : run.phase = .draining none (rows.map .inr)) :
    ∃ count, (Run.machine left).run Machine.free run (List.replicate count (.drain now)) =
      some ⟨⟨run.tables.db.drainRows now rows, run.tables.foreign⟩, .draining none [], run.crashed⟩ := by
  induction rows generalizing run with
  | nil =>
    obtain ⟨⟨db, foreign⟩, _, crashed⟩ := run
    cases phase
    exact ⟨0, rfl⟩
  | cons row rest ih =>
    rw [List.map_cons] at phase
    obtain ⟨first, resolved⟩ := @drain_row _ left _ _ _ phase now
    obtain ⟨later, remaining⟩ := @ih ⟨⟨_, _⟩, .draining none (rest.map .inr), _⟩ rfl
    refine ⟨first + later, ?_⟩
    rw [List.replicate_add, Machine.run_append, resolved]
    exact remaining

private def writeRequest (id : Uuid) (toolUseId : String) : DecisionRequest where
  id
  agentId := "cc-1"
  agentType := .claudeCode
  project := ⟨"/work"⟩
  toolName := "Write"
  toolInput := .object []
  timestamp := 0
  toolUseId := some toolUseId

private def nothingLeft : Leftover (fun _ => none) where
  tables := {}
  distinct := List.nodup_nil
  unique := LogRow.distinct_nil

/-- Two requests are pending when the daemon dies, and the next one drains them. -/
private def crashWhilePending (first second : String) : List (Event fun _ => none) :=
  [.restart [], .drain 0, .persistPending (writeRequest 7 first), .persistPending (writeRequest 8 second),
    .execute 0 0, .execute 0 0, .crash,
    .restart [.inr (.ofRequest (writeRequest 7 first)), .inr (.ofRequest (writeRequest 8 second))]] ++
    List.replicate 8 (.drain 1)

private def drainedRun (second : String) (runs : ((Run.machine nothingLeft).run Machine.free
    (Run.machine nothingLeft).start (crashWhilePending "t1" second)).isSome = true) : Run fun _ => none :=
  ((Run.machine nothingLeft).run Machine.free (Run.machine nothingLeft).start (crashWhilePending "t1" second)).get runs

private theorem drained_reached (second : String) (runs) :
    Machine.Reachable (Run.machine nothingLeft) Machine.free (drainedRun second runs) :=
  Machine.Reachable.start.run (Option.some_get runs).symm

theorem drained_recovered_iff_pair :
    Recovered (drainedRun "t2" (by decide +kernel)).crashed (drainedRun "t2" (by decide +kernel)).tables ↔
      Recoverable (drainedRun "t2" (by decide +kernel)).crashed :=
  drained_recovered_iff (drained_reached "t2" _) (by decide +kernel)

/-- Both requests are of the same call. The second one is deleted without a row. -/
theorem shared_call_unrecorded :
    ∃ (parse : String → Option Uuid) (left : Leftover parse) (run : Run parse),
      Machine.Reachable (Run.machine left) Machine.free run ∧ run.phase = .draining none [] ∧
        ¬ Recovered run.crashed run.tables := by
  refine ⟨fun _ => none, nothingLeft, drainedRun "t1" (by decide +kernel), drained_reached "t1" _,
    by decide +kernel, fun recovered => ?_⟩
  have pending : PendingRow.ofRequest (writeRequest 8 "t1") ∈
      (drainedRun "t1" (by decide +kernel)).crashed.db.pending := by decide +kernel
  have recorded := recovered.recorded _ pending
  revert recorded
  decide +kernel

end PendingRecovery
end Wisphive
