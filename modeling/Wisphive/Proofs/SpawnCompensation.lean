import Wisphive.HistorySearch

/-! What the fail-closed compensation of a spawn leaves in the tables, whatever of its
approval was committed before. -/

namespace Wisphive
open Foundation

/-- The row of a spawn request that the daemon wrote itself. -/
def PendingRow.ofSpawn (id : Uuid) (row : PendingRow) : Bool :=
  row.id = id && row.managed

def LogRow.ofSpawn (id : Uuid) (row : LogRow) : Bool :=
  row.id = id && row.managed

namespace Database
variable {db moved : Database} {id : Uuid} {decidedBy : String} {fallback : DecisionRequest} {now : DateTime}

/-- The daemon's own request is the fallback. -/
structure Owned (id : Uuid) (fallback : DecisionRequest) : Prop where
  id : fallback.id = id
  agentId : fallback.agentId = spawnDecisionAgentId
  toolName : fallback.toolName = spawnDecisionTool

/-- The log in which every row of the spawn says Deny. -/
def denyRows (id : Uuid) (decidedBy : String) (now : DateTime) (log : List LogRow) : List LogRow :=
  (Table.update log (LogRow.ofSpawn id) (LogRow.denied decidedBy now)).2

/-- The log once the pending row is moved, if there is one. -/
def movePending (db : Database) (id : Uuid) (decidedBy : String) (now : DateTime) : List LogRow :=
  (db.pending.find? (PendingRow.ofSpawn id)).elim (denyRows id decidedBy now db.log) fun row =>
    (Table.insertOrIgnore LogRow.conflicts (denyRows id decidedBy now db.log) (row.resolved .deny decidedBy now)).2

/-- The log before the second update. -/
def reconstructed (db : Database) (id : Uuid) (decidedBy : String) (fallback : DecisionRequest) (now : DateTime) :
    List LogRow :=
  (Table.insertOrIgnore LogRow.conflicts (db.movePending id decidedBy now) (fallbackRow fallback decidedBy now)).2

/-- What the transaction comes to. -/
theorem forceFailclosed_eq (owned : Owned id fallback) :
    db.forceFailclosedSpawnResolution id decidedBy fallback now =
      some ((db.reconstructed id decidedBy fallback now).any (LogRow.ofSpawn id),
        { pending := db.pending.filter (!PendingRow.ofSpawn id ·)
          log := denyRows id decidedBy now (db.reconstructed id decidedBy fallback now) }) := by
  obtain ⟨same, agent, tool⟩ := owned
  refine (if_neg (by simp [same, agent, tool])).trans ?_
  rw [← @Table.update_pos _ _ _ (LogRow.denied decidedBy now)]
  unfold reconstructed movePending
  cases found : db.pending.find? (PendingRow.ofSpawn id) with
  | none =>
    have absent : (db.denyManaged id decidedBy now).2.pending.find? (fun row => row.id = id && row.managed) = none := found
    dsimp only
    rw [absent]
    rfl
  | some row =>
    have present : (db.denyManaged id decidedBy now).2.pending.find? (fun row => row.id = id && row.managed) = some row :=
      found
    dsimp only
    rw [present]
    rfl

theorem fallback_ofSpawn (owned : Owned id fallback) : (fallbackRow fallback decidedBy now).ofSpawn id = true := by
  obtain ⟨same, agent, tool⟩ := owned
  simp [LogRow.ofSpawn, LogRow.managed, fallbackRow, same, agent, tool]

theorem filter_denyRows (log : List LogRow) :
    (denyRows id decidedBy now log).filter (!LogRow.ofSpawn id ·) = log.filter (!LogRow.ofSpawn id ·) :=
  Table.filter_update fun _ => rfl

theorem any_denyRows (log : List LogRow) :
    (denyRows id decidedBy now log).any (LogRow.ofSpawn id) = log.any (LogRow.ofSpawn id) :=
  Table.any_update fun _ => rfl

theorem denyRows_again (log : List LogRow) :
    denyRows id decidedBy now (denyRows id decidedBy now log) = denyRows id decidedBy now log :=
  Table.update_update fun _ => rfl

theorem filter_movePending :
    (db.movePending id decidedBy now).filter (!LogRow.ofSpawn id ·) = db.log.filter (!LogRow.ofSpawn id ·) := by
  unfold movePending
  cases found : db.pending.find? (PendingRow.ofSpawn id) with
  | none => exact filter_denyRows db.log
  | some row =>
    have chosen : row.ofSpawn id = true := List.find?_some found
    have moved : (row.resolved .deny decidedBy now).ofSpawn id = true := chosen
    rw [Option.elim_some, Table.filter_insertOrIgnore (by rw [moved]; rfl), filter_denyRows]

theorem filter_reconstructed (owned : Owned id fallback) :
    (db.reconstructed id decidedBy fallback now).filter (!LogRow.ofSpawn id ·) =
      db.log.filter (!LogRow.ofSpawn id ·) := by
  rw [reconstructed, Table.filter_insertOrIgnore (by rw [fallback_ofSpawn owned]; rfl), filter_movePending]

/-- Every row of the spawn says what the last update wrote. -/
theorem denyRows_denied {log : List LogRow} {row : LogRow} (member : row ∈ denyRows id decidedBy now log)
    (spawn : row.ofSpawn id = true) : row.denied decidedBy now = row := by
  obtain ⟨before, _, rfl⟩ := List.mem_map.mp member
  split at spawn
  next chosen => rw [if_pos chosen]; rfl
  next other => exact absurd spawn other

/-- The rows of the spawn are denied once more, and nothing else changes. -/
theorem forceFailclosed_again (owned : Owned id fallback) (again : String) (later : DateTime) :
    forceFailclosedSpawnResolution
        { pending := db.pending.filter (!PendingRow.ofSpawn id ·)
          log := denyRows id decidedBy now (db.reconstructed id decidedBy fallback now) } id again fallback later =
      some ((db.reconstructed id decidedBy fallback now).any (LogRow.ofSpawn id),
        { pending := db.pending.filter (!PendingRow.ofSpawn id ·)
          log := denyRows id again later (denyRows id decidedBy now (db.reconstructed id decidedBy fallback now)) }) := by
  have cleared : (db.pending.filter (!PendingRow.ofSpawn id ·)).find? (PendingRow.ofSpawn id) = none := by
    refine List.find?_eq_none.mpr fun row member chosen => ?_
    have kept := (List.mem_filter.mp member).2
    rw [chosen] at kept
    cases kept
  have refused : ¬ Table.Clear LogRow.conflicts (db.reconstructed id decidedBy fallback now)
      (fallbackRow fallback again later) := by
    have first : ¬ Table.Clear LogRow.conflicts (db.reconstructed id decidedBy fallback now)
        (fallbackRow fallback decidedBy now) :=
      Table.not_clear_inserted (by simp [LogRow.conflicts])
    exact first
  have settled : reconstructed
      { pending := db.pending.filter (!PendingRow.ofSpawn id ·)
        log := denyRows id decidedBy now (db.reconstructed id decidedBy fallback now) } id again fallback later =
      denyRows id again later (denyRows id decidedBy now (db.reconstructed id decidedBy fallback now)) := by
    have unmoved : movePending
        { pending := db.pending.filter (!PendingRow.ofSpawn id ·)
          log := denyRows id decidedBy now (db.reconstructed id decidedBy fallback now) } id again later =
        denyRows id again later (denyRows id decidedBy now (db.reconstructed id decidedBy fallback now)) := by
      rw [movePending, cleared, Option.elim_none]
    rw [reconstructed, unmoved, Table.insertOrIgnore_conflict]
    exact Table.not_clear_update (Table.not_clear_update refused fun _ => rfl) fun _ => rfl
  rw [forceFailclosed_eq owned, settled, List.filter_filter]
  rw [any_denyRows, any_denyRows, denyRows_again]
  simp only [Bool.and_self]

/-- The tables after the compensation of a spawn, and its report. -/
structure Compensated (id : Uuid) (before after : Database) (reported : Bool) : Prop where
  denied : ∀ row ∈ after.log, row.ofSpawn id = true → row.decision = Decision.deny.column
  cleared : ∀ row ∈ after.pending, row.ofSpawn id = false
  log : after.log.filter (!LogRow.ofSpawn id ·) = before.log.filter (!LogRow.ofSpawn id ·)
  pending : after.pending.filter (!PendingRow.ofSpawn id ·) = before.pending.filter (!PendingRow.ofSpawn id ·)
  reported : reported = true ↔ ∃ row ∈ after.log, row.ofSpawn id = true ∧ row.decision = Decision.deny.column

/-- A later compensation reports the same, and changes only who denied the spawn, and when. -/
structure Repeatable (id : Uuid) (fallback : DecisionRequest) (after : Database) (reported : Bool) (decidedBy : String)
    (now : DateTime) : Prop where
  restamps : ∀ again later, after.forceFailclosedSpawnResolution id again fallback later =
    some (reported, { after with log := denyRows id again later after.log })
  same : after.forceFailclosedSpawnResolution id decidedBy fallback now = some (reported, after)

/-- From whatever an approval left behind, the compensation comes to the same end. -/
theorem spawn_compensation (db : Database) (decidedBy : String) (now : DateTime) (owned : Owned id fallback) :
    ∃ reported after, db.forceFailclosedSpawnResolution id decidedBy fallback now = some (reported, after) ∧
      Compensated id db after reported ∧ Repeatable id fallback after reported decidedBy now := by
  refine ⟨_, _, forceFailclosed_eq owned, ⟨?_, ?_, ?_, ?_, ?_⟩, forceFailclosed_again owned, ?_⟩
  · intro row member spawn
    rw [← denyRows_denied member spawn]
    rfl
  · intro row member
    have kept := (List.mem_filter.mp member).2
    cases chosen : row.ofSpawn id with
    | false => rfl
    | true => rw [chosen] at kept; cases kept
  · rw [filter_denyRows, filter_reconstructed owned]
  · simp only [List.filter_filter, Bool.and_self]
  · rw [← @any_denyRows id decidedBy now, List.any_eq_true]
    constructor
    · rintro ⟨row, member, spawn⟩
      exact ⟨row, member, spawn, by rw [← denyRows_denied member spawn]; rfl⟩
    · rintro ⟨row, member, spawn, _⟩
      exact ⟨row, member, spawn⟩
  · rw [forceFailclosed_again owned, denyRows_again]

private def spawnRequest : DecisionRequest where
  id := 7
  agentId := spawnDecisionAgentId
  agentType := .claudeCode
  project := ⟨"/work"⟩
  toolName := spawnDecisionTool
  toolInput := .null
  timestamp := 0

/-- An approval that was committed before its caller gave up. -/
private def approvedTables : Database :=
  { log := [(PendingRow.ofRequest spawnRequest).resolved .approve "human" 1] }

theorem spawn_compensation_approved :
    ∃ reported after,
      approvedTables.forceFailclosedSpawnResolution 7 "spawn_timeout:deny" spawnRequest 2 = some (reported, after) ∧
      Compensated 7 approvedTables after reported ∧
      Repeatable 7 spawnRequest after reported "spawn_timeout:deny" 2 :=
  spawn_compensation approvedTables "spawn_timeout:deny" 2 ⟨rfl, rfl, rfl⟩

/-- The instant of the decision moves when the compensation is repeated. -/
theorem compensation_restamps :
    (approvedTables.forceFailclosedSpawnResolution 7 "spawn_timeout:deny" spawnRequest 2).bind
        (·.2.forceFailclosedSpawnResolution 7 "spawn_timeout:deny" spawnRequest 3) ≠
      approvedTables.forceFailclosedSpawnResolution 7 "spawn_timeout:deny" spawnRequest 2 := by
  decide +kernel

end Database
end Wisphive
