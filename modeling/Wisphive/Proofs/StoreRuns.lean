import Wisphive.Foundation.Growth
import Wisphive.Proofs.Migration

/-! What the operations of the store may make of its rows. The log only grows and is amended
where a result arrives or a spawn fails closed, and only retention takes rows out of it. -/

namespace Wisphive
open Foundation Sql Growth

/-- How a row of the log may differ later on. -/
structure Amended (before after : Row StoreColumn) : Prop where
  kept : ∀ column, column ≠ .decision → column ≠ .resolvedAt → column ≠ .decidedBy → column ≠ .toolResult →
    after column = before column
  decided : after .decision = before .decision ∨
    Store.managed before = true ∧ after .decision = .text Decision.deny.column
  resolved : Store.managed before = false →
    after .resolvedAt = before .resolvedAt ∧ after .decidedBy = before .decidedBy
  /-- A result may be replaced by another one, and is never taken back. -/
  result : before .toolResult ≠ .null → after .toolResult ≠ .null

namespace Amended
variable {before middle after : Row StoreColumn}

theorem managed (amended : Amended before after) : Store.managed after = Store.managed before := by
  have agent := amended.kept .agentId (by decide) (by decide) (by decide) (by decide)
  have tool := amended.kept .toolName (by decide) (by decide) (by decide) (by decide)
  rw [Store.managed, Store.managed, agent, tool]

theorem refl (row : Row StoreColumn) : Amended row row :=
  ⟨fun _ _ _ _ _ => rfl, .inl rfl, fun _ => ⟨rfl, rfl⟩, fun set => set⟩

theorem trans (first : Amended before middle) (later : Amended middle after) : Amended before after := by
  have managed := first.managed
  refine ⟨fun column a b c d => (later.kept column a b c d).trans (first.kept column a b c d), ?_, ?_, ?_⟩
  · rcases later.decided with same | ⟨spawn, denied⟩
    · rw [same]
      exact first.decided
    · exact .inr ⟨managed ▸ spawn, denied⟩
  · intro foreign
    have then_ := later.resolved (managed.trans foreign)
    have now := first.resolved foreign
    exact ⟨then_.1.trans now.1, then_.2.trans now.2⟩
  · exact later.result ∘ first.result

end Amended

/-- What the order of a session is computed from, and the order. -/
def placed (row : Row StoreColumn) : Value × Value :=
  (row .startedAt, row .sortOrder)

/-- `edits` lets sessions be created and reordered, and `prunes` takes rows out of the log. -/
def storeEvolution (edits prunes : Bool) : Evolution StoreTable StoreColumn where
  allows
    | .schemaMigrations, before, after => after = before
    | .decisionLog, before, after => Revises Amended before after ∧ (prunes = false → Extends Amended before after)
    | .terminalSessions, before, after => edits = false → after.map placed = before.map placed
    | _, _, _ => True
  refl table rows := by
    cases table <;> first
      | trivial
      | exact ⟨.of_sublist .refl (List.Sublist.refl _), fun _ => .refl .refl _⟩
      | exact fun _ => rfl
  trans {table _ _ _} first later := by
    cases table with
    | schemaMigrations => exact later.trans first
    | decisionLog => exact ⟨.trans .trans first.1 later.1, fun plain => .trans .trans (first.2 plain) (later.2 plain)⟩
    | terminalSessions => exact fun plain => (later plain).trans (first plain)
    | _ => trivial

/-! ### One operation -/

namespace Store
variable {platform : StorePlatform} {edits prunes : Bool}

/-- Only passkeys go with their parent, the device. -/
theorem cascading {table : StoreTable} (cascades : Migration.installed.Cascading table) : table = .webPasskeys := by
  have others : (Migration.installed.tables.all fun entry =>
      !entry.2.references.any (·.cascades) || entry.1 = .webPasskeys) = true := by
    decide +kernel
  obtain ⟨definition, defined, found⟩ := cascades
  generalize Migration.installed = schema at others defined
  have member : (table, definition) ∈ schema.tables := Assoc.mem_of_lookup defined
  have listed := List.all_eq_true.mp others (table, definition) member
  rw [found, Bool.not_true, Bool.false_or, decide_eq_true_eq] at listed
  exact listed

theorem delete_evolves {table : StoreTable} {selected : Row StoreColumn → Bool}
    (shrinks : ∀ rows, (storeEvolution edits prunes).allows table rows (rows.filter fun row => !selected row)) :
    Evolves Migration.installed (storeEvolution edits prunes) (Command.delete table selected : Store _) := by
  refine .delete shrinks fun other cascades rows fewer _ => ?_
  rw [cascading cascades]
  trivial

/-- An insert into the log is an append. -/
theorem insertLog_evolves {values : List (StoreColumn × Value)} :
    Evolves Migration.installed (storeEvolution edits prunes) (Command.insert .decisionLog values .ignore) :=
  .insert (fun rows row => ⟨(Extends.append .refl rows [row]).revises, fun _ => .append .refl rows [row]⟩)
    fun _ _ updates => nomatch updates

/-- An update of the log amends its rows. -/
theorem updateLog_evolves {assignments : List (StoreColumn × (Row StoreColumn → Value))}
    {selected : Row StoreColumn → Bool}
    (amends : ∀ row, selected row = true → Amended row (Command.assigned assignments row)) :
    Evolves Migration.installed (storeEvolution edits prunes) (Command.update .decisionLog assignments selected) := by
  refine .update fun rows => ?_
  have extended : Extends Amended rows
      (rows.map fun row => if selected row then Command.assigned assignments row else row) := by
    refine .map fun row _ => ?_
    split
    · next chosen => exact amends row chosen
    · exact .refl row
  exact ⟨extended.revises, fun _ => extended⟩

/-- An update of the sessions leaves their order. -/
theorem updateSession_evolves {assignments : List (StoreColumn × (Row StoreColumn → Value))}
    {selected : Row StoreColumn → Bool} (started : assignments.lookup .startedAt = none)
    (order : assignments.lookup .sortOrder = none) :
    Evolves Migration.installed (storeEvolution edits prunes) (Command.update .terminalSessions assignments selected) := by
  refine .update fun rows _ => ?_
  rw [List.map_map]
  refine List.map_congr_left fun row _ => ?_
  dsimp only [Function.comp_apply]
  split
  · rw [placed, Command.assigned, Command.assigned, started, order]
    rfl
  · rfl

theorem denyManaged_evolves (id : Uuid) (decidedBy : String) (now : DateTime) :
    Evolves Migration.installed (storeEvolution edits prunes) (denyManaged platform id decidedBy now) := by
  refine updateLog_evolves fun row chosen => ?_
  have spawn : managed row = true := (Bool.and_eq_true_iff.mp chosen).2
  refine ⟨fun column decision resolved decided _ => ?_, .inr ⟨spawn, rfl⟩, fun foreign => ?_, fun set => set⟩
  · cases column <;> first | rfl | contradiction
  · rw [spawn] at foreign
    cases foreign

theorem logResolved_evolves (id : Uuid) (decision : Decision) (decidedBy : String) (now : DateTime)
    (row : Option (Row StoreColumn)) :
    Evolves Migration.installed (storeEvolution edits prunes) (logResolved platform id decision decidedBy now row) := by
  cases row with
  | none => exact .pure 0
  | some row => exact insertLog_evolves

theorem deletePending_evolves {selected : Row StoreColumn → Bool} :
    Evolves Migration.installed (storeEvolution edits prunes) (Command.delete .pendingDecisions selected) :=
  delete_evolves fun _ => trivial

theorem resolvePendingBy_evolves (id : Uuid) (decision : Decision) (decidedBy : String) (now : DateTime) :
    Evolves Migration.installed (storeEvolution edits prunes) (resolvePendingBy platform id decision decidedBy now) :=
  .bind (.select _ _) fun rows => .bind (logResolved_evolves id decision decidedBy now rows.head?) fun _ =>
    deletePending_evolves.void

theorem drainOrphanedPending_evolves (now : DateTime) :
    Evolves Migration.installed (storeEvolution edits prunes) (drainOrphanedPending platform now) := by
  refine .bind (.select _ _) fun rows => .bind (.forEach fun row _ => ?_) fun _ => .pure _
  rw [drainRow]
  split
  · split <;> exact resolvePendingBy_evolves _ _ _ _
  · exact deletePending_evolves.void

theorem resolveSpawnPendingBy_evolves (id : Uuid) (reviewed : SpawnAgentRequest) (decidedBy : String) (now : DateTime) :
    Evolves Migration.installed (storeEvolution edits prunes) (resolveSpawnPendingBy platform id reviewed decidedBy now) := by
  refine .transaction (.bind (.update fun _ => trivial) fun updated => ?_)
  split
  · exact .pure false
  · refine .bind (.select _ _) fun rows => ?_
    split
    · exact .fail _
    · exact .bind (logResolved_evolves _ _ _ _ _) fun _ => .bind deletePending_evolves.void fun _ => .pure _

theorem forceFailclosed_evolves (id : Uuid) (decidedBy : String) (fallback : DecisionRequest) (now : DateTime) :
    Evolves Migration.installed (storeEvolution edits prunes)
      (forceFailclosedSpawnResolution platform id decidedBy fallback now) := by
  rw [forceFailclosedSpawnResolution]
  split
  · exact .fail _
  · exact .transaction (.bind (denyManaged_evolves _ _ _) fun _ => .bind (.select _ _) fun rows =>
      .bind (logResolved_evolves _ _ _ _ _) fun _ => .bind insertLog_evolves fun _ => .bind (denyManaged_evolves _ _ _) fun _ =>
        .bind deletePending_evolves fun _ => .pure _)

theorem recordSpawnActionFailure_evolves (id : Uuid) (error : String) :
    Evolves Migration.installed (storeEvolution edits prunes) (recordSpawnActionFailure id error) := by
  refine .bind (updateLog_evolves fun row chosen => ?_) fun _ => .pure _
  have spawn : managed row = true := (Bool.and_eq_true_iff.mp (Bool.and_eq_true_iff.mp chosen).1).2
  refine ⟨fun column _ _ decided result => ?_, .inl rfl, fun foreign => ?_, fun _ => Value.noConfusion⟩
  · cases column <;> first | rfl | contradiction
  · rw [spawn] at foreign
    cases foreign

theorem storeToolResult_evolves (result : String) (id : Value) :
    Evolves Migration.installed (storeEvolution edits prunes) (storeToolResult result id) := by
  refine .void (updateLog_evolves fun row _ => ⟨fun column _ _ _ result => ?_, .inl rfl, fun _ => ⟨rfl, rfl⟩, fun _ => Value.noConfusion⟩)
  cases column <;> first | rfl | contradiction

theorem attachTo_evolves (result : String) (row : Row StoreColumn) :
    Evolves Migration.installed (storeEvolution edits prunes) (attachTo platform result row) :=
  .bind (storeToolResult_evolves result _) fun _ => .pure _

theorem attachLatest_evolves (agentId toolName result : String) (now : DateTime) (tie : Nat) :
    Evolves Migration.installed (storeEvolution edits prunes) (attachLatest platform agentId toolName result now tie) := by
  refine .bind (.select _ _) fun rows => ?_
  split
  · exact attachTo_evolves result _
  · exact .pure none

theorem selectExact_evolves (toolUseId : Option String) :
    Evolves Migration.installed (storeEvolution edits prunes) (selectExact toolUseId) := by
  cases toolUseId with
  | none => exact .pure []
  | some known => exact .select _ _

theorem attachToolResult_evolves (agentId toolName : String) (toolResult : Json) (toolUseId : Option String)
    (now : DateTime) (tie : Nat) :
    Evolves Migration.installed (storeEvolution edits prunes)
      (attachToolResult platform agentId toolName toolResult toolUseId now tie) := by
  refine .bind (selectExact_evolves toolUseId) fun rows => ?_
  split
  · exact attachTo_evolves _ _
  · exact attachLatest_evolves agentId toolName _ now tie

theorem archiveChunks_evolves (durable : Nat) (chunks : List (List Value)) :
    Evolves Migration.installed (storeEvolution edits true) (archiveChunks durable chunks) := by
  induction chunks generalizing durable with
  | nil =>
    rw [archiveChunks]
    exact .pure 0
  | cons chunk rest ih =>
    rw [archiveChunks]
    refine .bind (.select _ _) fun rows => ?_
    cases durable with
    | zero => exact .fail _
    | succ durable =>
      have gone : Evolves Migration.installed (storeEvolution edits true)
          (Command.delete .decisionLog fun row => row .id ∈ chunk : Store Nat) :=
        delete_evolves fun _ => ⟨.of_sublist .refl List.filter_sublist, fun plain => nomatch plain⟩
      exact .bind gone fun _ => .bind (ih durable) fun _ => .pure _

theorem archiveAndPrune_evolves (byAge byCount maxRows : Nat) (cutoff : DateTime) :
    Evolves Migration.installed (storeEvolution edits true) (archiveAndPrune platform byAge byCount maxRows cutoff) :=
  .bind (.select _ _) fun _ => .bind (archiveChunks_evolves _ _) fun _ => .bind (.select _ _) fun _ =>
    .bind (archiveChunks_evolves _ _) fun _ => .pure _

theorem pruneTerminalEvents_evolves (cutoff : DateTime) :
    Evolves Migration.installed (storeEvolution edits prunes) (pruneTerminalEvents platform cutoff) :=
  .bind (.select _ _) fun _ => delete_evolves fun _ => trivial

theorem grantTerminalReplayAccess_evolves (id : Uuid) (requester : String) :
    Evolves Migration.installed (storeEvolution edits prunes) (grantTerminalReplayAccess id requester) := by
  refine .bind (.select _ _) fun rows => ?_
  split
  · exact .pure ()
  · dsimp only
    split
    · exact .pure ()
    · exact (updateSession_evolves rfl rfl).void

theorem insertTerminalEventsBatch_evolves (rows : List (Uuid × TermFrame)) :
    Evolves Migration.installed (storeEvolution edits prunes) (insertTerminalEventsBatch rows) := by
  rw [insertTerminalEventsBatch]
  split
  · exact .pure ()
  · exact .transaction (.forEach fun entry _ => .void (.insert (fun _ _ => trivial) fun _ _ updates => nomatch updates))

theorem revokeWebDevice_evolves (id : String) (now : DateTime) :
    Evolves Migration.installed (storeEvolution edits prunes) (revokeWebDevice platform id now) := by
  refine .bind (.update fun _ => trivial) fun changed => ?_
  split
  · exact .pure ()
  · refine .bind (.select _ _) fun rows => ?_
    split
    · exact .fail _
    · exact .pure ()

theorem trySetInitialWebPassword_evolves (argon2Hash : String) (now : DateTime) :
    Evolves Migration.installed (storeEvolution edits prunes) (trySetInitialWebPassword platform argon2Hash now) :=
  .bind (.insert (fun _ _ => trivial) fun _ _ _ _ _ => trivial) fun _ => .pure _

theorem insertWebDevice_evolves (id name tokenHash : String) (now : DateTime) :
    Evolves Migration.installed (storeEvolution edits prunes) (insertWebDevice platform id name tokenHash now) :=
  .void (.insert (fun _ _ => trivial) fun _ _ _ _ _ => trivial)

theorem trySetInitialWebPasswordAndDevice_evolves (argon2Hash id name tokenHash : String) (now : DateTime) :
    Evolves Migration.installed (storeEvolution edits prunes)
      (trySetInitialWebPasswordAndDevice platform argon2Hash id name tokenHash now) := by
  refine .transaction (.bind (trySetInitialWebPassword_evolves _ _) fun created => ?_)
  split
  · exact .bind (insertWebDevice_evolves _ _ _ _) fun _ => .pure _
  · exact .pure _

theorem resetWebPassword_evolves :
    Evolves Migration.installed (storeEvolution edits prunes) resetWebPassword := by
  refine .transaction (.bind ?_ fun _ => .bind ?_ fun _ => .void ?_)
  all_goals exact delete_evolves fun _ => trivial

end Store

namespace StoreWrite
variable {platform : StorePlatform}

/-- The operations that create sessions or change an order. -/
def edits : StoreWrite → Bool
  | .openRaw | .createTerminalSession .. | .setTerminalSortOrder .. => true
  | _ => false

/-- The operations of retention. -/
def prunes : StoreWrite → Bool
  | .archiveAndPrune .. | .runRetention .. => true
  | _ => false

theorem machine_step {created : String} {db : StateDb} {event : String × StoreWrite} :
    (machine platform created).step db event = some (event.2.perform platform event.1 db).2 := rfl

open Store in
/-- Every operation but another start, which needs the marker of the first one. -/
theorem perform_evolves (op : StoreWrite) (running : op ≠ .openRaw) :
    Evolves Migration.installed (storeEvolution op.edits op.prunes) (op.perform platform) := by
  cases op with
  | openRaw => contradiction
  | persistPending req => exact .void (.insert (fun _ _ => trivial) fun _ _ updates => nomatch updates)
  | deletePending id => exact deletePending_evolves.void
  | deleteManagedSpawnPending id => exact .void (.bind deletePending_evolves fun _ => .pure _)
  | drainOrphanedPending now => exact (drainOrphanedPending_evolves now).void
  | resolvePending id decision now => exact resolvePendingBy_evolves id decision _ now
  | resolvePendingBy id decision decidedBy now => exact resolvePendingBy_evolves id decision decidedBy now
  | resolveSpawnPendingBy id reviewed decidedBy now => exact (resolveSpawnPendingBy_evolves id reviewed decidedBy now).void
  | forceFailclosedSpawnResolution id decidedBy fallback now =>
    exact (forceFailclosed_evolves id decidedBy fallback now).void
  | recordSpawnActionFailure id error => exact (recordSpawnActionFailure_evolves id error).void
  | attachToolResult agentId toolName toolResult toolUseId now tie =>
    exact (attachToolResult_evolves agentId toolName toolResult toolUseId now tie).void
  | storeToolResult toolResult id => exact storeToolResult_evolves _ _
  | logAutoApproved entry => exact .void (.bind insertLog_evolves fun _ => .pure _)
  | archiveAndPrune byAge byCount maxRows cutoff => exact (archiveAndPrune_evolves byAge byCount maxRows cutoff).void
  | runRetention byAge byCount maxRows cutoff =>
    exact .void (.bind (archiveAndPrune_evolves byAge byCount maxRows cutoff) fun _ =>
      .bind (pruneTerminalEvents_evolves cutoff) fun _ => .pure _)
  | createTerminalSession data env =>
    exact .void (.insert (fun _ _ edited => nomatch edited) fun _ _ updates => nomatch updates)
  | setTerminalSortOrder id sortOrder => exact .void (.update fun _ edited => nomatch edited)
  | setTerminalGroup id group => exact (updateSession_evolves rfl rfl).void
  | setTerminalPinned id pinned => exact (updateSession_evolves rfl rfl).void
  | endTerminalSession id exitCode status now => exact (updateSession_evolves rfl rfl).void
  | grantTerminalReplayAccess id requester => exact grantTerminalReplayAccess_evolves id requester
  | insertTerminalEventsBatch rows => exact insertTerminalEventsBatch_evolves rows
  | markRunningTerminalsOrphaned now =>
    exact .void (.bind (.select _ _) fun _ => .bind (updateSession_evolves rfl rfl) fun _ => .pure _)
  | resurrectTerminalSession id => exact (updateSession_evolves rfl rfl).void
  | pruneTerminalEvents cutoff => exact (pruneTerminalEvents_evolves cutoff).void
  | saveConfigWatchSnapshot snapshot hash now =>
    exact .void (.insert (fun _ _ => trivial) fun _ _ _ _ _ => trivial)
  | setWebPassword argon2Hash now => exact .void (.insert (fun _ _ => trivial) fun _ _ _ _ _ => trivial)
  | trySetInitialWebPassword argon2Hash now => exact (trySetInitialWebPassword_evolves argon2Hash now).void
  | trySetInitialWebPasswordAndDevice argon2Hash id name tokenHash now =>
    exact (trySetInitialWebPasswordAndDevice_evolves argon2Hash id name tokenHash now).void
  | replaceWebPasswordHashIfCurrent expected replacement now =>
    exact .void (.bind (.update fun _ => trivial) fun _ => .pure _)
  | resetWebPassword => exact resetWebPassword_evolves
  | insertWebDevice id name tokenHash now => exact insertWebDevice_evolves id name tokenHash now
  | revokeWebDevice id now => exact revokeWebDevice_evolves id now
  | touchWebDevice id ip now => exact .void (.update fun _ => trivial)
  | appendWebAudit event deviceId ip detail now => exact .void (.insert (fun _ _ => trivial) fun _ _ updates => nomatch updates)
  | insertWebPasskey id deviceId publicKey signCount transports aaguid rpId now =>
    exact .void (.insert (fun _ _ => trivial) fun _ _ updates => nomatch updates)
  | updatePasskeySignCountAndLastUsed credentialId newSignCount now => exact .void (.update fun _ => trivial)

end StoreWrite

/-! ### The first migration -/

namespace Migration
variable {epochMs : String → Option Int} {created : String}

/-- The row that says that the search index is installed. -/
def marker (created : String) : Row StoreColumn :=
  markers.rowOf created [] [(.name, ftsMarker)]

theorem rows_migrate_empty (table : StoreTable) :
    (migrate epochMs created {}).2.rows table = if table = .schemaMigrations then [marker created] else [] := by
  cases table <;> cbv

/-- A fresh database meets its constraints. -/
theorem Live.start : Live (migrate epochMs created {}).2 := by
  have lone : ∀ table definition, installed.table table = some definition →
      definition.references = [] ∨ table ≠ .schemaMigrations := by
    intro table definition defined
    by_cases named : table = .schemaMigrations
    · rw [named, table_markers] at defined
      exact .inl (Option.some.inj defined ▸ rfl)
    · exact .inr named
  refine ⟨schema_migrate_empty, ⟨fun table definition defined => ?_, ?_⟩, marker created, ?_, rfl⟩
  · rw [schema_migrate_empty] at defined
    rw [rows_migrate_empty]
    split
    · next named =>
      rw [named, table_markers] at defined
      cases defined
      exact ⟨fun row member => by rw [List.mem_singleton.mp member]; rfl, rfl⟩
    · exact ⟨fun row member => (List.not_mem_nil member).elim, rfl⟩
  · rw [Database.intact, schema_migrate_empty, List.all_eq_true]
    intro entry member
    rw [List.all_eq_true]
    intro reference listed
    rw [rows_migrate_empty]
    split
    · next named =>
      have bare : (installed.tables.all fun entry =>
          entry.1 ≠ .schemaMigrations || entry.2.references.isEmpty) = true := by
        decide +kernel
      have empty := List.all_eq_true.mp bare entry member
      rw [named] at empty
      cases references : entry.2.references with
      | nil =>
        rw [references] at listed
        cases listed
      | cons => simp [references] at empty
    · rfl
  · rw [rows_migrate_empty]
    exact List.mem_singleton_self _

theorem Live.perform {db : StateDb} (live : Live db) (platform : StorePlatform) (clock : String) (op : StoreWrite) :
    Evolved installed (storeEvolution op.edits op.prunes) db (op.perform platform clock db).2 := by
  by_cases restarts : op = .openRaw
  · subst restarts
    have filled : Live (Migration.backfill platform.epochMs clock db).2 := live.backfill
    have again := migrate_installed live.schema filled.schema filled.marked
    rw [StoreWrite.perform, again]
    exact backfill_evolves (fun _ _ edited => nomatch edited) clock db live.schema live.sound
  · exact StoreWrite.perform_evolves op restarts clock db live.schema live.sound

/-- Every database that operations lead to is between two operations. -/
theorem Live.reached {platform : StorePlatform} {meets : StateDb → String × StoreWrite → Prop} {db : StateDb}
    (reached : Machine.Reachable (StoreWrite.machine platform created) meets db) : Live db := by
  have initial : Live (StoreWrite.machine platform created).start := by
    simp only [StoreWrite.machine]
    exact Live.start
  refine reached.invariant initial fun before event after live _ taken => ?_
  cases taken
  exact live.evolved (live.perform platform event.1 event.2) fun _ _ same => same

/-! ### Restarts -/

variable {platform : StorePlatform} {clock : String} {db : StateDb}

theorem backfillValue_ordered (row : Row StoreColumn) :
    backfillValue epochMs (ordered epochMs row) = backfillValue epochMs row := by
  rw [backfillValue, ordered_of_ne row (by decide), backfillValue]

/-- What a backfill did it does not do again. -/
theorem Resting.backfill (live : Live db) : Resting epochMs (Migration.backfill epochMs clock db).2 := by
  by_cases undated : ∃ row ∈ db.rows .terminalSessions, row .sortOrder = .integer 0 ∧ backfillValue epochMs row = .null
  · obtain ⟨row, member, zero, null⟩ := undated
    rw [backfill_refused live member zero null]
    exact .inl ⟨row, member, zero, null⟩
  · have dated : ∀ row ∈ db.rows .terminalSessions, row .sortOrder = .integer 0 → backfillValue epochMs row ≠ .null :=
      fun row member zero null => undated ⟨row, member, zero, null⟩
    rw [backfill_stored live dated]
    refine .inr fun row member zero => ?_
    rw [rows_store_self, List.mem_map] at member
    obtain ⟨old, _, rfl⟩ := member
    rw [backfillValue_ordered]
    by_cases first : old .sortOrder = .integer 0
    · rwa [ordered, if_pos first, Function.update_self] at zero
    · rw [ordered, if_neg first] at zero
      exact absurd zero first

theorem rows_backfill_of_ne (live : Live db) {table : StoreTable} (other : table ≠ .terminalSessions) :
    (Migration.backfill epochMs clock db).2.rows table = db.rows table := by
  have evolved : Evolved installed
      { allows := fun table before after => table ≠ .terminalSessions → after = before
        refl := fun _ _ _ => rfl
        trans := fun first later other => (later other).trans (first other) } db (Migration.backfill epochMs clock db).2 :=
    backfill_evolves (fun _ _ other => absurd rfl other) clock db live.schema live.sound
  exact evolved.rows table other

/-- A restart succeeds. It changes the order of sessions at most, it changes nothing exactly if
no session with the order 0 is due, and a second one changes nothing. -/
theorem restart_settles (reached : Machine.Reachable (StoreWrite.machine platform created) Machine.free db) (clock : String) :
    (migrate platform.epochMs clock db).1 = .ok () ∧
      (∀ table, table ≠ .terminalSessions → (migrate platform.epochMs clock db).2.rows table = db.rows table) ∧
      ((migrate platform.epochMs clock db).2 = db ↔ Resting platform.epochMs db) ∧
      ∀ later, migrate platform.epochMs later (migrate platform.epochMs clock db).2 =
        (.ok (), (migrate platform.epochMs clock db).2) := by
  have live : Live db := .reached reached
  have filled : Live (Migration.backfill platform.epochMs clock db).2 := live.backfill
  have restarted := migrate_installed live.schema filled.schema filled.marked
  rw [restarted]
  refine ⟨rfl, fun table other => ?_, ?_, fun later => ?_⟩
  · exact rows_backfill_of_ne live other
  · rw [← rows_migrate_iff live, restarted]
    exact ⟨fun same => by rw [same], fun same => Sql.Database.ext (filled.schema.trans live.schema.symm) same⟩
  · have refilled : Live (Migration.backfill platform.epochMs later (Migration.backfill platform.epochMs clock db).2).2 :=
      filled.backfill
    have settled := (@rows_migrate_iff _ later _ filled).mpr (Resting.backfill live)
    rw [migrate_installed filled.schema refilled.schema refilled.marked] at settled ⊢
    exact Prod.ext rfl (Sql.Database.ext (refilled.schema.trans filled.schema.symm) settled)

/-! ### Runs without an order of 0 -/

/-- Every session with the order 0 is ordered so by the backfill. -/
def Due (epochMs : String → Option Int) (db : StateDb) : Prop :=
  ∀ row ∈ db.rows .terminalSessions, row .sortOrder = .integer 0 → backfillValue epochMs row = .integer 0

theorem Due.resting (due : Due epochMs db) : Resting epochMs db :=
  .inr due

theorem migrate_of_due (live : Live db) (due : Due epochMs db) : (migrate epochMs clock db).2 = db := by
  have filled : Live (Migration.backfill epochMs clock db).2 := live.backfill
  have rows := (@rows_migrate_iff _ clock _ live).mpr due.resting
  rw [migrate_installed live.schema filled.schema filled.marked] at rows ⊢
  exact Sql.Database.ext (filled.schema.trans live.schema.symm) rows

/-- Where no start and no order changes, the sessions are due as before. -/
theorem Due.of_placed {after : StateDb}
    (same : (after.rows .terminalSessions).map placed = (db.rows .terminalSessions).map placed) (due : Due epochMs db) :
    Due epochMs after := by
  intro row member zero
  have found : placed row ∈ (db.rows .terminalSessions).map placed := same ▸ List.mem_map_of_mem member
  obtain ⟨old, present, equal⟩ := List.mem_map.mp found
  have started : old .startedAt = row .startedAt := congrArg Prod.fst equal
  have order : old .sortOrder = row .sortOrder := congrArg Prod.snd equal
  have value := due old present (order.trans zero)
  rwa [backfillValue, started] at value

theorem backfillValue_read {epochMs : String → Option Int} {row : Sql.Row StoreColumn} {startedAt : String} {ms : Int}
    (started : row .startedAt = .text startedAt) (read : epochMs startedAt = some ms) :
    backfillValue epochMs row = .integer (-ms) := by
  rw [backfillValue, started]
  simp only [read]

theorem Due.create {data : TerminalSessionMeta} {env : Option TerminalEnvSpec}
    (spares : StoreWrite.Spares platform db (.createTerminalSession data env)) (live : Live db)
    (due : Due platform.epochMs db) :
    Due platform.epochMs (Store.createTerminalSession platform data env clock db).2 := by
  let fresh : Evolution StoreTable StoreColumn :=
    { allows := fun table before after => table = .terminalSessions →
        (∀ row ∈ before, row .sortOrder = .integer 0 → backfillValue platform.epochMs row = .integer 0) →
        ∀ row ∈ after, row .sortOrder = .integer 0 → backfillValue platform.epochMs row = .integer 0
      refl := fun _ _ _ due => due
      trans := fun first later named due => later named (first named due) }
  have evolved : Evolved installed fresh db (Store.createTerminalSession platform data env clock db).2 := by
    refine Evolved.bind (.insert clock live.schema live.sound (fun definition _ _ due row member zero => ?_)
      fun _ _ updates => nomatch updates) fun _ => .pure ()
    rcases List.mem_append.mp member with old | new
    · exact due row old zero
    · rw [List.mem_singleton.mp new] at zero ⊢
      have order : data.sortOrder = 0 := Value.integer.inj zero
      exact backfillValue_read rfl (spares order)
  exact evolved.rows .terminalSessions rfl due

theorem Due.reorder {id : Uuid} {sortOrder : Int}
    (spares : StoreWrite.Spares platform db (.setTerminalSortOrder id sortOrder)) (live : Live db)
    (due : Due platform.epochMs db) : Due platform.epochMs (Store.setTerminalSortOrder id sortOrder clock db).2 := by
  let given : Evolution StoreTable StoreColumn :=
    { allows := fun table before after => table = .terminalSessions → after = before ∨
        after = (db.rows .terminalSessions).map fun row =>
          if Store.hasId id row then Command.assigned [(.sortOrder, fun _ => .integer sortOrder)] row else row
      refl := fun _ _ _ => .inl rfl
      trans := fun {table first middle last} former later named =>
        (later named).elim (fun same => same ▸ former named) .inr }
  have evolved : Evolved installed given db (Store.setTerminalSortOrder id sortOrder clock db).2 :=
    Evolved.bind (.update clock live.schema live.sound fun _ => .inr rfl) fun _ => .pure ()
  rcases evolved.rows .terminalSessions rfl with same | changed
  · exact due.of_placed (by rw [same])
  · intro row member zero
    rw [changed, List.mem_map] at member
    obtain ⟨old, present, rfl⟩ := member
    split at zero
    · next chosen =>
      rw [if_pos chosen, assigned_one] at *
      rw [Function.update_self] at zero
      have value := spares (Value.integer.inj zero) old present chosen
      rwa [backfillValue, Function.update_of_ne (by decide)]
    · next other =>
      rw [if_neg other]
      exact due old present zero

theorem Due.perform {op : StoreWrite} (spares : op.Spares platform db) (live : Live db) (due : Due platform.epochMs db) :
    Due platform.epochMs (op.perform platform clock db).2 := by
  cases edited : op.edits with
  | false =>
    have placed := (live.perform platform clock op).rows .terminalSessions edited
    exact due.of_placed placed
  | true =>
    cases op with
    | openRaw => rwa [StoreWrite.perform, migrate_of_due live due]
    | createTerminalSession data env => exact due.create spares live
    | setTerminalSortOrder id sortOrder => exact due.reorder spares live
    | _ => cases edited

/-- In a run that gives the order 0 only to sessions that the backfill would order so, no restart
changes anything. -/
theorem spared_restart (reached : Machine.Reachable (StoreWrite.machine platform created)
    (fun before event => event.2.Spares platform before) db) (clock : String) :
    migrate platform.epochMs clock db = (.ok (), db) := by
  have settled : Live db ∧ Due platform.epochMs db := by
    refine @Machine.Reachable.invariant _ _ _ _ (fun db => Live db ∧ Due platform.epochMs db) _ reached ?_
      fun before event after both spares taken => ?_
    · simp only [StoreWrite.machine]
      refine ⟨Live.start, fun row member => ?_⟩
      rw [rows_migrate_empty] at member
      cases member
    · cases taken
      exact ⟨both.1.evolved (both.1.perform platform event.1 event.2) fun _ _ same => same, both.2.perform spares both.1⟩
  have filled : Live (Migration.backfill platform.epochMs clock db).2 := settled.1.backfill
  have restarted := migrate_installed settled.1.schema filled.schema filled.marked
  refine Prod.ext ?_ (migrate_of_due settled.1 settled.2)
  rw [restarted]

/-! ### A session of order 0 -/

/-- A clock of two instants. -/
private def epochPlatform : StorePlatform where
  clock := { toRfc3339 := fun instant => if instant = 0 then "1970-01-01T00:00:00+00:00" else "1970-01-01T00:01:00+00:00" }
  ingest := { fromStr := fun _ => none, finish := fun bytes => bytes.length, parseFromRfc3339 := fun _ => none, parseUuid := fun _ => none }
  epochMs text :=
    if text = "1970-01-01T00:00:00+00:00" then some 0 else if text = "1970-01-01T00:01:00+00:00" then some 60000 else none

private def shell (startedAt : DateTime) : StoreWrite :=
  .createTerminalSession { id := 7, command := "sh", cwd := ⟨"/home/dev"⟩, cols := 80, rows := 24, startedAt, sortOrder := 3 } none

private def started (startedAt : DateTime) : StateDb :=
  ((shell startedAt).perform epochPlatform "" (StoreWrite.machine epochPlatform "").start).2

/-- A session is created, and a user then gives it the order 0. -/
private def reordered (startedAt : DateTime) : StateDb :=
  ((StoreWrite.setTerminalSortOrder 7 0).perform epochPlatform "" (started startedAt)).2

private theorem reordered_reached {meets : StateDb → String × StoreWrite → Prop} {startedAt : DateTime}
    (creates : meets (StoreWrite.machine epochPlatform "").start ("", shell startedAt))
    (reorders : meets (started startedAt) ("", .setTerminalSortOrder 7 0)) :
    Machine.Reachable (StoreWrite.machine epochPlatform "") meets (reordered startedAt) :=
  .step (.step .start creates StoreWrite.machine_step) reorders StoreWrite.machine_step

/-- Started a minute after the epoch, the session is ordered once. -/
theorem restart_settles_reordered :
    (∃ row ∈ (reordered 60000000000).rows .terminalSessions, row .sortOrder = .integer 0) ∧
      (migrate epochPlatform.epochMs "" (reordered 60000000000)).2 ≠ reordered 60000000000 ∧
      ∀ later, migrate epochPlatform.epochMs later (migrate epochPlatform.epochMs "" (reordered 60000000000)).2 =
        (.ok (), (migrate epochPlatform.epochMs "" (reordered 60000000000)).2) := by
  have zero : ∃ row ∈ (reordered 60000000000).rows .terminalSessions, row .sortOrder = .integer 0 := by decide +kernel
  have dated : ∀ row ∈ (reordered 60000000000).rows .terminalSessions,
      backfillValue epochPlatform.epochMs row = .integer (-60000) := by
    decide +kernel
  obtain ⟨_, _, unchanged, settled⟩ := restart_settles (@reordered_reached Machine.free 60000000000 trivial trivial) ""
  refine ⟨zero, fun same => ?_, settled⟩
  rcases unchanged.mp same with ⟨row, member, _, null⟩ | due
  · exact Value.noConfusion (null.symm.trans (dated row member))
  · obtain ⟨row, member, ordered⟩ := zero
    exact absurd ((due row member ordered).symm.trans (dated row member)) (by decide)

/-- Started at the epoch, the session is ordered by nothing but its 0. -/
theorem spared_restart_reordered :
    (∃ row ∈ (reordered 0).rows .terminalSessions, row .sortOrder = .integer 0) ∧
      migrate epochPlatform.epochMs "" (reordered 0) = (.ok (), reordered 0) := by
  have spared : ∀ row ∈ (started 0).rows .terminalSessions, Store.hasId 7 row = true →
      backfillValue epochPlatform.epochMs row = .integer 0 := by
    decide +kernel
  exact ⟨by decide +kernel, spared_restart (reordered_reached (fun zero => absurd zero (by decide)) fun _ => spared) ""⟩

end Migration

/-! ### The log -/

/-- Operations only append to the log, and amend its rows in place. Rows leave it by retention
alone, and none comes back or changes its place. -/
theorem log_append_only {platform : StorePlatform} {created : String} {before after : StateDb}
    {events : List (String × StoreWrite)}
    (reached : Machine.Reachable (StoreWrite.machine platform created) Machine.free before)
    (taken : (StoreWrite.machine platform created).run Machine.free before events = some after) :
    Revises Amended (before.rows .decisionLog) (after.rows .decisionLog) ∧
      ((∀ event ∈ events, event.2.prunes = false) →
        Extends Amended (before.rows .decisionLog) (after.rows .decisionLog)) := by
  have live : Migration.Live before := .reached reached
  clear reached
  induction events generalizing before with
  | nil =>
    cases taken
    exact ⟨.of_sublist .refl (List.Sublist.refl _), fun _ => .refl .refl _⟩
  | cons event rest ih =>
    rw [Machine.run_free_cons] at taken
    obtain ⟨middle, first, later⟩ := Option.bind_eq_some_iff.mp taken
    cases first
    have evolved := live.perform platform event.1 event.2
    obtain ⟨revised, extended⟩ := ih later (live.evolved evolved fun _ _ same => same)
    have step := evolved.rows .decisionLog
    refine ⟨.trans .trans step.1 revised, fun plain => ?_⟩
    exact .trans .trans (step.2 (plain event List.mem_cons_self))
      (extended fun other member => plain other (List.mem_cons_of_mem _ member))

/-- A hook approved a call by itself. -/
private def approvedEntry (toolUseId : String) : AutoApprovedEntry where
  agentId := "cc-1"
  agentType := "\"claude_code\""
  project := "/work"
  toolName := "Bash"
  toolInput := "null"
  timestamp := "1970-01-01T00:00:00+00:00"
  toolUseId := some toolUseId
  hookEventName := some "PreToolUse"
  decision := "approve"
  decidedBy := some "rule:Bash"
  configHash := none

private def approvedLog : StateDb :=
  ((StoreWrite.logAutoApproved (approvedEntry "t1")).perform Migration.epochPlatform ""
    (StoreWrite.machine Migration.epochPlatform "").start).2

private def attached (result : String) : String × StoreWrite :=
  ("", .storeToolResult (.string result) (uuidText ((approvedEntry "t1").row Migration.epochPlatform.ingest).id))

/-- Two results are stored for the call, and another call is logged between them. -/
private def resultsArrive : List (String × StoreWrite) :=
  [attached "first", ("", .logAutoApproved (approvedEntry "t10")), attached "second"]

theorem log_append_only_attached : ∃ after,
    (StoreWrite.machine Migration.epochPlatform "").run Machine.free approvedLog resultsArrive = some after ∧
      (approvedLog.rows .decisionLog).map (· .toolResult) = [.null] ∧
      (after.rows .decisionLog).map (· .toolResult) = [.text "\"second\"", .null] ∧
      Extends Amended (approvedLog.rows .decisionLog) (after.rows .decisionLog) := by
  have reached : Machine.Reachable (StoreWrite.machine Migration.epochPlatform "") Machine.free approvedLog :=
    .step .start (show Machine.free _ ("", StoreWrite.logAutoApproved (approvedEntry "t1")) from trivial) StoreWrite.machine_step
  have replaced : ((StoreWrite.machine Migration.epochPlatform "").run Machine.free approvedLog resultsArrive).map
      (fun after => (after.rows .decisionLog).map (· .toolResult)) = some [.text "\"second\"", .null] := by
    decide +kernel
  obtain ⟨after, taken, results⟩ := Option.map_eq_some_iff.mp replaced
  exact ⟨after, taken, by decide +kernel, results, (log_append_only reached taken).2 (by decide)⟩

end Wisphive
