import Wisphive.Restarts
import Wisphive.Proofs.Retention
import Wisphive.Proofs.SegmentRecovery

/-! Records of an event line. The table's key keeps a second row out only while the first
one is there, so a line must not be read once retention has taken its row. -/

namespace Wisphive.Restarts
open Foundation Retention

variable {platform : IngestPlatform} {clock : TextClock} {fromStr : String → Option Json} {initial : Run.Start}
  {run after : Run} {store later : Retention.Run} {id : Uuid}

/-- No sweep has deleted a row of this id. -/
def Fresh (store : Retention.Run) (id : Uuid) : Prop :=
  id ∉ store.deleted.map (·.id)

instance (store : Retention.Run) (id : Uuid) : Decidable (Fresh store id) :=
  inferInstanceAs (Decidable (¬ _))

/-- A pass that ends here leaves no row in the table whose line is in the archive. -/
def Interruptible (store : Retention.Run) (survive : Nat) : Prop :=
  match store.sweep with
  | .archive _ _ (.write rows) => rows.take survive = []
  | .archive _ ids .delete => store.log.filter (·.id ∈ ids.take batchSize) = []
  | _ => True

instance (store : Retention.Run) (survive : Nat) : Decidable (Interruptible store survive) :=
  match sweep : store.sweep with
  | .archive _ _ (.write rows) => decidable_of_iff (rows.take survive = []) (by rw [Interruptible, sweep])
  | .archive _ ids .delete =>
    decidable_of_iff (store.log.filter (·.id ∈ ids.take batchSize) = []) (by rw [Interruptible, sweep])
  | .idle | .count _ | .archive _ _ .openFile | .archive _ _ .read => .isTrue (by rw [Interruptible, sweep]; trivial)

namespace Run
variable (platform)

/-- A line that is read records no id whose row a sweep has deleted, nor does another writer,
and no pass is interrupted between a batch's write and its delete. -/
def Meets (run : Run) : Event → Prop
  | .append _ | .rotate _ _ | .serve _ _ => True
  | .readLine fails _ => fails = false → ∀ line ∈ run.nextLine,
    ∀ decision ∈ EventIngest.lineDecision platform line, Fresh run.directory.store decision.2.id
  | .retention event =>
    match event with
    | .insertLog row => Fresh run.directory.store row.id
    | .interrupt survive _ => Interruptible run.directory.store survive
    | .attachToolResult _ _ | .archiveAndPrune _ _ | .advance _ => True
  | .restart survive _ _ => Interruptible run.directory.store survive
  | .reimport faults _ _ =>
    match run.directory.phase with
    | .recovering _ (name :: _) => ∀ file ∈ run.directory.find name,
      ∀ decision ∈ EventIngest.untilFault (EventIngest.decisions platform (file.lines.takeWhile EventIngest.valid)) faults,
        Fresh run.directory.store decision.2.id
    | _ => True

instance (run : Run) : (event : Event) → Decidable (run.Meets platform event)
  | .append _ | .rotate _ _ | .serve _ _ => .isTrue trivial
  | .readLine fails _ => inferInstanceAs (Decidable (fails = false → ∀ line ∈ run.nextLine, _))
  | .retention (.insertLog row) => inferInstanceAs (Decidable (Fresh run.directory.store row.id))
  | .retention (.interrupt survive _) => inferInstanceAs (Decidable (Interruptible run.directory.store survive))
  | .retention (.attachToolResult _ _) | .retention (.archiveAndPrune _ _) | .retention (.advance _) => .isTrue trivial
  | .restart survive _ _ => inferInstanceAs (Decidable (Interruptible run.directory.store survive))
  | .reimport _ _ _ => by
    dsimp only [Meets]
    split <;> infer_instance

end Run

/-- How many lines the archive has for an id. -/
def archived (store : Retention.Run) (id : Uuid) : Nat :=
  store.lines.countP (archivedAs id)

theorem archivedAs_entry (row : LogRow) : archivedAs id (archiveEntry clock fromStr row) = decide (row.id = id) := by
  rw [archivedAs, entry_id]
  apply decide_eq_decide.mpr
  constructor
  · intro same
    injection same with texts
    injection texts with text
    exact uuidText_injective text
  · rintro rfl
    rfl

theorem count_entries (rows : List LogRow) :
    (rows.map (archiveEntry clock fromStr)).countP (archivedAs id) = rows.countP fun row => row.id = id := by
  rw [List.countP_map]
  exact List.countP_congr fun row _ => by rw [Function.comp_apply, archivedAs_entry]

theorem append_count {file : ArchiveFile} {lines : List Json} (selected : Json → Bool) :
    (file.append lines).lines.countP selected ≤ file.lines.countP selected + lines.countP selected := by
  cases lines with
  | nil => exact Nat.le_add_right _ _
  | cons first rest =>
    rw [ArchiveFile.append, List.countP_append]
    apply Nat.add_le_add_left
    split
    · exact (List.sublist_cons_self _ _).countP_le
    · exact Nat.le_refl _

/-- The rows on their way to the archive have distinct ids of the batch, are in the table and
have no line yet. -/
def Underway (store : Retention.Run) : Sweep → Prop
  | .archive _ ids (.write rows) => (rows.map (·.id)).Nodup ∧
    ∀ row ∈ rows, row.id ∈ ids.take batchSize ∧ archived store row.id = 0 ∧ ∃ present ∈ store.log, present.id = row.id
  | _ => True

/-- A table that keeps its ids keeps what is under way. -/
theorem Underway.grow {sweep : Sweep} (underway : Underway store sweep)
    (lines : ∀ id, archived later id = archived store id)
    (grows : ∀ id, (∃ row ∈ store.log, row.id = id) → ∃ row ∈ later.log, row.id = id) : Underway later sweep := by
  cases sweep with
  | archive trim ids stage =>
    cases stage with
    | write rows =>
      obtain ⟨distinct, fresh⟩ := underway
      refine ⟨distinct, fun row member => ?_⟩
      obtain ⟨inside, nothing, present⟩ := fresh row member
      exact ⟨inside, (lines row.id).trans nothing, grows _ present⟩
    | openFile | read | delete => trivial
  | idle | count => trivial

/-- An id has one line at most, and its row is then deleted or about to be. -/
structure Single (store : Retention.Run) : Prop where
  unique : Table.Distinct LogRow.conflicts store.log
  one : ∀ id, archived store id ≤ 1
  table : ∀ row ∈ store.log, archived store row.id = 0 ∨ row.id ∈ written store
  gone : ∀ id, 0 < archived store id → id ∈ store.deleted.map (·.id) ∨
    id ∈ written store ∧ ∃ row ∈ store.log, row.id = id
  underway : Underway store store.sweep

theorem same_id {log : List LogRow} (unique : Table.Distinct LogRow.conflicts log) :
    log.countP (fun row => row.id = id) ≤ 1 := by
  have distinct := ids_nodup unique
  have counted : (log.map (·.id)).count id = log.countP fun row => row.id = id := by
    rw [List.count, List.countP_map]
    exact List.countP_congr fun row _ => by simp
  rw [← counted]
  exact List.nodup_iff_count_le_one.mp distinct id

theorem Single.records (single : Single store) (id : Uuid) : Restarts.records store id ≤ 1 := by
  have bound : store.log.countP (fun row => row.id = id && row.id ∉ written store) ≤
      store.log.countP fun row => row.id = id := by
    apply List.countP_mono_left
    intro row _ both
    simp only [Bool.and_eq_true] at both
    exact both.1
  have table := @same_id id _ single.unique
  have one := single.one id
  unfold Restarts.records
  change archived store id + _ ≤ 1
  by_cases unarchived : archived store id = 0
  · omega
  · have nothing : store.log.countP (fun row => row.id = id && row.id ∉ written store) = 0 := by
      apply List.countP_eq_zero.mpr
      intro row member chosen
      simp only [Bool.and_eq_true, decide_eq_true_eq] at chosen
      obtain ⟨rfl, outside⟩ := chosen
      exact (single.table row member).elim unarchived outside
    omega

/-- A pass that is at no write or delete leaves the records as they are. -/
theorem Single.resweep (single : Single store) {sweep : Sweep} (settled : written store = [])
    (empty : written { store with sweep } = []) (underway : Underway store sweep) :
    Single { store with sweep } where
  unique := single.unique
  one := single.one
  table row member := by
    rw [empty]
    have row_archived := single.table row member
    rwa [settled] at row_archived
  gone id positive := by
    rw [empty]
    have known := single.gone id positive
    rwa [settled] at known
  underway := underway

theorem Single.insertLog (single : Single store) {row : LogRow} (fresh : Fresh store row.id) (recorded : List Uuid) :
    Single { store with log := (Table.insertOrIgnore LogRow.conflicts store.log row).2, recorded } := by
  have grows : ∀ id, (∃ other ∈ store.log, other.id = id) →
      ∃ other ∈ (Table.insertOrIgnore LogRow.conflicts store.log row).2, other.id = id := by
    rintro id ⟨other, present, same⟩
    exact ⟨other, Table.mem_insertOrIgnore present, same⟩
  refine ⟨single.unique.insertOrIgnore LogRow.conflicts_symm, single.one, fun other member => ?_, fun id positive => ?_, ?_⟩
  · rcases Table.of_mem_insertOrIgnore member with before | ⟨rfl, clear⟩
    · exact single.table other before
    · left
      by_contra archived
      rcases single.gone other.id (Nat.pos_of_ne_zero archived) with deleted | ⟨_, present, inside, same⟩
      · exact fresh deleted
      · have free := clear present inside
        simp [LogRow.conflicts, same] at free
  · exact (single.gone id positive).imp_right (And.imp_right (grows id))
  · exact single.underway.grow (fun _ => rfl) grows

theorem Single.attach (single : Single store) (target : Uuid) (stored : String) :
    Single { store with
      log := (Table.update store.log (·.id = target) fun row => { row with toolResult := some stored }).2 } := by
  have grows : ∀ id, (∃ other ∈ store.log, other.id = id) → ∃ other ∈ (Table.update store.log (·.id = target)
      fun row => { row with toolResult := some stored }).2, other.id = id := by
    rintro id ⟨other, present, same⟩
    obtain ⟨later, inside, equal, _⟩ := @ToolResults.mem_stored _ target stored _ present
    exact ⟨later, inside, equal.trans same⟩
  refine ⟨ToolResults.distinct_stored single.unique target stored, single.one, fun other member => ?_,
    fun id positive => ?_, ?_⟩
  · obtain ⟨before, inside, rfl⟩ := List.mem_map.mp member
    have known := single.table before inside
    split <;> exact known
  · exact (single.gone id positive).imp_right fun ⟨inside, present⟩ => ⟨inside, grows id present⟩
  · exact single.underway.grow (fun _ => rfl) grows

theorem afterArchive_single (single : Single store) (settled : written store = []) (trim : Option Nat) :
    Single { store with sweep := Run.afterArchive trim } := by
  cases trim <;> exact single.resweep settled rfl trivial

theorem archiveIds_single (single : Single store) (settled : written store = []) (trim : Option Nat) (ids : List Uuid) :
    Single { store with sweep := Run.archiveIds trim ids } := by
  cases ids with
  | nil => exact afterArchive_single single settled trim
  | cons first rest => exact single.resweep settled rfl trivial

/-- The batch that was read gets its lines. -/
theorem Single.write (single : Single store) {trim : Option Nat} {ids : List Uuid} {rows : List LogRow}
    (sweep : store.sweep = .archive trim ids (.write rows)) :
    Single { store with
      archive := store.archive.append (rows.map (archiveEntry clock fromStr)), sweep := .archive trim ids .delete } := by
  have settled : written store = [] := by rw [written, sweep]
  have underway := single.underway
  rw [sweep] at underway
  obtain ⟨distinct, fresh⟩ := underway
  have bound : ∀ id, archived { store with
      archive := store.archive.append (rows.map (archiveEntry clock fromStr)), sweep := .archive trim ids .delete } id ≤
      archived store id + rows.countP fun row => row.id = id := by
    intro id
    have grown := @append_count store.archive (rows.map (archiveEntry clock fromStr)) (archivedAs id)
    rw [count_entries] at grown
    simp only [archived, Retention.Run.lines, List.countP_append] at grown ⊢
    omega
  have counted : ∀ id, (rows.map (·.id)).count id = rows.countP fun row => row.id = id := by
    intro id
    rw [List.count, List.countP_map]
    exact List.countP_congr fun row _ => by simp
  have once : ∀ id, rows.countP (fun row => row.id = id) ≤ 1 := by
    intro id
    rw [← counted]
    exact List.nodup_iff_count_le_one.mp distinct id
  have absent : ∀ id, (∀ row ∈ rows, row.id ≠ id) → rows.countP (fun row => row.id = id) = 0 := by
    intro id none
    apply List.countP_eq_zero.mpr
    intro row member chosen
    exact none row member (of_decide_eq_true chosen)
  refine ⟨single.unique, fun id => ?_, fun row member => ?_, fun id positive => ?_, trivial⟩
  · by_cases present : ∃ row ∈ rows, row.id = id
    · obtain ⟨row, member, rfl⟩ := present
      have nothing := (fresh row member).2.1
      have more := bound row.id
      have single_row := once row.id
      omega
    · have nothing := absent id fun row member same => present ⟨row, member, same⟩
      have more := bound id
      have before := single.one id
      omega
  · by_cases inside : row.id ∈ ids.take batchSize
    · exact .inr inside
    · left
      have nothing := absent row.id fun other other_member same => inside (same ▸ (fresh other other_member).1)
      have before := (single.table row member).resolve_right (by rw [settled]; exact List.not_mem_nil)
      have more := bound row.id
      omega
  · by_cases present : ∃ row ∈ rows, row.id = id
    · obtain ⟨row, member, rfl⟩ := present
      obtain ⟨inside, _, kept⟩ := fresh row member
      exact .inr ⟨inside, kept⟩
    · have nothing := absent id fun row member same => present ⟨row, member, same⟩
      have more := bound id
      have known := single.gone id (by omega)
      rw [settled] at known
      exact .inl (known.resolve_right fun both => absurd both.1 List.not_mem_nil)

/-- The batch whose lines are durable leaves the table. -/
theorem Single.delete (single : Single store) {trim : Option Nat} {ids : List Uuid}
    (sweep : store.sweep = .archive trim ids .delete) :
    Single { store with
      log := store.log.filter (·.id ∉ ids.take batchSize)
      deleted := store.deleted ++ store.log.filter (·.id ∈ ids.take batchSize)
      sweep := .archive trim (ids.drop batchSize) .read } := by
  have batch : written store = ids.take batchSize := by rw [written, sweep]
  refine ⟨List.Pairwise.sublist List.filter_sublist single.unique, single.one, fun row member => ?_,
    fun id positive => .inl ?_, trivial⟩
  · obtain ⟨inside, outside⟩ := List.mem_filter.mp member
    refine .inl ((single.table row inside).resolve_right ?_)
    rw [batch]
    exact of_decide_eq_true outside
  · rw [List.map_append]
    rcases single.gone id positive with deleted | ⟨chosen, row, present, rfl⟩
    · exact List.mem_append_left _ deleted
    · rw [batch] at chosen
      apply List.mem_append_right
      exact List.mem_map_of_mem (List.mem_filter.mpr ⟨present, decide_eq_true chosen⟩)

theorem Single.advance (single : Single store) {rotates : Bool}
    (taken : store.advance clock fromStr rotates = some later) : Single later := by
  unfold Retention.Run.advance at taken
  split at taken
  next => cases taken
  next maxRows sweep =>
    cases taken
    exact archiveIds_single single (by rw [written, sweep]) _ _
  next trim ids sweep =>
    have settled : written store = [] := by rw [written, sweep]
    cases taken
    split
    · have moved := @Single.resweep store single (.archive trim ids .read) settled rfl trivial
      have lines : ∀ id, archived { store with
          sweep := .archive trim ids .read, rotated := store.rotated ++ [store.archive], archive := {} } id =
          archived store id := fun id => congrArg (List.countP (archivedAs id)) (@lines_rotate store)
      exact ⟨moved.unique, fun id => (lines id).trans_le (moved.one id),
        fun row member => (moved.table row member).imp_left (lines row.id).trans,
        fun id positive => moved.gone id ((lines id) ▸ positive), trivial⟩
    · exact single.resweep settled rfl trivial
  next trim ids sweep =>
    have settled : written store = [] := by rw [written, sweep]
    cases taken
    split
    · exact afterArchive_single single settled trim
    · apply single.resweep settled rfl
      refine ⟨(ids_nodup single.unique).sublist (List.filter_sublist.map _), fun row member => ?_⟩
      obtain ⟨present, chosen⟩ := List.mem_filter.mp member
      refine ⟨of_decide_eq_true chosen, ?_, row, present, rfl⟩
      exact (single.table row present).resolve_right (by rw [settled]; exact List.not_mem_nil)
  next trim ids rows sweep =>
    cases taken
    exact single.write sweep
  next trim ids sweep =>
    cases taken
    exact single.delete sweep

theorem Single.interrupt (single : Single store) {survive : Nat} (fragment : Bool)
    (safe : Interruptible store survive) : Single (store.interrupt clock fromStr survive fragment) := by
  unfold Retention.Run.interrupt
  split
  next trim ids rows sweep =>
    have settled : written store = [] := by rw [written, sweep]
    simp only [Interruptible, sweep] at safe
    have stopped := @Single.resweep store single .idle settled rfl trivial
    have unwritten : (store.archive.appendCut (rows.map (archiveEntry clock fromStr)) survive fragment).lines =
        store.archive.lines := by
      rw [ArchiveFile.appendCut_lines, ← List.map_take, safe]
      rfl
    have lines : ∀ id, archived { store with
        archive := store.archive.appendCut (rows.map (archiveEntry clock fromStr)) survive fragment
        sweep := .idle } id = archived store id := by
      intro id
      simp only [archived, Retention.Run.lines, unwritten]
    exact ⟨stopped.unique, fun id => (lines id).trans_le (stopped.one id),
      fun row member => (stopped.table row member).imp_left (lines row.id).trans,
      fun id positive => stopped.gone id ((lines id) ▸ positive), trivial⟩
  next other =>
    by_cases deleting : ∃ trim ids, store.sweep = .archive trim ids .delete
    · obtain ⟨trim, ids, sweep⟩ := deleting
      have batch : written store = ids.take batchSize := by rw [written, sweep]
      simp only [Interruptible, sweep] at safe
      have none : ∀ row ∈ store.log, row.id ∉ ids.take batchSize := fun row member chosen =>
        List.filter_eq_nil_iff.mp safe row member (decide_eq_true chosen)
      refine ⟨single.unique, single.one, fun row member => .inl ?_, fun id positive => .inl ?_, trivial⟩
      · exact (single.table row member).resolve_right (batch ▸ none row member)
      · refine (single.gone id positive).resolve_right ?_
        rintro ⟨chosen, row, present, rfl⟩
        exact none row present (batch ▸ chosen)
    · have settled : written store = [] := by
        unfold written
        split
        next trim ids sweep => exact absurd ⟨trim, ids, sweep⟩ deleting
        next => rfl
      exact single.resweep settled rfl trivial

theorem Single.step (single : Single store) {event : Retention.Event}
    (met : match event with
      | .insertLog row => Fresh store row.id
      | .interrupt survive _ => Interruptible store survive
      | .attachToolResult _ _ | .archiveAndPrune _ _ | .advance _ => True)
    (taken : store.step clock fromStr event = some later) : Single later := by
  cases event with
  | insertLog row =>
    cases taken
    exact single.insertLog met _
  | attachToolResult target stored =>
    cases taken
    exact single.attach target stored
  | archiveAndPrune maxRows cutoff =>
    simp only [Retention.Run.step] at taken
    split at taken
    next idle =>
      cases taken
      exact archiveIds_single single (by rw [written, idle]) _ _
    next => cases taken
  | advance rotates => exact single.advance taken
  | interrupt survive fragment =>
    cases taken
    exact single.interrupt fragment met

theorem Single.insertEvent (single : Single store) {row : LogRow} (fresh : Fresh store row.id) :
    Single (Restarts.insertLog platform clock row store) :=
  single.insertLog fresh _

theorem Single.insertAll {decided : List (String × LogRow)} (single : Single store)
    (fresh : ∀ decision ∈ decided, Fresh store decision.2.id) :
    Single (EventIngest.insertAll (Restarts.insertLog platform clock) decided store) := by
  induction decided generalizing store with
  | nil => exact single
  | cons first rest ih =>
    obtain ⟨here, others⟩ := List.forall_mem_cons.mp fresh
    exact ih (single.insertEvent here) others

/-- What a recovery does to the store is what its re-imports insert. -/
theorem Single.reimport {directory ended : SegmentRecovery.Run Retention.Run} (single : Single directory.store)
    {faults : List Bool} {renames removes : Bool}
    (fresh : match directory.phase with
      | .recovering _ (name :: _) => ∀ file ∈ directory.find name,
        ∀ decision ∈ EventIngest.untilFault
          (EventIngest.decisions platform (file.lines.takeWhile EventIngest.valid)) faults,
          Fresh directory.store decision.2.id
      | _ => True)
    (taken : directory.reimport platform (Restarts.insertLog platform clock) faults renames removes = some ended) :
    Single ended.store := by
  obtain ⟨skipped, name, rest, phase, ⟨_, rfl⟩ | ⟨file, found, outcome⟩⟩ := SegmentRecovery.reimport_cases taken
  · exact single
  · rw [phase] at fresh
    have read : Single (directory.reimportAll platform (Restarts.insertLog platform clock) file faults).store := by
      rw [SegmentRecovery.Run.reimportAll, EventIngest.reimportAll, EventIngest.reimport_store]
      exact single.insertAll (fresh file (Option.mem_def.mpr found))
    obtain ⟨_, rfl | ⟨_, rfl⟩⟩ | ⟨_, ⟨_, rfl⟩ | ⟨_, _, rfl⟩ | ⟨_, _, rfl⟩⟩ := outcome <;> exact read

theorem finish_store {ok renames : Bool} : (run.finish platform ok renames).directory.store = run.directory.store := by
  unfold Run.finish
  split
  · rfl
  · rfl
  · split <;> rfl

theorem Single.readLine (single : Single run.directory.store) {fails renames : Bool}
    (met : run.Meets platform (.readLine fails renames)) :
    Single (run.readLine platform clock fails renames).directory.store := by
  unfold Run.readLine
  split
  next =>
    rw [finish_store]
    exact single
  next line next =>
    split
    next =>
      rw [finish_store]
      exact single
    next => exact single
    next text row reading =>
      split
      next =>
        rw [finish_store]
        exact single
      next works =>
        have fresh := met (Bool.eq_false_iff.mpr works) line (Option.mem_def.mpr next) _
          (Option.mem_def.mpr (EventIngest.lineDecision_of_read reading))
        exact @Single.insertEvent platform clock _ single row fresh

theorem single_step (single : Single run.directory.store) {event : Event} (met : run.Meets platform event)
    (taken : run.step platform clock event = some after) : Single after.directory.store := by
  cases event with
  | append piece =>
    cases taken
    exact single
  | readLine fails renames =>
    simp only [Run.step] at taken
    split at taken
    · cases taken
      exact single.readLine met
    · cases taken
  | rotate name modified =>
    simp only [Run.step] at taken
    split at taken
    · cases taken
    · cases taken
    · split at taken
      · cases taken
        exact single
      · cases taken
  | retention event =>
    simp only [Run.step] at taken
    split at taken
    · obtain ⟨later, step, rfl⟩ := Option.map_eq_some_iff.mp taken
      exact single.step met step
    · cases taken
  | restart survive fragment unreadable =>
    simp only [Run.step] at taken
    obtain ⟨directory, step, rfl⟩ := Option.map_eq_some_iff.mp taken
    cases step
    exact single.interrupt fragment met
  | reimport faults renames removes =>
    simp only [Run.step] at taken
    obtain ⟨directory, step, rfl⟩ := Option.map_eq_some_iff.mp taken
    exact single.reimport met step
  | serve cutoff kept =>
    simp only [Run.step] at taken
    obtain ⟨directory, step, rfl⟩ := Option.map_eq_some_iff.mp taken
    simp only [SegmentRecovery.Run.step] at step
    split at step
    · cases step
      exact single
    · cases step

theorem single_start : Single (Run.machine platform clock initial).start.directory.store where
  unique := initial.directory.store.unique
  one _ := Nat.zero_le _
  table _ _ := .inl rfl
  gone _ positive := nomatch positive
  underway := trivial

/-- In a run whose every step meets the guard, every event line has one record at most in
the table and the archive together. -/
theorem event_records_single
    (reached : Machine.Reachable (Run.machine platform clock initial) (Run.Meets platform) run) :
    SingleRecords platform run := by
  have single : Single run.directory.store :=
    reached.invariant single_start fun _ _ _ single met taken => single_step single met taken
  exact fun _ _ row _ => single.records row.id

private def epochClock : TextClock where
  toRfc3339 _ := "1970-01-01T00:00:00+00:00"

private def emptyDaemon : Run.Start where
  live := []
  directory := { files := [], store := { log := [], unique := LogRow.distinct_nil }, unique := List.nodup_nil }

/-- A start, a line of the event log, and a pass of retention over its row. -/
private def ingestedAndArchived : List Event :=
  [.restart 0 false [], .serve 0 [], .append EventIngest.bareLine, .readLine false false,
    .retention (.archiveAndPrune 10 0), .retention (.advance false), .retention (.advance false),
    .retention (.advance false), .retention (.advance false)]

private def lived (meets : Run → Event → Prop) [∀ run event, Decidable (meets run event)]
    (events : List Event) : Option Run :=
  (Run.machine EventIngest.barePlatform epochClock emptyDaemon).run meets
    (Run.machine EventIngest.barePlatform epochClock emptyDaemon).start events

theorem event_records_single_archived :
    SingleRecords EventIngest.barePlatform
      ((lived (Run.Meets EventIngest.barePlatform) ingestedAndArchived).get (by decide +kernel)) :=
  event_records_single (Machine.Reachable.start.run (Option.some_get _).symm)

/-- The next start reads the line again, and its row is in the table beside its line in the
archive. -/
theorem archived_event_ingested_again :
    ∃ platform clock initial run,
      Machine.Reachable (Run.machine platform clock initial) Machine.free run ∧ ¬ SingleRecords platform run := by
  refine ⟨EventIngest.barePlatform, epochClock, emptyDaemon,
    (lived Machine.free (ingestedAndArchived ++ [.restart 0 false [], .serve 0 [], .readLine false false])).get
      (by decide +kernel), Machine.Reachable.start.run (Option.some_get _).symm, fun single => ?_⟩
  have read : EventIngest.lineDecision EventIngest.barePlatform EventIngest.bareLine =
      some (((EventIngest.lineDecision EventIngest.barePlatform EventIngest.bareLine).get (by decide +kernel))) :=
    (Option.some_get _).symm
  have bound := single EventIngest.bareLine _ _ read
  revert bound
  decide +kernel

end Wisphive.Restarts
