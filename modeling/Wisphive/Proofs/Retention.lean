import Wisphive.Retention
import Wisphive.Proofs.ToolResults

/-! What the archive keeps of a deleted row. The entry has no agent type, no auto-approval
mark and no selected permission, and it holds the row as it was when it was read. -/

namespace Wisphive.Retention
open Foundation

variable {clock : TextClock} {fromStr : String → Option Json} {initial : Run.Start} {run after : Run}

/-- The two JSON columns survive being embedded. A stored result that is null would read
back as no result. -/
def Legible (fromStr : String → Option Json) (row : LogRow) : Prop :=
  ((fromStr row.toolInput).getD .null).render = row.toolInput ∧
    match row.toolResult.map fromStr with
    | none => True
    | some none => False
    | some (some value) => value ≠ .null ∧ some value.render = row.toolResult

instance (row : LogRow) : Decidable (Legible fromStr row) := by
  unfold Legible
  split <;> infer_instance

namespace Run

/-- The rows between their read and their deletion. -/
def batch (run : Run) : List Uuid :=
  match run.sweep with
  | .archive _ ids (.write _) | .archive _ ids .delete => ids.take batchSize
  | _ => []

/-- A batch is legible, no result is attached to it, and no write leaves a fragment. -/
def Meets (fromStr : String → Option Json) (run : Run) : Event → Prop
  | .insertLog _ | .archiveAndPrune _ _ => True
  | .attachToolResult id _ => id ∉ run.batch
  | .advance _ =>
    match run.sweep with
    | .archive _ ids .read => ∀ row ∈ run.log, row.id ∈ ids.take batchSize → Legible fromStr row
    | _ => True
  | .interrupt survive fragment =>
    match run.sweep with
    | .archive _ _ (.write rows) => fragment = false ∨ rows.length ≤ survive
    | _ => True

instance (run : Run) : (event : Event) → Decidable (run.Meets fromStr event)
  | .insertLog _ | .archiveAndPrune _ _ => .isTrue trivial
  | .attachToolResult id _ => inferInstanceAs (Decidable (id ∉ run.batch))
  | .advance _ => by
    dsimp only [Meets]
    split <;> infer_instance
  | .interrupt _ _ => by
    dsimp only [Meets]
    split <;> infer_instance

end Run

theorem readText_orNull (stored : Option String) : Column.readText (orNull stored) = some stored := by
  cases stored <;> rfl

/-- Every archived column reads back from the entry of a legible row. -/
theorem recover_archiveEntry {row : LogRow} (legible : Legible fromStr row) {column : Column}
    (archived : column.archived = true) :
    column.recover (archiveEntry clock fromStr row) = some (column.value clock row) := by
  obtain ⟨input, result⟩ := legible
  cases column with
  | agentType | autoApproved | selectedPermission => cases archived
  | toolInput =>
    change some (some ((fromStr row.toolInput).getD .null).render) = some (some row.toolInput)
    rw [input]
  | toolResult =>
    change Column.readResult ((row.toolResult.bind fromStr).getD .null) = some row.toolResult
    cases stored : row.toolResult with
    | none => rfl
    | some text =>
      rw [stored, Option.map_some] at result
      cases parsed : fromStr text with
      | none => rw [parsed] at result; cases result
      | some value =>
        rw [parsed] at result
        obtain ⟨present, same⟩ := result
        rw [Option.bind_some, parsed, Option.getD_some, ← same]
        cases value with
        | null => exact absurd rfl present
        | _ => rfl
  | toolUseId | terminalSessionId | decidedBy | configHash => exact readText_orNull _
  | _ => rfl

/-- The entry has no member for the other columns. -/
theorem recover_unarchived {row : LogRow} {column : Column} (dropped : column.archived = false) :
    column.recover (archiveEntry clock fromStr row) = none := by
  cases column with
  | agentType | autoApproved | selectedPermission => rfl
  | _ => cases dropped

theorem entry_id (row : LogRow) :
    (archiveEntry clock fromStr row).get? "id" = some (.string (uuidText row.id)) :=
  rfl

namespace ArchiveFile
variable {file : ArchiveFile} {lines : List Json} {line : Json}

theorem mem_append (member : line ∈ (file.append lines).lines) : line ∈ file.lines ∨ line ∈ lines := by
  cases lines with
  | nil => exact .inl member
  | cons first rest =>
    rcases List.mem_append.mp member with old | new
    · exact .inl old
    · split at new
      · exact .inr (List.mem_cons_of_mem _ new)
      · exact .inr new

theorem append_keeps (member : line ∈ file.lines) : line ∈ (file.append lines).lines := by
  cases lines with
  | nil => exact member
  | cons first rest => exact List.mem_append_left _ member

/-- Behind a whole line every line is whole. -/
theorem append_whole (whole : file.torn = false) (member : line ∈ lines) : line ∈ (file.append lines).lines := by
  cases lines with
  | nil => cases member
  | cons first rest =>
    apply List.mem_append_right
    rw [whole]
    exact member

theorem append_torn (whole : file.torn = false) : (file.append lines).torn = false := by
  cases lines with
  | nil => exact whole
  | cons first rest => rfl

theorem appendCut_lines (survive : Nat) (fragment : Bool) :
    (file.appendCut lines survive fragment).lines = (file.append (lines.take survive)).lines := by
  unfold appendCut
  split <;> rfl

theorem appendCut_torn (whole : file.torn = false) {survive : Nat} {fragment : Bool}
    (clean : fragment = false ∨ lines.length ≤ survive) : (file.appendCut lines survive fragment).torn = false := by
  unfold appendCut
  rw [if_neg]
  · exact append_torn whole
  · rintro ⟨left, short⟩
    rcases clean with none | full
    · rw [none] at left
      cases left
    · omega

end ArchiveFile

/-- Every line is the entry of some row, and every id that was recorded is in the table
or was deleted. -/
structure Accounted (clock : TextClock) (fromStr : String → Option Json) (run : Run) : Prop where
  written : ∀ line ∈ run.lines, ∃ row, line = archiveEntry clock fromStr row
  recorded : ∀ id ∈ run.recorded, (∃ row ∈ run.log, row.id = id) ∨ ∃ row ∈ run.deleted, row.id = id

theorem Accounted.start : Accounted clock fromStr (Run.machine clock fromStr initial).start where
  written _ member := nomatch member
  recorded _ member := by
    obtain ⟨row, present, rfl⟩ := List.mem_map.mp member
    exact .inl ⟨row, present, rfl⟩

/-- The lines after a write are old ones or entries of the batch. -/
theorem Accounted.written_append (accounted : Accounted clock fromStr run) {lines : List Json}
    (entries : ∀ line ∈ lines, ∃ row, line = archiveEntry clock fromStr row) {line : Json}
    (member : line ∈ run.rotated.flatMap (·.lines) ++ (run.archive.append lines).lines) :
    ∃ row, line = archiveEntry clock fromStr row := by
  rcases List.mem_append.mp member with older | current
  · exact accounted.written line (List.mem_append_left _ older)
  · rcases ArchiveFile.mem_append current with old | new
    · exact accounted.written line (List.mem_append_right _ old)
    · exact entries line new

theorem entries_of_rows {rows : List LogRow} :
    ∀ line ∈ rows.map (archiveEntry clock fromStr), ∃ row, line = archiveEntry clock fromStr row := by
  intro line member
  obtain ⟨row, _, rfl⟩ := List.mem_map.mp member
  exact ⟨row, rfl⟩

theorem Accounted.resweep (accounted : Accounted clock fromStr run) (sweep : Sweep) :
    Accounted clock fromStr { run with sweep } :=
  ⟨accounted.written, accounted.recorded⟩

theorem lines_rotate : { run with rotated := run.rotated ++ [run.archive], archive := {} : Run }.lines = run.lines := by
  simp [Run.lines]

theorem Accounted.delete (accounted : Accounted clock fromStr run) (ids : List Uuid) (sweep : Sweep) :
    Accounted clock fromStr { run with
      log := run.log.filter (·.id ∉ ids)
      deleted := run.deleted ++ run.log.filter (·.id ∈ ids)
      sweep } where
  written := accounted.written
  recorded id member := by
    rcases accounted.recorded id member with ⟨row, present, rfl⟩ | ⟨row, gone, rfl⟩
    · by_cases chosen : row.id ∈ ids
      · exact .inr ⟨row, List.mem_append_right _ (List.mem_filter.mpr ⟨present, decide_eq_true chosen⟩), rfl⟩
      · exact .inl ⟨row, List.mem_filter.mpr ⟨present, decide_eq_true chosen⟩, rfl⟩
    · exact .inr ⟨row, List.mem_append_left _ gone, rfl⟩

theorem Accounted.advance (accounted : Accounted clock fromStr run) {rotates : Bool}
    (taken : run.advance clock fromStr rotates = some after) : Accounted clock fromStr after := by
  unfold Run.advance at taken
  split at taken
  · cases taken
  · cases taken
    exact accounted.resweep _
  · cases taken
    split
    · exact ⟨fun line member => accounted.written line (lines_rotate ▸ member), accounted.recorded⟩
    · exact accounted.resweep _
  · cases taken
    exact accounted.resweep _
  · cases taken
    exact ⟨fun line member => accounted.written_append entries_of_rows member, accounted.recorded⟩
  · cases taken
    exact accounted.delete _ _

theorem Accounted.insertLog (accounted : Accounted clock fromStr run) (row : LogRow) {recorded : List Uuid}
    (known : ∀ id ∈ recorded, id ∈ run.recorded ∨ id = row.id ∧
      (Table.insertOrIgnore LogRow.conflicts run.log row).1 = true) :
    Accounted clock fromStr { run with
      log := (Table.insertOrIgnore LogRow.conflicts run.log row).2, recorded } where
  written := accounted.written
  recorded id member := by
    rcases known id member with before | ⟨rfl, inserted⟩
    · refine (accounted.recorded id before).imp_left fun ⟨other, present, same⟩ => ?_
      exact ⟨other, Table.mem_insertOrIgnore present, same⟩
    · exact .inl ⟨row, Table.inserted_mem inserted, rfl⟩

theorem Accounted.attach (accounted : Accounted clock fromStr run) (id : Uuid) (stored : String) :
    Accounted clock fromStr { run with
      log := (Table.update run.log (·.id = id) fun row => { row with toolResult := some stored }).2 } where
  written := accounted.written
  recorded other member := by
    refine (accounted.recorded other member).imp_left fun ⟨row, present, same⟩ => ?_
    obtain ⟨later, inside, kept, _⟩ := @ToolResults.mem_stored _ id stored _ present
    exact ⟨later, inside, kept.trans same⟩

theorem Accounted.interrupt (accounted : Accounted clock fromStr run) (survive : Nat) (fragment : Bool) :
    Accounted clock fromStr (run.interrupt clock fromStr survive fragment) := by
  unfold Run.interrupt
  split
  next trim ids rows _ =>
    refine ⟨fun line member => ?_, accounted.recorded⟩
    simp only [Run.lines, ArchiveFile.appendCut_lines] at member
    apply accounted.written_append _ member
    exact fun line member => entries_of_rows line (List.mem_of_mem_take member)
  next => exact accounted.resweep _

theorem Accounted.step (accounted : Accounted clock fromStr run) {event : Event}
    (taken : run.step clock fromStr event = some after) : Accounted clock fromStr after := by
  cases event with
  | insertLog row =>
    cases taken
    apply accounted.insertLog
    intro id member
    split at member
    next inserted => exact (List.mem_cons.mp member).symm.imp_right fun same => ⟨same, inserted⟩
    next => exact .inl member
  | attachToolResult id stored =>
    cases taken
    exact accounted.attach id stored
  | archiveAndPrune maxRows cutoff =>
    simp only [Run.step] at taken
    split at taken
    · cases taken
      exact accounted.resweep _
    · cases taken
  | advance rotates => exact accounted.advance taken
  | interrupt survive fragment =>
    cases taken
    exact accounted.interrupt survive fragment

theorem Accounted.reached {meets : Run → Event → Prop}
    (reached : Machine.Reachable (Run.machine clock fromStr initial) meets run) : Accounted clock fromStr run :=
  reached.invariant .start fun _ _ _ accounted _ taken => accounted.step taken

/-- No line has a member for such a column. -/
theorem unarchived_lost (accounted : Accounted clock fromStr run) {row : LogRow} {column : Column}
    (dropped : column.archived = false) : ¬ Recoverable clock run.lines row column := by
  rintro ⟨line, member, _, recovered⟩
  obtain ⟨written, rfl⟩ := accounted.written line member
  rw [recover_unarchived dropped] at recovered
  cases recovered

/-- What the stage of a batch knows of its rows. -/
def Settled (clock : TextClock) (fromStr : String → Option Json) (run : Run) (batch : List Uuid) : Stage → Prop
  | .openFile | .read => True
  | .write rows => rows = run.log.filter (·.id ∈ batch) ∧ ∀ row ∈ rows, Legible fromStr row
  | .delete => ∀ row ∈ run.log, row.id ∈ batch → Legible fromStr row ∧ archiveEntry clock fromStr row ∈ run.lines

/-- The ids of a pass are distinct and in the table, and a batch is as it was read. -/
def OnTrack (clock : TextClock) (fromStr : String → Option Json) (run : Run) : Sweep → Prop
  | .idle | .count _ => True
  | .archive _ ids stage => ids.Nodup ∧ (∀ id ∈ ids, ∃ row ∈ run.log, row.id = id) ∧
    Settled clock fromStr run (ids.take batchSize) stage

structure Kept (clock : TextClock) (fromStr : String → Option Json) (run : Run) : Prop where
  unique : Table.Distinct LogRow.conflicts run.log
  whole : run.archive.torn = false
  onTrack : OnTrack clock fromStr run run.sweep
  deleted : ∀ row ∈ run.deleted, Legible fromStr row ∧ archiveEntry clock fromStr row ∈ run.lines

theorem ids_nodup {log : List LogRow} (unique : Table.Distinct LogRow.conflicts log) : (log.map (·.id)).Nodup := by
  apply List.pairwise_map.mpr
  apply unique.imp
  intro row other free same
  simp [LogRow.conflicts, same] at free

theorem ordered_perm (log : List LogRow) : (ordered clock log).Perm log :=
  List.perm_insertionSort _ log

/-- A phase starts with distinct ids of the table. -/
theorem OnTrack.start {rows : List LogRow} (trim : Option Nat)
    (distinct : (rows.map (·.id)).Nodup) (present : ∀ row ∈ rows, row ∈ run.log) :
    OnTrack clock fromStr run (Run.archiveIds trim (rows.map (·.id))) := by
  cases rows with
  | nil => cases trim <;> trivial
  | cons first rest =>
    refine ⟨distinct, fun id member => ?_, trivial⟩
    obtain ⟨row, inside, rfl⟩ := List.mem_map.mp member
    exact ⟨row, present row inside, rfl⟩

theorem Kept.start : Kept clock fromStr (Run.machine clock fromStr initial).start where
  unique := initial.unique
  whole := rfl
  onTrack := trivial
  deleted _ member := nomatch member

theorem Kept.insertLog (kept : Kept clock fromStr run) (row : LogRow) (recorded : List Uuid) :
    Kept clock fromStr { run with
      log := (Table.insertOrIgnore LogRow.conflicts run.log row).2, recorded } := by
  by_cases clear : Table.Clear LogRow.conflicts run.log row
  · refine ⟨kept.unique.insertOrIgnore LogRow.conflicts_symm, kept.whole, ?_, kept.deleted⟩
    have onTrack := kept.onTrack
    rw [Table.insertOrIgnore_clear clear]
    cases sweep : run.sweep with
    | idle | count => trivial
    | archive trim ids stage =>
      rw [sweep] at onTrack
      obtain ⟨distinct, present, settled⟩ := onTrack
      have fresh : row.id ∉ ids := by
        intro member
        obtain ⟨other, inside, same⟩ := present row.id member
        have free := clear other inside
        simp [LogRow.conflicts, same] at free
      have outside : row.id ∉ ids.take batchSize := fun member => fresh (List.mem_of_mem_take member)
      refine ⟨distinct, fun id member => ?_, ?_⟩
      · obtain ⟨other, inside, same⟩ := present id member
        exact ⟨other, List.mem_append_left _ inside, same⟩
      · cases stage with
        | openFile | read => trivial
        | write rows =>
          refine ⟨?_, settled.2⟩
          rw [List.filter_append, List.filter_singleton, ← settled.1]
          simp [outside]
        | delete =>
          intro other member chosen
          rcases List.mem_append.mp member with before | new
          · exact settled other before chosen
          · rw [List.mem_singleton.mp new] at chosen
            exact absurd chosen outside
  · rw [Table.insertOrIgnore_conflict clear]
    exact ⟨kept.unique, kept.whole, kept.onTrack, kept.deleted⟩

/-- A row outside the batch may change. -/
theorem filter_update {log : List LogRow} {id : Uuid} {batch : List Uuid} (outside : id ∉ batch)
    {change : LogRow → LogRow} (same : ∀ row, (change row).id = row.id) :
    (Table.update log (·.id = id) change).2.filter (·.id ∈ batch) = log.filter (·.id ∈ batch) := by
  induction log with
  | nil => rfl
  | cons row rest ih =>
    change List.filter _ ((if decide (row.id = id) = true then change row else row) ::
      (Table.update rest (·.id = id) change).2) = _
    rw [List.filter_cons, List.filter_cons, ih]
    by_cases chosen : row.id = id
    · have other : (change row).id ∉ batch := by rw [same, chosen]; exact outside
      simp only [chosen, decide_true, if_true, other, decide_false, Bool.false_eq_true, if_false]
      simp [outside]
    · simp only [chosen, decide_false, Bool.false_eq_true, if_false]

theorem Kept.attach (kept : Kept clock fromStr run) {id : Uuid} (outside : id ∉ run.batch) (stored : String) :
    Kept clock fromStr { run with
      log := (Table.update run.log (·.id = id) fun row => { row with toolResult := some stored }).2 } := by
  refine ⟨ToolResults.distinct_stored kept.unique id stored, kept.whole, ?_, kept.deleted⟩
  have onTrack := kept.onTrack
  cases sweep : run.sweep with
  | idle | count => trivial
  | archive trim ids stage =>
    rw [sweep] at onTrack
    obtain ⟨distinct, present, settled⟩ := onTrack
    refine ⟨distinct, fun other member => ?_, ?_⟩
    · obtain ⟨row, inside, same⟩ := present other member
      obtain ⟨later, stays, equal, _⟩ := @ToolResults.mem_stored _ id stored _ inside
      exact ⟨later, stays, equal.trans same⟩
    · cases stage with
      | openFile | read => trivial
      | write rows =>
        simp only [Run.batch, sweep] at outside
        have same := @filter_update run.log id _ outside (fun row => { row with toolResult := some stored })
          fun _ => rfl
        exact ⟨settled.1.trans same.symm, settled.2⟩
      | delete =>
        simp only [Run.batch, sweep] at outside
        have same := @filter_update run.log id _ outside (fun row => { row with toolResult := some stored })
          fun _ => rfl
        intro row member chosen
        have inside : row ∈ run.log.filter (·.id ∈ ids.take batchSize) := by
          rw [← same]
          exact List.mem_filter.mpr ⟨member, decide_eq_true chosen⟩
        exact settled row (List.mem_filter.mp inside).1 chosen

/-- What was durable stays durable when lines are added. -/
theorem entry_kept {line : Json} {lines : List Json} {sweep : Sweep} (member : line ∈ run.lines) :
    line ∈ { run with archive := run.archive.append lines, sweep : Run }.lines := by
  rcases List.mem_append.mp member with older | current
  · exact List.mem_append_left _ older
  · exact List.mem_append_right _ (ArchiveFile.append_keeps current)

theorem Kept.resweep (kept : Kept clock fromStr run) {sweep : Sweep}
    (onTrack : OnTrack clock fromStr { run with sweep } sweep) : Kept clock fromStr { run with sweep } :=
  ⟨kept.unique, kept.whole, onTrack, kept.deleted⟩

theorem Kept.idle (kept : Kept clock fromStr run) : Kept clock fromStr { run with sweep := .idle } :=
  kept.resweep trivial

theorem afterArchive_onTrack (trim : Option Nat) : OnTrack clock fromStr run (Run.afterArchive trim) := by
  cases trim <;> trivial

theorem Kept.rotate (kept : Kept clock fromStr run) {trim : Option Nat} {ids : List Uuid}
    (sweep : run.sweep = .archive trim ids .openFile) :
    Kept clock fromStr { run with
      sweep := .archive trim ids .read, rotated := run.rotated ++ [run.archive], archive := {} } := by
  have onTrack := kept.onTrack
  rw [sweep] at onTrack
  refine ⟨kept.unique, rfl, onTrack, fun row member => ?_⟩
  obtain ⟨legible, durable⟩ := kept.deleted row member
  exact ⟨legible, (@lines_rotate run) ▸ durable⟩

theorem Kept.write (kept : Kept clock fromStr run) {trim : Option Nat} {ids : List Uuid} {rows : List LogRow}
    (sweep : run.sweep = .archive trim ids (.write rows)) :
    Kept clock fromStr { run with
      archive := run.archive.append (rows.map (archiveEntry clock fromStr)), sweep := .archive trim ids .delete } := by
  have onTrack := kept.onTrack
  rw [sweep] at onTrack
  obtain ⟨distinct, present, read, legible⟩ := onTrack
  refine ⟨kept.unique, ArchiveFile.append_torn kept.whole, ⟨distinct, present, fun row member chosen => ?_⟩,
    fun row member => ?_⟩
  · have inside : row ∈ rows := by
      rw [read]
      exact List.mem_filter.mpr ⟨member, decide_eq_true chosen⟩
    refine ⟨legible row inside, List.mem_append_right _ ?_⟩
    exact ArchiveFile.append_whole kept.whole (List.mem_map_of_mem inside)
  · obtain ⟨legible, durable⟩ := kept.deleted row member
    exact ⟨legible, entry_kept durable⟩

theorem Kept.delete (kept : Kept clock fromStr run) {trim : Option Nat} {ids : List Uuid}
    (sweep : run.sweep = .archive trim ids .delete) :
    Kept clock fromStr { run with
      log := run.log.filter (·.id ∉ ids.take batchSize)
      deleted := run.deleted ++ run.log.filter (·.id ∈ ids.take batchSize)
      sweep := .archive trim (ids.drop batchSize) .read } := by
  have onTrack := kept.onTrack
  rw [sweep] at onTrack
  obtain ⟨distinct, present, settled⟩ := onTrack
  refine ⟨List.Pairwise.sublist List.filter_sublist kept.unique, kept.whole,
    ⟨distinct.sublist (List.drop_sublist ..), fun id member => ?_, trivial⟩, fun row member => ?_⟩
  · obtain ⟨row, inside, rfl⟩ := present id (List.mem_of_mem_drop member)
    refine ⟨row, List.mem_filter.mpr ⟨inside, decide_eq_true fun early => ?_⟩, rfl⟩
    exact List.disjoint_take_drop distinct (Nat.le_refl batchSize) early member
  · rcases List.mem_append.mp member with before | now
    · exact kept.deleted row before
    · obtain ⟨inside, chosen⟩ := List.mem_filter.mp now
      exact settled row inside (of_decide_eq_true chosen)

theorem Kept.advance (kept : Kept clock fromStr run) {rotates : Bool}
    (met : run.Meets fromStr (.advance rotates))
    (taken : run.advance clock fromStr rotates = some after) : Kept clock fromStr after := by
  have onTrack := kept.onTrack
  unfold Run.advance at taken
  split at taken
  next => cases taken
  next maxRows sweep =>
    cases taken
    apply kept.resweep
    have perm : ((ordered clock run.log).map (·.id)).Perm (run.log.map (·.id)) := (ordered_perm _).map _
    have distinct := perm.nodup_iff.mpr (ids_nodup kept.unique)
    apply OnTrack.start
    · exact distinct.sublist ((List.take_sublist ..).map _)
    · exact fun row member => (ordered_perm _).mem_iff.mp (List.mem_of_mem_take member)
  next trim ids sweep =>
    rw [sweep] at onTrack
    cases taken
    split
    · exact kept.rotate sweep
    · exact kept.resweep onTrack
  next trim ids sweep =>
    rw [sweep] at onTrack
    cases taken
    split
    · exact kept.resweep (afterArchive_onTrack trim)
    · apply kept.resweep
      refine ⟨onTrack.1, onTrack.2.1, rfl, fun row member => ?_⟩
      obtain ⟨inside, chosen⟩ := List.mem_filter.mp member
      simp only [Run.Meets, sweep] at met
      exact met row inside (of_decide_eq_true chosen)
  next trim ids rows sweep =>
    cases taken
    exact kept.write sweep
  next trim ids sweep =>
    cases taken
    exact kept.delete sweep

theorem Kept.interrupt (kept : Kept clock fromStr run) {survive : Nat} {fragment : Bool}
    (met : run.Meets fromStr (.interrupt survive fragment)) :
    Kept clock fromStr (run.interrupt clock fromStr survive fragment) := by
  unfold Run.interrupt
  split
  next trim ids rows sweep =>
    simp only [Run.Meets, sweep] at met
    refine ⟨kept.unique, ArchiveFile.appendCut_torn kept.whole ?_, trivial, fun row member => ?_⟩
    · rw [List.length_map]
      exact met
    · obtain ⟨legible, durable⟩ := kept.deleted row member
      refine ⟨legible, ?_⟩
      simp only [Run.lines, ArchiveFile.appendCut_lines]
      exact @entry_kept run _ _ .idle durable
  next => exact kept.idle

theorem Kept.step (kept : Kept clock fromStr run) {event : Event} (met : run.Meets fromStr event)
    (taken : run.step clock fromStr event = some after) : Kept clock fromStr after := by
  cases event with
  | insertLog row =>
    cases taken
    exact kept.insertLog row _
  | attachToolResult id stored =>
    cases taken
    exact kept.attach met stored
  | archiveAndPrune maxRows cutoff =>
    simp only [Run.step] at taken
    split at taken
    · cases taken
      apply kept.resweep
      have perm := (@ordered_perm clock (run.log.filter fun row =>
        decide (clock.text row.resolvedAt < clock.toRfc3339 cutoff)))
      apply OnTrack.start
      · exact (perm.map _).nodup_iff.mpr ((ids_nodup kept.unique).sublist (List.filter_sublist.map _))
      · exact fun row member => (List.mem_filter.mp (perm.mem_iff.mp member)).1
    · cases taken
  | advance rotates => exact kept.advance met taken
  | interrupt survive fragment =>
    cases taken
    exact kept.interrupt met

theorem Kept.reached (reached : Machine.Reachable (Run.machine clock fromStr initial) (Run.Meets fromStr) run) :
    Kept clock fromStr run :=
  reached.invariant .start fun _ _ _ kept met taken => kept.step met taken

/-- An archived column of a kept row is recovered from the row's own line. -/
theorem Kept.recoverable (kept : Kept clock fromStr run) {row : LogRow} (gone : row ∈ run.deleted) {column : Column}
    (archived : column.archived = true) : Recoverable clock run.lines row column := by
  obtain ⟨legible, durable⟩ := kept.deleted row gone
  exact ⟨_, durable, entry_id row, recover_archiveEntry legible archived⟩

theorem Accounted.lossless (accounted : Accounted clock fromStr run) (nothing : run.deleted = []) :
    Lossless clock run where
  recovered row gone := by
    rw [nothing] at gone
    cases gone
  present id member := by
    rcases accounted.recorded id member with present | ⟨row, gone, _⟩
    · exact .inl present
    · rw [nothing] at gone
      cases gone

/-- A run is lossless exactly as long as it has deleted nothing. While no result reaches a
row between its read and its deletion, the texts of a batch are JSON and no fragment is
left, the three columns without a member are all that is lost. -/
theorem archive_lossless_iff (reached : Machine.Reachable (Run.machine clock fromStr initial) Machine.free run) :
    (Lossless clock run ↔ run.deleted = []) ∧
    (Machine.Reachable (Run.machine clock fromStr initial) (Run.Meets fromStr) run →
      (∀ row ∈ run.deleted, ∀ column, Recoverable clock run.lines row column ↔ column.archived = true) ∧
      ∀ id ∈ run.recorded, (∃ row ∈ run.log, row.id = id) ∨
        ∃ line ∈ run.lines, line.get? "id" = some (.string (uuidText id))) := by
  have accounted := Accounted.reached reached
  refine ⟨⟨fun lossless => ?_, accounted.lossless⟩, fun met => ?_⟩
  · apply List.eq_nil_iff_forall_not_mem.mpr
    intro row gone
    exact unarchived_lost accounted rfl (lossless.recovered row gone .agentType)
  · have kept := Kept.reached met
    refine ⟨fun row gone column => ⟨fun recovered => ?_, kept.recoverable gone⟩, fun id member => ?_⟩
    · by_contra dropped
      exact unarchived_lost accounted (Bool.eq_false_iff.mpr dropped) recovered
    · refine (accounted.recorded id member).imp_right fun ⟨row, gone, same⟩ => ?_
      exact ⟨_, (kept.deleted row gone).2, same ▸ entry_id row⟩

private def archiveClock : TextClock where
  toRfc3339 _ := "2"

private def jsonNull (text : String) : Option Json :=
  if text = "null" then some .null else none

private def oldRow : LogRow where
  id := 7
  agentId := "cc-1"
  agentType := AgentType.claudeCode.column
  project := "/work"
  toolName := "Bash"
  toolInput := "null"
  decision := Decision.approve.column
  requestedAt := .raw "1"
  resolvedAt := .raw "1"
  toolUseId := none
  hookEventName := "PreToolUse"
  terminalSessionId := none
  decidedBy := none

private def oldLog : Run.Start where
  log := [oldRow]
  unique := List.pairwise_singleton ..

/-- One pass over a log with one old row. -/
private def archived (meets : Run → Event → Prop) [∀ run event, Decidable (meets run event)] : Option Run :=
  (Run.machine archiveClock jsonNull oldLog).run meets (Run.machine archiveClock jsonNull oldLog).start
    (.archiveAndPrune 10 0 :: List.replicate 4 (.advance false))

theorem archive_lossless_iff_one_row :
    let run := (archived (Run.Meets jsonNull)).get (by decide +kernel)
    (Lossless archiveClock run ↔ run.deleted = []) ∧
      ∀ row ∈ run.deleted, ∀ column, Recoverable archiveClock run.lines row column ↔ column.archived = true := by
  have met : Machine.Reachable (Run.machine archiveClock jsonNull oldLog) (Run.Meets jsonNull)
      ((archived (Run.Meets jsonNull)).get (by decide +kernel)) :=
    Machine.Reachable.start.run (Option.some_get _).symm
  have settled := archive_lossless_iff met.unguarded
  exact ⟨settled.1, (settled.2 met).1⟩

/-- The entry of the deleted row does not say which agent asked. -/
theorem archived_agent_type_lost :
    ∃ clock fromStr initial run,
      Machine.Reachable (Run.machine clock fromStr initial) Machine.free run ∧ ¬ Lossless clock run := by
  have reached : Machine.Reachable (Run.machine archiveClock jsonNull oldLog) Machine.free
      ((archived Machine.free).get (by decide +kernel)) :=
    Machine.Reachable.start.run (Option.some_get _).symm
  refine ⟨_, _, _, _, reached, fun lossless => ?_⟩
  have gone : oldRow ∈ ((archived Machine.free).get (by decide +kernel)).deleted := by decide +kernel
  exact unarchived_lost (Accounted.reached reached) rfl (lossless.recovered oldRow gone .agentType)

end Wisphive.Retention
