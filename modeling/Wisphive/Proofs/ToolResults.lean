import Wisphive.ToolResults
import Wisphive.Proofs.PendingRecovery

/-! Which rows the results end up in. The fallback does not look at the tool use id, and
nothing ties an update to the select before it. -/

namespace Wisphive.ToolResults
open Foundation

variable {clock : TextClock} {initial : Run.Start} {run after : Run}

/-- The results report one call: they carry one id, or are one message. -/
def SameCall (first second : ToolResult) : Prop :=
  first = second ∨ first.toolUseId.isSome = true ∧ first.toolUseId = second.toolUseId

instance (first second : ToolResult) : Decidable (SameCall first second) :=
  inferInstanceAs (Decidable (_ ∨ _))

/-- The row has no id or the id of the result, and it held no result of another call. -/
structure Stamp.Own (stamp : Stamp) : Prop where
  call : ∀ toolUseId, stamp.result.toolUseId = some toolUseId →
    stamp.before.toolUseId = none ∨ stamp.before.toolUseId = some toolUseId
  fresh : stamp.before.toolResult = none ∨ ∃ holder, stamp.holder = some holder ∧ SameCall holder stamp.result

/-- The broadcast names the row that the result was attached to. -/
def Broadcast.Own (log : List LogRow) (broadcast : Broadcast) : Prop :=
  ∃ row ∈ log, row.id = broadcast.row ∧ row.toolUseId = some broadcast.message.toolUseId

structure Attached (run : Run) : Prop where
  stamps : ∀ stamp ∈ run.stamps, stamp.Own
  broadcasts : ∀ broadcast ∈ run.broadcasts, broadcast.Own run.log

namespace Run

/-- The rows of the log that a select statement may find. -/
def candidates (clock : TextClock) (run : Run) (task : Task) (now : DateTime) : List LogRow :=
  match task.stage with
  | .selectExact => run.log.filter fun row =>
    task.result.toolUseId.isSome && row.toolUseId = task.result.toolUseId && row.toolResult.isNone
  | .selectFallback => fallbackRows clock now run.log task.result
  | .update _ _ | .sleep => []

/-- For a result with an id the fallback may find that call's row, or a row without an id that
is no prompt. -/
def Unforeign (task : Task) (row : LogRow) : Prop :=
  task.stage = .selectFallback → ∀ toolUseId ∈ task.result.toolUseId,
    row.toolUseId = some toolUseId ∨ row.toolUseId = none ∧ row.decision ≠ Decision.ask.column

/-- No other call's result is about to be stored in the row. -/
def Uncontended (run : Run) (task : Task) (row : LogRow) : Prop :=
  ∀ other ∈ run.tasks, ∀ wasDeferred, other.stage = .update row.id wasDeferred → SameCall other.result task.result

/-- No row of the log that a select may find is anybody else's. -/
def Meets (clock : TextClock) (run : Run) : Event → Prop
  | .execute position now _ => ∀ task ∈ run.tasks[position]?, ∀ row ∈ run.candidates clock task now,
    Unforeign task row ∧ run.Uncontended task row
  | .logRow _ | .deliver _ | .wake _ | .fail _ => True

instance (task : Task) (row : LogRow) : Decidable (Unforeign task row) :=
  inferInstanceAs (Decidable (_ → _))

instance (run : Run) (task : Task) (row : LogRow) : Decidable (run.Uncontended task row) :=
  inferInstanceAs (Decidable (∀ other ∈ run.tasks, ∀ wasDeferred, other.stage = .update row.id wasDeferred →
    SameCall other.result task.result))

instance (clock : TextClock) (run : Run) : (event : Event) → Decidable (run.Meets clock event)
  | .execute position now _ => inferInstanceAs (Decidable (∀ task ∈ run.tasks[position]?,
      ∀ row ∈ run.candidates clock task now, Unforeign task row ∧ run.Uncontended task row))
  | .logRow _ | .deliver _ | .wake _ | .fail _ => .isTrue trivial

end Run

/-- What a selected row still is when its result is stored. -/
structure Chosen (run : Run) (result : ToolResult) (wasDeferred : Bool) (row : LogRow) : Prop where
  member : row ∈ run.log
  fits : ∀ toolUseId, result.toolUseId = some toolUseId →
    row.toolUseId = some toolUseId ∨ row.toolUseId = none ∧ wasDeferred = false
  free : row.toolResult = none ∨ ∃ holder, run.holder row.id = some holder ∧ SameCall holder result

structure Valid (run : Run) : Prop where
  unique : Table.Distinct LogRow.conflicts run.log
  chosen : ∀ task ∈ run.tasks, ∀ id wasDeferred, task.stage = .update id wasDeferred →
    ∃ row, row.id = id ∧ Chosen run task.result wasDeferred row
  exclusive : ∀ first ∈ run.tasks, ∀ second ∈ run.tasks, ∀ id wasDeferred other,
    first.stage = .update id wasDeferred → second.stage = .update id other → SameCall first.result second.result
  attached : Attached run

theorem SameCall.symm {first second : ToolResult} (same : SameCall first second) : SameCall second first := by
  rcases same with rfl | ⟨some, equal⟩
  · exact .inl rfl
  · exact .inr ⟨equal ▸ some, equal.symm⟩

theorem Valid.start : Valid (Run.machine clock initial).start where
  unique := initial.unique
  chosen _ member := nomatch member
  exclusive _ member := nomatch member
  attached := ⟨fun _ member => (nomatch member), fun _ member => (nomatch member)⟩

/-- The same tables with other tasks, of which none is new to its row. -/
theorem Valid.retask (valid : Valid run) {tasks : List Task}
    (known : ∀ task ∈ tasks, ∀ id wasDeferred, task.stage = .update id wasDeferred → task ∈ run.tasks) :
    Valid { run with tasks } where
  unique := valid.unique
  chosen task member id wasDeferred stage := by
    obtain ⟨row, same, chosen⟩ := valid.chosen task (known task member id wasDeferred stage) id wasDeferred stage
    exact ⟨row, same, chosen.member, chosen.fits, chosen.free⟩
  exclusive first member second other id wasDeferred deferred stage stage' :=
    valid.exclusive first (known first member _ _ stage) second (known second other _ _ stage') _ _ _ stage stage'
  attached := ⟨valid.attached.stamps, valid.attached.broadcasts⟩

theorem Valid.erase (valid : Valid run) (position : Nat) :
    Valid { run with tasks := run.tasks.eraseIdx position } :=
  valid.retask fun _ member _ _ _ => List.mem_of_mem_eraseIdx member

/-- A task that selects nothing keeps to itself. -/
theorem Valid.setTask (valid : Valid run) (position : Nat) {task : Task}
    (idle : ∀ id wasDeferred, task.stage ≠ .update id wasDeferred) :
    Valid { run with tasks := run.tasks.set position task } :=
  valid.retask fun other member id wasDeferred stage => by
    rcases List.mem_or_eq_of_mem_set member with before | rfl
    · exact before
    · exact absurd stage (idle id wasDeferred)

theorem Valid.logRow (valid : Valid run) (row : LogRow) :
    Valid { run with log := (Table.insertOrIgnore LogRow.conflicts run.log row).2 } where
  unique := valid.unique.insertOrIgnore LogRow.conflicts_symm
  chosen task member id wasDeferred stage := by
    obtain ⟨row, same, chosen⟩ := valid.chosen task member id wasDeferred stage
    exact ⟨row, same, Table.mem_insertOrIgnore chosen.member, chosen.fits, chosen.free⟩
  exclusive := valid.exclusive
  attached := by
    refine ⟨valid.attached.stamps, fun broadcast member => ?_⟩
    obtain ⟨row, present, own⟩ := valid.attached.broadcasts broadcast member
    exact ⟨row, Table.mem_insertOrIgnore present, own⟩

theorem mem_fallbackRows {now : DateTime} {log : List LogRow} {result : ToolResult} {row : LogRow}
    (member : row ∈ fallbackRows clock now log result) : row ∈ log ∧ row.toolResult = none := by
  obtain ⟨inside, matched⟩ := List.mem_filter.mp (List.mem_filter.mp member).1
  simp only [fallbackMatches, Bool.and_eq_true, Option.isNone_iff_eq_none] at matched
  exact ⟨inside, matched.1.2⟩

theorem mem_exact {log : List LogRow} {toolUseId : Option String} {row : LogRow}
    (found : toolUseId.bind (exactRow log) = some row) :
    row ∈ log.filter fun row => toolUseId.isSome && row.toolUseId = toolUseId && row.toolResult.isNone := by
  cases toolUseId with
  | none => cases found
  | some known => exact List.mem_filter.mpr ⟨List.mem_of_find?_eq_some found, by simpa using List.find?_some found⟩

/-- A guarded select finds a row that is free and fits the result. -/
theorem candidates_fit {task : Task} {now : DateTime} {row : LogRow}
    (candidate : row ∈ run.candidates clock task now) (own : Run.Unforeign task row) :
    row ∈ run.log ∧ row.toolResult = none ∧ ∀ toolUseId, task.result.toolUseId = some toolUseId →
      row.toolUseId = some toolUseId ∨ row.toolUseId = none ∧ row.decision ≠ Decision.ask.column := by
  unfold Run.candidates at candidate
  split at candidate
  next exact =>
    obtain ⟨member, matched⟩ := List.mem_filter.mp candidate
    simp only [Bool.and_eq_true, decide_eq_true_eq, Option.isNone_iff_eq_none] at matched
    exact ⟨member, matched.2, fun toolUseId given => .inl (matched.1.2.trans given)⟩
  next fallback =>
    obtain ⟨member, empty⟩ := mem_fallbackRows candidate
    exact ⟨member, empty, own fallback⟩
  · cases candidate
  · cases candidate

/-- After a guarded select the task may store its result. -/
theorem Valid.select (valid : Valid run) {position : Nat} {task : Task} {now : DateTime} {row : LogRow}
    (candidate : row ∈ run.candidates clock task now) (own : Run.Unforeign task row)
    (alone : run.Uncontended task row) : Valid (run.toStage position task (attachTo row)) where
  unique := valid.unique
  chosen other member id wasDeferred stage := by
    rcases List.mem_or_eq_of_mem_set member with before | rfl
    · obtain ⟨row, same, chosen⟩ := valid.chosen other before id wasDeferred stage
      exact ⟨row, same, chosen.member, chosen.fits, chosen.free⟩
    · obtain ⟨member, empty, fits⟩ := candidates_fit candidate own
      obtain ⟨rfl, rfl⟩ := Stage.update.inj stage
      refine ⟨row, rfl, member, fun toolUseId given => (fits toolUseId given).imp_right ?_, .inl empty⟩
      exact fun ⟨missing, plain⟩ => ⟨missing, decide_eq_false plain⟩
  exclusive first member second other id wasDeferred deferred stage stage' := by
    rcases List.mem_or_eq_of_mem_set member with before | rfl
    · rcases List.mem_or_eq_of_mem_set other with before' | rfl
      · exact valid.exclusive first before second before' _ _ _ stage stage'
      · obtain ⟨rfl, _⟩ := Stage.update.inj stage'
        exact alone first before wasDeferred stage
    · rcases List.mem_or_eq_of_mem_set other with before' | rfl
      · obtain ⟨rfl, _⟩ := Stage.update.inj stage
        exact (alone second before' deferred stage').symm
      · exact .inl rfl
  attached := ⟨valid.attached.stamps, valid.attached.broadcasts⟩

theorem same_row (valid : Valid run) {row other : LogRow} (member : row ∈ run.log) (present : other ∈ run.log)
    (same : row.id = other.id) : row = other :=
  valid.unique.eq_of_conflict LogRow.conflicts_symm member present (decide_eq_true (.inl same))

/-- The rows after a result is stored under an id. -/
theorem mem_stored {log : List LogRow} {id : Uuid} {stored : String} {row : LogRow} (member : row ∈ log) :
    ∃ later ∈ (Table.update log (·.id = id) fun row => { row with toolResult := some stored }).2,
      later.id = row.id ∧ later.toolUseId = row.toolUseId ∧ (row.id ≠ id → later = row) := by
  refine ⟨_, List.mem_map_of_mem member, ?_⟩
  split
  next chosen => exact ⟨rfl, rfl, fun differ => absurd (of_decide_eq_true chosen) differ⟩
  next => exact ⟨rfl, rfl, fun _ => rfl⟩

theorem distinct_stored {log : List LogRow} (distinct : Table.Distinct LogRow.conflicts log) (id : Uuid)
    (stored : String) : Table.Distinct LogRow.conflicts
      (Table.update log (·.id = id) fun row => { row with toolResult := some stored }).2 := by
  apply List.pairwise_map.mpr
  apply distinct.imp
  intro row other free
  have same (row : LogRow) : (if decide (row.id = id) = true then { row with toolResult := some stored } else row).id =
      row.id ∧ (if decide (row.id = id) = true then { row with toolResult := some stored } else row).toolUseId =
        row.toolUseId := by
    split <;> exact ⟨rfl, rfl⟩
  simpa only [LogRow.conflicts, (same row).1, (same row).2, (same other).1, (same other).2] using free

theorem holder_attach {position : Nat} {task : Task} {now : DateTime} {row : LogRow} {wasDeferred : Bool}
    (present : row ∈ run.log) (other : Uuid) :
    (run.attach position task now row.id wasDeferred).holder other =
      if other = row.id then some task.result else run.holder other := by
  simp only [Run.holder, Run.attach, List.find?_append]
  split
  next same =>
    subst same
    cases found : ((run.log.filter (·.id = row.id)).map fun before =>
        (⟨task.result, before, (run.stamps.find? (·.before.id = row.id)).map (·.result)⟩ : Stamp)).find?
          (·.before.id = row.id) with
    | none =>
      have absent := List.find?_eq_none.mp found _ (List.mem_map_of_mem
        (List.mem_filter.mpr ⟨present, decide_eq_true rfl⟩))
      simp at absent
    | some stamp =>
      obtain ⟨before, _, rfl⟩ := List.mem_map.mp (List.mem_of_find?_eq_some found)
      rfl
  next differ =>
    have absent : ((run.log.filter (·.id = row.id)).map fun before =>
        (⟨task.result, before, (run.stamps.find? (·.before.id = row.id)).map (·.result)⟩ : Stamp)).find?
          (·.before.id = other) = none := by
      apply List.find?_eq_none.mpr
      intro stamp member
      obtain ⟨before, inside, rfl⟩ := List.mem_map.mp member
      have same : before.id = row.id := of_decide_eq_true (List.mem_filter.mp inside).2
      simpa [same] using fun equal => differ equal.symm
    rw [absent, Option.none_or]

/-- Another selected row stays free, or is held by the same call from now on. -/
theorem Valid.chosen_attach (valid : Valid run) {task other : Task} (member : task ∈ run.tasks)
    (present : other ∈ run.tasks) {row : LogRow} {wasDeferred deferred : Bool} {id : Uuid}
    (logged : row ∈ run.log) (stage : task.stage = .update row.id wasDeferred) (stage' : other.stage = .update id deferred)
    (position : Nat) (now : DateTime) :
    ∃ later, later.id = id ∧ Chosen (run.attach position task now row.id wasDeferred) other.result deferred later := by
  obtain ⟨selected, rfl, chosen⟩ := valid.chosen other present id deferred stage'
  obtain ⟨later, inside, same, use, kept⟩ := @mem_stored _ row.id
    (Redact.redactValue task.result.toolResult).render _ chosen.member
  refine ⟨later, same, inside, fun toolUseId given => ?_, ?_⟩
  · rw [use]
    exact chosen.fits toolUseId given
  · rw [same, holder_attach logged]
    split
    next equal =>
      rw [equal] at stage'
      exact .inr ⟨task.result, rfl, valid.exclusive task member other present row.id wasDeferred deferred stage stage'⟩
    next differ =>
      rw [kept differ]
      exact chosen.free

theorem Valid.stamps_attach (valid : Valid run) {task : Task} {row : LogRow} {wasDeferred : Bool}
    (chosen : Chosen run task.result wasDeferred row) (position : Nat) (now : DateTime) :
    ∀ stamp ∈ (run.attach position task now row.id wasDeferred).stamps, stamp.Own := by
  intro stamp member
  rcases List.mem_append.mp member with new | old
  · obtain ⟨before, inside, rfl⟩ := List.mem_map.mp new
    obtain ⟨logged, same⟩ := List.mem_filter.mp inside
    obtain rfl := same_row valid logged chosen.member (of_decide_eq_true same)
    refine ⟨fun toolUseId given => ?_, chosen.free⟩
    rcases chosen.fits toolUseId given with use | ⟨missing, _⟩
    · exact .inr use
    · exact .inl missing
  · exact valid.attached.stamps stamp old

theorem Valid.broadcasts_attach (valid : Valid run) {task : Task} {row : LogRow} {wasDeferred : Bool}
    (chosen : Chosen run task.result wasDeferred row) (position : Nat) (now : DateTime) :
    ∀ broadcast ∈ (run.attach position task now row.id wasDeferred).broadcasts,
      broadcast.Own (run.attach position task now row.id wasDeferred).log := by
  intro broadcast member
  have kept : broadcast ∈ run.broadcasts → broadcast.Own (run.attach position task now row.id wasDeferred).log := by
    intro old
    obtain ⟨logged, present, same, own⟩ := valid.attached.broadcasts broadcast old
    obtain ⟨later, inside, id, use, _⟩ := mem_stored present
    exact ⟨later, inside, id.trans same, use.trans own⟩
  simp only [Run.attach] at member
  split at member
  next toolUseId given =>
    rcases List.mem_cons.mp member with rfl | old
    · obtain ⟨later, inside, id, use, _⟩ := mem_stored chosen.member
      refine ⟨later, inside, id, use.trans ?_⟩
      exact (chosen.fits toolUseId given).resolve_right fun ⟨_, plain⟩ => nomatch plain
    · exact kept old
  next => exact kept member

/-- A result is stored where it was selected, as long as no other call was. -/
theorem Valid.attach (valid : Valid run) {position : Nat} {task : Task} {now : DateTime} {id : Uuid}
    {wasDeferred : Bool} (turn : run.tasks[position]? = some task) (stage : task.stage = .update id wasDeferred) :
    Valid (run.attach position task now id wasDeferred) := by
  have member : task ∈ run.tasks := List.mem_of_getElem? turn
  obtain ⟨row, rfl, chosen⟩ := valid.chosen task member id wasDeferred stage
  have kept : ∀ other ∈ run.tasks.eraseIdx position, other ∈ run.tasks := fun _ => List.mem_of_mem_eraseIdx
  refine ⟨distinct_stored valid.unique _ _, fun other present id deferred stage' => ?_, ?_, ?_⟩
  · exact valid.chosen_attach member (kept other present) chosen.member stage stage' position now
  · exact fun first present second present' => valid.exclusive first (kept first present) second (kept second present')
  · exact ⟨valid.stamps_attach chosen position now, valid.broadcasts_attach chosen position now⟩

theorem Valid.step (valid : Valid run) {event : Event} (met : run.Meets clock event)
    (taken : run.step clock event = some after) : Valid after := by
  cases event with
  | logRow row =>
    cases taken
    exact valid.logRow row
  | deliver result =>
    cases taken
    refine valid.retask fun task member id wasDeferred stage => ?_
    rcases List.mem_append.mp member with before | new
    · exact before
    · rw [List.mem_singleton.mp new] at stage
      cases stage
  | execute position now tie =>
    obtain ⟨task, turn, executed⟩ := Option.bind_eq_some_iff.mp taken
    unfold Run.execute at executed
    split at executed
    next stage =>
      split at executed
      next row found =>
        cases executed
        have candidate : row ∈ run.candidates clock task now := by
          simpa only [Run.candidates, stage] using mem_exact found
        exact valid.select candidate (met task turn row candidate).1 (met task turn row candidate).2
      next =>
        cases executed
        exact valid.setTask position fun _ _ same => by cases same
    next stage =>
      split at executed
      next =>
        cases executed
        unfold Run.unmatched
        split
        · exact valid.erase position
        · exact valid.setTask position fun _ _ same => by cases same
      next =>
        obtain ⟨row, found, rfl⟩ := Option.map_eq_some_iff.mp executed
        have candidate : row ∈ run.candidates clock task now := by
          simpa only [Run.candidates, stage] using List.mem_of_getElem? found
        exact valid.select candidate (met task turn row candidate).1 (met task turn row candidate).2
    next id wasDeferred stage =>
      cases executed
      exact valid.attach turn stage
    next => cases executed
  | wake position =>
    simp only [Run.step] at taken
    split at taken
    · split at taken
      · cases taken
        exact valid.setTask position fun _ _ same => by cases same
      · cases taken
    · cases taken
  | fail position =>
    cases taken
    exact valid.erase position

/-- Where every select finds a row of its own, every result is stored in its own row and
every broadcast names it. -/
theorem results_attached_to_own_call
    (reached : Machine.Reachable (Run.machine clock initial) (Run.Meets clock) run) : Attached run := by
  have valid : Valid run :=
    reached.invariant .start fun _ _ _ valid met taken => valid.step met taken
  exact valid.attached

private def textClock : TextClock where
  toRfc3339 _ := ""

private def bashRow : LogRow where
  id := 7
  agentId := "cc-1"
  agentType := AgentType.claudeCode.column
  project := "/work"
  toolName := "Bash"
  toolInput := "null"
  decision := Decision.approve.column
  requestedAt := .raw "1"
  resolvedAt := .raw "1"
  toolUseId := some "t1"
  hookEventName := "PreToolUse"
  terminalSessionId := none
  decidedBy := none

private def bashLogged : Run.Start where
  log := [bashRow]
  unique := List.pairwise_singleton ..

private def bashResult (toolUseId : String) : ToolResult where
  agentId := "cc-1"
  toolName := "Bash"
  toolInput := .null
  toolResult := .null
  timestamp := 0
  toolUseId := some toolUseId

/-- A message comes while the log has one row of its agent and tool. -/
private def resultArrives (meets : Run → Event → Prop) [∀ run event, Decidable (meets run event)]
    (toolUseId : String) (statements : Nat) : Option Run :=
  (Run.machine textClock bashLogged).run meets (Run.machine textClock bashLogged).start
    (.deliver (bashResult toolUseId) :: List.replicate statements (.execute 0 0 0))

theorem results_attached_to_own_call_exact :
    Attached ((resultArrives (Run.Meets textClock) "t1" 2).get (by decide +kernel)) :=
  results_attached_to_own_call (Machine.Reachable.start.run (Option.some_get _).symm)

/-- The result of `t2` comes before its row, and the row of `t1` takes it. -/
theorem early_result_in_other_row :
    ∃ clock initial run, Machine.Reachable (Run.machine clock initial) Machine.free run ∧ ¬ Attached run := by
  refine ⟨textClock, bashLogged, (resultArrives Machine.free "t2" 3).get (by decide +kernel),
    Machine.Reachable.start.run (Option.some_get _).symm, fun attached => ?_⟩
  have stamped : (⟨bashResult "t2", bashRow, none⟩ : Stamp) ∈
      ((resultArrives Machine.free "t2" 3).get (by decide +kernel)).stamps := by decide +kernel
  rcases (attached.stamps _ stamped).call "t2" rfl with missing | same
  · cases missing
  · exact absurd same (by decide)

end Wisphive.ToolResults
