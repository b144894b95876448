import Wisphive.EventFiles

/-! Rules for a read. It inserts decision lines only, it stops at the first line that is no
UTF-8, and a re-import that comes to the end has taken every decision line. -/

namespace Wisphive.EventIngest
open Foundation

variable {platform : IngestPlatform} {Store : Type} {insert : LogRow → Store → Store} {aborts : Bool}
  {lines rest : List Bytes} {line : Bytes} {faults : List Bool} {store : Store}

theorem lineDecision_of_read {text : String} {row : LogRow} (reading : readLine platform line = .decision text row) :
    lineDecision platform line = some (text, row) := by
  rw [lineDecision, reading]

theorem valid_of_reading (reading : readLine platform line ≠ .invalid) : valid line = true := by
  unfold readLine at reading
  unfold valid
  split at reading
  next => exact absurd rfl reading
  next decoded => rw [decoded]; rfl

theorem invalid_of_reading (reading : readLine platform line = .invalid) : valid line = false := by
  unfold readLine at reading
  unfold valid
  split at reading
  next undecoded => rw [undecoded]; rfl
  next =>
    split at reading
    · cases reading
    · split at reading <;> cases reading

/-- The row is the one that `ingest_line` inserts. -/
theorem ingestLine_decision {text : String} {row : LogRow} (reading : readLine platform line = .decision text row)
    (now : DateTime) (db : Database) :
    (ingestLine platform now text db).map (·.2.log) = some (insertRow row db.log) := by
  have recorded : AuditRun.lineRow platform text = some row := by
    unfold readLine at reading
    split at reading
    · cases reading
    · split at reading
      · cases reading
      · split at reading
        · cases reading
        next found =>
          cases reading
          exact found
  unfold AuditRun.lineRow at recorded
  obtain ⟨⟨entry, kind⟩, found, rfl⟩ := Option.map_eq_some_iff.mp recorded
  obtain ⟨event, parsed, decided⟩ := Option.bind_eq_some_iff.mp found
  simp only [ingestLine, parsed, Option.map_some, decided]
  rfl

/-- A re-import that comes to the end has accepted every decision. -/
theorem accepted_of_ok (ok : (importLines platform insert true lines faults store).ok = true) :
    (importLines platform insert true lines faults store).accepted = (decisions platform lines).map (·.1) := by
  induction lines generalizing faults store with
  | nil => rfl
  | cons line rest ih =>
    unfold importLines at ok ⊢
    split at ok
    next => cases ok
    next reading =>
      have skipped : lineDecision platform line = none := by rw [lineDecision, reading]
      simp only [decisions, List.filterMap_cons_none skipped]
      exact ih ok
    next text row reading =>
      have decided := lineDecision_of_read reading
      simp only [decisions, List.filterMap_cons_some decided, List.map_cons]
      split at ok
      next => cases ok
      next works =>
        rw [if_neg works]
        exact congrArg _ (ih ok)

theorem untilFault_works {Item : Type} {items : List Item} (works : true ∉ faults) : untilFault items faults = items := by
  induction items generalizing faults with
  | nil => rfl
  | cons item rest ih =>
    cases faults with
    | nil => rfl
    | cons fault later =>
      have first : fault = false := Bool.eq_false_iff.mpr fun fails => works (by rw [fails]; exact List.mem_cons_self)
      rw [untilFault, first, if_neg Bool.false_ne_true, ih fun member => works (List.mem_cons_of_mem _ member)]

/-- A re-import accepts the decisions before the first failing statement and before the first
line that is no UTF-8, whatever else stands there. -/
theorem accepted_eq : (importLines platform insert true lines faults store).accepted =
    untilFault ((decisions platform (lines.takeWhile valid)).map (·.1)) faults := by
  induction lines generalizing faults store with
  | nil => rfl
  | cons line rest ih =>
    unfold importLines
    split
    next reading => rw [List.takeWhile_cons_of_neg (by rw [invalid_of_reading reading]; exact Bool.false_ne_true)]; rfl
    next reading =>
      have skipped : lineDecision platform line = none := by rw [lineDecision, reading]
      rw [List.takeWhile_cons_of_pos (valid_of_reading (by rw [reading]; exact nofun)), decisions,
        List.filterMap_cons_none skipped]
      exact ih
    next text row reading =>
      rw [List.takeWhile_cons_of_pos (valid_of_reading (by rw [reading]; exact nofun)), decisions,
        List.filterMap_cons_some (lineDecision_of_read reading), List.map_cons]
      cases faults with
      | nil => exact congrArg _ (ih.trans (untilFault_works List.not_mem_nil))
      | cons fault later =>
        cases fault with
        | true => rfl
        | false => exact congrArg _ ih

/-- It comes to the end exactly if every line is UTF-8 and the statements of its decisions
succeed. -/
theorem ok_iff : (importLines platform insert true lines faults store).ok = true ↔
    (∀ line ∈ lines, valid line = true) ∧ true ∉ faults.take (decisions platform lines).length := by
  induction lines generalizing faults store with
  | nil => simp [importLines, decisions]
  | cons line rest ih =>
    unfold importLines
    rw [List.forall_mem_cons]
    split
    next reading => simp [invalid_of_reading reading]
    next reading =>
      have skipped : lineDecision platform line = none := by rw [lineDecision, reading]
      rw [decisions, List.filterMap_cons_none skipped]
      simp only [valid_of_reading (show readLine platform line ≠ .invalid by rw [reading]; exact nofun), true_and]
      exact ih
    next text row reading =>
      rw [decisions, List.filterMap_cons_some (lineDecision_of_read reading), List.length_cons]
      simp only [valid_of_reading (show readLine platform line ≠ .invalid by rw [reading]; exact nofun), true_and]
      cases faults with
      | nil =>
        have later := @ih [] (insert row store)
        simpa using later
      | cons fault later =>
        cases fault with
        | true => simp
        | false =>
          have behind := @ih later (insert row store)
          simpa [decisions] using behind

/-- The inserts of some decisions, one after the other. -/
def insertAll (insert : LogRow → Store → Store) (decided : List (String × LogRow)) (store : Store) : Store :=
  decided.foldl (fun store decision => insert decision.2 store) store

theorem reimport_store : (importLines platform insert true lines faults store).store =
    insertAll insert (untilFault (decisions platform (lines.takeWhile valid)) faults) store := by
  induction lines generalizing faults store with
  | nil => rfl
  | cons line rest ih =>
    unfold importLines
    split
    next reading => rw [List.takeWhile_cons_of_neg (by rw [invalid_of_reading reading]; exact Bool.false_ne_true)]; rfl
    next reading =>
      have skipped : lineDecision platform line = none := by rw [lineDecision, reading]
      rw [List.takeWhile_cons_of_pos (valid_of_reading (by rw [reading]; exact nofun)), decisions,
        List.filterMap_cons_none skipped]
      exact ih
    next text row reading =>
      rw [List.takeWhile_cons_of_pos (valid_of_reading (by rw [reading]; exact nofun)), decisions,
        List.filterMap_cons_some (lineDecision_of_read reading)]
      cases faults with
      | nil =>
        have later := @ih [] (insert row store)
        rw [untilFault_works List.not_mem_nil] at later
        exact later
      | cons fault later =>
        cases fault with
        | true => rfl
        | false => exact @ih later (insert row store)

/-- A read of lines that are UTF-8, whose statements succeed, comes to the end and inserts
every decision. -/
theorem read_all (clean : ∀ line ∈ lines, valid line = true)
    (works : true ∉ faults.take (decisions platform lines).length) :
    importLines platform insert aborts lines faults store =
      { store := insertAll insert (decisions platform lines) store
        accepted := (decisions platform lines).map (·.1)
        read := lines.length
        ok := true } := by
  induction lines generalizing faults store with
  | nil => rfl
  | cons line rest ih =>
    obtain ⟨first, after⟩ := List.forall_mem_cons.mp clean
    unfold importLines
    split
    next reading =>
      rw [invalid_of_reading reading] at first
      cases first
    next reading =>
      have skipped : lineDecision platform line = none := by rw [lineDecision, reading]
      rw [decisions, List.filterMap_cons_none skipped] at works ⊢
      rw [@ih faults store after works]
      rfl
    next text row reading =>
      rw [decisions, List.filterMap_cons_some (lineDecision_of_read reading)] at works ⊢
      cases faults with
      | nil =>
        have later := @ih [] (insert row store) after (by simp)
        simp only [List.headD_nil, Bool.false_eq_true, if_false, List.tail_nil, later]
        rfl
      | cons fault behind =>
        rw [List.length_cons, List.take_succ_cons, List.mem_cons, not_or] at works
        have succeeds : fault = false := by simpa using works.1
        have later := @ih behind (insert row store) after works.2
        simp only [List.headD_cons, succeeds, Bool.false_eq_true, if_false, List.tail_cons, later]
        rfl

/-- The line of an event that says nothing but its kind. -/
def bareEvent : String := "\x7b\"event\":\"denied\"\x7d"

def bareLine : Bytes :=
  bareEvent.toUTF8.toList ++ [newline]

/-- The platform on this line, with its hash. -/
def barePlatform : IngestPlatform where
  fromStr text := if text = bareEvent then some (.object [("event", .string "denied")]) else none
  finish _ := 0x331b9c7a5e97607b
  parseFromRfc3339 _ := none
  parseUuid _ := none

end Wisphive.EventIngest
