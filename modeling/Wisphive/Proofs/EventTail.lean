import Wisphive.EventTail
import Wisphive.Proofs.EventFiles
import Wisphive.Proofs.PendingRecovery

/-! When the tail loses no line. It takes the end of the file for the end of a line, so it
must only look at whole lines, and a truncation must stay visible until it looks. -/

namespace Wisphive.EventTail
open Foundation EventIngest

variable {platform : IngestPlatform} {initial : Run.Start} {run after : Run} {store : Store}
  {owed : List LogRow} {row : LogRow} {decided : List (String × LogRow)} {lines : List Bytes}

namespace Run
variable (platform)

/-- What follows the last line end is no decision yet. -/
def Open (run : Run) : Prop :=
  rowsOf platform [Lines.rest newline run.live] = []

/-- Every completed decision line has been inserted. -/
def Caught (run : Run) : Prop :=
  ∀ row ∈ run.owed, row ∈ run.store.inserted

/-- A piece completes lines of new ids and leaves a truncation visible, and the file is cut
off or replaced only when it was caught up with. A read starts and ends behind a line end, its
lines are UTF-8 and their statements succeed. A rotation imports what was not yet read, no
writer comes late, and no other writer takes the id of a line ahead of it. -/
def Meets (run : Run) : Event → Prop
  | .append piece =>
    Table.ClearAll LogRow.conflicts (run.store.log ++ rowsOf platform (Lines.complete newline run.live))
      (rowsOf platform (completed run.live piece)) ∧
    (run.identity = run.opened → run.live.length < run.offset → (run.live ++ piece).length < run.offset)
  | .truncate _ | .replace => run.Caught
  | .wake faults =>
    Lines.rest newline run.live = [] ∧ Lines.rest newline (run.live.take run.readFrom) = [] ∧
      (∀ line ∈ Lines.complete newline run.unread, valid line = true) ∧
      true ∉ faults.take (decisions platform (Lines.complete newline run.unread)).length
  | .rotate renames faults =>
    renames = true → run.Open platform ∧ ∀ row ∈ run.owed, row ∈ run.store.inserted ∨
      row ∈ (untilFault (decisions platform ((Lines.pieces newline run.live).takeWhile valid)) faults).map (·.2)
  | .lateAppend piece => rowsOf platform (completed run.segment piece) = []
  | .reimport _ => run.Open platform
  | .logRow row => ∀ other ∈ run.owed, other.conflicts row = true → other ∈ run.store.inserted

instance (run : Run) : Decidable (run.Open platform) :=
  inferInstanceAs (Decidable (_ = _))

instance (run : Run) : Decidable run.Caught :=
  inferInstanceAs (Decidable (∀ row ∈ run.owed, row ∈ run.store.inserted))

instance (run : Run) (event : Event) : Decidable (run.Meets platform event) := by
  unfold Meets
  split <;> infer_instance

end Run

theorem conflicts_self (row : LogRow) : row.conflicts row = true := by
  simp [LogRow.conflicts]

/-- An inserted row is in the table, and what conflicts with an owed row is that row itself,
inserted. -/
structure Sound (owed : List LogRow) (store : Store) : Prop where
  unique : Table.Distinct LogRow.conflicts store.log
  inserted : store.inserted.Sublist store.log
  own : ∀ row ∈ owed, ∀ other ∈ store.log, row.conflicts other = true → other = row ∧ row ∈ store.inserted

theorem insert_keeps {other : LogRow} (member : other ∈ store.inserted) : other ∈ (store.insert row).inserted := by
  simp only [Store.insert]
  split
  · exact List.mem_append_left _ member
  · exact member

theorem Sound.insert (sound : Sound owed store)
    (compatible : ∀ other ∈ owed, other.conflicts row = true → row = other) : Sound owed (store.insert row) := by
  by_cases clear : Table.Clear LogRow.conflicts store.log row
  · have log : (store.insert row).log = store.log ++ [row] := by rw [Store.insert, Table.insertOrIgnore_clear clear]
    have inserted : (store.insert row).inserted = store.inserted ++ [row] := by
      rw [Store.insert, Table.insertOrIgnore_clear clear, if_pos rfl]
    refine ⟨sound.unique.insertOrIgnore LogRow.conflicts_symm, ?_, fun other claimed present present' conflict => ?_⟩
    · rw [log, inserted]
      exact sound.inserted.append (List.Sublist.refl _)
    · rw [log] at present'
      rw [inserted]
      rcases List.mem_append.mp present' with old | new
      · obtain ⟨same, known⟩ := sound.own other claimed present old conflict
        exact ⟨same, List.mem_append_left _ known⟩
      · obtain rfl := List.mem_singleton.mp new
        obtain rfl := compatible other claimed conflict
        exact ⟨rfl, List.mem_append_right _ (List.mem_singleton_self _)⟩
  · have same : store.insert row = store := by
      rw [Store.insert, Table.insertOrIgnore_conflict clear, if_neg Bool.false_ne_true]
    rw [same]
    exact sound

/-- An owed row that is inserted once more was inserted before. -/
theorem Sound.insert_owed (sound : Sound owed store) (member : row ∈ owed) : row ∈ (store.insert row).inserted := by
  by_cases clear : Table.Clear LogRow.conflicts store.log row
  · rw [Store.insert, Table.insertOrIgnore_clear clear, if_pos rfl]
    exact List.mem_append_right _ (List.mem_singleton_self _)
  · simp only [Table.Clear, not_forall, Bool.not_eq_false] at clear
    obtain ⟨other, present, conflict⟩ := clear
    exact insert_keeps (sound.own row member other present conflict).2

/-- A read of compatible rows keeps the store sound, and inserts the owed ones. -/
theorem Sound.insertAll (sound : Sound owed store)
    (compatible : ∀ decision ∈ decided, ∀ other ∈ owed, other.conflicts decision.2 = true → decision.2 = other) :
    Sound owed (EventIngest.insertAll Store.insert decided store) ∧
      (∀ other ∈ store.inserted, other ∈ (EventIngest.insertAll Store.insert decided store).inserted) ∧
      ∀ decision ∈ decided, decision.2 ∈ owed →
        decision.2 ∈ (EventIngest.insertAll Store.insert decided store).inserted := by
  induction decided generalizing store with
  | nil => exact ⟨sound, fun _ member => member, fun _ member => nomatch member⟩
  | cons first rest ih =>
    obtain ⟨fits, others⟩ := List.forall_mem_cons.mp compatible
    obtain ⟨later, keeps, inserts⟩ := ih (sound.insert fits) others
    refine ⟨later, fun other member => keeps other (insert_keeps member), fun decision member claimed => ?_⟩
    rcases List.mem_cons.mp member with rfl | behind
    · exact keeps _ (sound.insert_owed claimed)
    · exact inserts decision behind claimed

theorem Sound.nodup_log (sound : Sound owed store) : store.inserted.Nodup := by
  apply sound.inserted.nodup
  apply sound.unique.imp
  rintro row _ free rfl
  rw [conflicts_self] at free
  cases free

/-- The owed rows stand for one line each and conflict with no other line of the file. One
that is not inserted is in the file, ahead of a reader that stands behind a line end. -/
structure Kept (platform : IngestPlatform) (run : Run) : Prop where
  sound : Sound run.owed run.store
  distinct : Table.Distinct LogRow.conflicts run.owed
  clear : ∀ row ∈ run.owed, ∀ other ∈ rowsOf platform (Lines.complete newline run.live),
    row.conflicts other = true → other = row
  here : ∀ row ∈ run.owed, row ∈ run.store.inserted ∨ row ∈ rowsOf platform (Lines.complete newline run.live)
  place : run.opened ≤ run.identity ∧ (run.identity = run.opened → run.offset = run.position)
  ahead : ¬ run.Reset → Lines.rest newline (run.live.take run.position) = [] → ∀ row ∈ run.owed,
    row ∈ run.store.inserted ∨ row ∈ rowsOf platform (Lines.complete newline (run.live.drop run.position))
  quiet : run.notified = false → run.Caught

theorem Kept.start : Kept platform (Run.machine platform initial).start where
  sound := ⟨initial.unique, List.nil_sublist _, fun _ member => nomatch member⟩
  distinct := List.Pairwise.nil
  clear _ member := nomatch member
  here _ member := nomatch member
  place := ⟨Nat.le_refl _, fun _ => rfl⟩
  ahead _ _ _ member := nomatch member
  quiet _ _ member := nomatch member

theorem Kept.ingested (kept : Kept platform run) : Ingested run := by
  have single : run.store.inserted.Nodup := kept.sound.nodup_log
  have own : run.owed.Nodup := by
    apply kept.distinct.imp
    rintro row _ free rfl
    rw [conflicts_self] at free
    cases free
  constructor
  · intro row member
    rw [List.count_eq_one_of_mem own member]
    exact List.nodup_iff_count_le_one.mp single row
  · intro quiet row member
    rw [List.count_eq_one_of_mem own member, List.count_eq_one_of_mem single (kept.quiet quiet row member)]

theorem rowsOf_append {first second : List Bytes} :
    rowsOf platform (first ++ second) = rowsOf platform first ++ rowsOf platform second := by
  rw [rowsOf, decisions, List.filterMap_append, List.map_append]
  rfl

/-- A reader that is not reset stands inside the file. -/
theorem Kept.inside (kept : Kept platform run) (reset : ¬ run.Reset) :
    run.identity = run.opened ∧ run.position ≤ run.live.length := by
  simp only [Run.Reset, not_or, Nat.not_lt, ne_eq, not_not] at reset
  exact ⟨reset.2, kept.place.2 reset.2 ▸ reset.1⟩

/-- A new row conflicts with nothing of the table and the file. -/
theorem clear_of_clearAll {rows fresh : List LogRow} (clear : Table.ClearAll LogRow.conflicts rows fresh) :
    (∀ row ∈ fresh, Table.Clear LogRow.conflicts rows row) ∧ Table.Distinct LogRow.conflicts fresh := by
  induction fresh generalizing rows with
  | nil => exact ⟨fun _ member => (nomatch member), List.Pairwise.nil⟩
  | cons first rest ih =>
    obtain ⟨others, distinct⟩ := ih clear.2
    constructor
    · intro row member other present
      rcases List.mem_cons.mp member with rfl | behind
      · exact clear.1 other present
      · exact others row behind other (List.mem_append_left _ present)
    · refine List.pairwise_cons.mpr ⟨fun row member => ?_, distinct⟩
      rw [LogRow.conflicts_symm]
      exact others row member first (List.mem_append_right _ (List.mem_singleton_self _))

theorem Kept.append (kept : Kept platform run) {piece : Bytes} (met : run.Meets platform (.append piece)) :
    Kept platform { run with
      live := run.live ++ piece
      notified := true
      owed := run.owed ++ rowsOf platform (completed run.live piece) } := by
  obtain ⟨clear, visible⟩ := met
  obtain ⟨free, apart⟩ := clear_of_clearAll clear
  have grown : rowsOf platform (Lines.complete newline (run.live ++ piece)) =
      rowsOf platform (Lines.complete newline run.live) ++ rowsOf platform (completed run.live piece) := by
    rw [Lines.complete_append, rowsOf_append]
    rfl
  have known : ∀ row ∈ run.owed, row ∈ run.store.log ++ rowsOf platform (Lines.complete newline run.live) := by
    intro row member
    rcases kept.here row member with inserted | here
    · exact List.mem_append_left _ (kept.sound.inserted.subset inserted)
    · exact List.mem_append_right _ here
  have foreign : ∀ row ∈ run.owed, ∀ other ∈ rowsOf platform (completed run.live piece),
      row.conflicts other = false := by
    intro row member other new
    rw [LogRow.conflicts_symm]
    exact free other new row (known row member)
  refine ⟨⟨kept.sound.unique, kept.sound.inserted, fun row member other present conflict => ?_⟩, ?_,
    fun row member other present conflict => ?_, fun row member => ?_, kept.place, fun reset closed row member => ?_,
    fun impossible => nomatch impossible⟩
  · rcases List.mem_append.mp member with old | new
    · exact kept.sound.own row old other present conflict
    · rw [free row new other (List.mem_append_left _ present)] at conflict
      cases conflict
  · exact List.pairwise_append.mpr ⟨kept.distinct, apart, foreign⟩
  · rw [grown] at present
    rcases List.mem_append.mp member with old | new
    · rcases List.mem_append.mp present with before | behind
      · exact kept.clear row old other before conflict
      · rw [foreign row old other behind] at conflict
        cases conflict
    · rcases List.mem_append.mp present with before | behind
      · rw [free row new other (List.mem_append_right _ before)] at conflict
        cases conflict
      · exact (apart.eq_of_conflict LogRow.conflicts_symm new behind conflict).symm
  · rw [grown]
    rcases List.mem_append.mp member with old | new
    · exact (kept.here row old).imp_right (List.mem_append_left _)
    · exact .inr (List.mem_append_right _ new)
  · have before : ¬ run.Reset := by
      intro behind
      by_cases same : run.identity = run.opened
      · exact reset (.inl (visible same (behind.resolve_right fun other => other same)))
      · exact reset (.inr same)
    obtain ⟨_, within⟩ := kept.inside before
    rw [List.take_append_of_le_length within] at closed
    have rest : Lines.rest newline run.live = Lines.rest newline (run.live.drop run.position) := by
      have split := @Lines.rest_append _ _ newline (run.live.take run.position) (run.live.drop run.position)
      rw [List.take_append_drop, closed, List.nil_append] at split
      exact split
    have lines : rowsOf platform (Lines.complete newline ((run.live ++ piece).drop run.position)) =
        rowsOf platform (Lines.complete newline (run.live.drop run.position)) ++
          rowsOf platform (completed run.live piece) := by
      rw [List.drop_append_of_le_length within, Lines.complete_append, rowsOf_append, ← rest]
      rfl
    rw [lines]
    rcases List.mem_append.mp member with old | new
    · exact (kept.ahead before closed row old).imp_right (List.mem_append_left _)
    · exact .inr (List.mem_append_right _ new)

theorem complete_take_sub {content : Bytes} {length : Nat} {line : Bytes}
    (member : line ∈ Lines.complete newline (content.take length)) : line ∈ Lines.complete newline content := by
  have whole := @Lines.complete_append _ _ newline (content.take length) (content.drop length)
  rw [List.take_append_drop] at whole
  rw [whole]
  exact List.mem_append_left _ member

theorem rowsOf_sub {more : List Bytes} (sub : ∀ line ∈ lines, line ∈ more) (member : row ∈ rowsOf platform lines) :
    row ∈ rowsOf platform more := by
  obtain ⟨decision, decided, rfl⟩ := List.mem_map.mp member
  obtain ⟨line, inside, read⟩ := List.mem_filterMap.mp decided
  exact List.mem_map_of_mem (List.mem_filterMap.mpr ⟨line, sub line inside, read⟩)

/-- Once everything is inserted, only the file's own lines matter. -/
theorem Kept.caught (kept : Kept platform run) (caught : run.Caught) {live : Bytes} {identity : Nat}
    (sub : ∀ line ∈ Lines.complete newline live, line ∈ Lines.complete newline run.live)
    (newer : run.identity ≤ identity) : Kept platform { run with live, identity, notified := true } where
  sound := kept.sound
  distinct := kept.distinct
  clear row member other present := kept.clear row member other (rowsOf_sub sub present)
  here row member := .inl (caught row member)
  place := by
    obtain ⟨older, place⟩ := kept.place
    refine ⟨Nat.le_trans older newer, fun same => place ?_⟩
    change identity = run.opened at same
    omega
  ahead _ _ row member := .inl (caught row member)
  quiet impossible := nomatch impossible

/-- An insert from the file is one of an owed row or of a row that no owed one conflicts with. -/
theorem Kept.compatible (kept : Kept platform run) {decided : List (String × LogRow)}
    (sub : ∀ decision ∈ decided, decision.2 ∈ rowsOf platform (Lines.complete newline run.live)) :
    ∀ decision ∈ decided, ∀ other ∈ run.owed, other.conflicts decision.2 = true → decision.2 = other :=
  fun decision member other claimed conflict => kept.clear other claimed decision.2 (sub decision member) conflict

theorem decision_row {decision : String × LogRow} (member : decision ∈ decisions platform lines) :
    decision.2 ∈ rowsOf platform lines :=
  List.mem_map_of_mem member

/-- Where a read starts, the lines behind it hold what is not yet inserted. -/
theorem Kept.unread (kept : Kept platform run)
    (closed : Lines.rest newline (run.live.take run.readFrom) = []) :
    ∀ row ∈ run.owed, row ∈ run.store.inserted ∨ row ∈ rowsOf platform (Lines.complete newline run.unread) := by
  intro row member
  unfold Run.unread
  by_cases reset : run.Reset
  · have from_start : run.readFrom = 0 := if_pos reset
    rw [from_start, List.drop_zero]
    exact kept.here row member
  · have from_position : run.readFrom = run.position := if_neg reset
    rw [from_position] at closed ⊢
    exact kept.ahead reset closed row member

theorem Kept.unread_sub
    (closed : Lines.rest newline (run.live.take run.readFrom) = []) {line : Bytes}
    (member : line ∈ Lines.complete newline run.unread) : line ∈ Lines.complete newline run.live := by
  have whole := @Lines.complete_append_closed _ _ newline (run.live.take run.readFrom) (run.live.drop run.readFrom) closed
  rw [List.take_append_drop] at whole
  rw [whole]
  exact List.mem_append_right _ member

/-- A read that starts and ends behind a line end stops at the end of the file. -/
theorem Kept.drain_eq (kept : Kept platform run) {faults : List Bool} (met : run.Meets platform (.wake faults)) :
    run.drain platform faults = { run with
      opened := run.identity
      position := run.live.length
      offset := run.live.length
      rotating := eventsLogMaxBytes ≤ run.live.length
      notified := false
      store := EventIngest.insertAll Store.insert (decisions platform (Lines.complete newline run.unread)) run.store } := by
  obtain ⟨ended, closed, clean, works⟩ := met
  have open_rest : Lines.rest newline run.unread = [] := by
    have split := @Lines.rest_append _ _ newline (run.live.take run.readFrom) (run.live.drop run.readFrom)
    rw [List.take_append_drop, closed, List.nil_append] at split
    exact split.symm.trans ended
  have pieces : Lines.pieces newline run.unread = Lines.complete newline run.unread := Lines.pieces_closed open_rest
  have whole : (Lines.complete newline run.unread).flatten = run.unread := by
    rw [← pieces, Lines.flatten_pieces]
  have size : run.unread.length = run.live.length - run.readFrom := List.length_drop
  have read := @read_all platform Store Store.insert false (Lines.complete newline run.unread) faults run.store clean works
  have position : run.readFrom ≤ run.live.length := by
    unfold Run.readFrom
    split
    · exact Nat.zero_le _
    next reset => exact (kept.inside reset).2
  have offset : (if run.Reset then 0 else run.offset) = run.readFrom := by
    unfold Run.readFrom
    split
    · rfl
    next reset => exact kept.place.2 (kept.inside reset).1
  have sum : run.readFrom + (run.live.length - run.readFrom) = run.live.length := by omega
  simp only [Run.drain, readNewLines, pieces, read, if_true, List.take_length, whole, size, offset, sum]

theorem Kept.wake (kept : Kept platform run) {faults : List Bool} (met : run.Meets platform (.wake faults)) :
    Kept platform (run.drain platform faults) := by
  rw [kept.drain_eq met]
  obtain ⟨_, closed, _, _⟩ := met
  have lines : ∀ decision ∈ decisions platform (Lines.complete newline run.unread),
      decision.2 ∈ rowsOf platform (Lines.complete newline run.live) := fun decision member =>
    rowsOf_sub (fun _ inside => Kept.unread_sub closed inside) (decision_row member)
  obtain ⟨sound, keeps, inserts⟩ := kept.sound.insertAll (kept.compatible lines)
  have caught : ∀ row ∈ run.owed, row ∈ (EventIngest.insertAll Store.insert
      (decisions platform (Lines.complete newline run.unread)) run.store).inserted := by
    intro row member
    rcases kept.unread closed row member with inserted | unread
    · exact keeps row inserted
    · obtain ⟨decision, decided, rfl⟩ := List.mem_map.mp unread
      exact inserts decision decided member
  exact ⟨sound, kept.distinct, kept.clear, fun row member => .inl (caught row member),
    ⟨Nat.le_refl _, fun _ => rfl⟩, fun _ _ row member => .inl (caught row member), fun _ => caught⟩

theorem mem_of_untilFault {Item : Type} {items : List Item} {faults : List Bool} {item : Item}
    (member : item ∈ untilFault items faults) : item ∈ items := by
  induction items generalizing faults with
  | nil => exact member
  | cons first rest ih =>
    cases faults with
    | nil => exact member
    | cons fault later =>
      rw [untilFault] at member
      split at member
      · cases member
      · rcases List.mem_cons.mp member with rfl | behind
        · exact List.mem_cons_self
        · exact List.mem_cons_of_mem _ (ih behind)

/-- A re-import of the file reads its lines, and nothing behind the last line end that is a
decision. -/
theorem reimport_rows (unfinished : run.Open platform) {faults : List Bool} :
    ∀ decision ∈ untilFault (decisions platform ((Lines.pieces newline run.live).takeWhile valid)) faults,
      decision.2 ∈ rowsOf platform (Lines.complete newline run.live) := by
  intro decision member
  have pieces : decision.2 ∈ rowsOf platform (Lines.pieces newline run.live) :=
    rowsOf_sub (fun _ inside => (List.takeWhile_sublist _).subset inside) (decision_row (mem_of_untilFault member))
  unfold Lines.pieces at pieces
  split at pieces
  · rwa [List.append_nil] at pieces
  · rw [rowsOf_append, unfinished, List.append_nil] at pieces
    exact pieces

theorem Kept.reimport (kept : Kept platform run) (unfinished : run.Open platform) (faults : List Bool) :
    Kept platform { run with
      store := (reimportAll platform Store.insert run.live faults run.store).store } := by
  rw [reimportAll, reimport_store]
  obtain ⟨sound, keeps, _⟩ := kept.sound.insertAll (kept.compatible (reimport_rows unfinished))
  exact ⟨sound, kept.distinct, kept.clear, fun row member => (kept.here row member).imp_left (keeps row), kept.place,
    fun reset closed row member => (kept.ahead reset closed row member).imp_left (keeps row),
    fun quiet row member => keeps row (kept.quiet quiet row member)⟩

theorem Kept.rotate (kept : Kept platform run) {faults : List Bool}
    (met : run.Meets platform (.rotate true faults)) : Kept platform (run.rotateEventsLog platform faults) := by
  obtain ⟨unfinished, covered⟩ := met rfl
  unfold Run.rotateEventsLog
  rw [reimportAll, reimport_store]
  obtain ⟨sound, keeps, inserts⟩ := kept.sound.insertAll (kept.compatible (reimport_rows unfinished))
  have caught : ∀ row ∈ run.owed, row ∈ (EventIngest.insertAll Store.insert
      (untilFault (decisions platform ((Lines.pieces newline run.live).takeWhile valid)) faults) run.store).inserted := by
    intro row member
    rcases covered row member with inserted | read
    · exact keeps row inserted
    · obtain ⟨decision, decided, rfl⟩ := List.mem_map.mp read
      exact inserts decision decided member
  exact ⟨sound, kept.distinct, fun _ _ _ present _ => (nomatch present), fun row member => .inl (caught row member),
    ⟨Nat.le_refl _, fun _ => rfl⟩, fun _ _ row member => .inl (caught row member), fun _ => caught⟩

theorem Kept.logRow (kept : Kept platform run)
    (free : ∀ other ∈ run.owed, other.conflicts row = true → other ∈ run.store.inserted) :
    Kept platform { run with store := { run.store with
      log := (Table.insertOrIgnore LogRow.conflicts run.store.log row).2 } } := by
  have sound : Sound run.owed { run.store with
      log := (Table.insertOrIgnore LogRow.conflicts run.store.log row).2 } := by
    by_cases clear : Table.Clear LogRow.conflicts run.store.log row
    · refine ⟨kept.sound.unique.insertOrIgnore LogRow.conflicts_symm, ?_, fun other claimed latest present conflict => ?_⟩
      · rw [Table.insertOrIgnore_clear clear]
        exact kept.sound.inserted.trans (List.sublist_append_left _ _)
      · rw [Table.insertOrIgnore_clear clear] at present
        rcases List.mem_append.mp present with old | new
        · exact kept.sound.own other claimed latest old conflict
        · obtain rfl := List.mem_singleton.mp new
          have known := kept.sound.inserted.subset (free other claimed conflict)
          rw [LogRow.conflicts_symm, clear other known] at conflict
          cases conflict
    · rw [Table.insertOrIgnore_conflict clear]
      exact kept.sound
  exact ⟨sound, kept.distinct, kept.clear, kept.here, kept.place, kept.ahead, kept.quiet⟩

theorem Kept.step (kept : Kept platform run) {event : Event} (met : run.Meets platform event)
    (taken : run.step platform event = some after) : Kept platform after := by
  cases event with
  | append piece =>
    cases taken
    exact kept.append met
  | truncate length =>
    cases taken
    exact kept.caught met (fun _ member => complete_take_sub member) (Nat.le_refl _)
  | replace =>
    cases taken
    exact kept.caught met (fun _ member => (nomatch member)) (Nat.le_succ _)
  | wake faults =>
    simp only [Run.step] at taken
    split at taken
    · cases taken
    · cases taken
      exact kept.wake met
  | rotate renames faults =>
    simp only [Run.step] at taken
    split at taken
    · cases taken
      split
      next renamed =>
        subst renamed
        exact kept.rotate met
      next => exact ⟨kept.sound, kept.distinct, kept.clear, kept.here, kept.place, kept.ahead, kept.quiet⟩
    · cases taken
  | lateAppend piece =>
    cases taken
    have nothing : rowsOf platform (completed run.segment piece) = [] := met
    rw [nothing, List.append_nil]
    exact ⟨kept.sound, kept.distinct, kept.clear, kept.here, kept.place, kept.ahead, kept.quiet⟩
  | reimport faults =>
    cases taken
    exact kept.reimport met faults
  | logRow row =>
    cases taken
    exact kept.logRow met

/-- In a run whose every step meets the guard, every decision line that is completed after
the start is inserted exactly once. -/
theorem appended_ingested_once
    (reached : Machine.Reachable (Run.machine platform initial) (Run.Meets platform) run) : Ingested run := by
  have kept : Kept platform run := reached.invariant Kept.start fun _ _ _ kept met taken => kept.step met taken
  exact kept.ingested

private def emptyFile : Run.Start where
  live := []
  log := []
  unique := LogRow.distinct_nil

/-- A line that is read between its two pieces, or once it is whole. -/
private def tailed (meets : Run → Event → Prop) [∀ run event, Decidable (meets run event)]
    (events : List Event) : Option Run :=
  (Run.machine barePlatform emptyFile).run meets (Run.machine barePlatform emptyFile).start events

theorem appended_ingested_once_pieces :
    Ingested ((tailed (Run.Meets barePlatform) [.append (bareLine.take 5), .append (bareLine.drop 5), .wake []]).get (by decide +kernel)) :=
  appended_ingested_once (Machine.Reachable.start.run (Option.some_get _).symm)

/-- A notification between the pieces of a line makes two lines of it, and neither is a
decision. -/
theorem torn_line_unread :
    ∃ platform initial run, Machine.Reachable (Run.machine platform initial) Machine.free run ∧ ¬ Ingested run := by
  refine ⟨barePlatform, emptyFile,
    (tailed Machine.free [.append (bareLine.take 5), .wake [], .append (bareLine.drop 5), .wake []]).get (by decide +kernel),
    Machine.Reachable.start.run (Option.some_get _).symm, fun ingested => ?_⟩
  have counted := ingested.all (by decide +kernel)
  revert counted
  decide +kernel

end Wisphive.EventTail
