import Wisphive.Pruning
import Wisphive.Proofs.Retention

/-! A pass leaves the rows that the texts choose. They are the newest rows exactly where
the instants choose the same ones. -/

namespace Wisphive.Retention
open Foundation

variable {clock : TextClock} {fromStr : String → Option Json} {parseFromRfc3339 : String → Option DateTime}
variable {initial : Run.Start} {base run after : Run} {limits : Limits}

/-! ### The ids of a pass -/

theorem earlier_iff {row other : LogRow} : earlier clock row other ↔ textKey clock row ≤ textKey clock other := by
  unfold textKey
  rw [Prod.Lex.toLex_le_toLex]
  rfl

theorem ordered_sorted (log : List LogRow) :
    (ordered clock log).Pairwise fun row other => textKey clock row ≤ textKey clock other := by
  have same : earlier clock = fun row other => textKey clock row ≤ textKey clock other := by
    funext row other
    exact propext earlier_iff
  have sorted := List.pairwise_insertionSort (fun row other => textKey clock row ≤ textKey clock other) log
  unfold ordered
  convert sorted using 1
  congr 1

/-- A key that ends in the id is shared by no two rows. -/
theorem key_distinct {First : Type*} [LinearOrder First] {log : List LogRow}
    (unique : Table.Distinct LogRow.conflicts log) (first : LogRow → First) :
    Newest.Distinct (fun row => toLex (first row, uuidText row.id)) log := by
  apply List.pairwise_map.mpr
  apply unique.imp
  intro row other free same
  have id := uuidText_injective (congrArg (fun key => (ofLex key).2) same)
  simp [LogRow.conflicts, id] at free

/-- The first phase takes these ids, and the second one those behind them. -/
def expiredIds (clock : TextClock) (limits : Limits) (log : List LogRow) : List Uuid :=
  (ordered clock (log.filter (limits.expired clock))).map (·.id)

def unexpired (clock : TextClock) (limits : Limits) (log : List LogRow) : List LogRow :=
  log.filter (!limits.expired clock ·)

def excessIds (clock : TextClock) (limits : Limits) (log : List LogRow) : List Uuid :=
  ((ordered clock (unexpired clock limits log)).take ((unexpired clock limits log).length - limits.maxRows)).map (·.id)

/-- An id stands for its row. -/
theorem id_mem_iff {log rows : List LogRow} (unique : Table.Distinct LogRow.conflicts log)
    (within : ∀ row ∈ rows, row ∈ log) {row : LogRow} (member : row ∈ log) :
    row.id ∈ rows.map (·.id) ↔ row ∈ rows := by
  constructor
  · intro inside
    obtain ⟨other, present, same⟩ := List.mem_map.mp inside
    have equal : other = row := List.inj_on_of_nodup_map (ids_nodup unique) (within other present) member same
    exact equal ▸ present
  · exact List.mem_map_of_mem

theorem mem_expiredIds {log : List LogRow} (unique : Table.Distinct LogRow.conflicts log) {row : LogRow}
    (member : row ∈ log) : row.id ∈ expiredIds clock limits log ↔ limits.expired clock row = true := by
  unfold expiredIds
  rw [id_mem_iff unique _ member, (ordered_perm _).mem_iff, List.mem_filter]
  · exact and_iff_right member
  · intro other inside
    exact (List.mem_filter.mp ((ordered_perm _).mem_iff.mp inside)).1

theorem filter_expiredIds {log : List LogRow} (unique : Table.Distinct LogRow.conflicts log) :
    log.filter (·.id ∉ expiredIds clock limits log) = unexpired clock limits log := by
  apply List.filter_congr
  intro row member
  simp [mem_expiredIds unique member]

theorem mem_excessIds {log : List LogRow} (unique : Table.Distinct LogRow.conflicts log) {row : LogRow}
    (member : row ∈ log) : row.id ∈ excessIds clock limits log ↔
      limits.expired clock row = false ∧ ¬ limits.chosenByText clock log row := by
  have perm : (ordered clock (unexpired clock limits log)).Perm (unexpired clock limits log) := ordered_perm _
  have distinct : Newest.Distinct (textKey clock) (ordered clock (unexpired clock limits log)) :=
    ((key_distinct unique _).sublist List.filter_sublist).perm perm
  have ranked (inside : row ∈ unexpired clock limits log) :=
    Newest.mem_drop_sorted (n := limits.maxRows) distinct (ordered_sorted _) (perm.mem_iff.mpr inside)
  have split := List.take_append_drop ((unexpired clock limits log).length - limits.maxRows)
    (ordered clock (unexpired clock limits log))
  unfold excessIds
  rw [id_mem_iff unique _ member]
  · constructor
    · intro early
      have inside := perm.mem_iff.mp (List.mem_of_mem_take early)
      refine ⟨by simpa using (List.mem_filter.mp inside).2, fun chosen => ?_⟩
      have late := (ranked inside).mpr ((Newest.rank_perm perm).trans_lt chosen.2)
      rw [perm.length_eq] at late
      exact List.disjoint_take_drop distinct.nodup (Nat.le_refl _) early late
    · rintro ⟨fresh, dropped⟩
      have inside : row ∈ unexpired clock limits log := List.mem_filter.mpr ⟨member, by simp [fresh]⟩
      have present := perm.mem_iff.mpr inside
      rw [← split] at present
      refine (List.mem_append.mp present).resolve_right fun late => dropped ⟨fresh, ?_⟩
      rw [← perm.length_eq] at late
      have below := (ranked inside).mp late
      rwa [Newest.rank_perm perm] at below
  · intro other inside
    exact (List.mem_filter.mp (perm.mem_iff.mp (List.mem_of_mem_take inside))).1

theorem not_mem_ids {log : List LogRow} (unique : Table.Distinct LogRow.conflicts log) {row : LogRow}
    (member : row ∈ log) :
    row.id ∉ expiredIds clock limits log ++ excessIds clock limits log ↔ limits.chosenByText clock log row := by
  rw [List.mem_append, mem_expiredIds unique member, mem_excessIds unique member]
  constructor
  · intro outside
    by_contra dropped
    cases fresh : limits.expired clock row with
    | true => exact outside (.inl fresh)
    | false => exact outside (.inr ⟨fresh, dropped⟩)
  · rintro chosen (old | ⟨_, dropped⟩)
    · rw [chosen.1] at old
      cases old
    · exact dropped chosen

/-! ### A state inside a pass -/

/-- The ids of a phase are those that are done and those to come. -/
def Target (clock : TextClock) (limits : Limits) (log : List LogRow) (ids : List Uuid) : Option Nat → Prop
  | some maxRows => maxRows = limits.maxRows ∧ ids = expiredIds clock limits log
  | none => ids = expiredIds clock limits log ++ excessIds clock limits log

def Loaded (log : List LogRow) (ids : List Uuid) : Stage → Prop
  | .openFile | .read => True
  | .write rows => ids ≠ [] ∧ rows = log.filter (·.id ∈ ids.take batchSize)
  | .delete => ids ≠ []

def Phase (clock : TextClock) (limits : Limits) (log : List LogRow) (now : List LogRow) (done : List Uuid) :
    Sweep → Prop
  | .idle => Target clock limits log done none
  | .count maxRows => Target clock limits log done (some maxRows)
  | .archive trim ids stage => Target clock limits log (done ++ ids) trim ∧ Loaded now ids stage

/-- The ids whose rows are written and not yet deleted. -/
def Run.sent (run : Run) : List Uuid :=
  match run.sweep with
  | .archive _ ids .delete => ids.take batchSize
  | _ => []

/-- What a pass that began at `base` has done: `landed` are the rows whose lines read back,
and a fragment at the end of the file has cost the row that is `lost`. -/
structure Progress (clock : TextClock) (fromStr : String → Option Json) (limits : Limits) (base run : Run)
    (done : List Uuid) (landed lost : List LogRow) : Prop where
  log : run.log = base.log.filter (·.id ∉ done)
  phase : Phase clock limits base.log run.log done run.sweep
  lines : run.lines = base.lines ++ landed.map (archiveEntry clock fromStr)
  sent : (landed ++ lost).Perm (base.log.filter (·.id ∈ done ++ run.sent))
  torn : run.archive.torn = true → base.archive.torn = true ∧ landed = [] ∧ lost = []
  grown : base.rotated <+: run.rotated
  spoilt : lost = [] ∧ (base.archive.torn = true → run.rotated ≠ base.rotated ∨ run.archive.torn = true) ∨
    base.archive.torn = true ∧ lost.length = 1

variable {done : List Uuid} {landed lost : List LogRow}

theorem afterArchive_phase {now : List LogRow} {trim : Option Nat}
    (target : Target clock limits base.log done trim) :
    Phase clock limits base.log now done (Run.afterArchive trim) := by
  cases trim with
  | none | some _ => exact target

theorem archiveIds_phase {now : List LogRow} {ids : List Uuid} {trim : Option Nat}
    (target : Target clock limits base.log (done ++ ids) trim) :
    Phase clock limits base.log now done (Run.archiveIds trim ids) := by
  cases ids with
  | nil =>
    rw [List.append_nil] at target
    exact afterArchive_phase target
  | cons first rest => exact ⟨target, trivial⟩

/-- Between batches nothing is underway. -/
theorem sent_archiveIds {log : List LogRow} {trim : Option Nat} {ids : List Uuid} :
    { run with log, sweep := Run.archiveIds trim ids : Run }.sent = [] := by
  cases ids with
  | nil => cases trim <;> rfl
  | cons first rest => rfl

theorem sent_afterArchive {trim : Option Nat} : { run with sweep := Run.afterArchive trim : Run }.sent = [] := by
  cases trim <;> rfl

namespace Progress

/-- The next statement of a pass writes and deletes nothing. -/
theorem resweep (progress : Progress clock fromStr limits base run done landed lost) {sweep : Sweep}
    (before : run.sent = []) (later : { run with sweep : Run }.sent = [])
    (phase : Phase clock limits base.log run.log done sweep) :
    Progress clock fromStr limits base { run with sweep } done landed lost where
  log := progress.log
  phase := phase
  lines := progress.lines
  sent := by
    rw [later, ← before]
    exact progress.sent
  torn := progress.torn
  grown := progress.grown
  spoilt := progress.spoilt

theorem start : Progress clock fromStr limits base
    { base with sweep := Run.archiveIds (some limits.maxRows) (expiredIds clock limits base.log) } [] [] [] where
  log := by simp
  phase := archiveIds_phase ⟨rfl, rfl⟩
  lines := by simp [Run.lines]
  sent := by
    have nothing := @sent_archiveIds base base.log (some limits.maxRows) (expiredIds clock limits base.log)
    rw [nothing]
    simp
  torn torn := ⟨torn, rfl, rfl⟩
  grown := List.prefix_rfl
  spoilt := .inl ⟨rfl, .inr⟩

theorem rotate (progress : Progress clock fromStr limits base run done landed lost) {trim : Option Nat} {ids : List Uuid}
    (sweep : run.sweep = .archive trim ids .openFile) :
    Progress clock fromStr limits base { run with
      sweep := .archive trim ids .read, rotated := run.rotated ++ [run.archive], archive := {} } done landed lost where
  log := progress.log
  phase := by
    have phase := progress.phase
    rw [sweep] at phase
    exact phase
  lines := (@lines_rotate run).trans progress.lines
  sent := by
    have sent := progress.sent
    rw [Run.sent, sweep] at sent
    exact sent
  torn torn := by cases torn
  grown := progress.grown.trans (List.prefix_append ..)
  spoilt := by
    refine progress.spoilt.imp_left fun ⟨whole, _⟩ => ⟨whole, fun _ => .inl fun same => ?_⟩
    have length := congrArg List.length same
    rw [List.length_append, List.length_singleton] at length
    exact absurd progress.grown.length_le (by omega)

/-- Behind a fragment the first line is lost, and elsewhere none. -/
theorem lines_append {rows : List LogRow} {sweep : Sweep} :
    { run with archive := run.archive.append (rows.map (archiveEntry clock fromStr)), sweep : Run }.lines =
      run.lines ++ (if run.archive.torn then rows.tail else rows).map (archiveEntry clock fromStr) := by
  cases rows with
  | nil => simp [Run.lines, ArchiveFile.append]
  | cons first rest =>
    simp only [Run.lines, ArchiveFile.append, List.map_cons, List.append_assoc, List.tail_cons]
    split <;> rfl

theorem torn_append {rows : List LogRow} (torn : (run.archive.append (rows.map (archiveEntry clock fromStr))).torn = true) :
    run.archive.torn = true ∧ rows = [] := by
  cases rows with
  | nil => exact ⟨torn, rfl⟩
  | cons first rest => cases torn

/-- The rows that are done and those of the next batch. -/
theorem filter_append_ids {log : List LogRow} {first later : List Uuid} :
    (log.filter (·.id ∈ first ++ later)).Perm
      (log.filter (·.id ∈ first) ++ (log.filter (·.id ∉ first)).filter (·.id ∈ later)) := by
  have parted := List.filter_append_perm (fun row : LogRow => decide (row.id ∈ first)) (log.filter (·.id ∈ first ++ later))
  refine parted.symm.trans (List.Perm.append (.of_eq ?_) (.of_eq ?_))
  · rw [List.filter_filter]
    apply List.filter_congr
    intro row _
    simp +contextual
  · rw [List.filter_filter, List.filter_filter]
    apply List.filter_congr
    intro row _
    by_cases early : row.id ∈ first <;> simp [early]

theorem write (progress : Progress clock fromStr limits base run done landed lost) {trim : Option Nat} {ids : List Uuid}
    {rows : List LogRow} (sweep : run.sweep = .archive trim ids (.write rows)) :
    Progress clock fromStr limits base { run with
        archive := run.archive.append (rows.map (archiveEntry clock fromStr)), sweep := .archive trim ids .delete }
      done (landed ++ if run.archive.torn then rows.tail else rows)
      (lost ++ if run.archive.torn then rows.take 1 else []) := by
  have phase := progress.phase
  have sent := progress.sent
  rw [sweep] at phase
  rw [Run.sent, sweep, List.append_nil] at sent
  obtain ⟨target, some, read⟩ := phase
  refine ⟨progress.log, ⟨target, some⟩, ?_, ?_, fun torn => ?_, progress.grown, ?_⟩
  · rw [lines_append, progress.lines, List.map_append, List.append_assoc]
  · change List.Perm _ (base.log.filter (·.id ∈ done ++ ids.take batchSize))
    refine List.Perm.trans ?_ filter_append_ids.symm
    rw [← progress.log, ← read]
    have shuffled : ((if run.archive.torn then rows.tail else rows) ++
        if run.archive.torn then rows.take 1 else []).Perm rows := by
      split
      · rw [← List.drop_one]
        exact List.perm_append_comm.trans (.of_eq (List.take_append_drop 1 rows))
      · rw [List.append_nil]
    calc landed ++ (if run.archive.torn then rows.tail else rows) ++
          (lost ++ if run.archive.torn then rows.take 1 else [])
        |>.Perm (landed ++ lost ++ ((if run.archive.torn then rows.tail else rows) ++
            if run.archive.torn then rows.take 1 else [])) := by
          simp only [List.append_assoc]
          exact (List.perm_append_left_iff _).mpr (List.perm_append_comm_assoc ..)
      _ |>.Perm _ := sent.append shuffled
  · obtain ⟨before, rfl⟩ := torn_append torn
    obtain ⟨spoilt, none, kept⟩ := progress.torn before
    refine ⟨spoilt, ?_, ?_⟩
    · simp [none]
    · simp [kept]
  · cases torn : run.archive.torn with
    | false =>
      rw [if_neg (by simp), List.append_nil]
      refine progress.spoilt.imp_left fun ⟨whole, cause⟩ => ⟨whole, fun spoilt => .inl ?_⟩
      exact (cause spoilt).resolve_right (by simp [torn])
    | true =>
      obtain ⟨spoilt, _, rfl⟩ := progress.torn torn
      rw [if_pos rfl, List.nil_append]
      cases rows with
      | nil => exact .inl ⟨rfl, fun _ => .inr torn⟩
      | cons first rest => exact .inr ⟨spoilt, rfl⟩

theorem delete (progress : Progress clock fromStr limits base run done landed lost) {trim : Option Nat} {ids : List Uuid}
    (sweep : run.sweep = .archive trim ids .delete) : Progress clock fromStr limits base { run with
        log := run.log.filter (·.id ∉ ids.take batchSize)
        deleted := run.deleted ++ run.log.filter (·.id ∈ ids.take batchSize)
        sweep := .archive trim (ids.drop batchSize) .read } (done ++ ids.take batchSize) landed lost := by
  have phase := progress.phase
  have sent := progress.sent
  rw [sweep] at phase
  rw [Run.sent, sweep] at sent
  refine ⟨?_, ⟨?_, trivial⟩, progress.lines, ?_, progress.torn, progress.grown, progress.spoilt⟩
  · rw [progress.log, List.filter_filter]
    apply List.filter_congr
    intro row _
    by_cases early : row.id ∈ done <;> simp [early]
  · rw [List.append_assoc, List.take_append_drop]
    exact phase.1
  · simp only [Run.sent, List.append_nil]
    exact sent

theorem advance (unique : Table.Distinct LogRow.conflicts base.log)
    (progress : Progress clock fromStr limits base run done landed lost) {rotates : Bool}
    (taken : run.advance clock fromStr rotates = some after) :
    ∃ done landed lost, Progress clock fromStr limits base after done landed lost := by
  have phase := progress.phase
  unfold Run.advance at taken
  split at taken
  next => cases taken
  next maxRows sweep =>
    rw [sweep] at phase
    cases taken
    refine ⟨done, landed, lost, progress.resweep (by simp [Run.sent, sweep]) sent_archiveIds (archiveIds_phase ?_)⟩
    obtain ⟨rfl, rfl⟩ := phase
    rw [progress.log, filter_expiredIds unique]
    rfl
  next trim ids sweep =>
    rw [sweep] at phase
    cases taken
    split
    · exact ⟨done, landed, lost, progress.rotate sweep⟩
    · exact ⟨done, landed, lost, progress.resweep (by simp [Run.sent, sweep]) rfl phase⟩
  next trim ids sweep =>
    rw [sweep] at phase
    cases taken
    refine ⟨done, landed, lost, progress.resweep (by simp [Run.sent, sweep]) ?_ ?_⟩
    · cases ids with
      | nil => exact sent_afterArchive
      | cons first rest => rfl
    · cases ids with
      | nil =>
        have target := phase.1
        rw [List.append_nil] at target
        exact afterArchive_phase target
      | cons first rest => exact ⟨phase.1, List.cons_ne_nil _ _, rfl⟩
  next trim ids rows sweep =>
    cases taken
    exact ⟨_, _, _, progress.write sweep⟩
  next trim ids sweep =>
    cases taken
    exact ⟨_, _, _, progress.delete sweep⟩

theorem advances (unique : Table.Distinct LogRow.conflicts base.log) {rotations : List Bool}
    (progress : Progress clock fromStr limits base run done landed lost)
    (taken : (Run.machine clock fromStr initial).run Machine.free run (rotations.map .advance) = some after) :
    ∃ done landed lost, Progress clock fromStr limits base after done landed lost := by
  induction rotations generalizing run done landed lost with
  | nil =>
    cases taken
    exact ⟨done, landed, lost, progress⟩
  | cons rotates rest ih =>
    rw [List.map_cons, Machine.run_free_cons] at taken
    obtain ⟨next, first, later⟩ := Option.bind_eq_some_iff.mp taken
    obtain ⟨done, landed, lost, progress⟩ := progress.advance unique first
    exact ih progress later

end Progress

/-! ### The end of a pass -/

namespace Run

/-- A bound on the statements that a pass has ahead of it. -/
def left (run : Run) : Nat :=
  match run.sweep with
  | .idle => 0
  | .count _ => 3 * run.log.length + 5
  | .archive trim ids stage =>
    (if trim = none then 1 else 3 * run.log.length + 6) + 3 * ids.length + match stage with
      | .openFile => 3
      | .read => 2
      | .write _ => 1
      | .delete => 0

theorem left_afterArchive {trim : Option Nat} : { run with sweep := afterArchive trim : Run }.left <
    (if trim = none then 1 else 3 * run.log.length + 6) := by
  cases trim with
  | none => exact Nat.zero_lt_one
  | some maxRows =>
    change 3 * run.log.length + 5 < 3 * run.log.length + 6
    omega

theorem left_archiveIds {trim : Option Nat} {ids : List Uuid} : { run with sweep := archiveIds trim ids : Run }.left ≤
    (if trim = none then 1 else 3 * run.log.length + 6) + 3 * ids.length + 3 := by
  cases ids with
  | nil =>
    have shorter := @left_afterArchive run trim
    exact shorter.le.trans (by omega)
  | cons first rest => exact le_refl _

/-- Every statement of a pass brings its end nearer. -/
theorem left_advance (progress : Progress clock fromStr limits base run done landed lost) (busy : run.sweep ≠ .idle)
    (rotates : Bool) : ∃ after, run.advance clock fromStr rotates = some after ∧ after.left < run.left := by
  have phase := progress.phase
  cases sweep : run.sweep with
  | idle => exact absurd sweep busy
  | count maxRows =>
    simp only [Run.advance, sweep]
    refine ⟨_, rfl, ?_⟩
    refine left_archiveIds.trans_lt ?_
    have whole := (@ordered_perm clock run.log).length_eq
    have taken := List.length_take (i := run.log.length - maxRows) (l := ordered clock run.log)
    simp only [left, sweep, List.length_map, if_pos]
    omega
  | archive trim ids stage =>
    rw [sweep] at phase
    cases stage with
    | openFile =>
      simp only [Run.advance, sweep]
      refine ⟨_, rfl, ?_⟩
      split <;> simp only [left, sweep] <;> omega
    | read =>
      simp only [Run.advance, sweep]
      refine ⟨_, rfl, ?_⟩
      cases ids with
      | nil =>
        refine left_afterArchive.trans_le ?_
        simp only [left, sweep]
        omega
      | cons first rest =>
        simp only [left, sweep]
        omega
    | write rows =>
      simp only [Run.advance, sweep]
      refine ⟨_, rfl, ?_⟩
      simp only [left, sweep]
      omega
    | delete =>
      simp only [Run.advance, sweep]
      refine ⟨_, rfl, ?_⟩
      have some := List.length_pos_iff.mpr phase.2
      have fewer := List.length_filter_le (fun row : LogRow => decide (row.id ∉ ids.take batchSize)) run.log
      simp only [left, sweep, List.length_drop, batchSize] at fewer ⊢
      split <;> omega

theorem passes_iff (idle : run.sweep = .idle) {rotations : List Bool} :
    run.Passes clock fromStr initial limits rotations after ↔
      (machine clock fromStr initial).run Machine.free
          { run with sweep := archiveIds (some limits.maxRows) (expiredIds clock limits run.log) }
          (rotations.map .advance) = some after ∧ after.sweep = .idle := by
  have first : (machine clock fromStr initial).step run (.archiveAndPrune limits.maxRows limits.cutoff) =
      some { run with sweep := archiveIds (some limits.maxRows) (expiredIds clock limits run.log) } :=
    if_pos idle
  rw [Passes, Machine.run_free_cons, first]
  rfl

/-- A pass ends, whatever it sets aside. -/
theorem passes_end (unique : Table.Distinct LogRow.conflicts run.log) (idle : run.sweep = .idle) (limits : Limits)
    (rotates : Nat → Bool) :
    ∃ count after, run.Passes clock fromStr initial limits ((List.range count).map rotates) after := by
  have settles := @Machine.run_settles _ _ (machine clock fromStr initial)
    (fun state => ∃ done landed lost, Progress clock fromStr limits run state done landed lost) (·.sweep = .idle)
    left (fun index => .advance (rotates index)) (fun state index ⟨done, landed, lost, progress⟩ busy => by
      obtain ⟨after, taken, less⟩ := left_advance progress busy (rotates index)
      exact ⟨after, taken, progress.advance unique taken, less⟩) _ ⟨[], [], [], Progress.start⟩ 0
  obtain ⟨count, after, taken, ended⟩ := settles
  refine ⟨count, after, (passes_iff idle).mpr ⟨?_, ended⟩⟩
  rw [List.map_map, List.range_eq_range']
  exact taken

theorem Passes.progress (unique : Table.Distinct LogRow.conflicts run.log) (idle : run.sweep = .idle)
    {rotations : List Bool} (passes : run.Passes clock fromStr initial limits rotations after) :
    ∃ done landed lost, Progress clock fromStr limits run after done landed lost :=
  Progress.start.advances unique ((passes_iff idle).mp passes).1

theorem rotated_advance (taken : run.advance clock fromStr false = some after) : after.rotated = run.rotated := by
  unfold Run.advance at taken
  split at taken
  · cases taken
  all_goals
    cases taken
    rfl

/-- A pass that sets nothing aside. -/
theorem rotated_advances {rotations : List Bool} (held : ∀ rotates ∈ rotations, rotates = false)
    (taken : (machine clock fromStr initial).run Machine.free run (rotations.map .advance) = some after) :
    after.rotated = run.rotated := by
  induction rotations generalizing run with
  | nil =>
    cases taken
    rfl
  | cons rotates rest ih =>
    obtain ⟨rfl, later⟩ := List.forall_mem_cons.mp held
    rw [List.map_cons, Machine.run_free_cons] at taken
    obtain ⟨next, first, remaining⟩ := Option.bind_eq_some_iff.mp taken
    exact (ih later remaining).trans (rotated_advance first)

end Run

namespace Progress

theorem done_eq (progress : Progress clock fromStr limits base run done landed lost) (ended : run.sweep = .idle) :
    done = expiredIds clock limits base.log ++ excessIds clock limits base.log := by
  have phase := progress.phase
  rw [ended] at phase
  exact phase

theorem mem_log (unique : Table.Distinct LogRow.conflicts base.log)
    (progress : Progress clock fromStr limits base run done landed lost) (ended : run.sweep = .idle) {row : LogRow} :
    row ∈ run.log ↔ row ∈ base.log ∧ limits.chosenByText clock base.log row := by
  rw [progress.log, List.mem_filter, progress.done_eq ended]
  refine and_congr_right fun member => ?_
  rw [decide_eq_true_iff, not_mem_ids unique member]

/-- What left the table was written. -/
theorem accounted (progress : Progress clock fromStr limits base run done landed lost) (ended : run.sweep = .idle) :
    (run.log ++ (landed ++ lost)).Perm base.log := by
  have sent := progress.sent
  simp only [Run.sent, ended, List.append_nil] at sent
  rw [progress.log]
  have parted := List.filter_append_perm (fun row : LogRow => decide (row.id ∈ done)) base.log
  refine (List.Perm.append_left _ sent).trans (List.perm_append_comm.trans ?_)
  simpa only [decide_not] using parted

theorem archived_iff (progress : Progress clock fromStr limits base run done landed lost) (ended : run.sweep = .idle) :
    (∃ rows, (run.log ++ rows).Perm base.log ∧
      run.lines = base.lines ++ rows.map (archiveEntry clock fromStr)) ↔ lost = [] := by
  have accounted := progress.accounted ended
  constructor
  · rintro ⟨rows, perm, lines⟩
    have same := congrArg List.length (progress.lines.symm.trans lines)
    have sizes := perm.length_eq.trans accounted.length_eq.symm
    simp only [List.length_append, List.length_map] at same sizes
    exact List.eq_nil_of_length_eq_zero (by omega)
  · rintro rfl
    rw [List.append_nil] at accounted
    exact ⟨landed, accounted, progress.lines⟩

/-- The newest rows are left exactly where the instants choose what the texts choose. -/
theorem newest_iff (unique : Table.Distinct LogRow.conflicts base.log)
    (progress : Progress clock fromStr limits base run done landed lost) (ended : run.sweep = .idle) :
    ((∀ row ∈ run.log, limits.older clock parseFromRfc3339 row = false) ∧
      Newest.Selects (instantKey clock parseFromRfc3339) limits.maxRows
        (base.log.filter (!limits.older clock parseFromRfc3339 ·)) run.log) ↔
    ∀ row ∈ base.log, limits.chosenByText clock base.log row ↔
      limits.chosenByInstant clock parseFromRfc3339 base.log row := by
  have distinct : Newest.Distinct (instantKey clock parseFromRfc3339)
      (base.log.filter (!limits.older clock parseFromRfc3339 ·)) :=
    (key_distinct unique _).sublist List.filter_sublist
  have nodup : run.log.Nodup := by
    rw [progress.log]
    exact (List.Nodup.of_map _ (ids_nodup unique)).filter _
  have within (fresh : ∀ row ∈ run.log, limits.older clock parseFromRfc3339 row = false) :
      ∀ row ∈ run.log, row ∈ base.log.filter (!limits.older clock parseFromRfc3339 ·) := fun row member =>
    List.mem_filter.mpr ⟨((progress.mem_log unique ended).mp member).1, by simp [fresh row member]⟩
  constructor
  · rintro ⟨fresh, selects⟩ row member
    have ranked := (Newest.selects_iff distinct nodup (within fresh)).mp selects row
    have left : row ∈ run.log ↔ limits.chosenByText clock base.log row := by
      rw [progress.mem_log unique ended]
      exact and_iff_right member
    rw [← left]
    constructor
    · intro kept
      exact ⟨fresh row kept, (ranked (within fresh row kept)).mp kept⟩
    · rintro ⟨young, below⟩
      exact (ranked (List.mem_filter.mpr ⟨member, by simp [young]⟩)).mpr below
  · intro same
    have fresh : ∀ row ∈ run.log, limits.older clock parseFromRfc3339 row = false := fun row kept => by
      obtain ⟨member, chosen⟩ := (progress.mem_log unique ended).mp kept
      exact ((same row member).mp chosen).1
    refine ⟨fresh, (Newest.selects_iff distinct nodup (within fresh)).mpr fun row inside => ?_⟩
    obtain ⟨member, young⟩ := List.mem_filter.mp inside
    rw [progress.mem_log unique ended, and_iff_right member, same row member]
    exact and_iff_right (by simpa using young)

theorem pruned_iff (unique : Table.Distinct LogRow.conflicts base.log)
    (progress : Progress clock fromStr limits base run done landed lost) (ended : run.sweep = .idle) :
    base.Pruned clock fromStr parseFromRfc3339 limits run ↔
      (∀ row ∈ base.log, limits.chosenByText clock base.log row ↔
        limits.chosenByInstant clock parseFromRfc3339 base.log row) ∧ lost = [] := by
  rw [← progress.newest_iff unique ended, ← progress.archived_iff ended]
  exact ⟨fun pruned => ⟨⟨pruned.fresh, pruned.newest⟩, pruned.archived⟩,
    fun ⟨⟨fresh, newest⟩, archived⟩ => ⟨fresh, newest, archived⟩⟩

end Progress

/-- A fragment at the end of the archive costs a row unless nothing is archived. -/
theorem Progress.lost_iff (unique : Table.Distinct LogRow.conflicts base.log)
    (progress : Progress clock fromStr limits base run done landed lost) (ended : run.sweep = .idle)
    (unspoilt : base.archive.torn = false ∨ ∀ row ∈ base.log, limits.chosenByText clock base.log row) : lost = [] := by
  rcases progress.spoilt with ⟨none, _⟩ | ⟨torn, one⟩
  · exact none
  · rcases unspoilt with whole | all
    · rw [torn] at whole
      cases whole
    · obtain ⟨row, rfl⟩ := List.length_eq_one_iff.mp one
      have accounted := progress.accounted ended
      have member : row ∈ base.log := accounted.mem_iff.mp (by simp)
      have kept := (progress.mem_log unique ended).mpr ⟨member, all row member⟩
      have nodup := accounted.nodup_iff.mpr (List.Nodup.of_map _ (ids_nodup unique))
      exact absurd (by simp) (List.disjoint_of_nodup_append nodup kept)

namespace Run

theorem prunes_iff (unique : Table.Distinct LogRow.conflicts run.log) (idle : run.sweep = .idle) :
    run.Prunes clock fromStr parseFromRfc3339 initial limits ↔
      (∀ row ∈ run.log, limits.chosenByText clock run.log row ↔
        limits.chosenByInstant clock parseFromRfc3339 run.log row) ∧
      (run.archive.torn = false ∨ ∀ row ∈ run.log, limits.chosenByText clock run.log row) := by
  constructor
  · intro prunes
    obtain ⟨count, after, passes⟩ := @passes_end clock fromStr initial run unique idle limits fun _ => false
    obtain ⟨done, landed, lost, progress⟩ := passes.progress unique idle
    obtain ⟨same, none⟩ := (progress.pruned_iff unique passes.2).mp (prunes _ _ passes)
    refine ⟨same, ?_⟩
    cases torn : run.archive.torn with
    | false => exact .inl rfl
    | true =>
      subst none
      have held : ∀ rotates ∈ (List.range count).map fun _ => false, rotates = false := fun rotates inside =>
        (List.mem_map.mp inside).elim fun _ both => both.2.symm
      have rotated := rotated_advances held ((passes_iff idle).mp passes).1
      have spoilt := progress.spoilt.resolve_right (fun one => by cases one.2)
      have behind := (spoilt.2 torn).resolve_left fun differ => differ rotated
      obtain ⟨_, rfl, _⟩ := progress.torn behind
      have accounted := progress.accounted passes.2
      rw [List.append_nil, List.append_nil] at accounted
      exact .inr fun row member => ((progress.mem_log unique passes.2).mp (accounted.mem_iff.mpr member)).2
  · rintro ⟨same, unspoilt⟩ rotations after passes
    obtain ⟨done, landed, lost, progress⟩ := passes.progress unique idle
    exact (progress.pruned_iff unique passes.2).mpr ⟨same, progress.lost_iff unique passes.2 unspoilt⟩

end Run

/-! ### What the texts say -/

section Texts
variable {log : List LogRow} {row other : LogRow}

theorem Limits.older_iff : limits.older clock parseFromRfc3339 row = false ↔
    ∃ time, instant clock parseFromRfc3339 row = some time ∧ limits.cutoff ≤ time := by
  unfold Limits.older before
  cases instant clock parseFromRfc3339 row with
  | none => simp
  | some time => simp

/-- With room for every row, the choice is by age alone. -/
theorem chosen_all {Key : Type*} [LinearOrder Key] {key : LogRow → Key} {old : LogRow → Bool}
    (distinct : Newest.Distinct key log) (cutoff : DateTime) (member : row ∈ log) :
    { maxRows := log.length, cutoff : Limits }.chosen key old log row ↔ old row = false := by
  refine and_iff_left_of_imp fun young => ?_
  have inside : row ∈ log.filter (!old ·) := List.mem_filter.mpr ⟨member, by simp [young]⟩
  have below := Newest.rank_lt_length (distinct.sublist List.filter_sublist) inside
  exact below.trans_le (List.length_filter_le _ _)

/-- Where both choose alike for every limit on the rows, the ranks are the same. -/
theorem rank_eq {first later : Nat} (same : ∀ n, first < n ↔ later < n) : first = later := by
  have up := (same (first + 1)).mp (Nat.lt_succ_self _)
  have down := (same (later + 1)).mpr (Nat.lt_succ_self _)
  omega

/-- No cutoff tells a text from its instant. -/
def CutoffsAgree (clock : TextClock) (parseFromRfc3339 : String → Option DateTime) (log : List LogRow) : Prop :=
  ∀ row ∈ log, ∀ cutoff : DateTime,
    clock.text row.resolvedAt < clock.toRfc3339 cutoff ↔ before clock parseFromRfc3339 cutoff row = true

theorem CutoffsAgree.expired_eq (agree : CutoffsAgree clock parseFromRfc3339 log) (member : row ∈ log) :
    limits.expired clock row = limits.older clock parseFromRfc3339 row :=
  Bool.eq_iff_iff.mpr (decide_eq_true_iff.trans (agree row member limits.cutoff))

theorem CutoffsAgree.recent_eq (agree : CutoffsAgree clock parseFromRfc3339 log) :
    log.filter (!limits.expired clock ·) = log.filter (!limits.older clock parseFromRfc3339 ·) := by
  apply List.filter_congr
  intro row member
  rw [agree.expired_eq member]

theorem TextsAgree.chosen_iff (agree : TextsAgree clock parseFromRfc3339 log) (limits : Limits) (member : row ∈ log) :
    limits.chosenByText clock log row ↔ limits.chosenByInstant clock parseFromRfc3339 log row := by
  have cutoffs : CutoffsAgree clock parseFromRfc3339 log := agree.cutoffs
  have named {row : LogRow} (young : limits.older clock parseFromRfc3339 row = false) :
      instant clock parseFromRfc3339 row ≠ none := by
    obtain ⟨time, found, _⟩ := Limits.older_iff.mp young
    exact ne_of_eq_of_ne found (Option.some_ne_none time)
  unfold Limits.chosenByText Limits.chosenByInstant Limits.chosen
  rw [cutoffs.expired_eq member, cutoffs.recent_eq]
  refine and_congr_right fun young => ?_
  have ranks : Newest.rank (textKey clock) (log.filter (!limits.older clock parseFromRfc3339 ·)) row =
      Newest.rank (instantKey clock parseFromRfc3339) (log.filter (!limits.older clock parseFromRfc3339 ·)) row := by
    apply List.countP_congr
    intro other inside
    obtain ⟨present, behind⟩ := List.mem_filter.mp inside
    rw [decide_eq_true_iff, decide_eq_true_iff]
    exact agree.order row member other present (named young) (named (by simpa using behind))
  rw [ranks]

theorem mem_recent (member : row ∈ log) (young : limits.older clock parseFromRfc3339 row = false) :
    row ∈ log.filter (!limits.older clock parseFromRfc3339 ·) :=
  List.mem_filter.mpr ⟨member, by simp [young]⟩

theorem rank_recent (agree : CutoffsAgree clock parseFromRfc3339 log)
    (same : ∀ limits : Limits, ∀ row ∈ log,
      limits.chosenByText clock log row ↔ limits.chosenByInstant clock parseFromRfc3339 log row)
    (member : row ∈ log) (young : limits.older clock parseFromRfc3339 row = false) :
    Newest.rank (textKey clock) (log.filter (!limits.older clock parseFromRfc3339 ·)) row =
      Newest.rank (instantKey clock parseFromRfc3339) (log.filter (!limits.older clock parseFromRfc3339 ·)) row := by
  apply rank_eq
  intro n
  have chosen : limits.expired clock row = false ∧
        Newest.rank (textKey clock) (log.filter (!limits.expired clock ·)) row < n ↔
      limits.older clock parseFromRfc3339 row = false ∧
        Newest.rank (instantKey clock parseFromRfc3339) (log.filter (!limits.older clock parseFromRfc3339 ·)) row < n :=
    same ⟨n, limits.cutoff⟩ row member
  rwa [agree.recent_eq, agree.expired_eq member, and_iff_right young, and_iff_right young] at chosen

theorem textsAgree_of_chosen (unique : Table.Distinct LogRow.conflicts log)
    (same : ∀ limits : Limits, ∀ row ∈ log,
      limits.chosenByText clock log row ↔ limits.chosenByInstant clock parseFromRfc3339 log row) :
    TextsAgree clock parseFromRfc3339 log := by
  have byText : Newest.Distinct (textKey clock) log := key_distinct unique _
  have byInstant : Newest.Distinct (instantKey clock parseFromRfc3339) log := key_distinct unique _
  have young (cutoff : DateTime) {row : LogRow} (member : row ∈ log) :
      { maxRows := log.length, cutoff : Limits }.expired clock row = false ↔
        { maxRows := log.length, cutoff : Limits }.older clock parseFromRfc3339 row = false := by
    have chosen := same { maxRows := log.length, cutoff } row member
    unfold Limits.chosenByText Limits.chosenByInstant at chosen
    rwa [chosen_all byText cutoff member, chosen_all byInstant cutoff member] at chosen
  have cutoffs : CutoffsAgree clock parseFromRfc3339 log := by
    intro row member cutoff
    have chosen := young cutoff member
    unfold Limits.expired Limits.older at chosen
    rw [decide_eq_false_iff_not, Bool.eq_false_iff] at chosen
    exact not_iff_not.mp chosen
  refine ⟨cutoffs, fun row member other present named behind => ?_⟩
  obtain ⟨first, found⟩ := Option.ne_none_iff_exists'.mp named
  obtain ⟨second, stands⟩ := Option.ne_none_iff_exists'.mp behind
  -- At this cutoff neither row is too old, and the ranks tell their order.
  have early : Limits.older clock parseFromRfc3339 ⟨0, min first second⟩ row = false :=
    Limits.older_iff.mpr ⟨first, found, min_le_left _ _⟩
  have late : Limits.older clock parseFromRfc3339 ⟨0, min first second⟩ other = false :=
    Limits.older_iff.mpr ⟨second, stands, min_le_right _ _⟩
  rw [precedes, precedes,
    ← Newest.rank_lt_iff (byText.sublist List.filter_sublist) (mem_recent member early) (mem_recent present late),
    rank_recent cutoffs same member early, rank_recent cutoffs same present late,
    Newest.rank_lt_iff (byInstant.sublist List.filter_sublist) (mem_recent member early) (mem_recent present late)]

end Texts

theorem log_distinct {meets : Run → Event → Prop}
    (reached : Machine.Reachable (Run.machine clock fromStr initial) meets run) :
    Table.Distinct LogRow.conflicts run.log := by
  induction reached with
  | start => exact initial.unique
  | @step before event after _ _ taken unique =>
    cases event with
    | insertLog row =>
      cases taken
      exact unique.insertOrIgnore LogRow.conflicts_symm
    | attachToolResult id stored =>
      cases taken
      exact ToolResults.distinct_stored unique id stored
    | archiveAndPrune maxRows cutoff =>
      simp only [Run.machine, Run.step] at taken
      split at taken
      · cases taken
        exact unique
      · cases taken
    | advance rotates =>
      change before.advance clock fromStr rotates = some after at taken
      unfold Run.advance at taken
      split at taken
      · cases taken
      · cases taken
        exact unique
      · cases taken
        split
        all_goals exact unique
      · cases taken
        exact unique
      · cases taken
        exact unique
      · cases taken
        exact List.Pairwise.sublist List.filter_sublist unique
    | interrupt survive fragment =>
      cases taken
      unfold Run.interrupt
      split
      all_goals exact unique

/-- Every pass ends. It leaves the newest rows exactly where each row is chosen alike by its
text and by its instant, and the rows that it archives are found again unless the first of
them is written behind a fragment. For all limits at once that means that the texts of the
log are ordered as the instants are. -/
theorem archive_and_prune_newest_iff
    (reached : Machine.Reachable (Run.machine clock fromStr initial) Machine.free run) (idle : run.sweep = .idle) :
    (∀ limits, ∀ rotates : Nat → Bool, ∃ count after,
      run.Passes clock fromStr initial limits ((List.range count).map rotates) after) ∧
    (∀ limits, run.Prunes clock fromStr parseFromRfc3339 initial limits ↔
      (∀ row ∈ run.log, limits.chosenByText clock run.log row ↔
        limits.chosenByInstant clock parseFromRfc3339 run.log row) ∧
      (run.archive.torn = false ∨ ∀ row ∈ run.log, limits.chosenByText clock run.log row)) ∧
    ((∀ limits, run.Prunes clock fromStr parseFromRfc3339 initial limits) ↔
      TextsAgree clock parseFromRfc3339 run.log ∧ (run.archive.torn = false ∨ run.log = [])) := by
  have unique := log_distinct reached
  refine ⟨Run.passes_end unique idle, fun limits => Run.prunes_iff unique idle, ?_⟩
  constructor
  · intro prunes
    have settled limits := (Run.prunes_iff unique idle).mp (prunes limits)
    refine ⟨textsAgree_of_chosen unique fun limits => (settled limits).1, ?_⟩
    refine (settled ⟨0, 0⟩).2.imp_right fun all => List.eq_nil_iff_forall_not_mem.mpr fun row member => ?_
    exact absurd (all row member).2 (Nat.not_lt_zero _)
  · rintro ⟨agree, unspoilt⟩ limits
    refine (Run.prunes_iff unique idle).mpr ⟨fun row member => agree.chosen_iff limits member, ?_⟩
    refine unspoilt.imp_right fun empty row member => ?_
    rw [empty] at member
    cases member

/-- Instants in milliseconds, and the two texts that the daemon writes for these two. -/
private def millisecondClock : TextClock where
  toRfc3339 instant :=
    if instant = 1704067200000 then "2024-01-01T00:00:00+00:00" else "2024-01-01T00:00:00.500+00:00"

private def parseMilliseconds (text : String) : Option DateTime :=
  if text = "2024-01-01T00:00:00Z" ∨ text = "2024-01-01T00:00:00+00:00" then some 1704067200000
  else if text = "2024-01-01T00:00:00.500+00:00" then some 1704067200500
  else none

private def jsonNullText (text : String) : Option Json :=
  if text = "null" then some .null else none

private def readRow (id : Uuid) (time : String) : LogRow where
  id
  agentId := "cc-1"
  agentType := AgentType.claudeCode.column
  project := "/work"
  toolName := "Read"
  toolInput := "null"
  decision := Decision.approve.column
  requestedAt := .raw time
  resolvedAt := .raw time
  autoApproved := true
  toolUseId := none
  hookEventName := "PreToolUse"
  terminalSessionId := none
  decidedBy := none

/-- One row from before the cutoff, and two of one instant behind it. -/
private def mixedLog : Run.Start where
  log := [readRow 8 "2024-01-01T00:00:00.500+00:00", readRow 7 "2024-01-01T00:00:00+00:00",
    readRow 9 "2024-01-01T00:00:00.500+00:00"]
  unique := by simp [Table.Distinct, LogRow.conflicts, readRow]

private theorem mixed_agree : ∀ row ∈ mixedLog.log,
    (⟨1, 1704067200500⟩ : Limits).chosenByText millisecondClock mixedLog.log row ↔
      (⟨1, 1704067200500⟩ : Limits).chosenByInstant millisecondClock parseMilliseconds mixedLog.log row := by
  unfold Limits.chosenByText Limits.chosenByInstant
  decide +kernel

/-- A pass with room for one row takes out the old one and, by its id, one of the others. -/
theorem archive_and_prune_newest_iff_mixed :
    let run := (Run.machine millisecondClock jsonNullText mixedLog).start
    let limits : Limits := ⟨1, 1704067200500⟩
    ∃ count after, run.Passes millisecondClock jsonNullText mixedLog limits ((List.range count).map fun _ => false) after ∧
      run.Pruned millisecondClock jsonNullText parseMilliseconds limits after ∧
      (run.log.map (·.id) = [8, 7, 9] ∧ readRow 7 "2024-01-01T00:00:00+00:00" ∉ after.log) := by
  intro run limits
  obtain ⟨ends, exactly, _⟩ := @archive_and_prune_newest_iff millisecondClock jsonNullText parseMilliseconds mixedLog run .start rfl
  obtain ⟨count, after, passes⟩ := ends limits fun _ => false
  have pruned := (exactly limits).mpr ⟨mixed_agree, .inl rfl⟩ _ _ passes
  refine ⟨count, after, passes, pruned, rfl, fun kept => ?_⟩
  have young := pruned.fresh _ kept
  revert young
  decide +kernel

/-- A row whose time an event file gave in the other rendering. -/
private def zuluLog : Run.Start where
  log := [readRow 7 "2024-01-01T00:00:00Z"]
  unique := List.pairwise_singleton ..

/-- Half a second after the row's instant it is kept, as its text is not the smaller one. -/
theorem older_row_kept :
    ∃ clock fromStr parseFromRfc3339 initial run limits,
      Machine.Reachable (Run.machine clock fromStr initial) Machine.free run ∧ run.sweep = .idle ∧
      ¬ run.Prunes clock fromStr parseFromRfc3339 initial limits := by
  refine ⟨millisecondClock, jsonNullText, parseMilliseconds, zuluLog, _, ⟨10, 1704067200500⟩, .start, rfl, fun prunes => ?_⟩
  obtain ⟨same, _⟩ := (Run.prunes_iff zuluLog.unique rfl).mp prunes
  have young : Limits.older millisecondClock parseMilliseconds ⟨10, 1704067200500⟩ (readRow 7 "2024-01-01T00:00:00Z") = false :=
    ((same _ (List.mem_singleton_self _)).mp ⟨by decide +kernel, by decide +kernel⟩).1
  revert young
  decide +kernel

end Wisphive.Retention
