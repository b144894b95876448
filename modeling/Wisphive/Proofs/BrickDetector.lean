import Wisphive.BrickDetector

/-! The brick detector over runs: where every denial reads what the last one left, no cause is
notified twice within the hour, and no cause that is denied on end goes unnoticed. -/

namespace Wisphive
open Foundation ScriptText

namespace DetectorState
variable {state : DetectorState} {loaded : Option DetectorState} {cause wanted : String} {now time : UInt64}
  {notified : List (String × UInt64)} {fuel : Nat}

theorem lookup_dropOldest (found : (dropOldest fuel notified).lookup wanted = some time) :
    notified.lookup wanted = some time := by
  induction fuel generalizing notified with
  | zero => exact found
  | succ fuel ih =>
    rw [dropOldest] at found
    split at found
    · exact found
    · split at found
      · have kept := ih found
        rw [Assoc.lookup_erase] at kept
        split at kept
        · cases kept
        · exact kept
      · exact found

/-- Dropping a cause adds none. -/
theorem lookup_escalated (found : (state.escalated now).notified.lookup wanted = some time) :
    wanted = state.cause ∧ time = now ∨ state.notified.lookup wanted = some time := by
  have entered := lookup_dropOldest found
  rw [Assoc.lookup_put] at entered
  split at entered
  · next same => exact .inl ⟨same, (Option.some.inj entered).symm⟩
  · exact .inr entered

/-- The count goes up to the threshold with the denials. -/
theorem counted_consecutive {length : Nat} (same : state.cause = cause) (bound : min length 3 ≤ state.consecutive.toNat) :
    min (length + 1) 3 ≤ (state.counted cause).consecutive.toNat := by
  simp only [counted, same, if_true]
  split
  · next full => rw [full]; exact Nat.le_trans (Nat.min_le_right ..) (by decide)
  · next room =>
    have small : state.consecutive.toNat ≠ 4294967295 := fun full => room (UInt32.toNat_inj.mp full)
    have width := state.consecutive.toNat_lt
    rw [UInt32.toNat_add]
    simp only [UInt32.toNat_one]
    omega

theorem counted_positive : 1 ≤ (state.counted cause).consecutive.toNat := by
  simp only [counted]
  generalize (if state.cause = cause then state.consecutive else 0) = consecutive
  split
  · next full => rw [full]; decide
  · next room =>
    have small : consecutive.toNat ≠ 4294967295 := fun full => room (UInt32.toNat_inj.mp full)
    have width := consecutive.toNat_lt
    rw [UInt32.toNat_add]
    simp only [UInt32.toNat_one]
    omega

theorem denied_cause : (denied loaded cause now).2.cause = cause := by
  unfold denied
  dsimp only
  split <;> rfl

theorem denied_consecutive :
    (denied loaded cause now).2.consecutive = ((loaded.getD initial).counted cause).consecutive := by
  unfold denied
  dsimp only
  split <;> rfl

/-- What is entered for a cause was read, or it is the notification of this denial. -/
theorem denied_lookup (found : (denied loaded cause now).2.notified.lookup wanted = some time) :
    (denied loaded cause now).1 = true ∧ wanted = cause ∧ time = now ∨
      (loaded.getD initial).notified.lookup wanted = some time := by
  unfold denied at found ⊢
  dsimp only at found ⊢
  split at found
  · next fired =>
    rw [if_pos fired]
    exact (lookup_escalated found).imp_left fun entered => ⟨rfl, entered⟩
  · exact .inr found

theorem denied_fires :
    (denied loaded cause now).1 = true ↔
      3 ≤ ((loaded.getD initial).counted cause).consecutive.toNat ∧
        ∀ time ∈ (loaded.getD initial).notified.lookup cause, time.toNat + renotifySecs ≤ now.toNat := by
  have limit : ((loaded.getD initial).counted cause).rateLimited ((loaded.getD initial).counted cause).cause now =
      ((loaded.getD initial).notified.lookup cause).any fun time => now.toNat - time.toNat < renotifySecs := rfl
  have decided : (denied loaded cause now).1 = ((loaded.getD initial).counted cause).fires now := by
    unfold denied
    dsimp only
    split
    · next fired => rw [fired]
    · next silent => rw [Bool.not_eq_true] at silent; rw [silent]
  rw [decided, fires, Bool.and_eq_true, decide_eq_true_eq, Bool.not_eq_true', limit]
  refine and_congr UInt32.le_iff_toNat_le ?_
  cases (loaded.getD initial).notified.lookup cause with
  | none => exact iff_of_true rfl fun _ member => by cases member
  | some time =>
    simp only [Option.any_some, Option.mem_some_iff, forall_eq']
    rw [decide_eq_false_iff_not]
    unfold renotifySecs
    omega

end DetectorState

namespace BrickRun
open BrickDetector DetectorState
variable {paths : List PathBuf} {causeHash : String → String} {run : BrickRun} {event : BrickEvent}

/-- The notifications in the state are notifications of the run, and the state counts the
denials of the last cause. -/
structure Kept (run : BrickRun) : Prop where
  calm : run.Calm
  heard : run.Heard
  remembered : ∀ state ∈ run.latest, ∀ cause time, state.notified.lookup cause = some time → (cause, time) ∈ run.sent
  counted : ∀ state ∈ run.latest, run.last.map (·.1) = some state.cause ∧ min run.streak 3 ≤ state.consecutive.toNat
  idle : run.latest = none → run.streak = 0

theorem within_symm {first second : UInt64} (within : Within first second) : Within second first :=
  ⟨within.2, within.1⟩

theorem kept_healthy (access : PathBuf → Access) : Kept (run.step paths causeHash (.healthy access)) where
  calm := List.Pairwise.nil
  heard := fun _ _ last => by cases last
  remembered := fun _ member => by cases member
  counted := fun _ member => by cases member
  idle := fun _ => rfl

section
variable {causeMessage : String} {now : UInt64} {access : PathBuf → Access}

/-- What a denial does to the run. -/
theorem step_denial :
    let after := run.step paths causeHash (.denial causeMessage now access)
    let result := denied (loadState paths access run.files) (causeHash causeMessage) now
    after.latest = some result.2 ∧
      after.sent = (if result.1 = true then (causeHash causeMessage, now) :: run.sent else run.sent) ∧
        after.last = some (causeHash causeMessage, now) ∧
          after.streak = if usable paths access = true then
            (if run.last.map (·.1) = some (causeHash causeMessage) then run.streak + 1 else 1) else 0 := by
  refine ⟨rfl, ?_, rfl, rfl⟩
  simp only [step]
  by_cases fired : (denied (loadState paths access run.files) (causeHash causeMessage) now).1 = true
  · simp only [processDenial, fired, if_true, Option.isSome_some]
  · simp only [processDenial, fired, Bool.false_eq_true, if_false, Option.isSome_none]

/-- A cause that fires was not notified within the hour. -/
theorem fires_apart (sound : run.Sound paths causeHash (.denial causeMessage now access))
    (fired : (denied (loadState paths access run.files) (causeHash causeMessage) now).1 = true)
    {sent : String × UInt64} (member : sent ∈ run.sent) (same : sent.1 = causeHash causeMessage) :
    ¬ Within sent.2 now := by
  intro within
  obtain ⟨time, listed, later⟩ := sound.2.1 sent member same within
  have past := (denied_fires.mp fired).2 time listed
  have order : sent.2.toNat ≤ time.toNat := UInt64.le_iff_toNat_le.mp later
  have near := within.2
  omega

theorem calm_denial (kept : Kept run) (sound : run.Sound paths causeHash (.denial causeMessage now access)) :
    (run.step paths causeHash (.denial causeMessage now access)).Calm := by
  obtain ⟨_, sent, _, _⟩ := @step_denial paths causeHash run causeMessage now access
  rw [Calm, sent]
  split
  · next fired =>
    refine List.pairwise_cons.mpr ⟨fun earlier member same => ?_, kept.calm⟩
    exact fun within => fires_apart sound fired member same.symm (within_symm within)
  · exact kept.calm

/-- A denial that can read and write the state reads the one that the last denial left. -/
theorem read_latest (sound : run.Sound paths causeHash (.denial causeMessage now access))
    (able : usable paths access = true) : loadState paths access run.files = run.latest :=
  sound.1.resolve_right fun unable => Bool.false_ne_true (unable.2.symm.trans able)

/-- The count of the new state covers the new streak. -/
theorem counted_streak (kept : Kept run) (sound : run.Sound paths causeHash (.denial causeMessage now access)) :
    min (run.step paths causeHash (.denial causeMessage now access)).streak 3 ≤ (((loadState paths access run.files).getD initial).counted
      (causeHash causeMessage)).consecutive.toNat := by
  obtain ⟨_, _, _, streak⟩ := @step_denial paths causeHash run causeMessage now access
  rw [streak]
  split
  · next able =>
    rw [read_latest sound able]
    split
    · next same =>
      cases latest : run.latest with
      | none =>
        rw [kept.idle latest]
        exact counted_positive
      | some state =>
        obtain ⟨cause, bound⟩ := kept.counted state latest
        rw [same, Option.some.injEq] at cause
        exact counted_consecutive cause.symm bound
    · exact counted_positive
  · exact Nat.zero_le _

/-- What the state lists was sent. -/
theorem read_remembered (kept : Kept run) (sound : run.Sound paths causeHash (.denial causeMessage now access))
    {cause : String} {time : UInt64}
    (listed : ((loadState paths access run.files).getD initial).notified.lookup cause = some time) :
    (cause, time) ∈ run.sent := by
  rcases sound.1 with fresh | ⟨nothing, _⟩
  · rw [fresh] at listed
    cases latest : run.latest with
    | none =>
      rw [latest] at listed
      cases listed
    | some state =>
      rw [latest] at listed
      exact kept.remembered state latest cause time listed
  · rw [nothing] at listed
    cases listed

/-- A cause that is limited although it was denied often enough was notified within the hour. -/
theorem heard_denial (kept : Kept run) (sound : run.Sound paths causeHash (.denial causeMessage now access)) :
    (run.step paths causeHash (.denial causeMessage now access)).Heard := by
  obtain ⟨_, sent, last, _⟩ := @step_denial paths causeHash run causeMessage now access
  intro cause clock same often
  rw [last, Option.some.injEq, Prod.mk.injEq] at same
  obtain ⟨rfl, rfl⟩ := same
  have counts := counted_streak kept sound
  have length : threshold.toNat = 3 := rfl
  by_cases fired : (denied (loadState paths access run.files) (causeHash causeMessage) now).1 = true
  · refine ⟨(causeHash causeMessage, now), ?_, rfl, ?_⟩
    · rw [sent, if_pos fired]
      exact List.mem_cons_self
    · exact ⟨Nat.lt_add_of_pos_right (by decide), Nat.lt_add_of_pos_right (by decide)⟩
  · have limited : ∃ time ∈ ((loadState paths access run.files).getD initial).notified.lookup (causeHash causeMessage),
        now.toNat < time.toNat + renotifySecs := by
      by_contra none
      exact fired (denied_fires.mpr ⟨by omega, fun time listed => Nat.not_lt.mp fun recent => none ⟨time, listed, recent⟩⟩)
    obtain ⟨time, listed, recent⟩ := limited
    refine ⟨(causeHash causeMessage, time), ?_, rfl, sound.2.2 time listed, recent⟩
    rw [sent, if_neg fired]
    exact read_remembered kept sound listed

theorem kept_denial (kept : Kept run) (sound : run.Sound paths causeHash (.denial causeMessage now access)) :
    Kept (run.step paths causeHash (.denial causeMessage now access)) := by
  obtain ⟨latest, sent, last, _⟩ := @step_denial paths causeHash run causeMessage now access
  refine ⟨calm_denial kept sound, heard_denial kept sound, ?_, ?_, ?_⟩
  · intro state member cause time listed
    rw [latest, Option.mem_some_iff] at member
    subst member
    rw [sent]
    rcases denied_lookup listed with ⟨fired, rfl, rfl⟩ | read
    · rw [if_pos fired]
      exact List.mem_cons_self
    · have old := read_remembered kept sound read
      split
      · exact List.mem_cons_of_mem _ old
      · exact old
  · intro state member
    rw [latest, Option.mem_some_iff] at member
    subst member
    rw [last, denied_cause, denied_consecutive]
    exact ⟨rfl, counted_streak kept sound⟩
  · intro none
    rw [latest] at none
    cases none

end

theorem kept_step (kept : Kept run) (sound : run.Sound paths causeHash event) :
    Kept (run.step paths causeHash event) := by
  cases event with
  | denial causeMessage now access => exact kept_denial kept sound
  | healthy access => exact kept_healthy access

theorem kept_start : Kept (machine paths causeHash).start where
  calm := List.Pairwise.nil
  heard := fun _ _ last => by cases last
  remembered := fun _ member => by cases member
  counted := fun _ member => by cases member
  idle := fun _ => rfl

/-- In runs whose denials are sound no cause is notified twice within the hour, and none that is
denied on end goes unnoticed. -/
theorem calm_and_heard (reached : (machine paths causeHash).Reachable (Sound paths causeHash) run) :
    run.Calm ∧ run.Heard := by
  have kept : Kept run := reached.invariant kept_start fun before event after kept sound taken =>
    Option.some.inj taken ▸ kept_step kept sound
  exact ⟨kept.calm, kept.heard⟩

/-! ### Two candidates -/

def primary : PathBuf := ⟨"/home/user/.wisphive/brick-state.json"⟩

def fallback : PathBuf := ⟨"/tmp/wisphive-brick-501.json"⟩

def whole (_ : PathBuf) : Access where
  readable := true
  writable := true
  removable := true

/-- The state directory was made read-only. -/
def readOnly (path : PathBuf) : Access where
  readable := true
  writable := path = fallback
  removable := path = fallback

/-- Denials of one cause in the same second. -/
def denials (accesses : List (PathBuf → Access)) : List BrickEvent :=
  accesses.map (.denial "mode file 0644" 1000)

def after (accesses : List (PathBuf → Access)) : BrickRun :=
  (denials accesses).foldl (step [primary, fallback] id) (machine [primary, fallback] id).start

instance (first second : UInt64) : Decidable (Within first second) :=
  inferInstanceAs (Decidable (_ ∧ _))

instance (run : BrickRun) : (event : BrickEvent) → Decidable (run.Sound paths causeHash event)
  | .denial .. => @instDecidableAnd _ _ inferInstance (@instDecidableAnd _ _ inferInstance (Option.decidableForallMem _))
  | .healthy _ => .isTrue trivial

/-- The third denial of a run notifies, and the fourth is limited. -/
theorem calm_and_heard_four :
    (after [whole, whole, whole, whole]).sent = [("mode file 0644", 1000)] ∧
      (after [whole, whole, whole, whole]).Calm ∧ (after [whole, whole, whole, whole]).Heard := by
  have taken : (machine [primary, fallback] id).run (Sound [primary, fallback] id) (machine [primary, fallback] id).start
      (denials [whole, whole, whole, whole]) = some (after [whole, whole, whole, whole]) :=
    Machine.run_total (fun _ _ => rfl) (by decide +kernel)
  exact ⟨by decide +kernel, calm_and_heard (Machine.Reachable.start.run taken)⟩

/-- The first candidate holds an old state and cannot be written. It is read again and again,
and the count stays below the threshold. -/
theorem stale_state_silent :
    (machine [primary, fallback] id).Reachable Machine.free (after [whole, readOnly, readOnly]) ∧
      ¬ (after [whole, readOnly, readOnly]).Heard := by
  refine ⟨?_, fun heard => ?_⟩
  · have taken : (machine [primary, fallback] id).run Machine.free (machine [primary, fallback] id).start
        (denials [whole, readOnly, readOnly]) = some (after [whole, readOnly, readOnly]) :=
      Machine.run_total (fun _ _ => rfl) (by decide +kernel)
    exact Machine.Reachable.start.run taken
  · obtain ⟨sent, member, _⟩ := heard "mode file 0644" 1000 rfl (by decide)
    have none : (after [whole, readOnly, readOnly]).sent = [] := by decide
    rw [none] at member
    cases member

end BrickRun

/-! ### The script of a notification -/

namespace Osascript

theorem line_control {char : Char} (line : endsStatement char = true) : BrickDetector.isControl char = true := by
  simp only [endsStatement, Bool.or_eq_true, decide_eq_true_eq] at line
  rcases line with rfl | rfl <;> rfl

/-- Escaping after the control characters are gone. -/
theorem escape_eq (text : String) : (escapeApplescript text).toList = quoted (shown text) := by
  rw [escapeApplescript, String.toList_ofList, quoted, shown, List.flatMap_map]
  congr 1
  funext char
  simp only [escapeChar]
  split
  · rfl
  · rename_i plain
    by_cases backslash : char = '\\'
    · subst backslash; rfl
    · by_cases quote : char = '"'
      · subst quote; rfl
      · rw [if_neg backslash, if_neg quote, if_neg (not_or.mpr ⟨backslash, quote⟩)]

/-- Nothing that is shown ends a line. -/
theorem shown_lines (text : String) : ∀ char ∈ shown text, endsStatement char = false := by
  intro char member
  obtain ⟨source, _, rfl⟩ := List.mem_map.mp member
  split
  · rfl
  · rename_i plain
    cases line : endsStatement source with
    | false => rfl
    | true => exact absurd (line_control line) plain

/-- A field takes the reader through its literal. -/
theorem run_field {reader : Reader} (place : reader.place = .literal []) (text : String) :
    reader.run (escapeApplescript text).toList = some { reader with place := .literal (shown text) } := by
  rw [escape_eq]
  exact run_quoted place (shown text) (shown_lines text)

theorem command_chars (body title : String) :
    (buildOsascriptCommand body title).toList =
      "display notification \"".toList ++ ((escapeApplescript body).toList ++
        ("\" with title \"".toList ++ ((escapeApplescript title).toList ++ "\"".toList))) := by
  have parts (first second third fourth fifth : String) : (first ++ second ++ third ++ fourth ++ fifth).toList =
      first.toList ++ (second.toList ++ (third.toList ++ (fourth.toList ++ fifth.toList))) := by
    simp only [String.toList_append, List.append_assoc]
  exact parts ..

/-- For all fields, the script reads as one statement that displays their beginnings. -/
theorem script_reads_back (body title : String) :
    ScriptText.read (buildOsascriptCommand body title).toList = some [displayNotification (shown body) (shown title)] := by
  have opening : Reader.run {} "display notification \"".toList =
      some { tokens := [.word "display".toList, .word "notification".toList], place := .literal [] } := by
    decide
  have middle (text : List Char) : Reader.run
      { tokens := [.word "display".toList, .word "notification".toList], place := .literal text }
      "\" with title \"".toList =
      some { tokens := [.word "display".toList, .word "notification".toList, .literal text, .word "with".toList,
        .word "title".toList], place := .literal [] } := rfl
  rw [ScriptText.read, command_chars, run_append, opening, Option.bind_some, run_append, run_field rfl, Option.bind_some,
    run_append, middle, Option.bind_some, run_append, run_field rfl, Option.bind_some]
  rfl

end Osascript

end Wisphive
