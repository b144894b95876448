import Mathlib.Data.List.Nodup
import Wisphive.TerminalRespawn

/-! One session keeps its standing through everything that the daemon does with the others.
What a shutdown preserved stays `running` up to the next start, and an end that was
persisted is never swept into the candidates. -/

namespace Wisphive
open Foundation

namespace TerminalLifecycle
variable {before after : TerminalLifecycle} {event : LifecycleEvent} {id target : Uuid}

/-- The recorded status. -/
def status (daemon : TerminalLifecycle) (id : Uuid) : Option TerminalStatus :=
  (daemon.row id).map (·.status)

theorem session_id {session : LiveSession} (found : before.session id = some session) : session.id = id := by
  simpa using List.find?_some found

theorem row_id {row : TerminalRow} (found : before.row id = some row) : row.id = id := by
  simpa using List.find?_some found

theorem session_changed (change : LiveSession → LiveSession) (keeps : ∀ session, (change session).id = session.id)
    (sessions : after.sessions = (before.changeSession target change).sessions) :
    after.session id = (before.session id).map fun session => if session.id = target then change session else session := by
  rw [session, sessions, changeSession, Table.find_update keeps]
  simp only [decide_eq_true_eq]
  rfl

theorem session_appended {fresh : LiveSession} (sessions : after.sessions = before.sessions ++ [fresh]) :
    after.session id = (before.session id).or (if fresh.id = id then some fresh else none) := by
  rw [session, sessions, Table.find_append]
  rfl

/-- An update of one row, and the status that it leaves. -/
theorem status_updated (change : TerminalRow → TerminalRow) (keeps : ∀ row, (change row).id = row.id)
    (rows : after.rows = (Table.update before.rows (·.id = target) change).2) :
    after.status id = (before.row id).map fun row => if id = target then (change row).status else row.status := by
  rw [status, row, rows, Table.find_update keeps, Option.map_map]
  change (before.row id).map _ = _
  cases found : before.row id with
  | none => rfl
  | some row => simp only [Option.map_some, Function.comp_apply, row_id found, decide_eq_true_eq, apply_ite TerminalRow.status]

theorem status_of_rows (rows : after.rows = before.rows) : after.status id = before.status id := by
  rw [status, row, rows]
  rfl

/-- How one session of the daemon moves. Its flag stays stored, and its child stays ended. -/
structure Moves (session next : LiveSession) : Prop where
  flag : session.preserveStatusOnShutdown = true → next.preserveStatusOnShutdown = true
  child : next.childRunning = true → session.childRunning = true
  waiter : next.waiter = session.waiter ∨
    session.waiter = .unspawned ∧ next.waiter = .waiting ∨
    session.waiter = .waiting ∧ session.childRunning = false ∧ (∃ status, next.waiter = .returned status ∧ status ≠ .running) ∨
    ∃ status, session.waiter = .returned status ∧
      next.waiter = if session.preserveStatusOnShutdown then .preserved else .ending status

theorem Moves.refl (session : LiveSession) : Moves session session :=
  ⟨fun flag => flag, fun child => child, .inl rfl⟩

/-- A session that this step added, if the step did not find it. -/
def Fresh (id : Uuid) (before after : TerminalLifecycle) : Prop :=
  ∀ session, after.session id = some session →
    before.session id = some session ∨ session.waiter = .unspawned ∨ session.waiter = .waiting

/-- What one step is for one session. -/
inductive Effect (id : Uuid) (before after : TerminalLifecycle) (event : LifecycleEvent) : Prop where
  | moved (status : after.status id = before.status id)
      (session : ∀ next, after.session id = some next → ∃ session, before.session id = some session ∧ Moves session next)
      (candidate : after.Candidate id → before.Candidate id)
  | created (unknown : before.row id = none) (accepts : before.phase.accepts = true) (phase : after.phase = before.phase)
      (status : after.status id = some .running) (fresh : Fresh id before after)
  | respawned {rest} (earlier : before.phase = .reconciling (id :: rest)) (later : after.phase = .reconciling rest)
      (status : after.status id = some .running) (fresh : Fresh id before after)
  | ended (session : LiveSession) (final : TerminalStatus) (found : before.session id = some session)
      (ending : session.waiter = .ending final) (next : after.session id = some { session with waiter := .ended })
      (status : after.status id = (before.status id).map (fun _ => final) ∨ after.status id = before.status id)
      (candidate : after.Candidate id → before.Candidate id)
  | swept (start : event = .start)

theorem not_candidate_of_phase (phase : ∀ candidates, after.phase ≠ .reconciling candidates) : ¬ after.Candidate id := by
  intro candidate
  unfold Candidate at candidate
  split at candidate
  next found => exact phase _ found
  next => exact candidate

theorem candidate_of_phase (same : after.phase = before.phase) : after.Candidate id → before.Candidate id := by
  unfold Candidate
  rw [same]
  exact fun candidate => candidate

theorem candidate_iff {candidates : List Uuid} (phase : before.phase = .reconciling candidates) :
    before.Candidate id ↔ id ∈ candidates := by
  rw [Candidate, phase]

theorem candidate_first {rest : List Uuid} (phase : before.phase = .reconciling (id :: rest)) : before.Candidate id :=
  (candidate_iff phase).mpr (List.mem_cons_self ..)

/-- A change that moves the session it is about leaves every other session as it is. -/
theorem Effect.of_change (change : LiveSession → LiveSession) (keeps : ∀ session, (change session).id = session.id)
    (sessions : after.sessions = (before.changeSession target change).sessions)
    (status : after.status id = before.status id)
    (moves : ∀ session, before.session target = some session → Moves session (change session))
    (candidate : after.Candidate id → before.Candidate id) : Effect id before after event := by
  refine .moved status (fun next found => ?_) candidate
  rw [session_changed change keeps sessions, Option.map_eq_some_iff] at found
  obtain ⟨session, known, rfl⟩ := found
  refine ⟨session, known, ?_⟩
  split
  next same =>
    have : id = target := (session_id known).symm.trans same
    exact moves session (this ▸ known)
  next => exact .refl session

theorem Effect.of_sessions (sessions : after.sessions = before.sessions) (status : after.status id = before.status id)
    (candidate : after.Candidate id → before.Candidate id) : Effect id before after event := by
  refine .moved status (fun next found => ⟨next, ?_, .refl next⟩) candidate
  rw [session, sessions] at found
  exact found

theorem Effect.of_stepWaiter {next : LiveSession → Option Waiter} (taken : before.stepWaiter target next = some after)
    (moves : ∀ session waiter, next session = some waiter → Moves session { session with waiter }) :
    Effect id before after event := by
  obtain ⟨waiter, chosen, rfl⟩ := Option.map_eq_some_iff.mp taken
  obtain ⟨session, found, chosen⟩ := Option.bind_eq_some_iff.mp chosen
  refine .of_change (fun session => { session with waiter }) (fun _ => rfl) rfl (status_of_rows rfl)
    (fun other known => ?_) (candidate_of_phase rfl)
  rw [found] at known
  cases known
  exact moves session waiter chosen

theorem fresh_appended {fresh : LiveSession} (sessions : after.sessions = before.sessions ++ [fresh])
    (waiter : fresh.waiter = .unspawned ∨ fresh.waiter = .waiting) : Fresh id before after := by
  intro session found
  rw [session_appended sessions, Option.or_eq_some_iff] at found
  rcases found with known | ⟨_, new⟩
  · exact .inl known
  · split at new
    · cases new
      exact .inr waiter
    · cases new

theorem status_respawned {row : TerminalRow} (found : before.row target = some row)
    (rows : after.rows = resurrectTerminalSession before.rows target) :
    after.status id = if id = target then some .running else before.status id := by
  rw [status_updated (fun row => { row with status := .running }) (fun _ => rfl) rows]
  by_cases same : id = target
  · simp only [same, if_true, found, Option.map_some]
  · simp only [same, if_false]
    rfl

theorem Effect.of_respawn {rest : List Uuid} {succeeds : Bool} (phase : before.phase = .reconciling (target :: rest))
    (taken : after = { before.respawnSession target succeeds with phase := .reconciling rest }) :
    Effect id before after event := by
  have shrinks : after.Candidate id → before.Candidate id := by
    rw [candidate_iff phase, candidate_iff (by rw [taken])]
    exact List.mem_cons_of_mem target
  unfold respawnSession at taken
  split at taken
  · subst taken
    exact .of_sessions rfl (status_of_rows rfl) shrinks
  split at taken
  next row found =>
    split at taken
    · by_cases same : id = target
      · subst same taken
        refine .respawned phase rfl ?_ (fresh_appended rfl (.inr rfl))
        rw [status_respawned found rfl, if_pos rfl]
      · subst taken
        refine .moved ?_ (fun next known => ⟨next, ?_, .refl next⟩) shrinks
        · rw [status_respawned found rfl, if_neg same]
        · rwa [session_appended rfl, if_neg (Ne.symm same), Option.or_none] at known
    · subst taken
      exact .of_sessions rfl (status_of_rows rfl) shrinks
  next =>
    subst taken
    exact .of_sessions rfl (status_of_rows rfl) shrinks

theorem Effect.of_create (accepts : before.phase.accepts = true) (unknown : before.row target = none)
    (taken : after = { before with rows := before.rows ++ [{ id := target }], sessions := before.sessions ++ [{ id := target }] }) :
    Effect id before after event := by
  have row : after.row id = (before.row id).or (if target = id then some { id := target } else none) := by
    rw [taken, TerminalLifecycle.row, Table.find_append]
    rfl
  have status : after.status id = (before.status id).or (if target = id then some .running else none) := by
    rw [TerminalLifecycle.status, row, TerminalLifecycle.status]
    cases before.row id with
    | none => split <;> rfl
    | some row => rfl
  by_cases same : target = id
  · subst same
    refine .created unknown accepts (by rw [taken]) ?_ (fresh_appended (by rw [taken]) (.inl rfl))
    rw [status, TerminalLifecycle.status, unknown, if_pos rfl, Option.map_none, Option.none_or]
  · refine .moved ?_ (fun next known => ⟨next, ?_, .refl next⟩) (candidate_of_phase (by rw [taken]))
    · rw [status, if_neg same, Option.or_none]
    · rwa [session_appended (by rw [taken]), if_neg same, Option.or_none] at known

theorem Effect.of_end {session : LiveSession} {final : TerminalStatus} {persists : Bool}
    (found : before.session target = some session) (ending : session.waiter = .ending final)
    (taken : after = { before.changeSession target fun session => { session with waiter := .ended } with
      rows := if persists then endTerminalSession before.rows target final else before.rows }) :
    Effect id before after event := by
  have sessions : after.session id =
      (before.session id).map fun session => if session.id = target then { session with waiter := .ended } else session :=
    session_changed _ (fun _ => rfl) (by rw [taken])
  have candidate : after.Candidate id → before.Candidate id := candidate_of_phase (by rw [taken]; rfl)
  have status : after.status id = if id = target ∧ persists = true then (before.status id).map fun _ => final
      else before.status id := by
    cases persists with
    | false =>
      rw [if_neg (by simp)]
      exact status_of_rows (by rw [taken]; rfl)
    | true =>
      rw [status_updated (fun row => { row with status := final }) (fun _ => rfl) (by rw [taken]; rfl),
        TerminalLifecycle.status]
      by_cases same : id = target
      · simp only [same, if_true, and_self, Option.map_map]
        rfl
      · simp only [same, if_false, false_and]
  by_cases same : id = target
  · subst same
    refine .ended session final found ending ?_ ?_ candidate
    · rw [sessions, found, Option.map_some, if_pos (session_id found)]
    · rw [status]
      split
      · exact .inl rfl
      · exact .inr rfl
  · refine .moved ?_ (fun next known => ⟨next, ?_, .refl next⟩) candidate
    · rw [status, if_neg (fun both => same both.1)]
    · rw [sessions, Option.map_eq_some_iff] at known
      obtain ⟨old, known, rfl⟩ := known
      rw [if_neg (fun equal => same ((session_id known).symm.trans equal))]
      exact known

theorem Effect.of_advance (taken : before.advance = some after) : Effect id before after event := by
  unfold advance at taken
  split at taken
  next target rest phase =>
    obtain ⟨session, _, rfl⟩ := Option.map_eq_some_iff.mp taken
    refine .of_sessions rfl (status_of_rows rfl) (fun candidate => absurd candidate (not_candidate_of_phase ?_))
    intro candidates
    dsimp only
    split <;> simp
  next =>
    cases taken
    refine .of_change (fun session => { session with preserveStatusOnShutdown := true }) (fun _ => rfl) rfl
      (status_of_rows rfl) (fun _ _ => ⟨fun _ => rfl, fun child => child, .inl rfl⟩) ?_
    exact fun candidate => absurd candidate (not_candidate_of_phase (by simp))
  next =>
    cases taken
    refine .of_change (fun session => { session with killer := false }) (fun _ => rfl) rfl
      (status_of_rows rfl) (fun _ _ => ⟨fun flag => flag, fun child => child, .inl rfl⟩) ?_
    exact fun candidate => absurd candidate (not_candidate_of_phase (by simp))
  all_goals cases taken

theorem step_effect (taken : before.step event = some after) (id : Uuid) : Effect id before after event := by
  cases event with
  | start => exact .swept rfl
  | respawn succeeds =>
    simp only [step] at taken
    split at taken
    · cases taken
      exact .of_respawn ‹_› rfl
    · cases taken
  | serve =>
    simp only [step] at taken
    split at taken <;> cases taken
    exact .of_sessions rfl (status_of_rows rfl) (fun candidate => absurd candidate (not_candidate_of_phase (by simp)))
  | create target =>
    simp only [step] at taken
    split at taken <;> cases taken
    next both => exact .of_create both.1 both.2 rfl
  | launch target =>
    simp only [step] at taken
    split at taken <;> cases taken
    next found =>
      refine .of_change (fun session => { session with mapped := true, waiter := .waiting }) (fun _ => rfl) rfl
        (status_of_rows rfl) (fun session known => ?_) (candidate_of_phase rfl)
      rw [found] at known
      cases known
      exact ⟨fun flag => flag, fun child => child, .inr (.inl ⟨rfl, rfl⟩)⟩
  | setPinned target pinned =>
    simp only [step] at taken
    split at taken <;> cases taken
    refine .of_sessions rfl ?_ (candidate_of_phase rfl)
    rw [status_updated (fun row => { row with pinned }) (fun _ => rfl) rfl, status]
    simp only [ite_self]
  | mirrorPinned target pinned =>
    simp only [step] at taken
    split at taken
    · split at taken <;> cases taken
      · exact .of_change (fun session => { session with pinned }) (fun _ => rfl) rfl (status_of_rows rfl)
          (fun _ _ => ⟨fun flag => flag, fun child => child, .inl rfl⟩) (candidate_of_phase rfl)
      · exact .of_sessions rfl (status_of_rows rfl) (candidate_of_phase rfl)
    · cases taken
  | exit target =>
    simp only [step] at taken
    split at taken <;> cases taken
    exact .of_change (fun session => { session with childRunning := false }) (fun _ => rfl) rfl (status_of_rows rfl)
      (fun _ _ => ⟨fun flag => flag, fun child => (by cases child), .inl rfl⟩) (candidate_of_phase rfl)
  | close target =>
    simp only [step] at taken
    split at taken <;> cases taken
    exact .of_change (fun session => { session with killer := false }) (fun _ => rfl) rfl (status_of_rows rfl)
      (fun _ _ => ⟨fun flag => flag, fun child => child, .inl rfl⟩) (candidate_of_phase rfl)
  | waitReturns target ok =>
    refine .of_stepWaiter taken (fun session waiter chosen => ?_)
    split at chosen
    · cases chosen
      refine ⟨fun flag => flag, fun child => child, .inr (.inr (.inl ⟨‹_›, ‹_›, _, rfl, ?_⟩))⟩
      split <;> exact TerminalStatus.noConfusion
    · cases chosen
  | readFlag target =>
    refine .of_stepWaiter taken (fun session waiter chosen => ?_)
    split at chosen
    · cases chosen
      exact ⟨fun flag => flag, fun child => child, .inr (.inr (.inr ⟨_, ‹_›, rfl⟩))⟩
    · cases chosen
  | endSession target persists =>
    simp only [step] at taken
    split at taken <;> cases taken
    next found => exact .of_end found rfl rfl
  | remove target =>
    simp only [step] at taken
    split at taken <;> cases taken
    all_goals
      exact .of_change (fun session => { session with mapped := false }) (fun _ => rfl) rfl (status_of_rows rfl)
        (fun _ _ => ⟨fun flag => flag, fun child => child, .inl rfl⟩) (candidate_of_phase rfl)
  | shutdownAll order =>
    simp only [step] at taken
    split at taken <;> cases taken
    exact .of_sessions rfl (status_of_rows rfl) (fun candidate => absurd candidate (not_candidate_of_phase (by simp)))
  | shutdown => exact .of_advance taken
  | stop =>
    simp only [step] at taken
    split at taken <;> cases taken
    refine .moved (status_of_rows rfl) (fun next found => ?_)
      (fun candidate => absurd candidate (not_candidate_of_phase (by simp)))
    cases found

/-- A start finds the candidates, and a respawn takes the first of them. -/
inductive PhaseStep (before after : TerminalLifecycle) (event : LifecycleEvent) : Prop where
  | same (phase : after.phase = before.phase)
  | started (start : event = .start)
      (phase : after.phase = .reconciling (markRunningTerminalsOrphaned before.rows).1)
  | respawned {id rest} (earlier : before.phase = .reconciling (id :: rest)) (later : after.phase = .reconciling rest)
  | accepting (phase : after.phase.accepts = true)
  | stopped (stop : event = .stop) (phase : after.phase = .down)

theorem step_phase (taken : before.step event = some after) : PhaseStep before after event := by
  cases event with
  | start =>
    simp only [step] at taken
    split at taken <;> cases taken
    exact .started rfl rfl
  | respawn succeeds =>
    simp only [step] at taken
    split at taken <;> cases taken
    exact .respawned ‹_› rfl
  | shutdown =>
    simp only [step, advance] at taken
    split at taken
    · obtain ⟨session, _, rfl⟩ := Option.map_eq_some_iff.mp taken
      apply PhaseStep.accepting
      dsimp only
      split <;> rfl
    all_goals cases taken
    all_goals exact .accepting rfl
  | serve | shutdownAll order =>
    simp only [step] at taken
    split at taken <;> cases taken
    exact .accepting rfl
  | stop =>
    simp only [step] at taken
    split at taken <;> cases taken
    exact .stopped rfl rfl
  | waitReturns target ok | readFlag target =>
    obtain ⟨waiter, _, rfl⟩ := Option.map_eq_some_iff.mp taken
    exact .same rfl
  | create target | launch target | setPinned target pinned | exit target | close target
  | endSession target persists | remove target =>
    simp only [step] at taken
    split at taken <;> cases taken
    all_goals exact .same rfl
  | mirrorPinned target pinned =>
    simp only [step] at taken
    split at taken
    · split at taken <;> cases taken
      all_goals exact .same rfl
    · cases taken

/-- The daemon goes down by its end alone. -/
theorem step_down (taken : before.step event = some after) (down : after.phase = .down) :
    before.phase = .down ∨ event = .stop := by
  cases step_phase taken with
  | same phase => exact .inl (phase.symm.trans down)
  | stopped stop => exact .inr stop
  | started _ phase => rw [phase] at down; cases down
  | respawned _ later => rw [later] at down; cases down
  | accepting phase => rw [down] at phase; cases phase

/-- The primary key of `terminal_sessions`. -/
def Keyed (daemon : TerminalLifecycle) : Prop :=
  (daemon.rows.map (·.id)).Nodup

theorem updated_ids {rows : List TerminalRow} {selected : TerminalRow → Bool} {change : TerminalRow → TerminalRow}
    (keeps : ∀ row, (change row).id = row.id) : ((Table.update rows selected change).2).map (·.id) = rows.map (·.id) := by
  rw [Table.update, List.map_map]
  apply List.map_congr_left
  intro row _
  simp only [Function.comp_apply]
  split
  · exact keeps row
  · rfl

theorem Keyed.of_ids (keyed : Keyed before) (ids : after.rows.map (·.id) = before.rows.map (·.id)) : Keyed after := by
  rw [Keyed, ids]
  exact keyed

theorem Keyed.step (keyed : Keyed before) (taken : before.step event = some after) : Keyed after := by
  cases event with
  | start =>
    simp only [TerminalLifecycle.step] at taken
    split at taken <;> cases taken
    exact keyed.of_ids (updated_ids fun _ => rfl)
  | respawn succeeds =>
    simp only [TerminalLifecycle.step] at taken
    split at taken <;> cases taken
    apply keyed.of_ids
    unfold respawnSession
    split
    · rfl
    · split
      · split
        · exact updated_ids fun _ => rfl
        · rfl
      · rfl
  | create target =>
    simp only [TerminalLifecycle.step] at taken
    split at taken <;> cases taken
    next both =>
      rw [Keyed, List.map_append]
      refine List.Nodup.append keyed (List.nodup_singleton _) (fun id member same => ?_)
      obtain ⟨row, present, rfl⟩ := List.mem_map.mp member
      rw [List.map_singleton, List.mem_singleton] at same
      have missing := List.find?_eq_none.mp both.2 row present
      simp only [same, decide_true, not_true_eq_false] at missing
  | endSession target persists =>
    simp only [TerminalLifecycle.step] at taken
    split at taken <;> cases taken
    apply keyed.of_ids
    cases persists
    · rfl
    · exact updated_ids fun _ => rfl
  | setPinned target pinned =>
    simp only [TerminalLifecycle.step] at taken
    split at taken <;> cases taken
    exact keyed.of_ids (updated_ids fun _ => rfl)
  | shutdown =>
    simp only [TerminalLifecycle.step, advance] at taken
    split at taken
    · obtain ⟨session, _, rfl⟩ := Option.map_eq_some_iff.mp taken
      exact keyed
    all_goals cases taken
    all_goals exact keyed
  | waitReturns target ok | readFlag target =>
    obtain ⟨waiter, _, rfl⟩ := Option.map_eq_some_iff.mp taken
    exact keyed
  | serve | launch target | exit target | close target | remove target | shutdownAll order =>
    simp only [TerminalLifecycle.step] at taken
    split at taken <;> cases taken
    all_goals exact keyed
  | stop =>
    simp only [TerminalLifecycle.step] at taken
    split at taken <;> cases taken
    exact keyed
  | mirrorPinned target pinned =>
    simp only [TerminalLifecycle.step] at taken
    split at taken
    · split at taken <;> cases taken
      all_goals exact keyed
    · cases taken

theorem Keyed.row (keyed : Keyed before) {row : TerminalRow} (member : row ∈ before.rows) : before.row row.id = some row := by
  match found : before.row row.id with
  | none => simpa using List.find?_eq_none.mp found row member
  | some other =>
    rw [List.inj_on_of_nodup_map keyed member (List.mem_of_find?_eq_some found) (row_id found).symm]

/-- The sweep takes the pinned rows that are recorded as running. -/
theorem candidate_started (keyed : Keyed before) (taken : before.step .start = some after) :
    after.Candidate id ↔ ∃ row, before.row id = some row ∧ row.status = .running ∧ row.pinned = true := by
  simp only [step] at taken
  split at taken <;> cases taken
  simp only [Candidate, markRunningTerminalsOrphaned, List.mem_map, List.mem_filter, decide_eq_true_eq]
  constructor
  · rintro ⟨row, ⟨⟨member, running⟩, pinned⟩, rfl⟩
    exact ⟨row, keyed.row member, running, pinned⟩
  · rintro ⟨row, found, running, pinned⟩
    exact ⟨row, ⟨⟨List.mem_of_find?_eq_some found, running⟩, pinned⟩, row_id found⟩

theorem status_swept (taken : before.step .start = some after) :
    after.status id = (before.status id).map fun status => if status = .running then .orphaned else status := by
  simp only [step] at taken
  split at taken <;> cases taken
  simp only [status, TerminalLifecycle.row, markRunningTerminalsOrphaned]
  rw [Table.find_update (fun row : TerminalRow => (rfl : ({ row with status := .orphaned } : TerminalRow).id = row.id))]
  rw [Option.map_map, Option.map_map]
  congr 1
  funext row
  simp only [Function.comp_apply, decide_eq_true_eq, apply_ite TerminalRow.status]

structure Valid (daemon : TerminalLifecycle) : Prop where
  keyed : Keyed daemon
  running : ∀ id session, daemon.session id = some session → session.waiter ≠ .ended → daemon.status id = some .running
  waited : ∀ id session, daemon.session id = some session → session.childRunning = true →
    session.waiter = .unspawned ∨ session.waiter = .waiting
  final : ∀ id session status, daemon.session id = some session →
    session.waiter = .returned status ∨ session.waiter = .ending status → status ≠ .running
  down : daemon.phase = .down → ∀ id, daemon.session id = none
  nodup : ∀ candidates, daemon.phase = .reconciling candidates → candidates.Nodup
  orphaned : ∀ id, daemon.Candidate id → daemon.status id = some .orphaned

theorem Valid.start : Valid machine.start where
  keyed := List.nodup_nil
  running _ _ found := nomatch found
  waited _ _ found := nomatch found
  final _ _ _ found := nomatch found
  down _ _ := rfl
  nodup _ phase := nomatch phase
  orphaned _ candidate := nomatch candidate

theorem Moves.unended {session next : LiveSession} (moves : Moves session next) (alive : next.waiter ≠ .ended) :
    session.waiter ≠ .ended := by
  intro ended
  rcases moves.waiter with same | ⟨was, _⟩ | ⟨was, _⟩ | ⟨status, was, _⟩
  · exact alive (same.trans ended)
  all_goals
    rw [ended] at was
    cases was

theorem Moves.waited {session next : LiveSession} (moves : Moves session next) (child : next.childRunning = true)
    (before : session.waiter = .unspawned ∨ session.waiter = .waiting) :
    next.waiter = .unspawned ∨ next.waiter = .waiting := by
  rcases moves.waiter with same | ⟨_, becomes⟩ | ⟨_, ended, _⟩ | ⟨status, was, _⟩
  · rwa [same]
  · exact .inr becomes
  · rw [moves.child child] at ended
    cases ended
  · rw [was] at before
    rcases before with other | other <;> cases other

theorem Moves.final {session next : LiveSession} (moves : Moves session next)
    (before : ∀ status, session.waiter = .returned status ∨ session.waiter = .ending status → status ≠ .running)
    {status : TerminalStatus} (reached : next.waiter = .returned status ∨ next.waiter = .ending status) :
    status ≠ .running := by
  rcases moves.waiter with same | ⟨_, becomes⟩ | ⟨_, _, result, becomes, ended⟩ | ⟨result, was, becomes⟩
  · exact before status (same ▸ reached)
  · rw [becomes] at reached
    rcases reached with other | other <;> cases other
  · rw [becomes] at reached
    rcases reached with same | other
    · cases same
      exact ended
    · cases other
  · rw [becomes] at reached
    split at reached
    · rcases reached with other | other <;> cases other
    · rcases reached with other | same
      · cases other
      · cases same
        exact before _ (.inl was)

theorem sessions_started (taken : before.step .start = some after) : after.session id = before.session id := by
  simp only [step] at taken
  split at taken <;> cases taken
  rfl

theorem phase_started (taken : before.step .start = some after) : before.phase = .down := by
  simp only [step] at taken
  split at taken
  · assumption
  · cases taken

theorem Valid.step (valid : Valid before) (taken : before.step event = some after) : Valid after where
  keyed := valid.keyed.step taken
  running id session found alive := by
    cases step_effect taken id with
    | moved status moved =>
      obtain ⟨earlier, known, moves⟩ := moved session found
      rw [status]
      exact valid.running id earlier known (moves.unended alive)
    | created _ _ _ status | respawned _ _ status => exact status
    | ended earlier final _ _ next =>
      rw [next] at found
      cases found
      exact absurd rfl alive
    | swept start =>
      subst start
      rw [sessions_started taken, valid.down (phase_started taken)] at found
      cases found
  waited id session found child := by
    cases step_effect taken id with
    | moved _ moved =>
      obtain ⟨earlier, known, moves⟩ := moved session found
      exact moves.waited child (valid.waited id earlier known (moves.child child))
    | created _ _ _ _ fresh | respawned _ _ _ fresh =>
      rcases fresh session found with known | new
      · exact valid.waited id session known child
      · exact new
    | ended earlier final known ending next =>
      rw [next] at found
      cases found
      have waited := valid.waited id earlier known child
      rw [ending] at waited
      rcases waited with other | other <;> cases other
    | swept start =>
      subst start
      rw [sessions_started taken, valid.down (phase_started taken)] at found
      cases found
  final id session final found reached := by
    cases step_effect taken id with
    | moved _ moved =>
      obtain ⟨earlier, known, moves⟩ := moved session found
      exact moves.final (fun status => valid.final id earlier status known) reached
    | created _ _ _ _ fresh | respawned _ _ _ fresh =>
      rcases fresh session found with known | new
      · exact valid.final id session final known reached
      · rcases new with waiter | waiter
        all_goals
          rw [waiter] at reached
          rcases reached with other | other <;> cases other
    | ended earlier _ known ending next =>
      rw [next] at found
      cases found
      rcases reached with other | other <;> cases other
    | swept start =>
      subst start
      rw [sessions_started taken, valid.down (phase_started taken)] at found
      cases found
  down down id := by
    rcases step_down taken down with earlier | rfl
    · cases step_effect taken id with
      | moved _ moved =>
        cases found : after.session id with
        | none => rfl
        | some session =>
          obtain ⟨other, known, _⟩ := moved session found
          rw [valid.down earlier] at known
          cases known
      | created _ accepts => rw [earlier] at accepts; cases accepts
      | respawned reconciling => rw [earlier] at reconciling; cases reconciling
      | ended session final known =>
        rw [valid.down earlier] at known
        cases known
      | swept start =>
        subst start
        rw [sessions_started taken, valid.down earlier]
    · simp only [TerminalLifecycle.step] at taken
      split at taken <;> cases taken
      rfl
  nodup candidates phase := by
    cases step_phase taken with
    | same unchanged => exact valid.nodup candidates (unchanged ▸ phase)
    | started _ found =>
      cases found.symm.trans phase
      exact valid.keyed.sublist ((List.filter_sublist.trans List.filter_sublist).map _)
    | respawned earlier later =>
      cases later.symm.trans phase
      exact (List.nodup_cons.mp (valid.nodup _ earlier)).2
    | accepting accepts => rw [phase] at accepts; cases accepts
    | stopped _ down => cases down.symm.trans phase
  orphaned id candidate := by
    cases step_effect taken id with
    | moved status _ shrinks => exact status.trans (valid.orphaned id (shrinks candidate))
    | created unknown accepts phase =>
      exact absurd (candidate_of_phase phase candidate) (not_candidate_of_phase fun _ found => by
        rw [found] at accepts
        cases accepts)
    | respawned earlier later =>
      exact absurd ((candidate_iff later).mp candidate) (List.nodup_cons.mp (valid.nodup _ earlier)).1
    | ended session final known ending _ _ shrinks =>
      have running := valid.running id session known (by rw [ending]; simp)
      rw [valid.orphaned id (shrinks candidate)] at running
      cases running
    | swept start =>
      subst start
      obtain ⟨row, found, running, _⟩ := (candidate_started valid.keyed taken).mp candidate
      rw [status_swept taken, TerminalLifecycle.status, found, Option.map_some, Option.map_some, if_pos running]

theorem valid (reached : machine.Reachable Machine.free before) : Valid before :=
  reached.invariant .start fun _ _ _ holds _ taken => holds.step taken

/-- The flag of the session was stored before its waiter read it. -/
structure Spared (id : Uuid) (daemon : TerminalLifecycle) : Prop where
  status : daemon.status id = some .running
  session : ∀ session, daemon.session id = some session → session.preserveStatusOnShutdown = true ∧
    session.waiter ≠ .ended ∧ ∀ final, session.waiter ≠ .ending final
  candidate : ¬ daemon.Candidate id

theorem Spared.step (spared : Spared id before) (taken : before.step event = some after) (other : event ≠ .start) :
    Spared id after := by
  cases step_effect taken id with
  | moved status moved candidate =>
    refine ⟨status.trans spared.status, fun next found => ?_, fun holds => spared.candidate (candidate holds)⟩
    obtain ⟨session, known, moves⟩ := moved next found
    obtain ⟨flag, unended, unending⟩ := spared.session session known
    refine ⟨moves.flag flag, ?_⟩
    rcases moves.waiter with same | ⟨_, becomes⟩ | ⟨_, _, final, becomes, _⟩ | ⟨final, _, becomes⟩
    · rw [same]
      exact ⟨unended, unending⟩
    all_goals
      rw [becomes]
      simp [flag]
  | created unknown =>
    have known := spared.status
    rw [TerminalLifecycle.status, unknown] at known
    cases known
  | respawned earlier => exact absurd (candidate_first earlier) spared.candidate
  | ended session final known ending => exact absurd ending ((spared.session session known).2.2 final)
  | swept start => exact absurd start other

/-- The end of the session was persisted. -/
structure Settled (id : Uuid) (final : TerminalStatus) (daemon : TerminalLifecycle) : Prop where
  status : daemon.status id = some final
  session : ∀ session, daemon.session id = some session → session.waiter = .ended
  candidate : ¬ daemon.Candidate id

theorem Settled.step {final : TerminalStatus} (finished : final ≠ .running) (valid : Valid before)
    (settled : Settled id final before) (taken : before.step event = some after) : Settled id final after := by
  cases step_effect taken id with
  | moved status moved candidate =>
    refine ⟨status.trans settled.status, fun next found => ?_, fun holds => settled.candidate (candidate holds)⟩
    obtain ⟨session, known, moves⟩ := moved next found
    by_contra alive
    exact moves.unended alive (settled.session session known)
  | created unknown =>
    have known := settled.status
    rw [TerminalLifecycle.status, unknown] at known
    cases known
  | respawned earlier => exact absurd (candidate_first earlier) settled.candidate
  | ended session _ known ending =>
    rw [settled.session session known] at ending
    cases ending
  | swept start =>
    subst start
    refine ⟨?_, fun session found => ?_, fun candidate => ?_⟩
    · rw [status_swept taken, settled.status, Option.map_some, if_neg finished]
    · exact settled.session session (sessions_started taken ▸ found)
    · obtain ⟨row, found, running, _⟩ := (candidate_started valid.keyed taken).mp candidate
      have known := settled.status
      rw [TerminalLifecycle.status, found, Option.map_some, running] at known
      exact finished (Option.some.inj known).symm

/-- The events up to the next start. -/
def untilStart (_ : TerminalLifecycle) (event : LifecycleEvent) : Prop := event ≠ .start

instance (daemon : TerminalLifecycle) (event : LifecycleEvent) : Decidable (untilStart daemon event) :=
  inferInstanceAs (Decidable (event ≠ .start))

theorem Spared.run {events : List LifecycleEvent} (spared : Spared id before)
    (taken : machine.run untilStart before events = some after) : Spared id after :=
  Machine.run_preserves (Spared id) (fun _ _ _ holds other moved => holds.step moved other) spared taken

theorem Settled.run {events : List LifecycleEvent} {final : TerminalStatus} (finished : final ≠ .running)
    (valid : Valid before) (settled : Settled id final before) (taken : machine.run Machine.free before events = some after) :
    Settled id final after ∧ Valid after :=
  Machine.run_preserves (fun daemon => Settled id final daemon ∧ Valid daemon)
    (fun _ _ _ holds _ moved => ⟨holds.1.step finished holds.2 moved, holds.2.step moved⟩) ⟨settled, valid⟩ taken

/-- The step of `shutdown_all` that stores the flag of a session whose child runs. -/
theorem Spared.of_store {rest : List Uuid} {session : LiveSession} (valid : Valid before)
    (phase : before.phase = .storing id rest) (found : before.session id = some session)
    (child : session.childRunning = true) (taken : before.step .shutdown = some after) : Spared id after := by
  simp only [TerminalLifecycle.step, advance, phase, Option.some.injEq] at taken
  have waiting := valid.waited id session found child
  have alive : session.waiter ≠ .ended := by rcases waiting with other | other <;> rw [other] <;> simp
  have sessions : after.sessions =
      (before.changeSession id fun session => { session with preserveStatusOnShutdown := true }).sessions := by rw [← taken]
  refine ⟨?_, fun next known => ?_, not_candidate_of_phase (by rw [← taken]; simp)⟩
  · rw [← valid.running id session found alive]
    exact status_of_rows (by rw [← taken]; rfl)
  · rw [session_changed (fun session => { session with preserveStatusOnShutdown := true }) (fun _ => rfl) sessions, found,
      Option.map_some, if_pos (session_id found)] at known
    cases known
    refine ⟨rfl, alive, fun final ending => ?_⟩
    dsimp only at ending
    rw [ending] at waiting
    rcases waiting with other | other <;> cases other

/-- The wait thread found the flag unset, and its write took effect. -/
theorem Settled.of_end {session : LiveSession} {final : TerminalStatus} (valid : Valid before)
    (found : before.session id = some session) (ending : session.waiter = .ending final)
    (taken : before.step (.endSession id true) = some after) : Settled id final after := by
  have running := valid.running id session found (by rw [ending]; simp)
  obtain ⟨row, known, _⟩ := Option.map_eq_some_iff.mp running
  simp only [TerminalLifecycle.step] at taken
  split at taken
  next same =>
    rw [found] at same
    cases same
    cases ending
    rw [Option.some.injEq] at taken
    have sessions : after.sessions = (before.changeSession id fun session => { session with waiter := .ended }).sessions := by
      rw [← taken]
    have rows : after.rows = endTerminalSession before.rows id final := by
      rw [← taken]
      rfl
    refine ⟨?_, fun next moved => ?_, fun candidate => ?_⟩
    · rw [status_updated (fun row => { row with status := final }) (fun _ => rfl) rows, known, Option.map_some, if_pos rfl]
    · rw [session_changed (fun session => { session with waiter := .ended }) (fun _ => rfl) sessions, found,
        Option.map_some, if_pos (session_id found)] at moved
      cases moved
      rfl
    · rw [valid.orphaned id (candidate_of_phase (by rw [← taken]; rfl) candidate)] at running
      cases running
  next => cases taken

/-- Up to the next start, a session whose child ran when `shutdown_all` stored its flag stays
recorded as running, and that start makes it a candidate if its row is pinned. No other
row is a candidate. A session whose end was persisted keeps that status through every
start, and nothing runs for it again. -/
theorem respawn_candidacy (reached : machine.Reachable Machine.free before) (id : Uuid) :
    (∀ rest session events later, before.phase = .storing id rest → before.session id = some session →
      session.childRunning = true → session.killer = true →
      machine.run untilStart before (.shutdown :: events) = some later →
      ∃ row, later.row id = some row ∧ row.status = .running ∧
        ∀ next, later.step .start = some next → (next.Candidate id ↔ row.pinned = true)) ∧
    (∀ next, before.step .start = some next → next.Candidate id →
      ∃ row, before.row id = some row ∧ row.status = .running ∧ row.pinned = true) ∧
    ∀ session final events later, before.session id = some session → session.waiter = .ending final →
      machine.run Machine.free before (.endSession id true :: events) = some later →
      (∃ row, later.row id = some row ∧ row.status = final ∧ final ≠ .running) ∧ ¬ later.Candidate id ∧
        ∀ session, later.session id = some session → session.childRunning = false := by
  have holds := valid reached
  refine ⟨?_, fun next started => (candidate_started holds.keyed started).mp, ?_⟩
  · intro rest session events later phase found child _ taken
    rw [Machine.run, if_pos (show untilStart before .shutdown from LifecycleEvent.noConfusion)] at taken
    obtain ⟨stored, first, remaining⟩ := Option.bind_eq_some_iff.mp taken
    have spared := (Spared.of_store holds phase found child first).run remaining
    have ends := valid ((reached.step trivial first).run (Machine.run_unguarded remaining))
    obtain ⟨row, known, running⟩ := Option.map_eq_some_iff.mp spared.status
    refine ⟨row, known, running, fun next started => ?_⟩
    rw [candidate_started ends.keyed started, known]
    simp only [Option.some.injEq, exists_eq_left', running, true_and]
  · intro session final events later found ending taken
    rw [Machine.run_free_cons] at taken
    obtain ⟨ended, first, remaining⟩ := Option.bind_eq_some_iff.mp taken
    change before.step (.endSession id true) = some ended at first
    have finished := holds.final id session final found (.inr ending)
    obtain ⟨settled, ends⟩ := (Settled.of_end holds found ending first).run finished (holds.step first) remaining
    obtain ⟨row, known, same⟩ := Option.map_eq_some_iff.mp settled.status
    refine ⟨⟨row, known, same, finished⟩, settled.candidate, fun other present => ?_⟩
    by_contra child
    have waited := ends.waited id other present (by simpa using child)
    rw [settled.session other present] at waited
    rcases waited with other | other <;> cases other

/-- A pinned session and one that is not, up to the step that stores the first one's flag. -/
private def storedFlag : TerminalLifecycle :=
  (machine.run Machine.free {}
    [.start, .serve, .create 1, .launch 1, .setPinned 1 true, .mirrorPinned 1 true, .create 2, .launch 2,
      .shutdownAll [1, 2], .shutdown]).get (by decide +kernel)

private theorem storedFlag_reached : machine.Reachable Machine.free storedFlag :=
  Machine.Reachable.start.run (Option.some_get _).symm

/-- Both children are killed, and the waiters run up to the write of the second one. -/
private def killedBoth : List LifecycleEvent :=
  [.shutdown, .shutdown, .shutdown, .exit 1, .exit 2, .waitReturns 1 true, .readFlag 1, .remove 1,
    .waitReturns 2 true, .readFlag 2]

private def endingSecond : TerminalLifecycle :=
  (machine.run Machine.free storedFlag (.shutdown :: killedBoth)).get (by decide +kernel)

private def shutDown : TerminalLifecycle :=
  (machine.run Machine.free endingSecond [.endSession 2 true, .remove 2, .stop]).get (by decide +kernel)

private def restarted : TerminalLifecycle :=
  (shutDown.step .start).get (by decide +kernel)

/-- The start respawns the session that the shutdown preserved, and not the one that it ended. -/
theorem respawn_candidacy_restarted : restarted.Candidate 1 ∧ ¬ restarted.Candidate 2 := by
  have ended := storedFlag_reached.run (Option.some_get (show (machine.run Machine.free storedFlag
    (.shutdown :: killedBoth)).isSome = true by decide +kernel)).symm
  constructor
  · obtain ⟨row, known, _, candidate⟩ := (respawn_candidacy storedFlag_reached 1).1 [2]
      ⟨1, true, true, true, false, true, .waiting⟩ (killedBoth ++ [.endSession 2 true, .remove 2, .stop]) shutDown
      (by decide +kernel) (by decide +kernel) rfl rfl (by decide +kernel)
    refine (candidate restarted (by decide +kernel)).mpr ?_
    have pinned : shutDown.row 1 = some ⟨1, .running, true⟩ := by decide +kernel
    rw [pinned] at known
    cases known
    rfl
  · exact ((respawn_candidacy ended 2).2.2 ⟨2, false, false, false, false, true, .ending .exited⟩ .exited
      [.remove 2, .stop, .start] restarted (by decide +kernel) rfl (by decide +kernel)).2.1

/-- A session is a candidate after a shutdown exactly if its child ran when the shutdown began. -/
def ExactCandidacy (id : Uuid) : Prop :=
  ∀ before order session events after next, machine.Reachable Machine.free before →
    before.session id = some session →
    machine.run untilStart before (.shutdownAll order :: events ++ [.stop]) = some after →
    after.step .start = some next → (next.Candidate id ↔ session.childRunning = true)

private def serving : TerminalLifecycle :=
  (machine.run Machine.free {} [.start, .serve, .create 1, .launch 1]).get (by decide +kernel)

private def ended : TerminalLifecycle :=
  (machine.run untilStart serving (.shutdownAll [1] :: [.shutdown, .shutdown, .exit 1, .waitReturns 1 true, .readFlag 1,
    .endSession 1 true, .remove 1] ++ [.stop])).get (by decide +kernel)

/-- A session that nobody pinned runs when the shutdown begins, and is not respawned. -/
theorem unpinned_not_respawned : ¬ ∀ id, ExactCandidacy id := by
  intro exact
  have reached : machine.Reachable Machine.free serving := Machine.Reachable.start.run (Option.some_get _).symm
  have candidate := (exact 1 serving [1] ⟨1, false, true, true, false, true, .waiting⟩ _ ended _ reached
    (by decide +kernel) (Option.some_get _).symm (Option.some_get (by decide +kernel)).symm).mpr rfl
  revert candidate
  decide +kernel

end TerminalLifecycle
end Wisphive
