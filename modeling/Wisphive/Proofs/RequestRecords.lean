import Wisphive.Proofs.CommandRules
import Wisphive.Proofs.Tables

/-! From its admission until its deletion, the pending row of a connection is its own or
the log already tells of it. Whoever deletes it has logged what it selected. -/

namespace Wisphive
open Foundation Trace Database

variable {task : Nat} {trace : Trace} {id : Uuid}

namespace Trace

theorem admits_some {entry : Entry daemon} {holder : Nat} {req : DecisionRequest}
    (admits : admits id entry = some (holder, req)) :
    (∃ before channel, entry = .performed holder (.enqueue req) before (some channel)) ∧ req.id = id := by
  unfold Trace.admits at admits
  split at admits
  next =>
    split at admits
    next same =>
      cases admits
      exact ⟨⟨_, _, rfl⟩, same⟩
    next => cases admits
  next => cases admits

theorem deletes_some {entry : Entry daemon} (deletes : deletes id entry = some task) :
    ∃ before, entry = .performed task (.execute (.deletePending id)) before (.ok ()) := by
  unfold Trace.deletes at deletes
  split at deletes
  next =>
    split at deletes
    next same =>
      cases deletes
      subst same
      exact ⟨_, rfl⟩
    next => cases deletes
  next => cases deletes

theorem selects_some {entry : Entry daemon} {db : Database} (selects : selects task id entry = some db) :
    ∃ before found, entry = .performed task (.execute (.selectPending id)) before (.ok found) ∧ db = before.db := by
  unfold Trace.selects at selects
  split at selects
  next =>
    split at selects
    next same =>
      obtain ⟨rfl, rfl⟩ := same
      cases selects
      exact ⟨_, _, rfl, rfl⟩
    next => cases selects
  next => cases selects

/-- The holder of an id was admitted just now, or before and has not deleted its row. -/
theorem admission_cons {entry : Entry daemon} {holder : Nat} {req : DecisionRequest}
    (held : admission id (entry :: trace) = some (holder, req)) :
    admits id entry = some (holder, req) ∨
      admits id entry = none ∧ admission id trace = some (holder, req) ∧ deletes id entry ≠ some holder := by
  rw [admission] at held
  cases admitted : admits id entry with
  | some latest =>
    rw [admitted] at held
    exact .inl held
  | none =>
    rw [admitted] at held
    simp only at held
    split at held
    next => cases held
    next kept =>
      rw [held] at kept
      exact .inr ⟨rfl, held, fun deleted => kept deleted.symm⟩

/-- An admission lasts until another, or until its holder deletes its row. -/
theorem admission_kept {entry : Entry daemon} {holder : Nat} {req : DecisionRequest}
    (held : admission id trace = some (holder, req)) (unadmitted : admits id entry = none)
    (undeleted : deletes id entry ≠ some holder) : admission id (entry :: trace) = some (holder, req) := by
  have kept : (admission id trace).map (·.1) ≠ deletes id entry := by
    rw [held]
    exact fun same => undeleted same.symm
  rw [admission, unadmitted]
  simp only
  rw [if_neg kept, held]

theorem selection_cons {entry : Entry daemon} {db : Database} (selected : selection task id (entry :: trace) = some db) :
    selects task id entry = some db ∨ selection task id trace = some db := by
  rw [selection] at selected
  cases latest : selects task id entry with
  | some found =>
    rw [latest] at selected
    exact .inl selected
  | none =>
    rw [latest] at selected
    simp only at selected
    split at selected
    · cases selected
    · exact .inr selected

theorem selection_unselected (quiet : unselected id trace = true) (task : Nat) : selection task id trace = none := by
  by_cases fresh : Fresh task trace
  · rw [← selection_own, own_fresh fresh]
    rfl
  · simp only [Fresh, not_forall, not_not] at fresh
    obtain ⟨entry, member, mine⟩ := fresh
    have known := List.all_eq_true.mp quiet entry member
    rw [mine] at known
    simpa using known

theorem admitted_of {req : DecisionRequest} {channel : Channel} (known : Admitted task req channel trace) :
    admitted task trace = true := by
  obtain ⟨_, before, member⟩ := known
  exact List.any_eq_true.mpr ⟨_, member, decide_eq_true rfl⟩

theorem decided_of (known : decided task trace = true) : Decided task trace := by
  obtain ⟨entry, member, received⟩ := List.any_eq_true.mp known
  split at received
  next other channel before rich =>
    obtain ⟨same, chosen⟩ := Bool.and_eq_true_iff.mp received
    cases of_decide_eq_true same
    exact ⟨channel, rich, ⟨before, member⟩, by simpa using chosen⟩
  next => cases received

/-- A step that was taken now or before. -/
theorem Did.cases {request other : Request} {reply : request.Reply} {before : Shared} {answer : other.Reply}
    {holder : Nat} (did : Did task request reply (.performed holder other before answer :: trace)) :
    (Entry.performed holder other before answer : Entry daemon) = .performed task request before reply ∨
      Did task request reply trace := by
  obtain ⟨seen, member⟩ := did
  rcases List.mem_cons.mp member with same | old
  · cases same
    exact .inl rfl
  · exact .inr ⟨seen, old⟩

theorem Admitted.cases {request : Request} {reply : request.Reply} {before : Shared} {holder : Nat}
    {req : DecisionRequest} {channel : Channel}
    (admitted : Admitted task req channel (.performed holder request before reply :: trace)) :
    (Entry.performed holder request before reply : Entry daemon) = .performed task (.enqueue req) before (some channel) ∨
      Admitted task req channel trace := by
  obtain ⟨job, did⟩ := admitted
  rcases did.cases with same | earlier
  · exact .inl same
  · exact .inr ⟨job, earlier⟩

end Trace

/-- The pending row of a request, until the log tells of it. -/
def Database.Described (db : Database) (req : DecisionRequest) : Prop :=
  .ofRequest req ∈ db.pending ∨ db.tells (.ofRequest req) = true

/-- What holds of the admitted connections in every state. -/
structure Recorded (trace : Trace) (shared : Shared) : Prop where
  distinct : (shared.db.pending.map (·.id)).Nodup
  spawns : ∀ deleted, .deletePending deleted ∉ shared.inFlight
  owned : ∀ id holder req, admission id trace = some (holder, req) →
    req.id = id ∧ (PendingRow.ofRequest req).managed = false ∧ shared.db.Described req
  inserted : ∀ task row decision decidedBy written,
    Did task (.execute (.insertResolved row decision decidedBy)) (.ok written) trace → shared.db.tells row = true
  selected : ∀ task id db holder req, selection task id trace = some db → admission id trace = some (holder, req) →
    db.selectPending id = some (.ofRequest req) ∨ shared.db.tells (.ofRequest req) = true
  admitted : ∀ task req channel, Admitted task req channel trace →
    Did task (.execute (.deletePending req.id)) (.ok ()) trace ∨ admission req.id trace = some (task, req)
  waited : ∀ task channel waited, Did task (.wait channel) waited trace → ∃ req, Admitted task req channel trace
  decided : ∀ task req, jobOf task trace = some (.hook req) → Decided task trace →
    Did task (.execute (.deletePending req.id)) (.ok ()) trace → shared.db.tells (.ofRequest req) = true
  unfailed : ∀ task req channel, Admitted task req channel trace → ¬ Failed task trace

/-- A request that does not claim the daemon's provenance has an ordinary row. -/
theorem unmanaged_of_unreserved {req : DecisionRequest} (unreserved : isReservedInternalAgentId req.agentId = false) :
    (PendingRow.ofRequest req).managed = false := by
  have differ : req.agentId ≠ spawnDecisionAgentId := by
    intro same
    rw [same] at unreserved
    revert unreserved
    decide +kernel
  simp [PendingRow.managed, PendingRow.ofRequest, differ]

/-- What a step of a task changes of the tables. -/
structure Advance (before after : Shared) (entry : Entry daemon) : Prop where
  log : LogRow.Tells before.db.log after.db.log
  pending : ∀ row ∈ before.db.pending, row.managed = false →
    row ∈ after.db.pending ∨ ∃ task, entry = .performed task (.execute (.deletePending row.id)) before (.ok ())
  distinct : (after.db.pending.map (·.id)).Nodup

theorem Advance.described {before after : Shared} {entry : Entry daemon} (advance : Advance before after entry)
    {req : DecisionRequest} (ordinary : (PendingRow.ofRequest req).managed = false)
    (described : before.db.Described req) :
    after.db.Described req ∨ ∃ task, entry = .performed task (.execute (.deletePending req.id)) before (.ok ()) := by
  rcases described with member | told
  · rcases advance.pending _ member ordinary with kept | deleted
    · exact .inl (.inl kept)
    · exact .inr deleted
  · exact .inl (.inr (tells_kept advance.log told))

variable {shared after : Shared}

theorem advance_performed {choice : Choice} {request : Request} {reply : request.Reply}
    (distinct : (shared.db.pending.map (·.id)).Nodup)
    (performed : shared.perform choice request = some (reply, after))
    (timed : ∀ deleted, request ≠ .executeTimed (.deletePending deleted)) :
    Advance shared after (.performed task request shared reply) := by
  rcases Shared.perform_db performed with same | ⟨statement, value, executed, run⟩
  · rw [← same] at distinct
    exact ⟨same ▸ .refl _, fun _ member _ => .inl (same ▸ member), distinct⟩
  · obtain ⟨log, pending, kept⟩ := Statement.execute_keeps distinct executed
    refine ⟨log, fun row member ordinary => ?_, kept⟩
    by_cases deletes : statement = .deletePending row.id
    · subst deletes
      rcases run with entry | abandoned
      · exact .inr ⟨task, entry task⟩
      · exact absurd abandoned (timed row.id)
    · exact .inl (pending row member ordinary deletes)

theorem advance_drifted {drift : Drift} (distinct : (shared.db.pending.map (·.id)).Nodup)
    (spawns : ∀ deleted, .deletePending deleted ∉ shared.inFlight) (drifted : shared.drift drift = some after) :
    Advance shared after .drifted := by
  rcases (Shared.drift_db drifted).1 with same | ⟨statement, member, value, executed⟩
  · rw [← same] at distinct
    exact ⟨same ▸ .refl _, fun _ member _ => .inl (same ▸ member), distinct⟩
  · obtain ⟨log, pending, kept⟩ := Statement.execute_keeps distinct executed
    refine ⟨log, fun row present ordinary => .inl (pending row present ordinary fun deletes => ?_), kept⟩
    subst deletes
    exact spawns row.id member

namespace Recorded
variable (recorded : Recorded trace shared)
include recorded

/-- A task that may delete a row has nothing to delete, or the log tells of it. -/
theorem told_of_recording {req : DecisionRequest} {holder : Nat} (held : admission id trace = some (holder, req))
    (recording : Recording task id trace) : shared.db.tells (.ofRequest req) = true := by
  obtain ⟨db, selected, logged⟩ := recording
  rcases recorded.selected _ _ _ _ _ selected held with found | told
  · obtain ⟨decision, decidedBy, written, did⟩ := logged _ found
    exact recorded.inserted _ _ _ _ _ did
  · exact told

/-- A deferred request is its own holder. -/
theorem holder_of_deferred (deferred : Deferred task id trace) : ∃ req, admission id trace = some (task, req) := by
  obtain ⟨req, channel, admitted, rfl, _, undeleted⟩ := deferred
  exact ⟨req, (recorded.admitted _ _ _ admitted).resolve_left (undeleted _)⟩

/-- A row that is deleted is told of in the log, unless its own holder deletes it. -/
theorem described_step {request : Request} {reply : request.Reply}
    (rule : HandlerRule task (own task trace) request) (advance : Advance shared after (.performed task request shared reply))
    {holder : Nat} {req : DecisionRequest} (held : admission req.id trace = some (holder, req))
    (kept : deletes req.id (.performed task request shared reply) ≠ some holder) : after.db.Described req := by
  obtain ⟨_, ordinary, described⟩ := recorded.owned _ _ _ held
  rcases advance.described ordinary described with still | ⟨other, deleted⟩
  · exact still
  · cases deleted
    rcases rule with recording | deferred
    · exact .inr (tells_kept advance.log (recorded.told_of_recording held (recording_own.mp recording)))
    · obtain ⟨own, mine⟩ := recorded.holder_of_deferred (deferred_own.mp deferred)
      cases held.symm.trans mine
      exact absurd (by simp only [deletes, if_true]) kept

end Recorded

/-- What the guard asks of a step, and what the step is. -/
structure Granted (task : Nat) (request : Request) (reply : request.Reply) (trace : Trace) (shared after : Shared) :
    Prop where
  rule : HandlerRule task (own task trace) request
  granted : ∃ choice, recordsMeet.grants task choice request trace shared = true ∧
    shared.perform choice request = some (reply, after)

namespace Granted
variable {request : Request} {reply : request.Reply}

theorem advance (granted : Granted task request reply trace shared after)
    (distinct : (shared.db.pending.map (·.id)).Nodup) : Advance shared after (.performed task request shared reply) := by
  obtain ⟨rule, choice, _, performed⟩ := granted
  refine advance_performed distinct performed fun deleted same => ?_
  subst same
  exact rule

/-- A request is admitted over its own pending row, while nobody else has a part in its id. -/
theorem enqueue {req : DecisionRequest} {channel : Channel}
    (granted : Granted task (.enqueue req) (some channel) trace shared after) :
    .ofRequest req ∈ shared.db.pending ∧ (∀ other, selection other req.id trace = none) ∧
      admission req.id trace = none := by
  obtain ⟨_, choice, granted, performed⟩ := granted
  have accepted : (shared.queue.enqueue req).1 = some channel := congrArg Prod.fst (Option.some.inj performed)
  simp only [recordsMeet, accepted, Option.isNone_some, Bool.false_or, Bool.and_eq_true, decide_eq_true_eq,
    Option.isNone_iff_eq_none] at granted
  obtain ⟨⟨stored, quiet⟩, unheld⟩ := granted
  exact ⟨List.mem_of_find?_eq_some stored, selection_unselected quiet, unheld⟩

/-- A row that meets another one meets one that says the same. -/
theorem insertResolved {row : PendingRow} {decision : Decision} {decidedBy : String} {written : Bool}
    (granted : Granted task (.execute (.insertResolved row decision decidedBy)) (.ok written) trace shared after) :
    after.db.tells row = true := by
  obtain ⟨_, choice, granted, performed⟩ := granted
  obtain ⟨value, db, executed, _, rfl⟩ | ⟨error, failed, _⟩ := Shared.executes_cases performed
  · obtain rfl : (shared.db.insertLog (row.resolved decision decidedBy shared.wall)).2 = db :=
      congrArg Prod.snd (Option.some.inj executed)
    obtain ⟨meets, _⟩ := Bool.and_eq_true_iff.mp granted
    by_cases clear : Table.Clear LogRow.conflicts shared.db.log (row.resolved decision decidedBy shared.wall)
    · refine tells_iff.mpr ⟨_, ?_, resolved_tells row decision decidedBy shared.wall⟩
      rw [insertLog_log, Table.insertOrIgnore_clear clear]
      exact List.mem_append_right _ (List.mem_singleton.mpr rfl)
    · simp only [Table.Clear, not_forall, Bool.not_eq_false] at clear
      obtain ⟨logged, member, conflict⟩ := clear
      have said := List.all_eq_true.mp meets logged member
      rw [conflict] at said
      exact tells_iff.mpr ⟨logged, Table.mem_insertOrIgnore member, by simpa using said⟩
  · cases failed

/-- An admitted connection's statements do not fail. -/
theorem proceeds {statement : Statement} {error : String}
    (granted : Granted task (.execute statement) (.error error) trace shared after) (admitted : admitted task trace = true)
    (total : ∀ now db, statement.execute now db ≠ none) : False := by
  obtain ⟨_, choice, granted, performed⟩ := granted
  have proceeding : choice = .proceed := by
    cases statement with
    | insertResolved row decision decidedBy =>
      simpa [admitted] using (Bool.and_eq_true_iff.mp granted).2
    | _ => simpa [recordsMeet, admitted] using granted
  subst proceeding
  simp only [Shared.perform, Shared.executes] at performed
  split at performed
  next executed => cases performed
  next failed => exact total _ _ failed

end Granted

namespace Recorded
variable {request : Request} {reply : request.Reply} (recorded : Recorded trace shared)
  (granted : Granted task request reply trace shared after)
include recorded granted

theorem owned_step {id : Uuid} {holder : Nat} {req : DecisionRequest}
    (held : admission id (.performed task request shared reply :: trace) = some (holder, req)) :
    req.id = id ∧ (PendingRow.ofRequest req).managed = false ∧ after.db.Described req := by
  have advance := granted.advance recorded.distinct
  rcases admission_cons held with admits | ⟨_, before, undeleted⟩
  · obtain ⟨⟨seen, channel, same⟩, rfl⟩ := admits_some admits
    cases same
    obtain ⟨stored, _, _⟩ := granted.enqueue
    have ordinary := unmanaged_of_unreserved granted.rule.2.1
    refine ⟨rfl, ordinary, (advance.described ordinary (.inl stored)).resolve_right fun ⟨_, same⟩ => ?_⟩
    cases same
  · obtain ⟨rfl, ordinary, _⟩ := recorded.owned _ _ _ before
    exact ⟨rfl, ordinary, recorded.described_step granted.rule advance before undeleted⟩

theorem inserted_step {writer : Nat} {row : PendingRow} {decision : Decision} {decidedBy : String} {written : Bool}
    (did : Did writer (.execute (.insertResolved row decision decidedBy)) (.ok written)
      (.performed task request shared reply :: trace)) : after.db.tells row = true := by
  rcases did.cases with same | earlier
  · cases same
    exact granted.insertResolved
  · exact tells_kept (granted.advance recorded.distinct).log (recorded.inserted _ _ _ _ _ earlier)

theorem selected_step {reader : Nat} {id : Uuid} {db : Database} {holder : Nat} {req : DecisionRequest}
    (selected : selection reader id (.performed task request shared reply :: trace) = some db)
    (held : admission id (.performed task request shared reply :: trace) = some (holder, req)) :
    db.selectPending id = some (.ofRequest req) ∨ after.db.tells (.ofRequest req) = true := by
  have advance := granted.advance recorded.distinct
  rcases admission_cons held with admits | ⟨_, before, _⟩
  · obtain ⟨⟨seen, channel, same⟩, rfl⟩ := admits_some admits
    cases same
    obtain ⟨_, quiet, _⟩ := granted.enqueue
    rcases selection_cons selected with now | earlier
    · obtain ⟨_, _, same, _⟩ := selects_some now
      cases same
    · rw [quiet] at earlier
      cases earlier
  · rcases selection_cons selected with now | earlier
    · obtain ⟨_, _, same, rfl⟩ := selects_some now
      cases same
      obtain ⟨rfl, _, member | told⟩ := recorded.owned _ _ _ before
      · exact .inl (PendingRow.find_of_mem recorded.distinct member)
      · exact .inr (tells_kept advance.log told)
    · exact (recorded.selected _ _ _ _ _ earlier before).imp_right fun told => tells_kept advance.log told

theorem admitted_step {owner : Nat} {req : DecisionRequest} {channel : Channel}
    (admitted : Admitted owner req channel (.performed task request shared reply :: trace)) :
    Did owner (.execute (.deletePending req.id)) (.ok ()) (.performed task request shared reply :: trace) ∨
      admission req.id (.performed task request shared reply :: trace) = some (owner, req) := by
  rcases admitted.cases with same | earlier
  · cases same
    exact .inr (by simp only [admission, admits, if_true])
  · rcases recorded.admitted _ _ _ earlier with deleted | held
    · exact .inl (deleted.cons _)
    · by_cases deleting : deletes req.id (.performed task request shared reply) = some owner
      · obtain ⟨before, same⟩ := deletes_some deleting
        cases same
        exact .inl (did_now ..)
      · refine .inr (admission_kept held ?_ deleting)
        by_contra admitting
        obtain ⟨⟨holder, other⟩, admits⟩ := Option.ne_none_iff_exists'.mp admitting
        obtain ⟨⟨before, latest, same⟩, equal⟩ := admits_some admits
        cases same
        obtain ⟨_, _, unheld⟩ := granted.enqueue
        rw [equal, held] at unheld
        cases unheld

theorem waited_step {owner : Nat} {channel : Channel} {waited : Waited}
    (did : Did owner (.wait channel) waited (.performed task request shared reply :: trace)) :
    ∃ req, Admitted owner req channel (.performed task request shared reply :: trace) := by
  rcases did.cases with same | earlier
  · cases same
    obtain ⟨req, admitted⟩ := granted.rule.1
    obtain ⟨job, did⟩ := admitted_own.mp admitted
    exact ⟨req, job, did.cons _⟩
  · obtain ⟨req, job, did⟩ := recorded.waited _ _ _ earlier
    exact ⟨req, job, did.cons _⟩

/-- The log tells of a decided request when its connection deletes the pending row. -/
theorem decided_step {owner : Nat} {req : DecisionRequest} (job : jobOf owner trace = some (.hook req))
    (decided : Decided owner (.performed task request shared reply :: trace))
    (deleted : Did owner (.execute (.deletePending req.id)) (.ok ()) (.performed task request shared reply :: trace)) :
    after.db.tells (.ofRequest req) = true := by
  have advance := granted.advance recorded.distinct
  obtain ⟨channel, rich, waited, chosen⟩ := decided
  rcases deleted.cases with same | before
  · cases same
    have seen : Did task (.wait channel) (.resolved rich) trace := waited.earlier fun same => by cases same
    obtain ⟨other, admitted⟩ := recorded.waited _ _ _ seen
    cases job.symm.trans admitted.1
    rcases recorded.admitted _ _ _ admitted with again | held
    · exact tells_kept advance.log (recorded.decided _ _ job ⟨channel, rich, seen, chosen⟩ again)
    · rcases granted.rule with recording | deferred
      · exact tells_kept advance.log (recorded.told_of_recording held (recording_own.mp recording))
      · obtain ⟨_, _, _, _, undecided, _⟩ := deferred_own.mp deferred
        exact absurd ⟨channel, rich, seen, chosen⟩ undecided
  · rcases waited.cases with same | seen
    · cases same
      exact absurd (did_own.mpr before) (granted.rule.2 _ _)
    · exact tells_kept advance.log (recorded.decided _ _ job ⟨channel, rich, seen, chosen⟩ before)

theorem unfailed_step {owner : Nat} {req : DecisionRequest} {channel : Channel}
    (admitted : Admitted owner req channel (.performed task request shared reply :: trace)) :
    ¬ Failed owner (.performed task request shared reply :: trace) := by
  intro ⟨statement, error, failed, total⟩
  rcases admitted.cases with same | earlier
  · cases same
    have before : Did task (.execute statement) (.error error) trace := failed.earlier fun same => by cases same
    exact granted.rule.2.2 (failed_own.mpr ⟨statement, error, before, total⟩)
  · rcases failed.cases with same | before
    · cases same
      exact granted.proceeds (admitted_of earlier) total
    · exact recorded.unfailed _ _ _ earlier ⟨statement, error, before, total⟩

theorem performed : Recorded (.performed task request shared reply :: trace) after where
  distinct := (granted.advance recorded.distinct).distinct
  spawns deleted member := by
    obtain ⟨_, _, performed⟩ := granted.granted
    rcases Shared.perform_inFlight performed with same | ⟨statement, rfl, grown⟩
    · rw [same] at member
      exact recorded.spawns deleted member
    · rw [grown] at member
      rcases List.mem_append.mp member with before | now
      · exact recorded.spawns deleted before
      · cases List.mem_singleton.mp now
        exact granted.rule
  owned _ _ _ := recorded.owned_step granted
  inserted _ _ _ _ _ := recorded.inserted_step granted
  selected _ _ _ _ _ := recorded.selected_step granted
  admitted _ _ _ := recorded.admitted_step granted
  waited _ _ _ := recorded.waited_step granted
  decided _ _ := recorded.decided_step granted
  unfailed _ _ _ := recorded.unfailed_step granted

end Recorded

namespace Recorded
variable (recorded : Recorded trace shared)
include recorded

/-- An entry that is no step says nothing about an id. -/
theorem quiet {entry : Entry daemon} (advance : Advance shared after entry)
    (unperformed : ∀ task request before reply, entry ≠ .performed task request before reply)
    (spawns : ∀ deleted, .deletePending deleted ∉ after.inFlight)
    (job : ∀ {task request} {reply : request.Reply}, Did task request reply trace →
      jobOf task (entry :: trace) = jobOf task trace) : Recorded (entry :: trace) after := by
  have did {task : Nat} {request : Request} {reply : request.Reply} (did : Did task request reply (entry :: trace)) :
      Did task request reply trace := by
    obtain ⟨before, member⟩ := did
    rcases List.mem_cons.mp member with same | old
    · exact absurd same.symm (unperformed _ _ _ _)
    · exact ⟨before, old⟩
  have held {id : Uuid} {holder : Nat} {req : DecisionRequest}
      (held : admission id (entry :: trace) = some (holder, req)) : admission id trace = some (holder, req) := by
    rcases admission_cons held with admits | ⟨_, before, _⟩
    · obtain ⟨⟨_, _, same⟩, _⟩ := admits_some admits
      exact absurd same (unperformed _ _ _ _)
    · exact before
  have admitted {task : Nat} {req : DecisionRequest} {channel : Channel}
      (admitted : Admitted task req channel (entry :: trace)) : Admitted task req channel trace :=
    ⟨(job (did admitted.2)).symm.trans admitted.1, did admitted.2⟩
  refine ⟨advance.distinct, spawns, fun id holder req now => ?_, fun task row decision decidedBy written now => ?_,
    fun task id db holder req selecting now => ?_, fun task req channel now => ?_, fun task channel waited now => ?_,
    fun task req known ⟨channel, rich, waited, chosen⟩ deleted => ?_, fun task req channel now failed => ?_⟩
  · obtain ⟨rfl, ordinary, described⟩ := recorded.owned _ _ _ (held now)
    refine ⟨rfl, ordinary, (advance.described ordinary described).resolve_right fun ⟨_, same⟩ => ?_⟩
    exact unperformed _ _ _ _ same
  · exact tells_kept advance.log (recorded.inserted _ _ _ _ _ (did now))
  · rcases selection_cons selecting with selects | earlier
    · obtain ⟨_, _, same, _⟩ := selects_some selects
      exact absurd same (unperformed _ _ _ _)
    · exact (recorded.selected _ _ _ _ _ earlier (held now)).imp_right fun told => tells_kept advance.log told
  · rcases recorded.admitted _ _ _ (admitted now) with deleted | before
    · exact .inl (deleted.cons _)
    · refine .inr (admission_kept before ?_ ?_)
      · by_contra admitting
        obtain ⟨⟨_, _⟩, admits⟩ := Option.ne_none_iff_exists'.mp admitting
        obtain ⟨⟨_, _, same⟩, _⟩ := admits_some admits
        exact unperformed _ _ _ _ same
      · intro deletes
        obtain ⟨_, same⟩ := deletes_some deletes
        exact unperformed _ _ _ _ same
  · obtain ⟨req, known, queued⟩ := recorded.waited _ _ _ (did now)
    exact ⟨req, (job queued).trans known, queued.cons _⟩
  · have known : jobOf task trace = some (.hook req) := (job (did waited)).symm.trans known
    exact tells_kept advance.log (recorded.decided _ _ known ⟨channel, rich, did waited, chosen⟩ (did deleted))
  · obtain ⟨statement, error, did', total⟩ := failed
    exact recorded.unfailed _ _ _ (admitted now) ⟨statement, error, did did', total⟩

theorem launched {job : Job} (fresh : Fresh task trace) : Recorded (.launched task job :: trace) shared := by
  refine recorded.quiet ⟨.refl _, fun _ member _ => .inl member, recorded.distinct⟩ (fun _ _ _ _ same => by cases same)
    recorded.spawns fun {other request reply} ⟨before, member⟩ => ?_
  refine jobOf_cons trace fun launched same => ?_
  cases same
  exact fresh _ member rfl

theorem drifted {drift : Drift} (moved : shared.drift drift = some after) : Recorded (.drifted :: trace) after :=
  recorded.quiet (advance_drifted recorded.distinct recorded.spawns moved) (fun _ _ _ _ same => by cases same)
    (fun deleted member => recorded.spawns deleted ((Shared.drift_db moved).2 _ member)) fun _ => rfl

end Recorded

theorem Recorded.start {db : Database} (distinct : (db.pending.map (·.id)).Nodup) : Recorded [] { db } where
  distinct := distinct
  spawns _ member := nomatch member
  owned _ _ _ held := nomatch held
  inserted _ _ _ _ _ did := nomatch did.choose_spec
  selected _ _ _ _ _ selected := nomatch selected
  admitted _ _ _ admitted := nomatch admitted.1
  waited _ _ _ did := nomatch did.choose_spec
  decided _ _ job := nomatch job
  unfailed _ _ _ admitted := nomatch admitted.1

/-- What is kept about admitted connections, and that a hook ends settled. -/
def recordContract : Contract daemon where
  valid := Recorded
  may task request trace _ := HandlerRule task (own task trace) request
  done task trace := HookSettled task (own task trace)

theorem recordContract_lawful {db : Database} (distinct : (db.pending.map (·.id)).Nodup) :
    Lawful recordsMeet recordContract { db } where
  start := .start distinct
  launch _ _ _ _ recorded _ fresh := recorded.launched fresh
  step _ choice _ _ _ _ _ recorded rule granted performed := recorded.performed ⟨rule, choice, granted, performed⟩
  drift _ _ _ _ recorded moved := recorded.drifted moved
  bodies _ _ _ _ fresh := body_kept fresh (fun _ _ _ _ rule => rule) fun _ settled => settled

/-- Whatever the tables hold when the daemon starts: as long as each admission finds the connection's
own row pending and the id free, each decided request ends with an audit row of its own. -/
theorem decided_requests_audited {db : Database} (distinct : (db.pending.map (·.id)).Nodup) {system : System daemon}
    (reached : (System.machine daemon { db }).Reachable (System.Meets recordsMeet) system) : RequestsAudited system := by
  intro task req job decided finished
  have kept := (recordContract_lawful distinct).kept reached
  have recorded : Recorded system.trace system.shared := kept.valid
  have received := decided_of decided
  obtain ⟨channel, rich, waited, chosen⟩ := received
  obtain ⟨other, admitted⟩ := recorded.waited _ _ _ waited
  cases job.symm.trans admitted.1
  unfold Wisphive.finished at finished
  split at finished
  next ended =>
    obtain ⟨earlier, grown, settled⟩ := kept.safe task _ ended
    have settled : HookSettled task (own task earlier) := settled
    rw [← own_extends grown] at settled
    rcases settled req ((jobOf_own _).trans job) (decided_own.mpr ⟨channel, rich, waited, chosen⟩) with deleted | failed
    · exact recorded.decided _ _ job ⟨channel, rich, waited, chosen⟩ (did_own.mp deleted)
    · exact absurd (failed_own.mp failed) (recorded.unfailed _ _ _ admitted)
  next => cases finished

private def toolRequest (toolName : String) : DecisionRequest where
  id := 7
  agentId := "cc-1"
  agentType := .claudeCode
  project := ⟨"/work"⟩
  toolName
  toolInput := .object []
  timestamp := 0

private def approveFromTerminal : Job :=
  .command { body := .approve 7 none none false none }

/-- A connection is admitted, an approval from the terminal is recorded by its command,
and the connection finishes. -/
private def approvedConnection (hook command : Nat) (toolName : String) (recording : List (Event daemon)) :
    List (Event daemon) :=
  [.launch (.hook (toolRequest toolName)), .advance hook .proceed, .advance hook .proceed, .advance hook .proceed,
    .launch approveFromTerminal, .advance command .proceed, .advance command .proceed] ++ recording ++
    [.advance hook .proceed, .advance hook .proceed, .advance hook .proceed, .advance hook .proceed]

/-- The three statements of a command. -/
private def recordedBy (command : Nat) : List (Event daemon) :=
  [.advance command .proceed, .advance command .proceed, .advance command .proceed]

/-- A row of an earlier connection, which nobody took care of. -/
private def leftBehind : Database where
  pending := [.ofRequest { toolRequest "Read" with id := 3 }]

theorem decided_requests_audited_once :
    RequestsAudited (((System.machine daemon { db := leftBehind }).run (System.Meets recordsMeet) { shared := { db := leftBehind } }
      (approvedConnection 0 1 "Bash" (recordedBy 1))).get (by decide +kernel)) :=
  decided_requests_audited (by decide) (Machine.Reachable.start.run (Option.some_get _).symm)

/-- A second connection presents the id of a request that was decided before. Its own
decision leaves no row, since the first one's row has the id. -/
theorem reused_id_unaudited :
    ¬ RequestsAudited (((System.machine daemon {}).run Machine.free { shared := {} }
      (approvedConnection 0 1 "Bash" (recordedBy 1) ++ approvedConnection 2 3 "Write" (recordedBy 3))).get
        (by decide +kernel)) := by
  intro audited
  have told := audited 2 (toolRequest "Write") (by decide +kernel) (by decide +kernel) (by decide +kernel)
  revert told
  decide +kernel

end Wisphive
