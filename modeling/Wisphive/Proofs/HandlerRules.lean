import Wisphive.DaemonRuns
import Wisphive.Foundation.Rules
import Wisphive.Proofs.Footprints

/-! The rules that the handlers follow: what each may ask for on account of what it did
before. -/

namespace Wisphive
open Foundation Program

namespace Trace

/-- A step that a task took, with its reply. -/
def Did (task : Nat) (request : Request) (reply : request.Reply) (past : Trace) : Prop :=
  ∃ before, .performed task request before reply ∈ past

/-- A statement that a task ran failed, and had no error of its own. -/
def Failed (task : Nat) (past : Trace) : Prop :=
  ∃ statement error, Did task (.execute statement) (.error error) past ∧
    ∀ now db, statement.execute now db ≠ none

/-- A decision other than a deferral was received. -/
def Decided (task : Nat) (past : Trace) : Prop :=
  ∃ channel rich, Did task (.wait channel) (.resolved rich) past ∧ rich.decision ≠ .ask

/-- The connection of a hook whose request was admitted. -/
def Admitted (task : Nat) (req : DecisionRequest) (channel : Channel) (past : Trace) : Prop :=
  jobOf task past = some (.hook req) ∧ Did task (.enqueue req) (some channel) past

/-- The worker of a managed spawn that was queued. -/
def Queued (task : Nat) (req : DecisionRequest) (channel : Channel) (past : Trace) : Prop :=
  Did task (.enqueueManagedSpawn req) (some channel) past

/-- The claims that tasks hold, each with its holder. -/
def heldClaims : Trace → List (Nat × ClaimedDecision)
  | [] => []
  | .performed task (.claim _ _) _ (.claimed held) :: earlier => heldClaims earlier ++ [(task, held)]
  | .performed task (.completeClaim held _) _ _ :: earlier => (heldClaims earlier).erase (task, held)
  | _ :: earlier => heldClaims earlier

/-- What entitles a hook to record a decision: it received it, or it finalized its
request so. -/
def Finalized (task : Nat) (id : Uuid) (decision : Decision) (past : Trace) : Prop :=
  ∃ req channel, Admitted task req channel past ∧ req.id = id ∧
    ((∃ rich, Did task (.wait channel) (.resolved rich) past ∧ rich.decision = decision) ∨
      ∃ removed, Did task (.finalizeLocal id decision) removed past)

/-- What entitles a command to record a decision: it resolved the id so. The approval
of a permission only tried to, on an item with suggestions. -/
def Resolved (task : Nat) (id : Uuid) (decision : Decision) (past : Trace) : Prop :=
  (∃ rich, Did task (.resolve id rich) true past ∧ rich.decision = decision) ∨
  (∃ ids rich resolved, id ∈ resolved ∧ rich.decision = decision ∧
    (Did task (.resolveListed ids rich) resolved past ∨ Did task (.resolveOrdinary ids rich) resolved past)) ∨
  (∃ filter resolver resolved, id ∈ resolved ∧ Did task (.resolveAll filter decision resolver) resolved past) ∨
  ∃ command suggestionIndex message pending managed rich resolved, jobOf task past = some (.command command) ∧
    command.body = .approvePermission id suggestionIndex message ∧
    Did task (.inspect id) (some pending, managed) past ∧ pending.permissionSuggestions.isSome = true ∧
    Did task (.resolve id rich) resolved past ∧ rich.decision = decision ∧ decision = .approve

def Entitled (task : Nat) (id : Uuid) (decision : Decision) (past : Trace) : Prop :=
  Finalized task id decision past ∨ (∃ command, jobOf task past = some (.command command)) ∧ Resolved task id decision past

/-- The row that was selected, if any, was logged. -/
def Recording (task : Nat) (id : Uuid) (past : Trace) : Prop :=
  ∃ db, selection task id past = some db ∧ ∀ row, db.selectPending id = some row →
    ∃ decision decidedBy inserted, Did task (.execute (.insertResolved row decision decidedBy)) (.ok inserted) past

/-- A hook whose request was deferred, and is still stored. -/
def Deferred (task : Nat) (id : Uuid) (past : Trace) : Prop :=
  ∃ req channel, Admitted task req channel past ∧ req.id = id ∧ ¬ Decided task past ∧
    ∀ reply, ¬ Did task (.execute (.deletePending id)) reply past

/-- No denial of a managed spawn was asked for. -/
def Unforced (task : Nat) (past : Trace) : Prop :=
  ∀ id decidedBy fallback,
    (∀ reply, ¬ Did task (.execute (.forceFailclosedSpawnResolution id decidedBy fallback)) reply past) ∧
    ∀ reply, ¬ Did task (.executeTimed (.forceFailclosedSpawnResolution id decidedBy fallback)) reply past

/-- The approval of a claimed spawn was committed with the request that it carries. -/
def Committed (task : Nat) (id : Uuid) (rich : RichDecision) (past : Trace) : Prop :=
  ∃ reviewed decidedBy, Did task (.executeTimed (.resolveSpawnPendingBy id reviewed decidedBy)) (.ok true) past ∧
    rich.updatedInput = some reviewed.toValue ∧ Unforced task past

/-- A claim that was completed without an approval. -/
def Refused (task : Nat) (fallback : DecisionRequest) (past : Trace) : Prop :=
  ∃ held rich, held.request = fallback ∧ rich.decision ≠ .approve ∧ Did task (.completeClaim held rich) () past

/-- A worker whose channel was closed without a decision. -/
def Abandoned (task : Nat) (id : Uuid) (past : Trace) : Prop :=
  ∃ req channel, Queued task req channel past ∧ req.id = id ∧ Did task (.receive channel) none past

/-- The launch that an approval asks for. -/
def Approved (task : Nat) (launched : SpawnAgentRequest) (past : Trace) : Prop :=
  ∃ req channel rich edited, Queued task req channel past ∧ Did task (.receive channel) (some rich) past ∧
    rich.decision = .approve ∧ (∀ input, rich.updatedInput = some input → decodeCompleteSpawnInput input = .ok edited) ∧
    launched = { edited with project := launched.project }

end Trace

/-- The daemon's own provenance, on a request that suggests no permissions. -/
def DecisionRequest.OfSpawn (req : DecisionRequest) : Prop :=
  req.agentId = spawnDecisionAgentId ∧ req.toolName = spawnDecisionTool ∧ req.permissionSuggestions = none

open Trace in
/-- What a task may ask for, given what it did before. -/
def HandlerRule (task : Nat) (past : Trace) : Request → Prop
  | .enqueue req => jobOf task past = some (.hook req) ∧ isReservedInternalAgentId req.agentId = false ∧
      ¬ Failed task past
  | .wait channel => (∃ req, Admitted task req channel past) ∧
      ∀ id reply, ¬ Did task (.execute (.deletePending id)) reply past
  | .finalizeLocal id decision => (∃ req channel, Admitted task req channel past ∧ req.id = id) ∨
      decision = .deny ∧ Abandoned task id past
  | .newV4 => ∀ id, ¬ Did task .newV4 id past
  | .enqueueManagedSpawn req => req.OfSpawn ∧ Did task .newV4 req.id past ∧
      ∀ other channel, ¬ Did task (.enqueueManagedSpawn other) channel past
  | .receive channel => ∃ req, Queued task req channel past
  | .spawnAgent launched => Approved task launched past ∧ ∀ other reply, ¬ Did task (.spawnAgent other) reply past
  | .completeClaim held rich => (task, held) ∈ heldClaims past ∧
      (rich.decision = .approve → Committed task held.request.id rich past)
  | .execute (.persistPending req) =>
      jobOf task past = some (.hook req) ∧ isReservedInternalAgentId req.agentId = false ∨
      Did task .newV4 req.id past ∧ ∀ other channel, ¬ Did task (.enqueueManagedSpawn other) channel past
  | .execute (.insertResolved row decision _) => Did task (.execute (.selectPending row.id)) (.ok (some row)) past ∧
      Entitled task row.id decision past
  | .execute (.deletePending id) => Recording task id past ∨ Deferred task id past
  | .execute (.forceFailclosedSpawnResolution id _ fallback) => fallback.id = id ∧
      (Refused task fallback past ∨ Abandoned task id past)
  | .execute (.resolveSpawnPendingBy ..) => False
  | .executeTimed (.resolveSpawnPendingBy id _ _) => ∃ held, (task, held) ∈ heldClaims past ∧ held.request.id = id
  | .executeTimed (.deleteManagedSpawnPending id) => ∃ held, (task, held) ∈ heldClaims past ∧ held.request.id = id
  | .executeTimed (.forceFailclosedSpawnResolution id _ fallback) =>
      ∃ held, (task, held) ∈ heldClaims past ∧ held.request = fallback ∧ fallback.id = id
  | .executeTimed _ => False
  | _ => True

/-- A hook that received a decision is finished once it has deleted its pending row, or
when a statement failed. -/
def HookSettled (task : Nat) (past : Trace) : Prop :=
  ∀ req, Trace.jobOf task past = some (.hook req) → Trace.Decided task past →
    Trace.Did task (.execute (.deletePending req.id)) (.ok ()) past ∨ Trace.Failed task past

variable {task : Nat} {past current : Trace} {allowed : Request → Prop}

namespace Trace

theorem Did.later {request : Request} {reply : request.Reply} (did : Did task request reply past)
    (later : Continues allowed task past current) : Did task request reply current := by
  obtain ⟨before, member⟩ := did
  exact ⟨before, later.mem member⟩

theorem did_now (task : Nat) (request : Request) (before : Shared) (reply : request.Reply) (past : Trace) :
    Did task request reply (.performed task request before reply :: past) :=
  ⟨before, List.mem_cons_self ..⟩

theorem Did.cons {request : Request} {reply : request.Reply} (did : Did task request reply past)
    (entry : Entry daemon) : Did task request reply (entry :: past) := by
  obtain ⟨before, member⟩ := did
  exact ⟨before, List.mem_cons_of_mem _ member⟩

/-- A step of another kind does not count. -/
theorem Did.earlier {request other : Request} {reply : request.Reply} {before : Shared} {answer : other.Reply}
    (did : Did task request reply (.performed task other before answer :: past)) (differ : request ≠ other) :
    Did task request reply past := by
  obtain ⟨seen, member⟩ := did
  rcases List.mem_cons.mp member with same | old
  · cases same
    exact absurd rfl differ
  · exact ⟨seen, old⟩

/-- What a footprint does not allow was done before. -/
theorem Did.new {request : Request} {reply : request.Reply} (did : Did task request reply current)
    (later : Continues allowed task past current) (forbidden : ¬ allowed request) :
    Did task request reply past := by
  obtain ⟨before, member⟩ := did
  exact ⟨before, (later.new member).resolve_right forbidden⟩

theorem jobOf_later (later : Continues allowed task past current) : jobOf task current = jobOf task past := by
  obtain ⟨steps, rfl, listed⟩ := later
  induction steps with
  | nil => rfl
  | cons entry rest ih =>
    obtain ⟨_, _, _, rfl, _⟩ := listed entry (List.mem_cons_self ..)
    exact ih fun other member => listed other (List.mem_cons_of_mem _ member)

theorem Admitted.later {req : DecisionRequest} {channel : Channel} (admitted : Admitted task req channel past)
    (later : Continues allowed task past current) : Admitted task req channel current :=
  ⟨(jobOf_later later).trans admitted.1, admitted.2.later later⟩

theorem Finalized.later {id : Uuid} {decision : Decision} (finalized : Finalized task id decision past)
    (later : Continues allowed task past current) : Finalized task id decision current := by
  obtain ⟨req, channel, admitted, same, ⟨rich, waited, chosen⟩ | ⟨removed, done⟩⟩ := finalized
  · exact ⟨req, channel, admitted.later later, same, .inl ⟨rich, waited.later later, chosen⟩⟩
  · exact ⟨req, channel, admitted.later later, same, .inr ⟨removed, done.later later⟩⟩

theorem Resolved.later {id : Uuid} {decision : Decision} (resolved : Resolved task id decision past)
    (later : Continues allowed task past current) : Resolved task id decision current := by
  rcases resolved with ⟨rich, did, chosen⟩ | ⟨ids, rich, listed, member, chosen, did | did⟩ |
    ⟨filter, resolver, listed, member, did⟩ |
    ⟨command, index, message, pending, managed, rich, answer, job, body, looked, suggested, did, chosen, approved⟩
  · exact .inl ⟨rich, did.later later, chosen⟩
  · exact .inr (.inl ⟨ids, rich, listed, member, chosen, .inl (did.later later)⟩)
  · exact .inr (.inl ⟨ids, rich, listed, member, chosen, .inr (did.later later)⟩)
  · exact .inr (.inr (.inl ⟨filter, resolver, listed, member, did.later later⟩))
  · exact .inr (.inr (.inr ⟨command, index, message, pending, managed, rich, answer, (jobOf_later later).trans job,
      body, looked.later later, suggested, did.later later, chosen, approved⟩))

theorem Entitled.later {id : Uuid} {decision : Decision} (entitled : Entitled task id decision past)
    (later : Continues allowed task past current) : Entitled task id decision current := by
  rcases entitled with finalized | ⟨⟨command, job⟩, resolved⟩
  · exact .inl (finalized.later later)
  · exact .inr ⟨⟨command, (jobOf_later later).trans job⟩, resolved.later later⟩

theorem Entitled.cons {id : Uuid} {decision : Decision} (entitled : Entitled task id decision past)
    {request : Request} {before : Shared} {reply : request.Reply} :
    Entitled task id decision (.performed task request before reply :: past) :=
  entitled.later (Continues.one before reply trivial : Continues (fun _ => True) task past _)

end Trace

open Trace

/-- How the record of a decision ends. -/
def RecordEnds (task : Nat) (id : Uuid) (current : Trace) : Except String Unit → Prop
  | .ok () => Did task (.execute (.deletePending id)) (.ok ()) current
  | .error _ => Failed task current

/-- A footprint of the daemon's steps. -/
theorem obeys_continues {rule : Trace → Request → Prop} {α : Type} {post : α → Trace → Prop} {returns : α → Prop}
    {program : Daemon α} (obeys : Obeys rule task post program past)
    (uses : program.Uses allowed Request.Possible returns) :
    Obeys rule task (fun value current => post value current ∧ returns value ∧ Continues allowed task past current)
      program past :=
  obeys.continues (fun _ _ _ _ _ => Shared.perform_possible) uses

/-- Whoever is entitled to record a decision may run the three statements. -/
theorem resolvePendingBy_obeys {id : Uuid} {decision : Decision} (entitled : Entitled task id decision past)
    (decidedBy : String) :
    Obeys (HandlerRule task) task (fun result current =>
      RecordEnds task id current result ∧ True ∧ Continues (RecordStep id decision decidedBy) task past current)
      (resolvePendingBy id decision decidedBy) past := by
  apply obeys_continues _ (resolvePendingBy_uses id decision decidedBy)
  have finish {steps : Trace} (recording : Recording task id steps) :
      Obeys (HandlerRule task) task (fun result current => RecordEnds task id current result)
        (execute (.deletePending id)) steps := by
    refine obeys_request (.inl recording) fun choice before reply after performed => ?_
    cases reply with
    | error error => exact ⟨_, error, did_now .., fun _ _ same => by cases same⟩
    | ok _ => exact did_now ..
  refine obeys_request trivial fun choice before selected after performed => ?_
  match selected, performed with
  | .error error, _ => exact ⟨_, error, did_now .., fun _ _ same => by cases same⟩
  | .ok found, performed =>
    have read : found = before.db.selectPending id := by
      rcases Shared.executes_cases performed with ⟨value, db, executed, same, _⟩ | ⟨error, same, _⟩
      · cases same
        cases executed
        rfl
      · cases same
    have selects : selection task id (.performed task (.execute (.selectPending id)) before (.ok found) :: past) =
        some before.db := by
      simp only [selection, selects, and_self, if_true]
    cases found with
    | none =>
      refine finish ⟨before.db, selects, fun row selected => ?_⟩
      cases read.trans selected
    | some row =>
      have same : row.id = id := Database.selectPending_id read.symm
      subst same
      refine obeys_request ?_ fun choice seen inserted after stored => ?_
      · exact ⟨did_now .., entitled.cons⟩
      cases inserted with
      | error error => exact ⟨_, error, did_now .., fun _ _ same => by cases same⟩
      | ok written =>
        refine finish ⟨before.db, selects, fun other selected => ?_⟩
        cases read.trans selected
        exact ⟨decision, decidedBy, written, did_now ..⟩

namespace Trace

/-- Nothing that a record asks for is a wait. -/
theorem Decided.recorded {id : Uuid} {decision : Decision} {decidedBy : String} (decided : Decided task current)
    (later : Continues (RecordStep id decision decidedBy) task past current) : Decided task past := by
  obtain ⟨channel, rich, waited, chosen⟩ := decided
  exact ⟨channel, rich, waited.new later fun step => step, chosen⟩

theorem Decided.earlier {request : Request} {before : Shared} {reply : request.Reply}
    (decided : Decided task (.performed task request before reply :: past)) (other : ∀ channel, request ≠ .wait channel) :
    Decided task past := by
  obtain ⟨channel, rich, waited, chosen⟩ := decided
  exact ⟨channel, rich, waited.earlier fun same => other channel same.symm, chosen⟩

theorem undecided_step (undecided : ¬ Decided task past) (request : Request) (before : Shared)
    (reply : request.Reply) (other : ∀ channel, request ≠ .wait channel) :
    ¬ Decided task (.performed task request before reply :: past) :=
  fun decided => undecided (decided.earlier other)

end Trace

/-- A connection that received no decision, or none but a deferral, owes nothing. -/
theorem HookSettled.of_undecided (undecided : ¬ Decided task past) : HookSettled task past :=
  fun _ _ decided => absurd decided undecided

theorem answerHook_obeys {rich : RichDecision} {decidedBy : String} {req : DecisionRequest} {channel : Channel}
    (admitted : Admitted task req channel past)
    (deferred : rich.decision = .ask → ¬ Decided task past ∧ ∀ id reply, ¬ Did task (.execute (.deletePending id)) reply past)
    (finalized : rich.decision ≠ .ask → Finalized task req.id rich.decision past) :
    Obeys (HandlerRule task) task (fun _ => HookSettled task) (answerHook req.id rich decidedBy) past := by
  unfold answerHook
  split
  next asked =>
    obtain ⟨undecided, undeleted⟩ := deferred asked
    refine obeys_ask (.inr ⟨req, channel, admitted, rfl, undecided, undeleted req.id⟩) fun _ before recorded _ _ => ?_
    have still : ¬ Decided task (.performed task (.execute (.deletePending req.id)) before recorded :: past) :=
      fun decided => undecided (decided.earlier fun _ same => by cases same)
    cases recorded with
    | error error => exact .of_undecided still
    | ok _ =>
      refine obeys_request trivial fun _ _ _ _ _ => HookSettled.of_undecided fun decided => still ?_
      exact decided.earlier fun _ same => by cases same
  next answered =>
    refine obeys_bind (resolvePendingBy_obeys (.inl (finalized answered)) decidedBy) ?_
    intro recorded current ⟨ended, _, later⟩
    cases recorded with
    | error error => exact fun _ _ _ => .inr ended
    | ok _ =>
      refine obeys_request trivial fun _ before _ _ _ => fun other known _ => .inl ?_
      cases admitted.1.symm.trans ((jobOf_later later).symm.trans known)
      exact Did.cons ended _

theorem settleHook_obeys {req : DecisionRequest} {channel : Channel} {waited : Waited}
    (admitted : Admitted task req channel past) (did : Did task (.wait channel) waited past)
    (undecided : (∀ rich, waited = .resolved rich → rich.decision = .ask) → ¬ Decided task past)
    (undeleted : ∀ id reply, ¬ Did task (.execute (.deletePending id)) reply past) :
    Obeys (HandlerRule task) task (fun _ => HookSettled task) (settleHook req.id waited) past := by
  cases waited with
  | resolved rich =>
    refine answerHook_obeys admitted (fun asked => ⟨undecided fun _ same => ?_, undeleted⟩) fun _ => ?_
    · cases same
      exact asked
    exact ⟨req, channel, admitted, rfl, .inl ⟨rich, did, rfl⟩⟩
  | channelDropped =>
    refine obeys_ask (.inl ⟨req, channel, admitted, rfl⟩) fun _ before removed _ _ => ?_
    refine answerHook_obeys ⟨admitted.1, admitted.2.cons _⟩ (fun asked => by cases asked) fun _ => ?_
    exact ⟨req, channel, ⟨admitted.1, admitted.2.cons _⟩, rfl, .inr ⟨removed, did_now ..⟩⟩
  | timedOut =>
    refine obeys_ask (.inl ⟨req, channel, admitted, rfl⟩) fun _ before removed _ _ => ?_
    refine answerHook_obeys ⟨admitted.1, admitted.2.cons _⟩ (fun asked => by cases asked) fun _ => ?_
    exact ⟨req, channel, ⟨admitted.1, admitted.2.cons _⟩, rfl, .inr ⟨removed, did_now ..⟩⟩
  | disconnected =>
    have quiet := undecided fun _ same => by cases same
    refine obeys_ask (.inl ⟨req, channel, admitted, rfl⟩) fun _ before removed _ _ => ?_
    have finalized : Finalized task req.id .deny
        (.performed task (.finalizeLocal req.id .deny) before removed :: past) :=
      ⟨req, channel, ⟨admitted.1, admitted.2.cons _⟩, rfl, .inr ⟨removed, did_now ..⟩⟩
    refine obeys_bind (resolvePendingBy_obeys (.inl finalized) _) fun recorded current ⟨_, _, later⟩ => ?_
    refine HookSettled.of_undecided fun decided => quiet ?_
    exact (decided.recorded later).earlier fun _ same => by cases same

/-- Nothing that the connection of a hook does before its wait is a wait or fails. -/
theorem handleHook_obeys (req : DecisionRequest) :
    Obeys (HandlerRule task) task (fun _ => HookSettled task) (handleHook req) [.launched task (.hook req)] := by
  have fresh : ¬ Decided task [.launched task (.hook req)] := by
    intro ⟨channel, rich, ⟨before, member⟩, _⟩
    cases List.mem_singleton.mp member
  have job : jobOf task [.launched task (.hook req)] = some (.hook req) := jobOf_launched ..
  have rejected (past : Trace) (undecided : ¬ Decided task past) (message : ServerMessage) :
      Obeys (HandlerRule task) task (fun _ => HookSettled task)
        (do let _ ← writeMsg message : Daemon Unit) past :=
    obeys_request trivial fun _ before reply _ _ => HookSettled.of_undecided <|
      undecided_step undecided (.write message) before reply fun _ same => by cases same
  unfold handleHook
  split
  · exact rejected _ fresh _
  next unreserved =>
  split
  · exact rejected _ fresh _
  refine obeys_ask trivial fun _ mode denial _ _ => ?_
  have undenied := undecided_step fresh .modeDenial mode denial fun _ same => by cases same
  cases denial with
  | some reason => exact rejected _ undenied _
  | none =>
    refine obeys_ask (.inl ⟨job, by simpa using unreserved⟩) fun _ stored persisted _ _ => ?_
    have unstored := undecided_step undenied (.execute (.persistPending req)) stored persisted fun _ same => by cases same
    cases persisted with
    | error error => exact .of_undecided unstored
    | ok _ =>
      refine obeys_ask ⟨job, by simpa using unreserved, ?_⟩ fun _ queue admitted _ _ => ?_
      · intro ⟨statement, error, ⟨before, member⟩, _⟩
        rcases List.mem_cons.mp member with same | old
        · cases same
        · simp at old
      have unadmitted := undecided_step unstored (.enqueue req) queue admitted fun _ same => by cases same
      cases admitted with
      | none => exact rejected _ unadmitted _
      | some channel =>
        refine obeys_ask ⟨⟨req, job, did_now ..⟩, ?_⟩ fun _ before waited _ _ => ?_
        · intro id reply ⟨before, member⟩
          simp at member
        · refine settleHook_obeys ⟨job, (did_now ..).cons _⟩ (did_now ..) (fun deferred decided => ?_)
            fun id reply ⟨before, member⟩ => by simp at member
          obtain ⟨other, rich, ⟨seen, member⟩, chosen⟩ := decided
          rcases List.mem_cons.mp member with same | old
          · cases same
            exact chosen (deferred rich rfl)
          · exact unadmitted ⟨other, rich, ⟨seen, old⟩, chosen⟩

namespace Trace
variable {trace : Trace}

theorem did_own {request : Request} {reply : request.Reply} :
    Did task request reply (own task trace) ↔ Did task request reply trace :=
  exists_congr fun _ => mem_own.trans (and_iff_left rfl)

theorem jobOf_own (trace : Trace) : jobOf task (own task trace) = jobOf task trace := by
  induction trace with
  | nil => rfl
  | cons entry earlier ih =>
    by_cases mine : entry.task = some task
    · rw [own_cons mine]
      cases entry with
      | launched other job =>
        cases mine
        simp only [jobOf, if_true]
      | performed | drifted => exact ih
    · rw [own_foreign mine, ih, jobOf_cons earlier fun job same => mine (by rw [same]; rfl)]

theorem admitted_own {req : DecisionRequest} {channel : Channel} :
    Admitted task req channel (own task trace) ↔ Admitted task req channel trace := by
  rw [Admitted, Admitted, jobOf_own, did_own]

theorem decided_own : Decided task (own task trace) ↔ Decided task trace := by
  simp only [Decided, did_own]

theorem failed_own : Failed task (own task trace) ↔ Failed task trace := by
  simp only [Failed, did_own]

/-- The entries of others select nothing and conclude nothing. -/
theorem selection_foreign {entry : Entry daemon} {id : Uuid} (foreign : entry.task ≠ some task) (trace : Trace) :
    selection task id (entry :: trace) = selection task id trace := by
  cases entry with
  | launched | drifted => rfl
  | performed other request before reply =>
    have differ : other ≠ task := fun same => foreign (congrArg some same)
    have unselected : selects task id (.performed other request before reply) = none := by
      unfold selects
      split
      next same =>
        cases same
        simp only [differ, false_and, if_false]
      next => rfl
    have open_ : concludes task id (.performed other request before reply) = false := by
      unfold concludes
      split
      next same =>
        cases same
        simp [differ]
      next same =>
        cases same
        simp [differ]
      next => rfl
    simp only [selection, unselected, open_, Bool.false_eq_true, if_false]

theorem selection_own (id : Uuid) (trace : Trace) : selection task id (own task trace) = selection task id trace := by
  induction trace with
  | nil => rfl
  | cons entry earlier ih =>
    by_cases mine : entry.task = some task
    · rw [own_cons mine, selection, selection, ih]
    · rw [own_foreign mine, ih, selection_foreign mine]

theorem recording_own {id : Uuid} : Recording task id (own task trace) ↔ Recording task id trace := by
  simp only [Recording, selection_own, did_own]

theorem deferred_own {id : Uuid} : Deferred task id (own task trace) ↔ Deferred task id trace := by
  simp only [Deferred, admitted_own, decided_own, did_own]

end Trace
end Wisphive
