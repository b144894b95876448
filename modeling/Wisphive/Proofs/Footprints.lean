import Wisphive.DaemonRuns

/-! What each handler can come to ask for, told once for all that is proved about
the daemon. -/

namespace Wisphive
open Foundation Program

/-- What a reply can be without a look at the state. -/
def Request.Possible : (request : Request) → request.Reply → Prop
  | .claim id _, .claimed held => held.request.id = id
  | .execute (.selectPending id), .ok (some row) => row.id = id
  | _, _ => True

theorem DecisionQueue.claim_id {queue after : DecisionQueue} {id : Uuid} {held : ClaimedDecision}
    (claimed : queue.claim id = (some held, after)) : held.request.id = id := by
  unfold claim at claimed
  cases found : queue.pendingItems.find? (·.id = id) with
  | none => simp only [found] at claimed; cases claimed
  | some request =>
    simp only [found] at claimed
    cases paired : queue.pendingSenders.lookup id with
    | none => simp only [paired] at claimed; cases claimed
    | some sender =>
      simp only [paired] at claimed
      cases claimed
      simpa using List.find?_some found

theorem DecisionQueue.claimTimely_id {queue after : DecisionQueue} {id : Uuid} {decision : Decision} {now : DateTime}
    {held : ClaimedDecision} (claimed : queue.claimTimely id decision now = (.claimed held, after)) :
    held.request.id = id := by
  unfold claimTimely at claimed
  cases found : queue.peek id with
  | none => simp only [found] at claimed; cases claimed
  | some current =>
    simp only [found] at claimed
    split at claimed
    · cases claimed
    · split at claimed
      next taken =>
        cases claimed
        exact claim_id taken
      next => cases claimed

theorem Database.selectPending_id {db : Database} {id : Uuid} {row : PendingRow}
    (found : db.selectPending id = some row) : row.id = id := by
  simpa using List.find?_some found

theorem Shared.perform_possible {choice : Choice} {request : Request} {shared after : Shared}
    {reply : request.Reply} (performed : shared.perform choice request = some (reply, after)) :
    request.Possible reply := by
  unfold Request.Possible
  split
  next id decision held =>
    have claimed := congrArg Prod.fst (Option.some.inj performed)
    exact DecisionQueue.claimTimely_id (Prod.ext claimed rfl)
  next id row =>
    simp only [Shared.perform, Shared.executes, Statement.execute] at performed
    cases choice with
    | proceed =>
      have found := congrArg Prod.fst (Option.some.inj performed)
      exact Database.selectPending_id (Except.ok.inj found)
    | refuse reason =>
      have failed := congrArg Prod.fst (Option.some.inj performed)
      cases failed
    | giveUp | timedOut | disconnected | drawn | canonical => cases performed
  next => trivial

/-- A statement takes effect on the tables alone, or fails. -/
theorem Shared.executes_cases {choice : Choice} {statement : Statement} {shared after : Shared}
    {reply : Except String statement.Reply} (performed : shared.executes statement choice = some (reply, after)) :
    (∃ value db, statement.execute shared.wall shared.db = some (value, db) ∧ reply = .ok value ∧
      after = { shared with db }) ∨
    ∃ error, reply = .error error ∧ after = shared := by
  unfold executes at performed
  split at performed
  · split at performed
    next value db executed =>
      cases performed
      exact .inl ⟨value, db, executed, rfl, rfl⟩
    next =>
      cases performed
      exact .inr ⟨_, rfl, rfl⟩
  · cases performed
    exact .inr ⟨_, rfl, rfl⟩
  · cases performed

theorem Shared.executes_frame {choice : Choice} {statement : Statement} {shared after : Shared}
    {reply : Except String statement.Reply} (performed : shared.executes statement choice = some (reply, after)) :
    ∃ db, after = { shared with db } := by
  rcases executes_cases performed with ⟨_, db, _, _, changed⟩ | ⟨_, _, same⟩
  · exact ⟨db, changed⟩
  · exact ⟨shared.db, same⟩

/-- Of all steps, only a look at the registry and a touch change it. -/
theorem Shared.perform_registry {choice : Choice} {request : Request} {shared after : Shared}
    {reply : request.Reply} (performed : shared.perform choice request = some (reply, after))
    (quiet : ∀ device, request ≠ .isFresh device ∧ request ≠ .touch device) :
    after.reauth = shared.reauth ∧ after.instant = shared.instant := by
  cases request with
  | isFresh device => exact absurd rfl (quiet device).1
  | touch device => exact absurd rfl (quiet device).2
  | execute statement =>
    obtain ⟨db, rfl⟩ := executes_frame performed
    exact ⟨rfl, rfl⟩
  | executeTimed statement =>
    simp only [perform] at performed
    split at performed
    · cases performed
      exact ⟨rfl, rfl⟩
    · obtain ⟨db, rfl⟩ := executes_frame performed
      exact ⟨rfl, rfl⟩
  | receive channel =>
    obtain ⟨waited, received, same⟩ := Option.map_eq_some_iff.mp performed
    cases same
    exact ⟨rfl, rfl⟩
  | wait channel =>
    simp only [perform] at performed
    split at performed
    · obtain ⟨waited, received, same⟩ := Option.map_eq_some_iff.mp performed
      cases same
      exact ⟨rfl, rfl⟩
    all_goals
      cases performed
      try exact ⟨rfl, rfl⟩
  | write | modeDenial | newV4 | validateProject | spawnAgent | startExpiry | awaitExpiry =>
    simp only [perform] at performed
    split at performed
    all_goals
      cases performed
      try exact ⟨rfl, rfl⟩
  | _ =>
    cases performed
    exact ⟨rfl, rfl⟩

/-- No handler moves the clock. -/
theorem Shared.perform_instant {choice : Choice} {request : Request} {shared after : Shared}
    {reply : request.Reply} (performed : shared.perform choice request = some (reply, after)) :
    after.instant = shared.instant := by
  cases request with
  | isFresh | touch =>
    cases performed
    rfl
  | _ => exact (perform_registry performed fun _ => ⟨fun same => (by cases same), fun same => (by cases same)⟩).2

/-- Outside the handlers, time passes and statements take effect. -/
theorem Shared.drift_registry {drift : Drift} {shared after : Shared} (drifted : shared.drift drift = some after) :
    after.reauth = shared.reauth ∧ shared.instant ≤ after.instant := by
  cases drift with
  | tick elapsed wall =>
    cases drifted
    exact ⟨rfl, Nat.le_add_right ..⟩
  | settle position commits =>
    obtain ⟨statement, _, rfl⟩ := Option.map_eq_some_iff.mp drifted
    dsimp only
    split
    · split <;> exact ⟨rfl, le_rfl⟩
    · exact ⟨rfl, le_rfl⟩

theorem Shared.drift_queue {drift : Drift} {shared after : Shared} (drifted : shared.drift drift = some after) :
    after.queue = shared.queue := by
  cases drift with
  | tick elapsed wall =>
    cases drifted
    rfl
  | settle position commits =>
    obtain ⟨statement, _, rfl⟩ := Option.map_eq_some_iff.mp drifted
    dsimp only
    split
    · split <;> rfl
    · rfl

/-- A program is safe when its footprint is allowed to whoever knows what it knows. -/
theorem safe_of_uses {guard : Guard daemon} {contract : Contract daemon} {task : Nat} {α : Type}
    {post : α → Trace → Prop} {allowed : Request → Prop} {returns : α → Prop} {knows : Trace → Prop}
    {program : Daemon α} {trace : Trace} (stable : Stable task knows)
    (uses : program.Uses allowed Request.Possible returns) (known : knows trace)
    (may : ∀ request trace shared, allowed request → knows trace → contract.valid trace shared →
      contract.may task request trace shared)
    (done : ∀ value trace, returns value → knows trace → post value trace) :
    Safe guard contract task post program trace :=
  Safe.of_uses (fun _ _ _ _ _ => Shared.perform_possible) stable uses known may done

/-- The three statements that record a decision. -/
def RecordStep (id : Uuid) (decision : Decision) (decidedBy : String) : Request → Prop
  | .execute (.selectPending other) | .execute (.deletePending other) => other = id
  | .execute (.insertResolved row chosen actor) => row.id = id ∧ chosen = decision ∧ actor = decidedBy
  | _ => False

theorem resolvePendingBy_uses (id : Uuid) (decision : Decision) (decidedBy : String) :
    (resolvePendingBy id decision decidedBy).Uses (RecordStep id decision decidedBy) Request.Possible
      fun _ => True := by
  refine uses_request ?_ fun selected possible => ?_
  · rfl
  match selected, possible with
  | .error error, _ => trivial
  | .ok none, _ =>
    refine uses_request ?_ fun _ _ => trivial
    rfl
  | .ok (some row), same =>
    refine uses_request ?_ fun inserted _ => ?_
    · exact ⟨same, rfl, rfl⟩
    match inserted with
    | .error error => trivial
    | .ok _ =>
      refine uses_request ?_ fun _ _ => trivial
      rfl

/-- The steps of a hook connection. -/
def HookStep (req : DecisionRequest) : Request → Prop
  | .modeDenial | .wait _ | .write _ => True
  | .execute (.persistPending other) | .enqueue other => other = req
  | .finalizeLocal id _ => id = req.id
  | .execute (.selectPending id) | .execute (.deletePending id) => id = req.id
  | .execute (.insertResolved row _ _) => row.id = req.id
  | _ => False

theorem recordStep_hook {req : DecisionRequest} {decision : Decision} {decidedBy : String} (request : Request)
    (step : RecordStep req.id decision decidedBy request) : HookStep req request := by
  cases request with
  | execute statement =>
    cases statement with
    | selectPending | deletePending => exact step
    | insertResolved => exact step.1
    | _ => exact step.elim
  | _ => exact step.elim

theorem answerHook_uses (req : DecisionRequest) (rich : RichDecision) (decidedBy : String) :
    (answerHook req.id rich decidedBy).Uses (HookStep req) Request.Possible fun _ => True := by
  unfold answerHook
  split
  · refine uses_ask ?_ fun recorded _ => ?_
    · rfl
    · cases recorded with
      | error error => trivial
      | ok _ => exact uses_request trivial fun _ _ => trivial
  · refine uses_bind ((resolvePendingBy_uses req.id rich.decision decidedBy).widen recordStep_hook) ?_
    intro recorded _
    cases recorded with
    | error error => trivial
    | ok _ => exact uses_request trivial fun _ _ => trivial

theorem settleHook_uses (req : DecisionRequest) (waited : Waited) :
    (settleHook req.id waited).Uses (HookStep req) Request.Possible fun _ => True := by
  cases waited with
  | resolved rich => exact answerHook_uses req rich _
  | channelDropped =>
    refine uses_ask ?_ fun _ _ => answerHook_uses req .approve "channel_dropped:approve"
    rfl
  | timedOut =>
    refine uses_ask ?_ fun _ _ => answerHook_uses req .approve "timeout:approve"
    rfl
  | disconnected =>
    refine uses_ask ?_ fun _ _ => ?_
    · rfl
    · refine uses_bind ((resolvePendingBy_uses req.id _ _).widen recordStep_hook) fun _ _ => trivial

theorem handleHook_uses (req : DecisionRequest) :
    (handleHook req).Uses (HookStep req) Request.Possible fun _ => True := by
  unfold handleHook
  split
  · exact uses_request trivial fun _ _ => trivial
  split
  · exact uses_request trivial fun _ _ => trivial
  refine uses_request trivial fun denial _ => ?_
  cases denial with
  | some reason => exact uses_request trivial fun _ _ => trivial
  | none =>
    refine uses_request ?_ fun stored _ => ?_
    · rfl
    cases stored with
    | error error => trivial
    | ok _ =>
      refine uses_request ?_ fun admitted _ => ?_
      · rfl
      cases admitted with
      | none => exact uses_request trivial fun _ _ => trivial
      | some channel => exact uses_request trivial fun waited _ => settleHook_uses req waited

/-- The steps of a decision about a managed spawn. What is released is the decision
or a denial. -/
def SpawnStep (id : Uuid) (decision : Decision) : Request → Prop
  | .inspect other => other = id
  | .claim other chosen => other = id ∧ chosen = decision
  | .completeClaim held rich => held.request.id = id ∧ (rich.decision = decision ∨ rich.decision = .deny)
  | .validateProject _ => True
  | .executeTimed (.resolveSpawnPendingBy other _ _) => other = id ∧ decision = .approve
  | .executeTimed (.deleteManagedSpawnPending other) => other = id
  | .executeTimed (.forceFailclosedSpawnResolution other _ fallback)
  | .execute (.forceFailclosedSpawnResolution other _ fallback) => other = id ∧ fallback.id = id
  | _ => False

theorem reviewSpawn_uses (id : Uuid) (pending : DecisionRequest) (rich : RichDecision) :
    (reviewSpawn pending rich).Uses (SpawnStep id rich.decision) Request.Possible fun result =>
      ∀ reviewed changed, result = .ok (reviewed, changed) → changed.decision = rich.decision := by
  unfold reviewSpawn
  split
  next =>
    split
    next => exact fun _ _ failed => by cases failed
    next edited _ =>
      refine uses_request trivial fun project _ => ?_
      match project with
      | .error reason => exact fun _ _ failed => by cases failed
      | .ok project => exact fun _ _ returned => by cases returned; rfl
  next => exact fun _ _ returned => by cases returned; rfl

theorem persistSpawn_uses {id : Uuid} {held : ClaimedDecision} (same : held.request.id = id) (decision : Decision)
    (reviewed : Option SpawnAgentRequest) (resolver : String) :
    (persistSpawn held decision reviewed resolver).Uses (SpawnStep id decision) Request.Possible fun _ => True := by
  unfold persistSpawn
  split
  · exact uses_request ⟨same, rfl⟩ fun _ _ => trivial
  · exact uses_request same fun _ _ => trivial
  · exact uses_request ⟨same, same⟩ fun _ _ => trivial

theorem releaseFailclosed_uses {id : Uuid} {held : ClaimedDecision} (same : held.request.id = id)
    (decision : Decision) (message context refusal : String) :
    (releaseFailclosed held message context refusal).Uses (SpawnStep id decision) Request.Possible
      fun _ => True := by
  refine uses_request ?_ fun _ _ => uses_request ?_ fun forced _ => ?_
  · exact ⟨same, .inr rfl⟩
  · exact ⟨same, same⟩
  · cases forced <;> trivial

theorem settleClaim_uses {id : Uuid} {held : ClaimedDecision} (same : held.request.id = id)
    (reviewed : Option SpawnAgentRequest) (rich : RichDecision) (resolver : String) :
    (settleClaim held reviewed rich resolver).Uses (SpawnStep id rich.decision) Request.Possible
      fun _ => True := by
  refine uses_bind (persistSpawn_uses same _ reviewed resolver) fun persisted _ => ?_
  match persisted with
  | .ok true =>
    refine uses_request ?_ fun _ _ => trivial
    exact ⟨same, .inl rfl⟩
  | .ok false | .error _ => exact releaseFailclosed_uses same _ _ _ _

theorem finalizeSpawnDecision_uses (id : Uuid) (rich : RichDecision) (resolver : String) :
    (finalizeSpawnDecision id rich resolver).Uses (SpawnStep id rich.decision) Request.Possible
      fun _ => True := by
  refine uses_request ?_ fun inspected _ => ?_
  · rfl
  match inspected with
  | (none, _) | (some _, false) => trivial
  | (some pending, true) =>
    change (reviewSpawn pending rich >>= _).Uses _ _ _
    refine uses_bind (reviewSpawn_uses id pending rich) fun result returned => ?_
    match result, returned with
    | .error error, _ => trivial
    | .ok (reviewed, changed), returned =>
      have kept : changed.decision = rich.decision := returned _ _ rfl
      rw [← kept]
      refine uses_request ?_ fun claimed possible => ?_
      · exact ⟨rfl, rfl⟩
      match claimed, possible with
      | .absent, _ | .expired, _ => trivial
      | .claimed held, same => exact settleClaim_uses same reviewed changed resolver

/-- A message to the client. -/
def WriteStep : Request → Prop
  | .write _ => True
  | _ => False

theorem writeMsg_uses (message : ServerMessage) :
    (writeMsg message).Uses WriteStep Request.Possible fun _ => True :=
  uses_request trivial fun _ _ => trivial

theorem writeEach_uses (messages : List ServerMessage) :
    (writeEach messages).Uses WriteStep Request.Possible fun _ => True := by
  induction messages with
  | nil => trivial
  | cons message rest ih =>
    refine uses_request trivial fun written _ => ?_
    cases written
    · trivial
    · exact ih

theorem eagerPersist_uses (id : Uuid) (decision : Decision) (resolver : String) :
    (eagerPersist id decision resolver).Uses (RecordStep id decision resolver) Request.Possible fun _ => True :=
  uses_bind (resolvePendingBy_uses id decision resolver) fun _ _ => trivial

theorem eagerPersistEach_uses (decision : Decision) (resolver : String) (ids : List Uuid) :
    (eagerPersistEach decision resolver ids).Uses (fun request => ∃ id ∈ ids, RecordStep id decision resolver request)
      Request.Possible fun _ => True := by
  induction ids with
  | nil => trivial
  | cons id rest ih =>
    have first := (eagerPersist_uses id decision resolver).widen fun _ step =>
      (⟨id, List.mem_cons_self .., step⟩ : ∃ other ∈ id :: rest, RecordStep other decision resolver _)
    exact uses_bind first fun _ _ => ih.widen fun _ ⟨other, member, step⟩ => ⟨other, List.mem_cons_of_mem _ member, step⟩

theorem decideSpawn_uses (id : Uuid) (rich : RichDecision) (resolver failure : String) :
    (decideSpawn id rich resolver failure).Uses (fun request => SpawnStep id rich.decision request ∨ WriteStep request)
      Request.Possible fun _ => True := by
  refine uses_bind ((finalizeSpawnDecision_uses id rich resolver).widen fun _ => .inl) fun decided _ => ?_
  cases decided with
  | error error => exact uses_request (.inr trivial) fun _ _ => trivial
  | ok _ => trivial

theorem denySpawns_uses (resolver : String) (ids : List Uuid) :
    (denySpawns resolver ids).Uses (fun request => ∃ id ∈ ids, SpawnStep id .deny request) Request.Possible
      fun _ => True := by
  induction ids with
  | nil => trivial
  | cons id rest ih =>
    have first := (finalizeSpawnDecision_uses id { decision := .deny, resolver := some resolver } resolver).widen
      fun _ step => (⟨id, List.mem_cons_self .., step⟩ : ∃ other ∈ id :: rest, SpawnStep other .deny _)
    refine uses_bind first fun decided _ => ?_
    refine uses_bind (ih.widen fun _ ⟨other, member, step⟩ => ⟨other, List.mem_cons_of_mem _ member, step⟩) ?_
    intro later _
    cases decided <;> trivial

/-- The steps of a spawn's own worker, which decides nothing. -/
def WorkerStep : Request → Prop
  | .modeDenial | .validateProject _ | .newV4 | .utcNow | .enqueueManagedSpawn _ | .write _ | .receive _
  | .spawnAgent _ | .loadStarted _ | .awaitExpiry _ | .abortExpiry _ | .snapshot => True
  | .execute (.persistPending _) | .execute (.pendingIsManagedSpawn _) | .execute (.deleteManagedSpawnPending _)
  | .execute (.recordSpawnActionFailure ..) | .execute (.forceFailclosedSpawnResolution ..) => True
  | .finalizeLocal _ decision => decision = .deny
  | _ => False

theorem enqueueSpawnForApproval_uses (req : SpawnAgentRequest) :
    (enqueueSpawnForApproval req).Uses WorkerStep Request.Possible fun _ => True := by
  refine uses_request trivial fun _ _ => uses_request trivial fun _ _ => uses_request trivial fun stored _ => ?_
  match stored with
  | .error error => trivial
  | .ok () =>
    refine uses_request trivial fun managed _ => ?_
    match managed with
    | .error error | .ok false => trivial
    | .ok true =>
      refine uses_request trivial fun admitted _ => ?_
      match admitted with
      | some channel => trivial
      | none => exact uses_request trivial fun _ _ => trivial

theorem runAfterSpawnApproval_uses (channel : Channel) (original : SpawnAgentRequest) :
    (runAfterSpawnApproval channel original).Uses WorkerStep Request.Possible fun _ => True := by
  refine uses_ask trivial fun received _ => ?_
  cases received with
  | none => trivial
  | some rich =>
    obtain ⟨decision, message, updatedInput, _, _, _, _⟩ := rich
    cases decision with
    | deny | ask => trivial
    | approve =>
      dsimp only
      split
      · trivial
      · refine uses_request trivial fun project _ => ?_
        cases project with
        | error reason => trivial
        | ok project =>
          refine uses_request trivial fun denial _ => ?_
          cases denial with
          | some reason => trivial
          | none => exact uses_request trivial fun _ _ => trivial

theorem finalizeSpawnAbandonment_uses (id : Uuid) (decidedBy : String) :
    (finalizeSpawnAbandonment id decidedBy).Uses WorkerStep Request.Possible fun _ => True := by
  refine uses_ask trivial fun items _ => ?_
  split
  · trivial
  · trivial
  · refine uses_request trivial fun forced _ => ?_
    cases forced with
    | error error => trivial
    | ok _ => exact uses_request rfl fun _ _ => trivial

theorem recordSpawnError_uses (id : Uuid) (error : SpawnRunError) :
    (recordSpawnError id error).Uses WorkerStep Request.Possible fun _ => True := by
  cases error with
  | denied | deferred => trivial
  | invalidRequest reason | action reason => exact uses_request trivial fun _ _ => trivial
  | channelClosed => exact uses_bind (finalizeSpawnAbandonment_uses id _) fun _ _ => trivial

theorem spawnWorker_uses (decision : DecisionRequest) (channel : Channel) (req : SpawnAgentRequest)
    (correlationId : Option String) (deviceId : Option DeviceId) :
    (spawnWorker decision channel req correlationId deviceId).Uses WorkerStep Request.Possible fun _ => True := by
  refine uses_bind (runAfterSpawnApproval_uses channel req) fun result _ => ?_
  refine uses_request trivial fun started _ => ?_
  cases started
  all_goals
    refine uses_request trivial fun _ _ => ?_
    cases result with
    | ok _ => trivial
    | error error =>
      change Uses _ _ _ (recordSpawnError decision.id error >>= _)
      exact uses_bind (recordSpawnError_uses decision.id error) fun _ _ => uses_request trivial fun _ _ => trivial

theorem handleSpawnAgent_uses (req : SpawnAgentRequest) (correlationId : Option String)
    (deviceId : Option DeviceId) :
    (handleSpawnAgent req correlationId deviceId).Uses WorkerStep Request.Possible fun _ => True := by
  refine uses_request trivial fun denial _ => ?_
  cases denial with
  | some reason => exact uses_request trivial fun _ _ => trivial
  | none =>
    refine uses_request trivial fun project _ => ?_
    cases project with
    | error error => exact uses_request trivial fun _ _ => trivial
    | ok project =>
      change (enqueueSpawnForApproval { req with project } >>= _).Uses _ _ _
      refine uses_bind (enqueueSpawnForApproval_uses { req with project }) fun queued _ => ?_
      match queued with
      | .error error => exact uses_request trivial fun _ _ => trivial
      | .ok (decision, channel) =>
        cases correlationId with
        | none => exact spawnWorker_uses decision channel _ none deviceId
        | some correlation =>
          refine uses_request trivial fun written _ => ?_
          cases written
          · trivial
          · exact spawnWorker_uses decision channel _ (some correlation) deviceId

end Wisphive
