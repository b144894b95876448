import Wisphive.Proofs.CommandRules
import Wisphive.Proofs.QueueOperations

/-! What receivers are sent is what some task delivered, and a denial
carries nothing but its message. -/

namespace Wisphive
open Foundation Program

/-- Every decision that was sent is a good one. -/
def AllSent (good : RichDecision → Prop) (queue : DecisionQueue) : Prop :=
  ∀ channel rich, .sent channel rich ∈ queue.channels.outputs → good rich

/-- What a step delivers is good. -/
def Delivers (good : RichDecision → Prop) : Request → Prop
  | .resolve _ rich | .resolveListed _ rich | .resolveOrdinary _ rich | .completeClaim _ rich => good rich
  | .resolveAll _ decision resolver => good { RichDecision.ofDecision decision with resolver }
  | _ => True

variable {good : RichDecision → Prop} {queue : DecisionQueue}

namespace AllSent

/-- An output that sends nothing changes nothing. -/
theorem same {after : DecisionQueue} (all : AllSent good queue)
    (outputs : ∀ channel rich, .sent channel rich ∈ after.channels.outputs → .sent channel rich ∈ queue.channels.outputs) :
    AllSent good after :=
  fun channel rich sent => all channel rich (outputs channel rich sent)

theorem released {settled : DecisionQueue} {id : Uuid} {decision : Decision} {sender : Channel} {rich : RichDecision}
    (all : AllSent good queue) (outputs : settled.channels.outputs = .decisionResolved id decision :: queue.channels.outputs)
    (released : good rich) : AllSent good { settled with channels := settled.channels.emit (.sent sender rich) } := by
  intro channel other sent
  rcases List.mem_cons.mp sent with now | earlier
  · cases now
    exact released
  · rw [outputs] at earlier
    exact all channel other ((List.mem_cons.mp earlier).resolve_left fun same => by cases same)

theorem resolve (all : AllSent good queue) (id : Uuid) {rich : RichDecision} (released : good rich) :
    AllSent good (queue.resolve id rich).2 := by
  rcases queue.resolve_cases id rich with refused | ⟨sender, settled, _, _, _, outputs, resolved⟩
  · rw [refused]
    exact all
  · rw [resolved]
    exact all.released outputs released

theorem resolveListed (all : AllSent good queue) {rich : RichDecision} (released : good rich) (ids : List Uuid) :
    AllSent good (queue.resolveListed rich ids).2 := by
  induction ids generalizing queue with
  | nil => exact all
  | cons id rest ih => exact ih (all.resolve id released)

theorem resolveEach (all : AllSent good queue) {rich : RichDecision} (released : good rich) (ids : List Uuid) :
    AllSent good (queue.resolveEach rich ids) := by
  induction ids generalizing queue with
  | nil => exact all
  | cons id rest ih => exact ih (all.resolve id released)

theorem completeClaim (all : AllSent good queue) (held : ClaimedDecision) {rich : RichDecision} (released : good rich) :
    AllSent good (queue.completeClaim held rich).2 := by
  rcases queue.completeClaim_cases held rich with ⟨_, dropped⟩ | ⟨settled, _, _, outputs, completed⟩
  · rw [dropped]
    exact all.same fun _ _ sent => (List.mem_cons.mp sent).resolve_left fun same => by cases same
  · rw [completed]
    exact all.released outputs released

theorem enqueueInner (all : AllSent good queue) (req : DecisionRequest) (managedSpawn : Bool) :
    AllSent good (queue.enqueueInner req managedSpawn).2 := by
  unfold DecisionQueue.enqueueInner
  split
  · exact all
  · exact all.same fun _ _ sent => (List.mem_cons.mp sent).resolve_left fun same => by cases same

theorem finalizeLocal (all : AllSent good queue) (id : Uuid) (decision : Decision) :
    AllSent good (queue.finalizeLocal id decision).2 := by
  refine all.same fun channel rich sent => ?_
  have closed : ∀ sender, .sent channel rich ∈ (queue.channels.dropSender sender).outputs →
      .sent channel rich ∈ queue.channels.outputs :=
    fun _ sent => (List.mem_cons.mp sent).resolve_left fun same => by cases same
  simp only [DecisionQueue.finalizeLocal] at sent
  cases found : queue.pendingSenders.lookup id with
  | none =>
    rw [found] at sent
    split at sent
    · exact (List.mem_cons.mp sent).resolve_left fun same => by cases same
    · exact sent
  | some sender =>
    rw [found] at sent
    split at sent
    · exact closed sender ((List.mem_cons.mp sent).resolve_left fun same => by cases same)
    · exact closed sender sent

theorem claimTimely (all : AllSent good queue) (id : Uuid) (decision : Decision) (now : DateTime) :
    AllSent good (queue.claimTimely id decision now).2 := by
  have claimed : (queue.claim id).2.channels = queue.channels := by
    unfold DecisionQueue.claim
    split
    · rfl
    · split <;> rfl
  unfold DecisionQueue.claimTimely
  split
  · exact all
  split
  · exact all
  split
  next taken =>
    rw [taken] at claimed
    exact all.same fun _ _ sent => claimed ▸ sent
  next taken =>
    rw [taken] at claimed
    exact all.same fun _ _ sent => claimed ▸ sent

end AllSent

/-- What receivers are sent stays good when what is delivered is. -/
theorem perform_allSent {choice : Choice} {request : Request} {shared after : Shared} {reply : request.Reply}
    (all : AllSent good shared.queue) (released : Delivers good request)
    (performed : shared.perform choice request = some (reply, after)) : AllSent good after.queue := by
  cases request with
  | enqueue req =>
    cases performed
    exact all.enqueueInner req false
  | enqueueManagedSpawn req =>
    cases performed
    dsimp only
    split
    · exact all
    · exact all.enqueueInner req true
  | resolve id rich =>
    cases performed
    exact all.resolve id released
  | resolveListed ids rich | resolveOrdinary ids rich =>
    cases performed
    exact all.resolveListed released _
  | resolveAll filter decision resolver =>
    cases performed
    exact all.resolveEach released _
  | claim id decision =>
    cases performed
    exact all.claimTimely id decision _
  | completeClaim held rich =>
    cases performed
    exact all.completeClaim held released
  | finalizeLocal id decision =>
    cases performed
    exact all.finalizeLocal id decision
  | execute statement =>
    obtain ⟨db, rfl⟩ := Shared.executes_frame performed
    exact all
  | executeTimed statement =>
    simp only [Shared.perform] at performed
    split at performed
    · cases performed
      exact all
    · obtain ⟨db, rfl⟩ := Shared.executes_frame performed
      exact all
  | receive channel =>
    obtain ⟨waited, received, same⟩ := Option.map_eq_some_iff.mp performed
    cases same
    exact all
  | wait channel =>
    simp only [Shared.perform] at performed
    split at performed
    · obtain ⟨waited, received, same⟩ := Option.map_eq_some_iff.mp performed
      cases same
      exact all
    all_goals
      cases performed
      try exact all
  | write | modeDenial | newV4 | validateProject | spawnAgent | startExpiry | awaitExpiry =>
    simp only [Shared.perform] at performed
    split at performed
    all_goals
      cases performed
      try exact all
  | _ =>
    cases performed
    exact all

/-- What a receiver finds was sent. -/
theorem received_good {shared : Shared} {channel : Channel} {rich : RichDecision} (all : AllSent good shared.queue)
    (received : shared.received channel = some (.resolved rich)) : good rich := by
  unfold Shared.received at received
  dsimp only at received
  split at received
  next found =>
    cases received
    obtain ⟨output, member, sent⟩ := List.exists_of_findSome?_eq_some found
    split at sent
    next target other =>
      split at sent
      · cases sent
        exact all target rich member
      · cases sent
    next => cases sent
  next =>
    split at received <;> cases received

/-- A denial carries nothing but its message. -/
def PlainDenial (rich : RichDecision) : Prop :=
  rich.decision = .deny → rich.updatedInput = none ∧ rich.additionalContext = none ∧ rich.selectedPermission = none

/-- What handlers ask for delivers plain denials. -/
abbrev Plainly {α : Type} (program : Daemon α) : Prop :=
  program.Uses (Delivers PlainDenial) Request.Possible fun _ => True

/-- A footprint that delivers nothing. -/
theorem plainly_of_uses {α : Type} {allowed : Request → Prop} {returns : α → Prop} {program : Daemon α}
    (uses : program.Uses allowed Request.Possible returns)
    (quiet : ∀ request, allowed request → Delivers PlainDenial request) : Plainly program := by
  induction program with
  | pure value => trivial
  | request op tail ih => exact ⟨quiet op uses.1, fun reply answered => ih reply (uses.2 reply answered)⟩

theorem recordStep_delivers {id : Uuid} {decision : Decision} {decidedBy : String} (request : Request)
    (step : RecordStep id decision decidedBy request) : Delivers PlainDenial request := by
  cases request <;> first | exact step.elim | trivial

theorem writeStep_delivers (request : Request) (step : WriteStep request) : Delivers PlainDenial request := by
  cases request <;> first | exact step.elim | trivial

theorem workerStep_delivers (request : Request) (step : WorkerStep request) : Delivers PlainDenial request := by
  cases request <;> first | exact step.elim | trivial

theorem freshStep_delivers (request : Request) (step : FreshStep request) : Delivers PlainDenial request := by
  cases request <;> first | exact step.elim | trivial

theorem reviewSpawn_plainly (pending : DecisionRequest) {rich : RichDecision} (plain : PlainDenial rich) :
    (reviewSpawn pending rich).Uses (Delivers PlainDenial) Request.Possible fun result =>
      ∀ reviewed changed, result = .ok (reviewed, changed) → PlainDenial changed := by
  unfold reviewSpawn
  split
  next approved =>
    split
    next => exact fun _ _ failed => by cases failed
    next edited _ =>
      refine uses_request trivial fun project _ => ?_
      match project with
      | .error reason => exact fun _ _ failed => by cases failed
      | .ok project =>
        intro _ _ returned denied
        cases returned
        cases approved.symm.trans denied
  next =>
    intro _ _ returned
    cases returned
    exact plain

theorem settleClaim_plainly (held : ClaimedDecision) (reviewed : Option SpawnAgentRequest) {rich : RichDecision}
    (plain : PlainDenial rich) (resolver : String) : Plainly (settleClaim held reviewed rich resolver) := by
  have persisted : Plainly (persistSpawn held rich.decision reviewed resolver) := by
    unfold persistSpawn
    split <;> exact uses_request trivial fun _ _ => trivial
  have release (message context refusal : String) : Plainly (releaseFailclosed held message context refusal) := by
    refine uses_request ?_ fun _ _ => uses_request trivial fun forced _ => ?_
    · exact fun _ => ⟨rfl, rfl, rfl⟩
    · cases forced <;> trivial
  refine uses_bind persisted fun result _ => ?_
  match result with
  | .ok true => exact uses_request plain fun _ _ => trivial
  | .ok false | .error _ => exact release ..

theorem finalizeSpawnDecision_plainly (id : Uuid) {rich : RichDecision} (plain : PlainDenial rich) (resolver : String) :
    Plainly (finalizeSpawnDecision id rich resolver) := by
  refine uses_request trivial fun inspected _ => ?_
  match inspected with
  | (none, _) | (some _, false) => trivial
  | (some pending, true) =>
    change (reviewSpawn pending rich >>= _).Uses _ _ _
    refine uses_bind (reviewSpawn_plainly pending plain) fun result returned => ?_
    match result, returned with
    | .error error, _ => trivial
    | .ok (reviewed, changed), returned =>
      refine uses_request trivial fun claimed _ => ?_
      match claimed with
      | .absent | .expired => trivial
      | .claimed held => exact settleClaim_plainly held reviewed (returned _ _ rfl) resolver

theorem decideSpawn_plainly (id : Uuid) {rich : RichDecision} (plain : PlainDenial rich) (resolver failure : String) :
    Plainly (decideSpawn id rich resolver failure) := by
  refine uses_bind (finalizeSpawnDecision_plainly id plain resolver) fun decided _ => ?_
  cases decided with
  | error error => exact uses_request trivial fun _ _ => trivial
  | ok _ => trivial

theorem denySpawns_plainly (resolver : String) (ids : List Uuid) : Plainly (denySpawns resolver ids) := by
  induction ids with
  | nil => trivial
  | cons id rest ih =>
    refine uses_bind (finalizeSpawnDecision_plainly id (fun _ => ⟨rfl, rfl, rfl⟩) resolver) fun decided _ => ?_
    refine uses_bind ih fun later _ => ?_
    cases decided <;> trivial

theorem eagerPersist_plainly (id : Uuid) (decision : Decision) (resolver : String) :
    Plainly (eagerPersist id decision resolver) :=
  plainly_of_uses (eagerPersist_uses id decision resolver) recordStep_delivers

theorem eagerPersistEach_plainly (decision : Decision) (resolver : String) (ids : List Uuid) :
    Plainly (eagerPersistEach decision resolver ids) :=
  plainly_of_uses (eagerPersistEach_uses decision resolver ids) fun request ⟨_, _, step⟩ => recordStep_delivers request step

theorem resolveRecorded_plainly (id : Uuid) {rich : RichDecision} (plain : PlainDenial rich) (decision : Decision)
    (resolver : String) : Plainly (do if ← resolve id rich then eagerPersist id decision resolver : Daemon Unit) := by
  refine uses_ask plain fun resolved _ => ?_
  cases resolved with
  | false => trivial
  | true => exact eagerPersist_plainly id decision resolver

theorem handleApprove_plainly (deviceId : Option DeviceId) (id : Uuid) (message : Option String)
    (updatedInput : Option Json) (alwaysAllow : Bool) (additionalContext : Option String) :
    Plainly (handleApprove deviceId id message updatedInput alwaysAllow additionalContext) := by
  refine uses_ask trivial fun inspected _ => ?_
  refine uses_bind ((sudoGate_uses deviceId inspected.1).widen freshStep_delivers) fun held _ => ?_
  cases held with
  | some message => exact uses_request trivial fun _ _ => trivial
  | none =>
    change Plainly (approve id inspected.2 _ _)
    unfold approve
    split
    · exact decideSpawn_plainly id (fun denied => by cases denied) _ _
    · exact resolveRecorded_plainly id (fun denied => by cases denied) .approve _

theorem handleDeny_plainly (deviceId : Option DeviceId) (id : Uuid) (message : Option String) :
    Plainly (handleDeny deviceId id message) := by
  refine uses_ask trivial fun inspected _ => ?_
  split
  · exact decideSpawn_plainly id (fun _ => ⟨rfl, rfl, rfl⟩) _ _
  · exact resolveRecorded_plainly id (fun _ => ⟨rfl, rfl, rfl⟩) .deny _

theorem handleAsk_plainly (deviceId : Option DeviceId) (id : Uuid) : Plainly (handleAsk deviceId id) := by
  refine uses_ask trivial fun inspected _ => ?_
  split
  · exact decideSpawn_plainly id (fun denied => by cases denied) _ _
  · exact uses_request (fun denied => by cases denied) fun _ _ => trivial

theorem handleApproveAll_plainly (deviceId : Option DeviceId) (filter : Option DecisionFilter) (confirm : Bool) :
    Plainly (handleApproveAll deviceId filter confirm) := by
  unfold handleApproveAll
  split
  · exact uses_request trivial fun _ _ => trivial
  · cases deviceId with
    | none =>
      refine uses_ask (fun denied => by cases denied) fun ids _ => ?_
      exact eagerPersistEach_plainly .approve _ ids
    | some device =>
      refine uses_ask trivial fun items _ => uses_ask trivial fun fresh _ => ?_
      refine uses_ask (fun denied => by cases denied) fun resolved _ => ?_
      refine uses_bind (eagerPersistEach_plainly .approve _ resolved) fun _ _ => ?_
      exact plainly_of_uses (writeEach_uses _) writeStep_delivers

theorem handleDenyAll_plainly (deviceId : Option DeviceId) (filter : Option DecisionFilter) :
    Plainly (handleDenyAll deviceId filter) := by
  refine uses_ask trivial fun items _ => ?_
  refine uses_ask (fun _ => ⟨rfl, rfl, rfl⟩) fun resolved _ => ?_
  refine uses_bind (eagerPersistEach_plainly .deny _ resolved) fun _ _ => ?_
  refine uses_bind (denySpawns_plainly _ _) fun failed _ => ?_
  cases failed with
  | none => trivial
  | some _ => exact uses_request trivial fun _ _ => trivial

theorem handleApprovePermission_plainly (deviceId : Option DeviceId) (id : Uuid) (suggestionIndex : Nat)
    (message : Option String) : Plainly (handleApprovePermission deviceId id suggestionIndex message) := by
  refine uses_ask trivial fun inspected _ => ?_
  refine uses_bind ((sudoGate_uses deviceId inspected.1).widen freshStep_delivers) fun held _ => ?_
  cases held with
  | some message => exact uses_request trivial fun _ _ => trivial
  | none =>
    dsimp only
    split
    · exact uses_request trivial fun _ _ => trivial
    · refine uses_ask (fun denied => by cases denied) fun _ _ => eagerPersist_plainly id .approve _

theorem dispatchCommand_plainly (issued : ClientCommand) : Plainly (dispatchCommand issued) := by
  obtain ⟨body, deviceId, correlationId⟩ := issued
  cases body with
  | approve id message updatedInput alwaysAllow additionalContext =>
    exact handleApprove_plainly deviceId id message updatedInput alwaysAllow additionalContext
  | deny id message => exact handleDeny_plainly deviceId id message
  | ask id => exact handleAsk_plainly deviceId id
  | approveAll filter confirm => exact handleApproveAll_plainly deviceId filter confirm
  | denyAll filter => exact handleDenyAll_plainly deviceId filter
  | approvePermission id suggestionIndex message =>
    exact handleApprovePermission_plainly deviceId id suggestionIndex message
  | installHooks project =>
    cases deviceId with
    | none => exact uses_request trivial fun _ _ => trivial
    | some device =>
      refine uses_ask trivial fun allowed _ => ?_
      cases allowed <;> exact uses_request trivial fun _ _ => trivial
  | markDeviceFresh =>
    cases deviceId with
    | none => trivial
    | some device => exact uses_request trivial fun _ _ => uses_request trivial fun _ _ => trivial
  | spawnAgent req => exact plainly_of_uses (handleSpawnAgent_uses req correlationId deviceId) workerStep_delivers
  | _ => trivial

theorem expireSpawn_plainly (id : Uuid) : Plainly (expireSpawn id) := by
  refine uses_request trivial fun _ _ => ?_
  refine uses_bind (finalizeSpawnDecision_plainly id (fun _ => ⟨rfl, rfl, rfl⟩) _) fun _ _ => ?_
  exact uses_request trivial fun _ _ => trivial

end Wisphive
