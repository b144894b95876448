import Wisphive.Proofs.HandlerRules

/-! Commands and expiries follow the handlers' rules. -/

namespace Wisphive
open Foundation Program Trace

variable {task : Nat} {past current : Trace} {allowed : Request → Prop}

namespace Trace

/-- What forces no denial leaves none asked for. -/
theorem Unforced.later (unforced : Unforced task past) (later : Continues allowed task past current)
    (quiet : ∀ id decidedBy fallback, ¬ allowed (.execute (.forceFailclosedSpawnResolution id decidedBy fallback)) ∧
      ¬ allowed (.executeTimed (.forceFailclosedSpawnResolution id decidedBy fallback))) : Unforced task current :=
  fun id decidedBy fallback =>
    ⟨fun reply did => (unforced id decidedBy fallback).1 reply (did.new later (quiet id decidedBy fallback).1),
      fun reply did => (unforced id decidedBy fallback).2 reply (did.new later (quiet id decidedBy fallback).2)⟩

theorem Unforced.step (unforced : Unforced task past) (request : Request) (before : Shared) (reply : request.Reply)
    (quiet : ∀ id decidedBy fallback, request ≠ .execute (.forceFailclosedSpawnResolution id decidedBy fallback) ∧
      request ≠ .executeTimed (.forceFailclosedSpawnResolution id decidedBy fallback)) :
    Unforced task (.performed task request before reply :: past) :=
  unforced.later (Continues.one before reply rfl : Continues (· = request) task past _)
    fun id decidedBy fallback => ⟨fun same => (quiet id decidedBy fallback).1 same.symm,
      fun same => (quiet id decidedBy fallback).2 same.symm⟩

end Trace

/-- An approval that was reviewed carries the request that is to be committed. -/
def Reviews (rich : RichDecision) (reviewed : Option SpawnAgentRequest) (changed : RichDecision) : Prop :=
  changed.decision = rich.decision ∧
    (changed.decision = .approve → ∃ request, reviewed = some request ∧ changed.updatedInput = some request.toValue)

theorem reviewSpawn_obeys (pending : DecisionRequest) (rich : RichDecision) (unforced : rich.decision = .approve → Unforced task past) :
    Obeys (HandlerRule task) task (fun result current => (rich.decision = .approve → Unforced task current) ∧
      ∀ reviewed changed, result = .ok (reviewed, changed) → Reviews rich reviewed changed)
      (reviewSpawn pending rich) past := by
  unfold reviewSpawn
  split
  next approved =>
    split
    next => exact ⟨unforced, fun _ _ failed => by cases failed⟩
    next edited _ =>
      refine obeys_request trivial fun _ before project _ _ => ?_
      have still : rich.decision = .approve → Unforced task _ := fun approved =>
        (unforced approved).step (.validateProject edited) before project
          fun _ _ _ => ⟨fun same => (by cases same), fun same => (by cases same)⟩
      cases project with
      | error reason => exact ⟨still, fun _ _ failed => by cases failed⟩
      | ok project =>
        refine ⟨still, fun _ _ returned => ?_⟩
        cases returned
        exact ⟨rfl, fun _ => ⟨_, rfl, rfl⟩⟩
  next unapproved =>
    refine ⟨unforced, fun _ _ returned => ?_⟩
    cases returned
    exact ⟨rfl, fun approved => absurd approved unapproved⟩

/-- The holder of a claim refuses it, and may then force a denial. -/
theorem releaseFailclosed_obeys {held : ClaimedDecision} (holds : (task, held) ∈ heldClaims past)
    (message context refusal : String) :
    Obeys (HandlerRule task) task (fun _ _ => True) (releaseFailclosed held message context refusal) past := by
  refine obeys_request ⟨holds, fun approved => by cases approved⟩ fun _ _ _ _ _ => ?_
  refine obeys_request ⟨rfl, .inl ⟨held, _, rfl, ?_, did_now ..⟩⟩ fun _ _ forced _ _ => ?_
  · intro approved
    cases approved
  · cases forced <;> trivial

theorem settleClaim_obeys {held : ClaimedDecision} (holds : (task, held) ∈ heldClaims past)
    {reviewed : Option SpawnAgentRequest} {rich : RichDecision}
    (approval : rich.decision = .approve → ∃ request, reviewed = some request ∧ rich.updatedInput = some request.toValue)
    (unforced : rich.decision = .approve → Unforced task past) (resolver : String) :
    Obeys (HandlerRule task) task (fun _ _ => True) (settleClaim held reviewed rich resolver) past := by
  have release (statement : Statement) (before : Shared) (reply : Except String statement.Reply)
      (message context refusal : String) : Obeys (HandlerRule task) task (fun _ _ => True)
        (releaseFailclosed held message context refusal)
        (.performed task (.executeTimed statement) before reply :: past) :=
    releaseFailclosed_obeys
      (show (task, held) ∈ heldClaims (.performed task (.executeTimed statement) before reply :: past) from holds)
      message context refusal
  unfold settleClaim
  cases chosen : rich.decision with
  | approve =>
    obtain ⟨request, rfl, carried⟩ := approval chosen
    refine obeys_ask ⟨held, holds, rfl⟩ fun _ before persisted _ _ => ?_
    match persisted with
    | .ok true =>
      refine obeys_request ⟨holds, fun _ => ⟨request, resolver, did_now .., carried, ?_⟩⟩ fun _ _ _ _ _ => trivial
      exact (unforced chosen).step (.executeTimed (.resolveSpawnPendingBy held.request.id request resolver)) before (.ok true)
        fun _ _ _ => ⟨fun same => (by cases same), fun same => (by cases same)⟩
    | .ok false | .error _ => exact release _ before _ _ _ _
  | deny =>
    refine obeys_ask ⟨held, holds, rfl, rfl⟩ fun _ before persisted _ _ => ?_
    match persisted with
    | .ok true =>
      refine obeys_request ⟨holds, fun approved => ?_⟩ fun _ _ _ _ _ => trivial
      cases chosen.symm.trans approved
    | .ok false | .error _ => exact release _ before _ _ _ _
  | ask =>
    refine obeys_ask ⟨held, holds, rfl⟩ fun _ before persisted _ _ => ?_
    match persisted with
    | .ok true =>
      refine obeys_request ⟨holds, fun approved => ?_⟩ fun _ _ _ _ _ => trivial
      cases chosen.symm.trans approved
    | .ok false | .error _ => exact release _ before _ _ _ _

theorem finalizeSpawnDecision_obeys (id : Uuid) (rich : RichDecision) (resolver : String)
    (unforced : rich.decision = .approve → Unforced task past) :
    Obeys (HandlerRule task) task (fun _ _ => True) (finalizeSpawnDecision id rich resolver) past := by
  refine obeys_ask trivial fun _ seen inspected _ _ => ?_
  have looked : rich.decision = .approve → Unforced task _ := fun approved =>
    (unforced approved).step (.inspect id) seen inspected
      fun _ _ _ => ⟨fun same => (by cases same), fun same => (by cases same)⟩
  match inspected, looked with
  | (none, _), _ | (some _, false), _ => trivial
  | (some pending, true), looked =>
    change Obeys (HandlerRule task) task (fun _ _ => True) (reviewSpawn pending rich >>= _) _
    refine obeys_bind (reviewSpawn_obeys pending rich looked) fun result current ⟨still, reviews⟩ => ?_
    match result, reviews with
    | .error error, _ => trivial
    | .ok (reviewed, changed), reviews =>
      obtain ⟨same, approval⟩ := reviews _ _ rfl
      refine obeys_ask trivial fun _ before claimed _ _ => ?_
      match claimed with
      | .absent | .expired => trivial
      | .claimed held =>
        refine settleClaim_obeys ?_ approval (fun approved => ?_) resolver
        · exact List.mem_append_right _ (List.mem_singleton.mpr rfl)
        · exact (still (same ▸ approved)).step (.claim id changed.decision) before (.claimed held)
            fun _ _ _ => ⟨fun same => (by cases same), fun same => (by cases same)⟩

theorem decideSpawn_obeys (id : Uuid) (rich : RichDecision) (resolver failure : String)
    (unforced : rich.decision = .approve → Unforced task past) :
    Obeys (HandlerRule task) task (fun _ _ => True) (decideSpawn id rich resolver failure) past := by
  refine obeys_bind (finalizeSpawnDecision_obeys id rich resolver unforced) fun decided _ _ => ?_
  cases decided with
  | error error => exact obeys_request trivial fun _ _ _ _ _ => trivial
  | ok _ => trivial

theorem denySpawns_obeys (resolver : String) (ids : List Uuid) :
    Obeys (HandlerRule task) task (fun _ _ => True) (denySpawns resolver ids) past := by
  induction ids generalizing past with
  | nil => trivial
  | cons id rest ih =>
    refine obeys_bind (finalizeSpawnDecision_obeys id _ resolver fun approved => by cases approved) ?_
    intro decided current _
    refine obeys_bind ih fun later _ _ => ?_
    cases decided <;> trivial

theorem eagerPersist_obeys {id : Uuid} {decision : Decision} (entitled : Entitled task id decision past)
    (resolver : String) :
    Obeys (HandlerRule task) task (fun _ current => Continues (fun _ => True) task past current)
      (eagerPersist id decision resolver) past := by
  refine obeys_bind (resolvePendingBy_obeys entitled resolver) fun _ _ ⟨_, _, later⟩ => ?_
  exact later.widen fun _ _ => trivial

theorem eagerPersistEach_obeys {decision : Decision} (resolver : String) (ids : List Uuid)
    (entitled : ∀ id ∈ ids, Entitled task id decision past) :
    Obeys (HandlerRule task) task (fun _ _ => True) (eagerPersistEach decision resolver ids) past := by
  induction ids generalizing past with
  | nil => trivial
  | cons id rest ih =>
    refine obeys_bind (eagerPersist_obeys (entitled id (List.mem_cons_self ..)) resolver) fun _ _ later => ?_
    exact ih fun other member => (entitled other (List.mem_cons_of_mem _ member)).later later

/-- Steps that no rule forbids. -/
theorem obeys_plain {α : Type} {returns : α → Prop} {program : Daemon α}
    (uses : program.Uses allowed Request.Possible returns)
    (permits : ∀ request past, allowed request → HandlerRule task past request) :
    Obeys (HandlerRule task) task (fun value current => returns value ∧ Continues allowed task past current)
      program past :=
  Obeys.of_uses (fun _ _ _ _ _ => Shared.perform_possible) uses permits

theorem write_permitted (request : Request) (past : Trace) (step : WriteStep request) :
    HandlerRule task past request := by
  cases request <;> first | exact step.elim | trivial

/-- A look at the registry. -/
def FreshStep : Request → Prop
  | .isFresh _ => True
  | _ => False

theorem sudoGate_uses (deviceId : Option DeviceId) (pending : Option DecisionRequest) :
    (sudoGate deviceId pending).Uses FreshStep Request.Possible fun _ => True := by
  unfold sudoGate
  split
  · split
    · refine uses_ask trivial fun fresh _ => ?_
      cases fresh <;> trivial
    · trivial
  · trivial

theorem sudoGate_obeys (deviceId : Option DeviceId) (pending : Option DecisionRequest) :
    Obeys (HandlerRule task) task (fun _ current => True ∧ Continues FreshStep task past current)
      (sudoGate deviceId pending) past := by
  apply obeys_plain (sudoGate_uses deviceId pending)
  intro request past step
  cases request <;> first | exact step.elim | trivial

/-- What a command knows at its start. -/
structure Starts (issued : ClientCommand) (task : Nat) (past : Trace) : Prop where
  job : jobOf task past = some (.command issued)
  unforced : Unforced task past

theorem Starts.launched (issued : ClientCommand) (task : Nat) :
    Starts issued task [.launched task (.command issued)] where
  job := jobOf_launched ..
  unforced id decidedBy fallback := by
    constructor <;> rintro reply ⟨before, member⟩ <;> cases List.mem_singleton.mp member

theorem Starts.later {issued : ClientCommand} (starts : Starts issued task past)
    (later : Continues allowed task past current)
    (quiet : ∀ id decidedBy fallback, ¬ allowed (.execute (.forceFailclosedSpawnResolution id decidedBy fallback)) ∧
      ¬ allowed (.executeTimed (.forceFailclosedSpawnResolution id decidedBy fallback))) :
    Starts issued task current :=
  ⟨(jobOf_later later).trans starts.job, starts.unforced.later later quiet⟩

theorem Starts.step {issued : ClientCommand} (starts : Starts issued task past) (request : Request) (before : Shared)
    (reply : request.Reply)
    (quiet : ∀ id decidedBy fallback, request ≠ .execute (.forceFailclosedSpawnResolution id decidedBy fallback) ∧
      request ≠ .executeTimed (.forceFailclosedSpawnResolution id decidedBy fallback)) :
    Starts issued task (.performed task request before reply :: past) :=
  ⟨starts.job, starts.unforced.step request before reply quiet⟩

/-- A decision that is recorded if the item was resolved. -/
theorem resolveRecorded_obeys {issued : ClientCommand} (job : jobOf task past = some (.command issued)) (id : Uuid)
    (rich : RichDecision) (decision : Decision) (chosen : rich.decision = decision) (resolver : String) :
    Obeys (HandlerRule task) task (fun _ _ => True)
      (do if ← resolve id rich then eagerPersist id decision resolver : Daemon Unit) past := by
  refine obeys_ask trivial fun _ before resolved _ _ => ?_
  cases resolved with
  | false => trivial
  | true =>
    have entitled : Entitled task id decision (.performed task (.resolve id rich) before true :: past) :=
      .inr ⟨⟨issued, job⟩, .inl ⟨rich, did_now .., chosen⟩⟩
    exact (eagerPersist_obeys entitled resolver).mono fun _ _ _ => trivial

theorem handleApprove_obeys {issued : ClientCommand} (starts : Starts issued task past) (deviceId : Option DeviceId)
    (id : Uuid) (message : Option String) (updatedInput : Option Json) (alwaysAllow : Bool)
    (additionalContext : Option String) :
    Obeys (HandlerRule task) task (fun _ _ => True)
      (handleApprove deviceId id message updatedInput alwaysAllow additionalContext) past := by
  refine obeys_ask trivial fun _ before inspected _ _ => ?_
  have looked := starts.step (.inspect id) before inspected
    fun _ _ _ => ⟨fun same => (by cases same), fun same => (by cases same)⟩
  refine obeys_bind (sudoGate_obeys deviceId inspected.1) fun held current ⟨_, later⟩ => ?_
  have gated := looked.later later fun _ _ _ => ⟨fun step => step, fun step => step⟩
  cases held with
  | some message => exact obeys_request trivial fun _ _ _ _ _ => trivial
  | none =>
    change Obeys (HandlerRule task) task (fun _ _ => True) (approve id inspected.2 _ _) current
    unfold approve
    split
    · exact decideSpawn_obeys id _ _ _ fun _ => gated.unforced
    · exact resolveRecorded_obeys gated.job id _ .approve rfl _

theorem handleApprovePermission_obeys {issued : ClientCommand} (starts : Starts issued task past)
    (deviceId : Option DeviceId) (id : Uuid) (suggestionIndex : Nat) (message : Option String)
    (body : issued.body = .approvePermission id suggestionIndex message) :
    Obeys (HandlerRule task) task (fun _ _ => True)
      (handleApprovePermission deviceId id suggestionIndex message) past := by
  refine obeys_ask trivial fun _ before inspected _ _ => ?_
  refine obeys_bind (sudoGate_obeys deviceId inspected.1) fun held current ⟨_, later⟩ => ?_
  cases held with
  | some message => exact obeys_request trivial fun _ _ _ _ _ => trivial
  | none =>
    obtain ⟨pending, managed⟩ := inspected
    cases pending with
    | none => exact obeys_request trivial fun _ _ _ _ _ => trivial
    | some req =>
      cases chosen : req.permissionSuggestions.bind (·[suggestionIndex]?) with
      | none =>
        simp only [Option.bind_some, chosen]
        exact obeys_request trivial fun _ _ _ _ _ => trivial
      | some selected =>
        simp only [Option.bind_some, chosen]
        refine obeys_ask trivial fun _ seen resolved _ _ => ?_
        have suggested : req.permissionSuggestions.isSome = true := by
          obtain ⟨suggestions, given, _⟩ := Option.bind_eq_some_iff.mp chosen
          rw [given]
          rfl
        refine (eagerPersist_obeys (.inr ⟨⟨issued, ?_⟩, ?_⟩) _).mono fun _ _ _ => trivial
        · exact (jobOf_later later).trans starts.job
        · refine .inr (.inr (.inr ⟨issued, suggestionIndex, message, req, managed, _, resolved, ?_, body, ?_, suggested,
            did_now .., rfl, rfl⟩))
          · exact (jobOf_later later).trans starts.job
          · exact ((did_now ..).later later).cons _

theorem handleDeny_obeys {issued : ClientCommand} (starts : Starts issued task past) (deviceId : Option DeviceId)
    (id : Uuid) (message : Option String) :
    Obeys (HandlerRule task) task (fun _ _ => True) (handleDeny deviceId id message) past := by
  refine obeys_ask trivial fun _ before inspected _ _ => ?_
  split
  · exact decideSpawn_obeys id _ _ _ fun approved => by cases approved
  · have job : jobOf task (.performed task (.inspect id) before inspected :: past) = some (.command issued) :=
      starts.job
    exact resolveRecorded_obeys job id _ .deny rfl _

theorem handleAsk_obeys (deviceId : Option DeviceId) (id : Uuid) :
    Obeys (HandlerRule task) task (fun _ _ => True) (handleAsk deviceId id) past := by
  refine obeys_ask trivial fun _ before inspected _ _ => ?_
  split
  · exact decideSpawn_obeys id _ _ _ fun approved => by cases approved
  · exact obeys_request trivial fun _ _ _ _ _ => trivial

theorem writeEach_obeys (messages : List ServerMessage) :
    Obeys (HandlerRule task) task (fun _ _ => True) (writeEach messages) past :=
  (obeys_plain (writeEach_uses messages) write_permitted).mono fun _ _ _ => trivial

theorem handleApproveAll_obeys {issued : ClientCommand} (starts : Starts issued task past)
    (deviceId : Option DeviceId) (filter : Option DecisionFilter) (confirm : Bool) :
    Obeys (HandlerRule task) task (fun _ _ => True) (handleApproveAll deviceId filter confirm) past := by
  unfold handleApproveAll
  split
  · exact obeys_request trivial fun _ _ _ _ _ => trivial
  · cases deviceId with
    | none =>
      refine obeys_ask trivial fun _ before resolved _ _ => ?_
      refine eagerPersistEach_obeys _ resolved fun id member => .inr ⟨⟨issued, starts.job⟩, ?_⟩
      exact .inr (.inr (.inl ⟨filter, _, resolved, member, did_now ..⟩))
    | some device =>
      refine obeys_ask trivial fun _ seen items _ _ => ?_
      refine obeys_ask trivial fun _ checked fresh _ _ => ?_
      refine obeys_ask trivial fun _ before resolved _ _ => ?_
      refine obeys_bind (eagerPersistEach_obeys _ resolved fun id member => .inr ⟨⟨issued, starts.job⟩, ?_⟩)
        fun _ _ _ => writeEach_obeys _
      exact .inr (.inl ⟨_, _, resolved, member, rfl, .inr (did_now ..)⟩)

theorem handleDenyAll_obeys {issued : ClientCommand} (starts : Starts issued task past) (deviceId : Option DeviceId)
    (filter : Option DecisionFilter) :
    Obeys (HandlerRule task) task (fun _ _ => True) (handleDenyAll deviceId filter) past := by
  refine obeys_ask trivial fun _ seen items _ _ => ?_
  refine obeys_ask trivial fun _ before resolved _ _ => ?_
  refine obeys_bind (eagerPersistEach_obeys _ resolved fun id member => .inr ⟨⟨issued, starts.job⟩, ?_⟩) ?_
  · exact .inr (.inl ⟨_, _, resolved, member, rfl, .inl (did_now ..)⟩)
  · intro _ _ _
    refine obeys_bind (denySpawns_obeys _ _) fun failed _ _ => ?_
    cases failed with
    | none => trivial
    | some error => exact obeys_request trivial fun _ _ _ _ _ => trivial

theorem handleMarkDeviceFresh_obeys (deviceId : Option DeviceId) :
    Obeys (HandlerRule task) task (fun _ _ => True) (handleMarkDeviceFresh deviceId) past := by
  cases deviceId with
  | none => trivial
  | some device =>
    exact obeys_request trivial fun _ _ _ _ _ => obeys_request trivial fun _ _ _ _ _ => trivial

theorem handleInstallHooks_obeys (deviceId : Option DeviceId) (project : PathBuf) :
    Obeys (HandlerRule task) task (fun _ _ => True) (handleInstallHooks deviceId project) past := by
  cases deviceId with
  | none => exact obeys_request trivial fun _ _ _ _ _ => trivial
  | some device =>
    refine obeys_ask trivial fun _ _ allowed _ _ => ?_
    cases allowed with
    | true => exact obeys_request trivial fun _ _ _ _ _ => trivial
    | false => exact obeys_request trivial fun _ _ _ _ _ => trivial

theorem expireSpawn_obeys (id : Uuid) : Obeys (HandlerRule task) task (fun _ _ => True) (expireSpawn id) past := by
  refine obeys_request trivial fun _ _ _ _ _ => ?_
  refine obeys_bind (finalizeSpawnDecision_obeys id _ _ fun approved => by cases approved) fun _ _ _ => ?_
  exact obeys_request trivial fun _ _ _ _ _ => trivial

/-- What the preparation of a spawn leaves undone. -/
structure Unspawned (task : Nat) (past : Trace) : Prop where
  undrawn : ∀ id, ¬ Did task .newV4 id past
  unqueued : ∀ other channel, ¬ Did task (.enqueueManagedSpawn other) channel past
  unlaunched : ∀ other reply, ¬ Did task (.spawnAgent other) reply past

theorem Unspawned.launched (job : Job) (task : Nat) : Unspawned task [.launched task job] := by
  constructor
  · intro id ⟨before, member⟩
    cases List.mem_singleton.mp member
  · intro other channel ⟨before, member⟩
    cases List.mem_singleton.mp member
  · intro other reply ⟨before, member⟩
    cases List.mem_singleton.mp member

/-- The steps of a spawn other than those that the rules look at. -/
def Aside (request : Request) : Prop :=
  request ≠ .newV4 ∧ (∀ req, request ≠ .enqueueManagedSpawn req) ∧ ∀ req, request ≠ .spawnAgent req

theorem Unspawned.step (unspawned : Unspawned task past) (request : Request) (before : Shared)
    (reply : request.Reply) (aside : Aside request) :
    Unspawned task (.performed task request before reply :: past) where
  undrawn id did := unspawned.undrawn id (did.earlier aside.1.symm)
  unqueued other channel did := unspawned.unqueued other channel (did.earlier (aside.2.1 other).symm)
  unlaunched other reply did := unspawned.unlaunched other reply (did.earlier (aside.2.2 other).symm)

/-- A spawn request that waits for its decision, with nothing launched yet. -/
structure Waits (task : Nat) (req : DecisionRequest) (channel : Channel) (past : Trace) : Prop where
  queued : Queued task req channel past
  unlaunched : ∀ other reply, ¬ Did task (.spawnAgent other) reply past

theorem enqueueSpawnForApproval_obeys (req : SpawnAgentRequest) (unspawned : Unspawned task past) :
    Obeys (HandlerRule task) task (fun result current => ∀ decision channel, result = .ok (decision, channel) →
      Waits task decision channel current) (enqueueSpawnForApproval req) past := by
  refine obeys_request unspawned.undrawn fun _ drawn id _ _ => ?_
  refine obeys_request trivial fun _ clock timestamp _ _ => ?_
  have unqueued : ∀ other channel, ¬ Did task (.enqueueManagedSpawn other) channel
      (.performed task .utcNow clock timestamp :: .performed task .newV4 drawn id :: past) := fun other channel did =>
    unspawned.unqueued other channel
      ((did.earlier fun same => by cases same).earlier fun same => by cases same)
  refine obeys_request (.inr ⟨(did_now ..).cons _, unqueued⟩) fun _ seen stored _ _ => ?_
  match stored with
  | .error error => exact fun _ _ failed => by cases failed
  | .ok () =>
    refine obeys_request trivial fun _ looked managed _ _ => ?_
    match managed with
    | .error error | .ok false => exact fun _ _ failed => by cases failed
    | .ok true =>
      refine obeys_request ⟨⟨rfl, rfl, rfl⟩, (((did_now ..).cons _).cons _).cons _, ?_⟩
        fun _ before admitted _ _ => ?_
      · intro other channel did
        apply unqueued other channel
        exact (did.earlier fun same => by cases same).earlier fun same => by cases same
      · match admitted with
        | none => exact obeys_request trivial fun _ _ _ _ _ => fun _ _ failed => by cases failed
        | some channel =>
          intro _ _ returned
          cases returned
          refine ⟨did_now .., fun other reply did => unspawned.unlaunched other reply ?_⟩
          have earlier := did.earlier fun same => by cases same
          have earlier := earlier.earlier fun same => by cases same
          have earlier := earlier.earlier fun same => by cases same
          have earlier := earlier.earlier fun same => by cases same
          exact earlier.earlier fun same => by cases same

/-- What the end of a worker's wait leaves. -/
structure Ended (task : Nat) (req : DecisionRequest) (channel : Channel) (result : Except SpawnRunError Unit)
    (current : Trace) : Prop where
  queued : Queued task req channel current
  closed : result = .error .channelClosed → Did task (.receive channel) none current

theorem runAfterSpawnApproval_obeys {decision : DecisionRequest} {channel : Channel} (original : SpawnAgentRequest)
    (waits : Waits task decision channel past) :
    Obeys (HandlerRule task) task (fun result current => Ended task decision channel result current)
      (runAfterSpawnApproval channel original) past := by
  refine obeys_request ⟨decision, waits.queued⟩ fun _ before received _ _ => ?_
  cases received with
  | none => exact ⟨waits.queued.cons _, fun _ => did_now ..⟩
  | some rich =>
    cases chosen : rich.decision with
    | deny =>
      simp only [Program.bind, chosen]
      exact ⟨waits.queued.cons _, fun failed => by cases failed⟩
    | ask =>
      simp only [Program.bind, chosen]
      exact ⟨waits.queued.cons _, fun failed => by cases failed⟩
    | approve =>
      simp only [Program.bind, chosen]
      cases decoded : decodeCompleteSpawnInput (rich.updatedInput.getD original.toValue) with
      | error reason => exact ⟨waits.queued.cons _, fun failed => by cases failed⟩
      | ok edited =>
        refine obeys_request trivial fun _ seen project _ _ => ?_
        cases project with
        | error reason => exact ⟨(waits.queued.cons _).cons _, fun failed => by cases failed⟩
        | ok project =>
          refine obeys_request trivial fun _ mode denial _ _ => ?_
          cases denial with
          | some reason => exact ⟨((waits.queued.cons _).cons _).cons _, fun failed => by cases failed⟩
          | none =>
            refine obeys_request ⟨⟨decision, channel, rich, edited, ((waits.queued.cons _).cons _).cons _,
              ((did_now ..).cons _).cons _, chosen, fun input given => ?_, rfl⟩, fun other reply did => ?_⟩
              fun _ last launched _ _ => ⟨(((waits.queued.cons _).cons _).cons _).cons _, fun failed => ?_⟩
            · rw [given] at decoded
              exact decoded
            · apply waits.unlaunched other reply
              have earlier := did.earlier fun same => by cases same
              have earlier := earlier.earlier fun same => by cases same
              exact earlier.earlier fun same => by cases same
            · cases launched <;> cases failed

theorem finalizeSpawnAbandonment_obeys {id : Uuid} (abandoned : Abandoned task id past) (decidedBy : String) :
    Obeys (HandlerRule task) task (fun _ _ => True) (finalizeSpawnAbandonment id decidedBy) past := by
  obtain ⟨req, channel, queued, same, closed⟩ := abandoned
  refine obeys_ask trivial fun _ before items _ _ => ?_
  split
  · trivial
  · trivial
  next fallback found =>
    have named : fallback.id = id := by simpa using List.find?_some found
    refine obeys_ask ⟨named, .inr ⟨req, channel, queued.cons _, same, closed.cons _⟩⟩ fun _ _ forced _ _ => ?_
    cases forced with
    | error error => trivial
    | ok _ =>
      refine obeys_ask (.inr ⟨rfl, req, channel, ?_, same, ?_⟩) fun _ _ _ _ _ => trivial
      · exact (queued.cons _).cons _
      · exact (closed.cons _).cons _

theorem settleSpawnExpiry_obeys (id : Uuid) :
    Obeys (HandlerRule task) task (fun _ current => Continues (fun _ => True) task past current)
      (settleSpawnExpiry id) past := by
  refine obeys_request trivial fun _ before started _ _ => ?_
  have first : Continues (fun _ => True) task past (.performed task (.loadStarted id) before started :: past) :=
    Continues.one before started trivial
  cases started
  · exact obeys_request trivial fun _ _ _ _ _ => first.trans (Continues.one _ _ trivial)
  · exact obeys_request trivial fun _ _ _ _ _ => first.trans (Continues.one _ _ trivial)

theorem spawnWorker_obeys {decision : DecisionRequest} {channel : Channel} (req : SpawnAgentRequest)
    (correlationId : Option String) (deviceId : Option DeviceId) (waits : Waits task decision channel past) :
    Obeys (HandlerRule task) task (fun _ _ => True) (spawnWorker decision channel req correlationId deviceId)
      past := by
  refine obeys_bind (runAfterSpawnApproval_obeys req waits) fun result current ended => ?_
  refine obeys_bind (settleSpawnExpiry_obeys decision.id) fun _ settled later => ?_
  cases result with
  | ok _ => trivial
  | error error =>
    have reply (past : Trace) : Obeys (HandlerRule task) task (fun _ _ => True)
        (do let _ ← writeMsg (spawnErrorReply ("failed to spawn agent: " ++ error.display) correlationId deviceId)
          : Daemon Unit) past :=
      obeys_request trivial fun _ _ _ _ _ => trivial
    cases error with
    | channelClosed =>
      have closed := (ended.closed rfl).later later
      have abandoned : Abandoned task decision.id settled := ⟨decision, channel, ended.queued.later later, rfl, closed⟩
      have recorded : Obeys (HandlerRule task) task (fun _ _ => True)
          (recordSpawnError decision.id .channelClosed) settled :=
        obeys_bind (finalizeSpawnAbandonment_obeys abandoned _) fun _ _ _ => trivial
      exact obeys_bind recorded fun _ current _ => reply current
    | invalidRequest reason | action reason => exact obeys_request trivial fun _ _ _ _ _ => reply _
    | denied message => exact reply _
    | deferred => exact reply _

theorem handleSpawnAgent_obeys (req : SpawnAgentRequest) (correlationId : Option String)
    (deviceId : Option DeviceId) (unspawned : Unspawned task past) :
    Obeys (HandlerRule task) task (fun _ _ => True) (handleSpawnAgent req correlationId deviceId) past := by
  refine obeys_ask trivial fun _ mode denial _ _ => ?_
  have checked := unspawned.step .modeDenial mode denial
    ⟨fun same => (by cases same), fun _ same => (by cases same), fun _ same => (by cases same)⟩
  cases denial with
  | some reason => exact obeys_request trivial fun _ _ _ _ _ => trivial
  | none =>
    refine obeys_request trivial fun _ before project _ _ => ?_
    have validated := checked.step (.validateProject req) before project
      ⟨fun same => (by cases same), fun _ same => (by cases same), fun _ same => (by cases same)⟩
    cases project with
    | error error => exact obeys_request trivial fun _ _ _ _ _ => trivial
    | ok project =>
      change Obeys (HandlerRule task) task (fun _ _ => True)
        (enqueueSpawnForApproval { req with project } >>= _) _
      refine obeys_bind (enqueueSpawnForApproval_obeys { req with project } validated) fun queued current waits => ?_
      match queued, waits with
      | .error error, _ => exact obeys_request trivial fun _ _ _ _ _ => trivial
      | .ok (decision, channel), waits =>
        have waits := waits _ _ rfl
        cases correlationId with
        | none => exact spawnWorker_obeys _ none deviceId waits
        | some correlation =>
          refine obeys_request trivial fun _ seen written _ _ => ?_
          cases written
          · trivial
          · refine spawnWorker_obeys _ (some correlation) deviceId ⟨waits.queued.cons _, fun other reply did => ?_⟩
            exact waits.unlaunched other reply (did.earlier fun same => by cases same)

theorem dispatchCommand_obeys {issued : ClientCommand} (starts : Starts issued task past)
    (unspawned : Unspawned task past) :
    Obeys (HandlerRule task) task (fun _ _ => True) (dispatchCommand issued) past := by
  obtain ⟨body, deviceId, correlationId⟩ := issued
  cases body with
  | approve id message updatedInput alwaysAllow additionalContext =>
    exact handleApprove_obeys starts deviceId id message updatedInput alwaysAllow additionalContext
  | deny id message => exact handleDeny_obeys starts deviceId id message
  | ask id => exact handleAsk_obeys deviceId id
  | approveAll filter confirm => exact handleApproveAll_obeys starts deviceId filter confirm
  | denyAll filter => exact handleDenyAll_obeys starts deviceId filter
  | approvePermission id suggestionIndex message =>
    exact handleApprovePermission_obeys starts deviceId id suggestionIndex message rfl
  | installHooks project => exact handleInstallHooks_obeys deviceId project
  | markDeviceFresh => exact handleMarkDeviceFresh_obeys deviceId
  | spawnAgent req => exact handleSpawnAgent_obeys req correlationId deviceId unspawned
  | _ => trivial

/-- Every job follows the rules, and a hook's ends settled. -/
theorem body_obeys (job : Job) :
    Obeys (HandlerRule task) task (fun _ => HookSettled task) job.body [.launched task job] := by
  have settled {program : Daemon Unit} (other : ∀ req, job ≠ .hook req)
      (obeys : Obeys (HandlerRule task) task (fun _ _ => True) program [.launched task job]) :
      Obeys (HandlerRule task) task (fun _ => HookSettled task) program [.launched task job] := by
    refine (obeys_continues obeys program.uses_all).mono fun _ current ⟨_, _, later⟩ req known _ => ?_
    have same : jobOf task [.launched task job] = some (.hook req) := (jobOf_later later).symm.trans known
    rw [jobOf_launched] at same
    exact absurd (Option.some.inj same) (other req)
  cases job with
  | hook req => exact handleHook_obeys req
  | command issued =>
    exact settled (fun _ same => by cases same)
      (dispatchCommand_obeys (.launched issued task) (.launched (.command issued) task))
  | expiry id => exact settled (fun _ same => by cases same) (expireSpawn_obeys id)

/-- A contract that asks for no more than the rules give is kept by every job. -/
theorem body_kept {guard : Guard daemon} {contract : Contract daemon} {job : Job} {trace : Trace}
    (fresh : Fresh task trace)
    (may : ∀ request trace shared, contract.valid trace shared → HandlerRule task (own task trace) request →
      contract.may task request trace shared)
    (done : ∀ trace, HookSettled task (own task trace) → contract.done task trace) :
    Safe guard contract task (fun _ => contract.done task) job.body (.launched task job :: trace) := by
  have obeys : Obeys (HandlerRule task) task (fun _ => HookSettled task) job.body (own task (.launched task job :: trace)) := by
    rw [own_cons rfl, own_fresh fresh]
    exact body_obeys job
  exact obeys.safe may fun _ => done

end Wisphive
