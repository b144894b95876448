import Wisphive.DaemonRuns
import Wisphive.Proofs.Footprints

/-! The gate's answer reaches the approval: whoever releases a sudo-class request
that its gate saw has checked its device before. -/

namespace Wisphive
open Foundation Program

/-- A step that can release an id as approved. -/
def Releases (id : Uuid) : Request → Prop
  | .resolve other rich => rich.decision = .approve ∧ other = id
  | .resolveListed ids rich | .resolveOrdinary ids rich => rich.decision = .approve ∧ id ∈ ids
  | .resolveAll _ decision _ => decision = .approve
  | .completeClaim held rich => rich.decision = .approve ∧ held.request.id = id
  | _ => False

namespace DecisionQueue

theorem peek_id {queue : DecisionQueue} {id : Uuid} {req : DecisionRequest} (found : queue.peek id = some req) :
    req.id = id := by
  simpa using List.find?_some found

theorem resolveListed_subset (queue : DecisionQueue) (rich : RichDecision) (ids : List Uuid) :
    ∀ id ∈ (queue.resolveListed rich ids).1, id ∈ ids := by
  induction ids generalizing queue with
  | nil => exact fun _ member => member
  | cons id rest ih =>
    intro other member
    simp only [resolveListed] at member
    split at member
    · rcases List.mem_cons.mp member with rfl | later
      · exact List.mem_cons_self ..
      · exact List.mem_cons_of_mem _ (ih _ other later)
    · exact List.mem_cons_of_mem _ (ih _ other member)

end DecisionQueue

private theorem released_listed {queue : DecisionQueue} {rich : RichDecision} {ids : List Uuid} {req : DecisionRequest}
    (member : req ∈ (queue.resolveListed rich ids).1.filterMap queue.peek) : req.id ∈ ids := by
  obtain ⟨id, released, found⟩ := List.mem_filterMap.mp member
  rw [DecisionQueue.peek_id found]
  exact queue.resolveListed_subset rich ids id released

theorem releases_approved {request : Request} {shared : Shared} {req : DecisionRequest}
    (approved : req ∈ request.approves shared) : Releases req.id request := by
  cases request with
  | resolve id rich =>
    simp only [Request.approves] at approved
    split at approved
    next chosen =>
      exact ⟨chosen.1, (DecisionQueue.peek_id (Option.mem_toList.mp approved)).symm⟩
    next => cases approved
  | resolveListed ids rich =>
    simp only [Request.approves] at approved
    split at approved
    next chosen => exact ⟨chosen, released_listed approved⟩
    next => cases approved
  | resolveOrdinary ids rich =>
    simp only [Request.approves] at approved
    split at approved
    next chosen => exact ⟨chosen, (List.mem_filter.mp (released_listed approved)).1⟩
    next => cases approved
  | resolveAll filter decision resolver =>
    simp only [Request.approves] at approved
    split at approved
    next chosen => exact chosen
    next => cases approved
  | completeClaim held rich =>
    simp only [Request.approves] at approved
    split at approved
    next chosen => exact ⟨chosen, by rw [List.mem_singleton.mp approved]⟩
    next => cases approved
  | _ => cases approved

namespace Trace
variable {task : Nat} {device : DeviceId} {trace : Trace}

theorem checked_cons (found : checked task device trace = true) (entry : Entry daemon) :
    checked task device (entry :: trace) = true := by
  simp only [checked, List.any_cons, Bool.or_eq_true]
  exact .inr found

theorem gateLook_stable (look : List DecisionRequest) : Stable task fun trace => gateLook task trace = some look :=
  .of_cons fun _ _ _ found => by simp only [gateLook, found]

theorem deviceOf_stable (owner : Option DeviceId) : Stable task fun trace => deviceOf task trace = owner :=
  .of_cons fun _ trace foreign known => (deviceOf_cons trace foreign).trans known

/-- A sudo-class id was seen, and nothing else was seen under it. -/
theorem sawSudo_seen {look : List DecisionRequest} {id : Uuid} (looked : gateLook task trace = some look)
    (saw : sawSudo task id trace = true) :
    (∃ req ∈ look, req.id = id) ∧ ∀ req ∈ look, req.id = id → isSudoTool req.toolName = true := by
  simp only [sawSudo, looked, Bool.and_eq_true, Bool.not_eq_true', List.isEmpty_eq_false_iff_exists_mem,
    List.all_eq_true, List.mem_filter, decide_eq_true_eq, and_imp] at saw
  exact saw

end Trace

/-- What the proof carries from the gate to the approval: for the targets that the
gate saw as sudo-class there has been a check. -/
structure Passed (task : Nat) (device : DeviceId) (targets : Uuid → Prop) (trace : Trace) : Prop where
  owner : Trace.deviceOf task trace = some device
  looked : ∃ look, Trace.gateLook task trace = some look
  gated : ∀ id, targets id → Trace.sawSudo task id trace = true → Trace.checked task device trace = true

def gateContract : Contract daemon where
  valid trace _ := Trace.Gated trace
  may task request trace _ := ∀ device ∈ Trace.deviceOf task trace, ∀ id, Releases id request →
    Trace.sawSudo task id trace = true → Trace.checked task device trace = true

variable {task : Nat} {device : DeviceId} {targets : Uuid → Prop} {trace : Trace}

theorem Passed.stable : Stable task (Passed task device targets) :=
  .of_cons fun entry trace foreign known => by
    obtain ⟨owner, ⟨look, looked⟩, gated⟩ := known
    have later : Trace.gateLook task (entry :: trace) = some look := by simp only [Trace.gateLook, looked]
    refine ⟨(Trace.deviceOf_cons trace foreign).trans owner, ⟨look, later⟩, fun id target saw => ?_⟩
    apply Trace.checked_cons
    apply gated id target
    simp only [Trace.sawSudo, later] at saw
    simpa only [Trace.sawSudo, looked] using saw

/-- Past the gate, a program may release what it passed for. -/
theorem Passed.safe {allowed : Request → Prop} {program : Daemon Unit} (passed : Passed task device targets trace)
    (uses : program.Uses allowed Request.Possible fun _ => True)
    (aimed : ∀ request, allowed request → ∀ id, Releases id request → targets id) :
    Safe gateSees gateContract task (fun _ => gateContract.done task) program trace := by
  refine safe_of_uses Passed.stable uses passed ?_ fun _ _ _ _ => trivial
  intro request trace shared permitted passed _ owner same id releases saw
  cases passed.owner.symm.trans same
  exact passed.gated id (aimed request permitted id releases) saw

/-- A program that releases nothing as approved. -/
theorem quiet_safe {allowed : Request → Prop} {program : Daemon Unit}
    (uses : program.Uses allowed Request.Possible fun _ => True)
    (quiet : ∀ request, allowed request → ∀ id, ¬ Releases id request) (trace : Trace) :
    Safe gateSees gateContract task (fun _ => gateContract.done task) program trace := by
  refine safe_of_uses (Stable.always : Stable task fun _ => True) uses trivial ?_ fun _ _ _ _ => trivial
  intro request trace shared permitted _ _ device owned id releases
  exact absurd releases (quiet request permitted id)

/-- Nothing is asked of a task without a device. -/
theorem local_safe {program : Daemon Unit} (owner : Trace.deviceOf task trace = none) :
    Safe gateSees gateContract task (fun _ => gateContract.done task) program trace := by
  refine safe_of_uses (Trace.deviceOf_stable none) program.uses_all owner ?_ fun _ _ _ _ => trivial
  intro request trace shared _ known _ device owned
  cases known.symm.trans owned

/-- Whatever the gate saw, it is passed with a check or without a sudo-class request. -/
theorem sudoGate_safe {pending : Option DecisionRequest} {next : Option ServerMessage → Daemon Unit}
    (owner : Trace.deviceOf task trace = some device) (looked : Trace.gateLook task trace = some pending.toList)
    (held : ∀ message, (next (some message)).Uses WriteStep Request.Possible fun _ => True)
    (passes : ∀ later, Passed task device (fun _ => True) later →
      Safe gateSees gateContract task (fun _ => gateContract.done task) (next none) later) :
    Safe gateSees gateContract task (fun _ => gateContract.done task) (sudoGate (some device) pending >>= next)
      trace := by
  cases pending with
  | none =>
    refine passes trace ⟨owner, ⟨_, looked⟩, fun id _ saw => ?_⟩
    obtain ⟨⟨_, member, _⟩, _⟩ := Trace.sawSudo_seen looked saw
    cases member
  | some req =>
    by_cases sudoClass : isSudoTool req.toolName = true
    · rw [sudoGate, if_pos sudoClass]
      refine safe_request fun later shared grown valid => ⟨fun _ _ _ releases => releases.elim, ?_⟩
      intro choice reply after granted performed kept
      cases reply with
      | false => exact quiet_safe (held _) (fun request write id releases => by
          cases request <;> first | exact write.elim | exact releases.elim) _
      | true =>
        apply passes
        have before := (Trace.deviceOf_stable _).grown grown owner
        have look := (Trace.gateLook_stable _).grown grown looked
        have fresh := congrArg Prod.fst (Option.some.inj performed)
        refine ⟨before, ⟨_, (Trace.gateLook_stable _).performed _ _ _ _ look⟩, fun id _ _ => ?_⟩
        simp only [Trace.checked, List.any_cons, Trace.checkedIn, decide_true, Bool.true_and, Bool.or_eq_true]
        exact .inl fresh
    · rw [sudoGate, if_neg sudoClass]
      refine passes trace ⟨owner, ⟨_, looked⟩, fun id _ saw => ?_⟩
      obtain ⟨⟨seen, member, same⟩, all⟩ := Trace.sawSudo_seen looked saw
      cases List.mem_singleton.mp member
      exact absurd (all req member same) sudoClass

/-- Past a gate that let everything pass, nothing is asked. -/
theorem Passed.safe_all {program : Daemon Unit} (passed : Passed task device (fun _ => True) trace) :
    Safe gateSees gateContract task (fun _ => gateContract.done task) program trace :=
  passed.safe program.uses_all fun _ _ _ _ => trivial

theorem lookBy_foreign {entry : Entry daemon} (foreign : entry.task ≠ some task) : Trace.lookBy task entry = none := by
  unfold Trace.lookBy
  split
  · exact if_neg fun same => foreign (congrArg some same)
  · exact if_neg fun same => foreign (congrArg some same)
  · rfl

theorem gateLook_none {earlier later : Trace} (grown : Extends task earlier later)
    (unseen : Trace.gateLook task earlier = none) : Trace.gateLook task later = none := by
  obtain ⟨others, rfl, foreign⟩ := grown
  induction others with
  | nil => exact unseen
  | cons entry rest ih =>
    have kept := ih fun other member => foreign other (List.mem_cons_of_mem _ member)
    simp only [List.cons_append, Trace.gateLook, kept]
    exact lookBy_foreign (foreign entry (List.mem_cons_self ..))

/-- The first look of a task is the one that its gate decides on. -/
theorem gateLook_first {later : Trace} {job : Job} {request : Request} {before : Shared} {reply : request.Reply}
    {look : List DecisionRequest} (fresh : Fresh task trace)
    (grown : Extends task (.launched task job :: trace) later)
    (seen : Trace.lookBy task (.performed task request before reply) = some look) :
    Trace.gateLook task (.performed task request before reply :: later) = some look := by
  have launched : Trace.gateLook task (.launched task job :: trace) = none := by
    simp only [Trace.gateLook, gateLook_none fresh.extends rfl, Trace.lookBy]
  simp only [Trace.gateLook, gateLook_none grown launched, seen]

/-- A command that looks and asks its gate may do anything once it is let through. -/
theorem gated_safe {id : Uuid} {issued : ClientCommand}
    {next : Option DecisionRequest × Bool → Option ServerMessage → Daemon Unit} (fresh : Fresh task trace)
    (owner : issued.deviceId = some device)
    (held : ∀ inspected message, (next inspected (some message)).Uses WriteStep Request.Possible fun _ => True) :
    Safe gateSees gateContract task (fun _ => gateContract.done task)
      (inspect id >>= fun inspected => sudoGate (some device) inspected.1 >>= next inspected)
      (.launched task (.command issued) :: trace) := by
  refine safe_request fun later shared grown valid => ⟨fun _ _ _ releases => releases.elim, ?_⟩
  intro choice reply after granted performed kept
  refine sudoGate_safe ?_ ?_ (held reply) fun _ passed => passed.safe_all
  · apply (Trace.deviceOf_stable _).performed
    apply (Trace.deviceOf_stable _).grown grown
    rw [Trace.deviceOf, Trace.jobOf_launched]
    exact owner
  · exact gateLook_first fresh grown (if_pos rfl)

/-- A step that releases nothing as approved. -/
def Quiet (request : Request) : Prop :=
  ∀ id, ¬ Releases id request

theorem quiet_write (request : Request) (step : WriteStep request) : Quiet request := by
  intro id releases
  cases request <;> first | exact step | exact releases

theorem quiet_worker (request : Request) (step : WorkerStep request) : Quiet request := by
  intro id releases
  cases request <;> first | exact step | exact releases

theorem quiet_record {id : Uuid} {decision : Decision} {decidedBy : String} (request : Request)
    (step : RecordStep id decision decidedBy request) : Quiet request := by
  intro id releases
  cases request <;> first | exact step | exact releases

theorem quiet_spawn {id : Uuid} {decision : Decision} (denied : decision ≠ .approve) (request : Request)
    (step : SpawnStep id decision request) : Quiet request := by
  intro other releases
  cases request with
  | completeClaim held rich =>
    rcases step.2 with same | deny
    · exact denied (same.symm.trans releases.1)
    · cases deny.symm.trans releases.1
  | _ => first | exact step | exact releases

theorem eagerPersistEach_quiet (decision : Decision) (resolver : String) (ids : List Uuid) :
    (eagerPersistEach decision resolver ids).Uses Quiet Request.Possible fun _ => True := by
  refine (eagerPersistEach_uses decision resolver ids).widen fun request recorded => ?_
  obtain ⟨_, _, step⟩ := recorded
  exact quiet_record request step

theorem denySpawns_quiet (resolver : String) (ids : List Uuid) :
    (denySpawns resolver ids).Uses Quiet Request.Possible fun _ => True := by
  refine (denySpawns_uses resolver ids).widen fun request decided => ?_
  obtain ⟨_, _, step⟩ := decided
  exact quiet_spawn (fun same => by cases same) request step

/-- The decisions that approve nothing. -/
theorem decide_quiet (id : Uuid) (isSpawn : Bool) (rich : RichDecision) (resolver failure : String)
    (unapproved : rich.decision ≠ .approve) (rest : Bool → Daemon Unit)
    (later : ∀ resolved, (rest resolved).Uses Quiet Request.Possible fun _ => True) :
    (if isSpawn then decideSpawn id rich resolver failure else resolve id rich >>= rest : Daemon Unit).Uses Quiet
      Request.Possible fun _ => True := by
  split
  · refine (decideSpawn_uses id rich resolver failure).widen fun request step => ?_
    exact step.elim (quiet_spawn unapproved request) (quiet_write request)
  · exact uses_request (fun _ releases => unapproved releases.1) fun resolved _ => later resolved

theorem handleDeny_quiet (deviceId : Option DeviceId) (id : Uuid) (message : Option String) :
    (handleDeny deviceId id message).Uses Quiet Request.Possible fun _ => True := by
  refine uses_request (fun _ releases => releases) fun inspected _ => ?_
  refine decide_quiet id inspected.2 _ _ _ (fun same => by cases same) _ fun resolved => ?_
  split
  · exact (eagerPersist_uses id _ _).widen quiet_record
  · trivial

theorem handleAsk_quiet (deviceId : Option DeviceId) (id : Uuid) :
    (handleAsk deviceId id).Uses Quiet Request.Possible fun _ => True := by
  refine uses_request (fun _ releases => releases) fun inspected _ => ?_
  change (if inspected.2 then _ else _ : Daemon Unit).Uses _ _ _
  split
  · refine (decideSpawn_uses id _ _ _).widen fun request step => ?_
    exact step.elim (quiet_spawn (fun same => by cases same) request) (quiet_write request)
  · exact uses_request (fun _ releases => by cases releases.1) fun _ _ => trivial

theorem handleDenyAll_quiet (deviceId : Option DeviceId) (filter : Option DecisionFilter) :
    (handleDenyAll deviceId filter).Uses Quiet Request.Possible fun _ => True := by
  refine uses_ask (fun _ releases => releases) fun items _ => ?_
  refine uses_ask (fun _ releases => by cases releases.1) fun resolved _ => ?_
  refine uses_bind (eagerPersistEach_quiet _ _ resolved) fun _ _ => ?_
  refine uses_bind (denySpawns_quiet _ _) fun failed _ => ?_
  cases failed
  · trivial
  · exact uses_ask (fun _ releases => releases) fun _ _ => trivial

theorem handleMarkDeviceFresh_quiet (deviceId : Option DeviceId) :
    (handleMarkDeviceFresh deviceId).Uses Quiet Request.Possible fun _ => True := by
  cases deviceId with
  | none => trivial
  | some device => exact uses_request (fun _ releases => releases) fun _ _ => uses_ask (fun _ releases => releases) fun _ _ => trivial

theorem handleInstallHooks_quiet (deviceId : Option DeviceId) (project : PathBuf) :
    (handleInstallHooks deviceId project).Uses Quiet Request.Possible fun _ => True := by
  cases deviceId with
  | none => exact uses_request (fun _ releases => releases) fun _ _ => trivial
  | some device =>
    refine uses_ask (fun _ releases => releases) fun allowed _ => ?_
    cases allowed with
    | true => exact uses_request (fun _ releases => releases) fun _ _ => trivial
    | false => exact uses_ask (fun _ releases => releases) fun _ _ => trivial

theorem approveAllWeb_tail (resolver : String) (ids : List Uuid)
    (messages : List ServerMessage) (rich : RichDecision) :
    (resolveOrdinary ids rich >>= fun resolved => do
      eagerPersistEach .approve resolver resolved
      writeEach messages : Daemon Unit).Uses (fun request => ∀ id, Releases id request → id ∈ ids)
      Request.Possible fun _ => True := by
  refine uses_ask (fun id releases => releases.2) fun resolved _ => ?_
  have quiet : ∀ request, Quiet request → ∀ id, Releases id request → id ∈ ids :=
    fun request quiet id releases => absurd releases (quiet id)
  refine uses_bind ((eagerPersistEach_quiet .approve resolver resolved).widen quiet) fun _ _ => ?_
  exact (writeEach_uses messages).widen fun request step => quiet request (quiet_write request step)

theorem allowed_plain {items : List (Uuid × String)} {item : Uuid × String}
    (allowed : item ∈ (partitionSudoGated false items).2) : item ∈ items ∧ isSudoTool item.2 = false := by
  simp only [partitionSudoGated, Bool.false_eq_true, if_false, List.partition_eq_filter_filter,
    List.mem_filter, Function.comp_apply, Bool.not_eq_true'] at allowed
  exact allowed

/-- A stale device's bulk approval only reaches items that its look showed as not
sudo-class. -/
theorem approveAllWeb_safe {issued : ClientCommand} (fresh : Fresh task trace)
    (owner : issued.deviceId = some device) (filter : Option DecisionFilter) :
    Safe gateSees gateContract task (fun _ => gateContract.done task) (approveAllWeb device filter)
      (.launched task (.command issued) :: trace) := by
  refine safe_ask fun later shared grown valid => ⟨fun _ _ _ releases => releases.elim, ?_⟩
  intro choice items after granted performed kept
  have looked : Trace.gateLook task (.performed task .snapshot shared items :: later) = some (items.map (·.1)) :=
    gateLook_first fresh grown (if_pos rfl)
  have owned : Trace.deviceOf task (.performed task .snapshot shared items :: later) = some device := by
    apply (Trace.deviceOf_stable _).performed
    apply (Trace.deviceOf_stable _).grown grown
    rw [Trace.deviceOf, Trace.jobOf_launched]
    exact owner
  refine safe_ask fun last seen grown valid => ⟨fun _ _ _ releases => releases.elim, ?_⟩
  intro choice answer after granted performed kept
  have look := (Trace.gateLook_stable _).performed (.isFresh device) seen answer _
    ((Trace.gateLook_stable _).grown grown looked)
  have known := (Trace.deviceOf_stable _).performed (.isFresh device) seen answer _
    ((Trace.deviceOf_stable _).grown grown owned)
  refine Passed.safe ⟨known, ⟨_, look⟩, fun id target saw => ?_⟩ (approveAllWeb_tail _ _ _ _)
    fun _ aimed => aimed
  cases answer with
  | true =>
    have checked := congrArg Prod.fst (Option.some.inj performed)
    simp only [Trace.checked, List.any_cons, Trace.checkedIn, decide_true, Bool.true_and, Bool.or_eq_true]
    exact .inl checked
  | false =>
    obtain ⟨_, all⟩ := Trace.sawSudo_seen look saw
    obtain ⟨item, allowed, rfl⟩ := List.mem_map.mp target
    obtain ⟨listed, plain⟩ := allowed_plain allowed
    obtain ⟨⟨req, managed⟩, matching, rfl⟩ := List.mem_map.mp listed
    have sudoClass := all req (List.mem_map.mpr ⟨_, (List.mem_filter.mp matching).1, rfl⟩) rfl
    cases plain.symm.trans sudoClass

theorem handleApproveAll_safe {issued : ClientCommand} (fresh : Fresh task trace)
    (owner : issued.deviceId = some device) (filter : Option DecisionFilter) (confirm : Bool) :
    Safe gateSees gateContract task (fun _ => gateContract.done task) (handleApproveAll (some device) filter confirm)
      (.launched task (.command issued) :: trace) := by
  unfold handleApproveAll
  split
  · exact quiet_safe ((writeMsg_uses _).widen quiet_write) (fun _ quiet => quiet) _
  · exact approveAllWeb_safe fresh owner filter

/-- One case for each command that a web device can send. -/
theorem command_safe {issued : ClientCommand} (fresh : Fresh task trace) (owner : issued.deviceId = some device) :
    Safe gateSees gateContract task (fun _ => gateContract.done task) (dispatchCommand issued)
      (.launched task (.command issued) :: trace) := by
  obtain ⟨body, deviceId, correlationId⟩ := issued
  cases owner
  cases body with
  | approve id message updatedInput alwaysAllow additionalContext =>
    exact gated_safe fresh rfl fun _ _ => uses_ask trivial fun _ _ => trivial
  | approvePermission id suggestionIndex message =>
    exact gated_safe fresh rfl fun _ _ => uses_ask trivial fun _ _ => trivial
  | approveAll filter confirm => exact handleApproveAll_safe fresh rfl filter confirm
  | deny id message => exact quiet_safe (handleDeny_quiet _ id message) (fun _ quiet => quiet) _
  | ask id => exact quiet_safe (handleAsk_quiet _ id) (fun _ quiet => quiet) _
  | denyAll filter => exact quiet_safe (handleDenyAll_quiet _ filter) (fun _ quiet => quiet) _
  | spawnAgent req =>
    exact quiet_safe ((handleSpawnAgent_uses req correlationId _).widen quiet_worker) (fun _ quiet => quiet) _
  | markDeviceFresh =>
    exact quiet_safe (handleMarkDeviceFresh_quiet (some device)) (fun _ quiet => quiet) _
  | installHooks project =>
    exact quiet_safe (handleInstallHooks_quiet (some device) project) (fun _ quiet => quiet) _
  | _ => trivial

theorem body_safe (job : Job) (fresh : Fresh task trace) :
    Safe gateSees gateContract task (fun _ => gateContract.done task) job.body (.launched task job :: trace) := by
  cases owner : job.device with
  | none =>
    apply local_safe
    rw [Trace.deviceOf, Trace.jobOf_launched]
    exact owner
  | some device =>
    cases job with
    | command issued => exact command_safe fresh owner
    | hook | expiry => cases owner

theorem gateLawful (initial : Shared) : Lawful gateSees gateContract initial where
  start := trivial
  launch _ _ _ _ valid _ _ := valid
  step task choice request trace shared reply after valid may granted _ := by
    refine ⟨valid, fun device owned req approved sudoClass => ?_⟩
    apply may device owned req.id (releases_approved approved)
    simp only [gateSees, Option.mem_def.mp owned, Option.isNone_some, Bool.false_or, List.all_eq_true] at granted
    simpa [sudoClass] using granted req approved
  drift _ _ _ _ valid _ := valid
  bodies _ job _ _ fresh := body_safe job fresh

/-- In every run whose releases the gates saw, no sudo-class request is released for
a web device that was not found fresh before. -/
theorem sudo_approvals_gated {initial : Shared} {system : System daemon}
    (reached : (System.machine daemon initial).Reachable (System.Meets gateSees) system) :
    Trace.Gated system.trace :=
  ((gateLawful initial).kept reached).valid

/-- A hook's request to run a command. -/
private def bashRequest : DecisionRequest where
  id := 7
  agentId := "cc-1"
  agentType := .claudeCode
  project := ⟨"/work"⟩
  toolName := "Bash"
  toolInput := .object []
  timestamp := 0

private def fromPhone (body : ClientMessage) : Job :=
  .command { body, deviceId := some ⟨"phone"⟩ }

/-- The hook's steps up to its wait. -/
private def admissionSteps (task : Nat) : List (Event daemon) :=
  [.advance task .proceed, .advance task .proceed, .advance task .proceed]

private def approvedAfterReauth : List (Event daemon) :=
  [.launch (fromPhone .markDeviceFresh), .advance 0 .proceed, .launch (.hook bashRequest)] ++ admissionSteps 1 ++
    [.launch (fromPhone (.approve 7 none none false none)), .advance 2 .proceed, .advance 2 .proceed,
      .advance 2 .proceed]

/-- The gate looks before the hook's request is there. -/
private def approvedUnseen : List (Event daemon) :=
  [.launch (fromPhone (.approve 7 none none false none)), .advance 0 .proceed, .launch (.hook bashRequest)] ++
    admissionSteps 1 ++ [.advance 0 .proceed]

/-- A device that entered its password approves what its gate saw. -/
theorem sudo_approvals_gated_fresh :
    Trace.Gated (((System.machine daemon {}).run (System.Meets gateSees) { shared := {} } approvedAfterReauth).get
      (by decide +kernel)).trace :=
  sudo_approvals_gated (Machine.Reachable.start.run (Option.some_get _).symm)

/-- A device that never entered its password approves a command that was not pending
when its gate looked. -/
theorem unseen_request_approved :
    ¬ Trace.Gated (((System.machine daemon {}).run Machine.free { shared := {} } approvedUnseen).get
      (by decide +kernel)).trace := by
  decide +kernel

end Wisphive
