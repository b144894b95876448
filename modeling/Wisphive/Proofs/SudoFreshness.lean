import Wisphive.Proofs.Footprints
import Wisphive.WebSessions

/-! Only a `MarkDeviceFresh` command refreshes a device, and where no browser sends
one, only the reauth endpoint does. -/

namespace Wisphive
open Foundation Program

/-- A step that leaves the reauth registry's entries to run out. -/
def Untouched (request : Request) : Prop :=
  ∀ device, request ≠ .touch device

theorem untouched_record {id : Uuid} {decision : Decision} {decidedBy : String} (request : Request)
    (step : RecordStep id decision decidedBy request) : Untouched request := by
  rintro device rfl
  exact step

theorem untouched_spawn {id : Uuid} {decision : Decision} (request : Request)
    (step : SpawnStep id decision request) : Untouched request := by
  rintro device rfl
  exact step

theorem untouched_write (request : Request) (step : WriteStep request) : Untouched request := by
  rintro device rfl
  exact step

theorem untouched_worker (request : Request) (step : WorkerStep request) : Untouched request := by
  rintro device rfl
  exact step

private theorem untouched_eager (decision : Decision) (resolver : String) (ids : List Uuid) :
    (eagerPersistEach decision resolver ids).Uses Untouched Request.Possible fun _ => True :=
  (eagerPersistEach_uses decision resolver ids).widen fun request ⟨_, _, step⟩ => untouched_record request step

private theorem untouched_decide (id : Uuid) (rich : RichDecision) (resolver failure : String) :
    (decideSpawn id rich resolver failure).Uses Untouched Request.Possible fun _ => True :=
  (decideSpawn_uses id rich resolver failure).widen fun request step =>
    step.elim (untouched_spawn request) (untouched_write request)

private theorem untouched_written (message : ServerMessage) :
    (writeMsg message).Uses Untouched Request.Possible fun _ => True :=
  (writeMsg_uses message).widen untouched_write

private theorem untouched_gate (deviceId : Option DeviceId) (pending : Option DecisionRequest) :
    (sudoGate deviceId pending).Uses Untouched Request.Possible fun _ => True := by
  unfold sudoGate
  split
  · split
    · refine uses_ask (fun _ same => by cases same) fun fresh _ => ?_
      cases fresh <;> trivial
    · trivial
  · trivial

private theorem untouched_approve (id : Uuid) (isSpawn : Bool) (rich : RichDecision) (resolver : String) :
    (approve id isSpawn rich resolver).Uses Untouched Request.Possible fun _ => True := by
  unfold approve
  split
  · exact untouched_decide id rich resolver _
  · refine uses_ask (fun _ same => by cases same) fun resolved _ => ?_
    cases resolved
    · trivial
    · exact (eagerPersist_uses id _ _).widen untouched_record

private theorem untouched_handleApprove (deviceId : Option DeviceId) (id : Uuid) (message : Option String)
    (updatedInput : Option Json) (alwaysAllow : Bool) (additionalContext : Option String) :
    (handleApprove deviceId id message updatedInput alwaysAllow additionalContext).Uses Untouched Request.Possible
      fun _ => True := by
  refine uses_ask (fun _ same => by cases same) fun inspected _ => ?_
  refine uses_bind (untouched_gate deviceId inspected.1) fun held _ => ?_
  cases held with
  | some message => exact uses_bind (untouched_written message) fun _ _ => trivial
  | none => exact untouched_approve id inspected.2 _ _

private theorem untouched_handleDeny (deviceId : Option DeviceId) (id : Uuid) (message : Option String) :
    (handleDeny deviceId id message).Uses Untouched Request.Possible fun _ => True := by
  refine uses_ask (fun _ same => by cases same) fun inspected _ => ?_
  split
  · exact untouched_decide id _ _ _
  · refine uses_ask (fun _ same => by cases same) fun resolved _ => ?_
    cases resolved
    · trivial
    · exact (eagerPersist_uses id _ _).widen untouched_record

private theorem untouched_handleAsk (deviceId : Option DeviceId) (id : Uuid) :
    (handleAsk deviceId id).Uses Untouched Request.Possible fun _ => True := by
  refine uses_ask (fun _ same => by cases same) fun inspected _ => ?_
  split
  · exact untouched_decide id _ _ _
  · exact uses_ask (fun _ same => by cases same) fun _ _ => trivial

private theorem untouched_approveAll (deviceId : Option DeviceId) (filter : Option DecisionFilter) (confirm : Bool) :
    (handleApproveAll deviceId filter confirm).Uses Untouched Request.Possible fun _ => True := by
  unfold handleApproveAll
  split
  · exact uses_bind (untouched_written _) fun _ _ => trivial
  · cases deviceId with
    | none =>
      refine uses_ask (fun _ same => by cases same) fun ids _ => ?_
      exact untouched_eager _ _ ids
    | some device =>
      refine uses_ask (fun _ same => by cases same) fun items _ => ?_
      refine uses_ask (fun _ same => by cases same) fun fresh _ => ?_
      refine uses_ask (fun _ same => by cases same) fun resolved _ => ?_
      refine uses_bind (untouched_eager _ _ resolved) fun _ _ => ?_
      exact (writeEach_uses _).widen untouched_write

private theorem untouched_denyAll (deviceId : Option DeviceId) (filter : Option DecisionFilter) :
    (handleDenyAll deviceId filter).Uses Untouched Request.Possible fun _ => True := by
  refine uses_ask (fun _ same => by cases same) fun items _ => ?_
  refine uses_ask (fun _ same => by cases same) fun resolved _ => ?_
  refine uses_bind (untouched_eager _ _ resolved) fun _ _ => ?_
  refine uses_bind ((denySpawns_uses _ _).widen fun request ⟨_, _, step⟩ => untouched_spawn request step) ?_
  intro failed _
  cases failed with
  | none => trivial
  | some error => exact uses_bind (untouched_written _) fun _ _ => trivial

private theorem untouched_approvePermission (deviceId : Option DeviceId) (id : Uuid) (suggestionIndex : Nat)
    (message : Option String) :
    (handleApprovePermission deviceId id suggestionIndex message).Uses Untouched Request.Possible
      fun _ => True := by
  refine uses_ask (fun _ same => by cases same) fun inspected _ => ?_
  refine uses_bind (untouched_gate deviceId inspected.1) fun held _ => ?_
  cases held with
  | some message => exact uses_bind (untouched_written message) fun _ _ => trivial
  | none =>
    dsimp only
    split
    · exact uses_bind (untouched_written _) fun _ _ => trivial
    · refine uses_ask (fun _ same => by cases same) fun _ _ => ?_
      exact (eagerPersist_uses id _ _).widen untouched_record

private theorem untouched_installHooks (deviceId : Option DeviceId) (project : PathBuf) :
    (handleInstallHooks deviceId project).Uses Untouched Request.Possible fun _ => True := by
  cases deviceId with
  | none => exact uses_request (fun _ same => by cases same) fun _ _ => trivial
  | some device =>
    refine uses_ask (fun _ same => by cases same) fun allowed _ => ?_
    cases allowed with
    | true => exact uses_request (fun _ same => by cases same) fun _ _ => trivial
    | false => exact uses_bind (untouched_written _) fun _ _ => trivial

/-- Every command but `MarkDeviceFresh`. -/
theorem untouched_command {issued : ClientCommand} (other : issued.body ≠ .markDeviceFresh) :
    (dispatchCommand issued).Uses Untouched Request.Possible fun _ => True := by
  obtain ⟨body, deviceId, correlationId⟩ := issued
  cases body with
  | approve id message updatedInput alwaysAllow additionalContext =>
    exact untouched_handleApprove deviceId id message updatedInput alwaysAllow additionalContext
  | deny id message => exact untouched_handleDeny deviceId id message
  | ask id => exact untouched_handleAsk deviceId id
  | approveAll filter confirm => exact untouched_approveAll deviceId filter confirm
  | denyAll filter => exact untouched_denyAll deviceId filter
  | approvePermission id suggestionIndex message =>
    exact untouched_approvePermission deviceId id suggestionIndex message
  | installHooks project => exact untouched_installHooks deviceId project
  | spawnAgent req => exact (handleSpawnAgent_uses req correlationId deviceId).widen untouched_worker
  | markDeviceFresh => exact absurd rfl other
  | _ => trivial

theorem untouched_expiry (id : Uuid) : (expireSpawn id).Uses Untouched Request.Possible fun _ => True := by
  refine uses_request (fun _ same => by cases same) fun _ _ => ?_
  refine uses_bind ((finalizeSpawnDecision_uses id _ _).widen untouched_spawn) fun _ _ => ?_
  exact uses_request (fun _ same => by cases same) fun _ _ => trivial

namespace Trace
variable {task : Nat} {device : DeviceId} {trace : Trace}

/-- A task that runs a `MarkDeviceFresh` command for a device. -/
def Marks (task : Nat) (device : DeviceId) (trace : Trace) : Prop :=
  ∃ correlationId, jobOf task trace = some (.command { body := .markDeviceFresh, deviceId := some device, correlationId })

theorem jobOf_mem {job : Job} (known : jobOf task trace = some job) : .launched task job ∈ trace := by
  induction trace with
  | nil => cases known
  | cons entry earlier ih =>
    cases entry with
    | launched other started =>
      simp only [jobOf] at known
      split at known
      next same =>
        subst same
        cases known
        exact List.mem_cons_self ..
      next => exact List.mem_cons_of_mem _ (ih known)
    | performed | drifted => exact List.mem_cons_of_mem _ (ih known)

/-- A launch takes a number that no task has. -/
theorem jobOf_fresh {new : Nat} {started job : Job} (fresh : Fresh new trace) (known : jobOf task trace = some job) :
    jobOf task (.launched new started :: trace) = some job := by
  have differ : new ≠ task := by
    rintro rfl
    exact fresh _ (jobOf_mem known) rfl
  simp only [jobOf, differ, if_false]
  exact known

theorem markedAt_cons {entry : Entry daemon} (trace : Trace)
    (other : ∀ device before reply, entry ≠ .performed task (.touch device) before reply) :
    markedAt task (entry :: trace) = markedAt task trace := by
  cases entry with
  | launched | drifted => rfl
  | performed owner request before reply =>
    cases request with
    | touch device =>
      have differ : owner ≠ task := by
        rintro rfl
        exact other device before reply rfl
      simp only [markedAt, differ, if_false]
    | _ => rfl

theorem markedAt_touch (device : DeviceId) (before : Shared) (reply : Unit) :
    markedAt task (.performed task (.touch device) before reply :: trace) = before.instant :: markedAt task trace := by
  simp only [markedAt, if_true]

theorem markedAt_fresh (fresh : Fresh task trace) : markedAt task trace = [] := by
  induction trace with
  | nil => rfl
  | cons entry earlier ih =>
    rw [markedAt_cons]
    · exact ih fun other member => fresh other (List.mem_cons_of_mem _ member)
    · rintro device before reply rfl
      exact fresh _ (List.mem_cons_self ..) rfl

theorem markedAt_extends {earlier later : Trace} (grown : Extends task earlier later) :
    markedAt task later = markedAt task earlier := by
  obtain ⟨others, rfl, foreign⟩ := grown
  induction others with
  | nil => rfl
  | cons entry rest ih =>
    rw [List.cons_append, markedAt_cons]
    · exact ih fun other member => foreign other (List.mem_cons_of_mem _ member)
    · rintro device before reply rfl
      exact foreign _ (List.mem_cons_self ..) rfl

end Trace

/-- Every entry of the registry was left by the one touch of a `MarkDeviceFresh`
command. -/
structure Marked (trace : Trace) (shared : Shared) : Prop where
  stamped : ∀ {device stamp}, shared.reauth.inner device = some stamp →
    ∃ task, Trace.Marks task device trace ∧ Trace.markedAt task trace = [stamp]
  past : ∀ task, ∀ stamp ∈ Trace.markedAt task trace, stamp ≤ shared.instant
  lifetime : shared.reauth.ttl = reauthTtl

def markContract : Contract daemon where
  valid := Marked
  may task request trace _ := ∀ device, request = .touch device →
    Trace.Marks task device trace ∧ Trace.markedAt task trace = []

/-- What a step other than a touch does to the registry and to the clock. -/
theorem perform_reauth {choice : Choice} {request : Request} {shared after : Shared} {reply : request.Reply}
    (untouched : Untouched request) (performed : shared.perform choice request = some (reply, after)) :
    after.instant = shared.instant ∧ after.reauth.ttl = shared.reauth.ttl ∧
      ∀ {device stamp}, after.reauth.inner device = some stamp → shared.reauth.inner device = some stamp := by
  by_cases looking : ∃ device, request = .isFresh device
  · obtain ⟨device, rfl⟩ := looking
    cases performed
    exact ⟨rfl, ReauthRegistry.isFresh_ttl .., ReauthRegistry.isFresh_inner⟩
  · have same := Shared.perform_registry performed fun device => ⟨fun same => looking ⟨device, same⟩, untouched device⟩
    rw [same.1, same.2]
    exact ⟨rfl, rfl, id⟩

theorem Marked.step {task : Nat} {choice : Choice} {request : Request} {trace : Trace} {shared after : Shared}
    {reply : request.Reply} (marked : Marked trace shared)
    (may : markContract.may task request trace shared)
    (performed : shared.perform choice request = some (reply, after)) :
    Marked (.performed task request shared reply :: trace) after := by
  by_cases touching : ∃ device, request = .touch device
  · obtain ⟨device, rfl⟩ := touching
    obtain ⟨marks, unmarked⟩ := may device rfl
    cases performed
    refine ⟨fun {other stamp} found => ?_, fun owner stamp member => ?_, marked.lifetime⟩
    · by_cases same : other = device
      · subst same
        simp only [ReauthRegistry.touch, if_true, Option.some.injEq] at found
        subst found
        refine ⟨task, marks, ?_⟩
        rw [Trace.markedAt_touch, unmarked]
      · simp only [ReauthRegistry.touch, same, if_false] at found
        obtain ⟨owner, owned, marking⟩ := marked.stamped (Option.eq_some_of_filter_eq_some found)
        refine ⟨owner, owned, ?_⟩
        rw [Trace.markedAt_cons]
        · exact marking
        · intro _ _ _ equal
          cases equal
          cases unmarked.symm.trans marking
    · by_cases same : owner = task
      · subst same
        rw [Trace.markedAt_touch, unmarked, List.mem_singleton] at member
        exact member.le
      · rw [Trace.markedAt_cons _ fun _ _ _ equal => same (by cases equal; rfl)] at member
        exact marked.past owner stamp member
  · have untouched : Untouched request := fun device same => touching ⟨device, same⟩
    obtain ⟨still, lifetime, kept⟩ := perform_reauth untouched performed
    have unmarked (owner : Nat) :
        Trace.markedAt owner (.performed task request shared reply :: trace) = Trace.markedAt owner trace :=
      Trace.markedAt_cons _ fun device _ _ equal => untouched device (by cases equal; rfl)
    refine ⟨fun found => ?_, fun owner stamp member => ?_, lifetime.trans marked.lifetime⟩
    · obtain ⟨owner, owned, marking⟩ := marked.stamped (kept found)
      exact ⟨owner, owned, (unmarked owner).trans marking⟩
    · rw [unmarked owner] at member
      rw [still]
      exact marked.past owner stamp member

/-- The marker touches once, everything else never. -/
theorem job_marks {task : Nat} (job : Job) {trace : Trace} (fresh : Fresh task trace) :
    Safe {} markContract task (fun _ => markContract.done task) job.body (.launched task job :: trace) := by
  have untouched {program : Daemon Unit} (uses : program.Uses Untouched Request.Possible fun _ => True) :
      Safe {} markContract task (fun _ => markContract.done task) program (.launched task job :: trace) := by
    refine safe_of_uses (Stable.always : Stable task fun _ => True) uses trivial ?_ fun _ _ _ _ => trivial
    exact fun request _ _ quiet _ _ device same => absurd same (quiet device)
  cases job with
  | hook req =>
    refine untouched ((handleHook_uses req).widen ?_)
    rintro request step device rfl
    exact step
  | expiry id => exact untouched (untouched_expiry id)
  | command issued =>
    by_cases other : issued.body = .markDeviceFresh
    · obtain ⟨body, deviceId, correlationId⟩ := issued
      cases other
      cases deviceId with
      | none => trivial
      | some device =>
        refine safe_request fun later shared grown _ => ⟨fun named same => ?_, fun _ _ _ _ _ _ => ?_⟩
        · cases same
          refine ⟨⟨correlationId, ?_⟩, ?_⟩
          · exact (Trace.jobOf_stable _).grown grown (Trace.jobOf_launched ..)
          · exact (Trace.markedAt_extends grown).trans (show Trace.markedAt task trace = [] from Trace.markedAt_fresh fresh)
        · exact safe_ask fun _ _ _ _ => ⟨fun _ same => (by cases same), fun _ _ _ _ _ _ => trivial⟩
    · exact untouched (untouched_command other)

theorem markLawful : Lawful {} markContract {} where
  start := ⟨fun found => (by cases found), fun _ _ member => (by cases member), rfl⟩
  launch task job trace shared marked _ fresh := by
    refine ⟨fun found => ?_, marked.past, marked.lifetime⟩
    obtain ⟨owner, ⟨correlationId, known⟩, marking⟩ := marked.stamped found
    exact ⟨owner, ⟨correlationId, Trace.jobOf_fresh fresh known⟩, marking⟩
  step _ _ _ _ _ _ _ marked may _ performed := marked.step may performed
  drift drift trace shared after marked drifted := by
    obtain ⟨registry, later⟩ := Shared.drift_registry drifted
    refine ⟨fun found => ?_, fun task stamp member => ?_, ?_⟩
    · rw [registry] at found
      exact marked.stamped found
    · exact (marked.past task stamp member).trans later
    · rw [registry]
      exact marked.lifetime
  bodies _ job _ _ fresh := job_marks job fresh

namespace WebSessions
variable {platform : WebPlatform} {sessions after : WebSessions platform}

/-- Every task that marks a device fresh runs the signal of a verified reauthentication
of that device. -/
structure Valid (sessions : WebSessions platform) : Prop where
  reached : (System.machine daemon {}).Reachable (System.Meets {}) sessions.system
  bridged : ∀ bridge ∈ sessions.bridges, ∀ line ∈ bridge.unread, ∀ command ∈ platform.decode line,
    command.body ≠ .markDeviceFresh
  signals : ∀ reauth ∈ sessions.reauths, ∀ line ∈ reauth.unread,
    platform.encode { body := .markDeviceFresh, deviceId := some reauth.device } = some line ∧ reauth.task = none
  marks : ∀ {task device}, Trace.Marks task device sessions.system.trace →
    ∃ reauth ∈ sessions.reauths, reauth.device = device ∧ reauth.task = some task
  verified : ∀ reauth ∈ sessions.reauths, reauth.verifiedAt ≤ sessions.system.shared.instant ∧
    ∀ task ∈ reauth.task, ∀ stamp ∈ Trace.markedAt task sessions.system.trace, reauth.verifiedAt ≤ stamp

theorem Valid.marked (valid : Valid sessions) : Marked sessions.system.trace sessions.system.shared :=
  (markLawful.kept valid.reached).valid

/-- The next task has done nothing yet. -/
theorem Valid.fresh (valid : Valid sessions) : Fresh sessions.system.tasks.length sessions.system.trace := by
  intro entry member same
  have := (markLawful.kept valid.reached).numbered entry member _ same
  omega

/-- A launch that marks nothing. -/
theorem marks_launch {system : System daemon} {job : Job} {task : Nat} {device : DeviceId}
    (other : ∀ correlationId, job ≠ .command { body := .markDeviceFresh, deviceId := some device, correlationId })
    (marks : Trace.Marks task device (system.launch job).trace) : Trace.Marks task device system.trace := by
  obtain ⟨correlationId, known⟩ := marks
  refine ⟨correlationId, ?_⟩
  simp only [System.launch, Trace.jobOf] at known
  split at known
  · exact absurd (Option.some.inj known) (other correlationId)
  · exact known

theorem Valid.launched (valid : Valid sessions) {job : Job}
    (other : ∀ device correlationId, job ≠ .command { body := .markDeviceFresh, deviceId := some device, correlationId }) :
    Valid { sessions with system := sessions.system.launch job } where
  reached := System.reachable_step valid.reached (show sessions.system.step (.launch job) = _ from rfl)
  bridged := valid.bridged
  signals := valid.signals
  marks marks := valid.marks (marks_launch (other _) marks)
  verified := valid.verified

/-- A line that the daemon handles launches its command, or does nothing. -/
theorem handleLine_cases (platform : WebPlatform) (system : System daemon) (line : String) :
    handleLine platform system line = (system, none) ∨ ∃ command ∈ platform.decode line,
      handleLine platform system line = (system.launch (.command command), some system.tasks.length) := by
  unfold handleLine
  split
  · exact .inl rfl
  · split
    next => exact .inl rfl
    next command decoded => exact .inr ⟨command, decoded, rfl⟩

/-- A line of a bridge marks nothing. -/
theorem Valid.handled (valid : Valid sessions) {line : String}
    (plain : ∀ command ∈ platform.decode line, command.body ≠ .markDeviceFresh) :
    Valid { sessions with system := (handleLine platform sessions.system line).1 } := by
  rcases handleLine_cases platform sessions.system line with same | ⟨command, decoded, same⟩
  · rw [same]
    exact valid
  · rw [same]
    refine valid.launched fun device correlationId equal => ?_
    cases equal
    exact plain _ decoded rfl

theorem Valid.text (faithful : platform.Faithful) (valid : Valid sessions) {position : Nat} {raw : String}
    (met : sessions.Meets (.text position raw)) (taken : sessions.receiveText position raw = some after) :
    Valid after := by
  obtain ⟨bridge, found, rfl⟩ := Option.map_eq_some_iff.mp taken
  cases rewrapped : rewrapWithDevice platform raw bridge.device with
  | none => exact valid
  | some line =>
    refine { valid with bridged := fun other member written unread command decoded => ?_ }
    rcases List.mem_or_eq_of_mem_set member with old | rfl
    · exact valid.bridged other old written unread command decoded
    rcases List.mem_append.mp unread with old | new
    · exact valid.bridged bridge (List.mem_of_getElem? found) written old command decoded
    cases List.mem_singleton.mp new
    -- The forwarded line stands for the same kind of command as the frame.
    intro marks
    unfold rewrapWithDevice at rewrapped
    split at rewrapped
    next => cases rewrapped
    next original parsed =>
      have kind := faithful.kind rewrapped decoded
      rw [marks] at kind
      have same := ClientMessage.markDeviceFresh_of_tag kind.symm
      simp only [Meets, parsed, Option.all_some, decide_eq_true_eq] at met
      exact met same

theorem Valid.served (valid : Valid sessions) {position : Nat} (taken : sessions.serve position = some after) :
    Valid after := by
  unfold serve at taken
  split at taken
  next device line rest found =>
    cases taken
    have known := List.mem_of_getElem? found
    have handled := valid.handled (valid.bridged _ known line (List.mem_cons_self ..))
    refine { handled with bridged := fun bridge member written unread => ?_ }
    rcases List.mem_or_eq_of_mem_set member with old | rfl
    · exact valid.bridged bridge old written unread
    · dsimp only at unread
      split at unread
      · cases unread
      · exact valid.bridged _ known written (List.mem_cons_of_mem _ unread)
  next => cases taken

theorem Valid.reauthed (valid : Valid sessions) (request : ReauthRequest) :
    Valid (sessions.postAuthReauth request) := by
  unfold postAuthReauth
  split
  · exact valid
  split
  · exact valid
  split
  next phc stored verified =>
    refine { valid with
      signals := fun reauth member line unread => ?_
      marks := fun marks => ?_
      verified := fun reauth member => ?_ }
    · rcases List.mem_append.mp member with old | new
      · exact valid.signals reauth old line unread
      · cases List.mem_singleton.mp new
        exact ⟨unread, rfl⟩
    · obtain ⟨reauth, member, known⟩ := valid.marks marks
      exact ⟨reauth, List.mem_append_left _ member, known⟩
    · rcases List.mem_append.mp member with old | new
      · exact valid.verified reauth old
      · cases List.mem_singleton.mp new
        exact ⟨le_rfl, fun _ none => by cases none⟩
  next => exact valid

/-- A reauthentication whose signal was read keeps its device and its time. -/
theorem Valid.replaced (valid : Valid sessions) {position : Nat} {reauth : Reauth platform} {system : System daemon}
    {task : Option Nat} (found : sessions.reauths[position]? = some reauth) (unsent : reauth.task = none)
    (reached : (System.machine daemon {}).Reachable (System.Meets {}) system)
    (known : ∀ {owner device}, Trace.Marks owner device system.trace →
      Trace.Marks owner device sessions.system.trace ∨ task = some owner ∧ device = reauth.device)
    (still : system.shared = sessions.system.shared)
    (unmarked : ∀ owner, Trace.markedAt owner system.trace = Trace.markedAt owner sessions.system.trace)
    (fresh : ∀ owner ∈ task, Trace.markedAt owner sessions.system.trace = []) :
    Valid { sessions with
      system, reauths := sessions.reauths.set position { reauth with unread := none, task } } where
  reached := reached
  bridged := valid.bridged
  signals other member line unread := by
    rcases List.mem_or_eq_of_mem_set member with old | rfl
    · exact valid.signals other old line unread
    · cases unread
  marks marks := by
    rcases known marks with old | ⟨same, named⟩
    · obtain ⟨other, listed, named, run⟩ := valid.marks old
      obtain ⟨index, bound, rfl⟩ := List.mem_iff_getElem.mp listed
      have differ : position ≠ index := by
        rintro rfl
        rw [List.getElem?_eq_getElem bound] at found
        cases found
        cases unsent.symm.trans run
      refine ⟨_, List.mem_of_getElem? (i := index) ?_, named, run⟩
      rw [List.getElem?_set_ne differ, List.getElem?_eq_getElem bound]
    · exact ⟨_, List.mem_set (List.getElem?_eq_some_iff.mp found).1 _, named.symm, same⟩
  verified other member := by
    dsimp only
    rw [still]
    rcases List.mem_or_eq_of_mem_set member with old | rfl
    · refine ⟨(valid.verified other old).1, fun owner run stamp marked => ?_⟩
      rw [unmarked] at marked
      exact (valid.verified other old).2 owner run stamp marked
    · refine ⟨(valid.verified reauth (List.mem_of_getElem? found)).1, fun owner run stamp marked => ?_⟩
      rw [unmarked, fresh owner run] at marked
      cases marked

/-- The signal of a reauthentication is launched as the task that it names. -/
theorem Valid.signalled (faithful : platform.Faithful) (valid : Valid sessions) {position : Nat}
    (taken : sessions.serveSignal position = some after) : Valid after := by
  obtain ⟨reauth, found, read⟩ := Option.bind_eq_some_iff.mp taken
  obtain ⟨line, unread, rfl⟩ := Option.map_eq_some_iff.mp read
  obtain ⟨encoded, unsent⟩ := valid.signals reauth (List.mem_of_getElem? found) line unread
  rcases handleLine_cases platform sessions.system line with same | ⟨command, decoded, same⟩
  · rw [same]
    exact valid.replaced found unsent valid.reached (fun marks => .inl marks) rfl (fun _ => rfl)
      fun _ none => by cases none
  · rw [same]
    refine valid.replaced found unsent ?_ ?_ rfl (fun _ => rfl) ?_
    · exact System.reachable_step valid.reached (show sessions.system.step (.launch _) = _ from rfl)
    · intro owner device marks
      obtain ⟨correlationId, known⟩ := marks
      simp only [System.launch, Trace.jobOf] at known
      split at known
      next owned =>
        cases known
        refine .inr ⟨congrArg some owned, ?_⟩
        exact Option.some.inj (faithful.device encoded decoded)
      next => exact .inl ⟨correlationId, known⟩
    · intro owner named
      cases named
      exact Trace.markedAt_fresh valid.fresh

/-- The daemon's own steps. -/
theorem Valid.advanced (valid : Valid sessions) {event : Event daemon} {system : System daemon}
    (quiet : ∀ job, event ≠ .launch job) (taken : sessions.system.step event = some system) :
    Valid { sessions with system } := by
  have reached := System.reachable_step valid.reached taken
  cases event with
  | launch job => exact absurd rfl (quiet job)
  | drift drift =>
    obtain ⟨shared, drifted, rfl⟩ := Option.map_eq_some_iff.mp taken
    have later := (Shared.drift_registry drifted).2
    exact { valid with
      reached
      verified := fun reauth member => ⟨(valid.verified reauth member).1.trans later, (valid.verified reauth member).2⟩ }
  | advance task choice =>
    simp only [System.step] at taken
    split at taken
    next request next found =>
      obtain ⟨⟨reply, shared⟩, performed, rfl⟩ := Option.map_eq_some_iff.mp taken
      have still := Shared.perform_instant performed
      refine { valid with reached, verified := fun reauth member => ?_ }
      obtain ⟨past, since⟩ := valid.verified reauth member
      refine ⟨past.trans still.ge, fun owner run stamp marked => ?_⟩
      by_cases touching : owner = task ∧ ∃ device, request = .touch device
      · obtain ⟨rfl, device, rfl⟩ := touching
        rw [Trace.markedAt_touch] at marked
        rcases List.mem_cons.mp marked with rfl | old
        · exact past
        · exact since owner run stamp old
      · rw [Trace.markedAt_cons] at marked
        · exact since owner run stamp marked
        · intro device _ _ equal
          cases equal
          exact touching ⟨rfl, device, rfl⟩
    next => cases taken

theorem Valid.start : Valid ({ system := { shared := {} } } : WebSessions platform) where
  reached := .start
  bridged _ member := nomatch member
  signals _ member := nomatch member
  marks marks := by
    obtain ⟨_, known⟩ := marks
    cases known
  verified _ member := nomatch member

theorem Valid.step (faithful : platform.Faithful) (valid : Valid sessions) {event : WebEvent}
    (met : sessions.Meets event) (taken : sessions.step event = some after) : Valid after := by
  cases event with
  | storePasswordHash phc =>
    cases taken
    exact { valid with }
  | upgrade device =>
    cases taken
    refine { valid with bridged := fun bridge member line unread => ?_ }
    rcases List.mem_append.mp member with old | new
    · exact valid.bridged bridge old line unread
    · cases List.mem_singleton.mp new
      cases unread
  | text position raw => exact valid.text faithful met taken
  | reauth request =>
    cases taken
    exact valid.reauthed request
  | serve position => exact valid.served taken
  | serveSignal position => exact valid.signalled faithful taken
  | daemon event =>
    cases event with
    | launch job =>
      simp only [WebSessions.step, ofDaemon] at taken
      split at taken
      next => cases taken
      next nobody =>
        cases taken
        refine valid.launched fun device correlationId same => nobody ?_
        rw [same]
        rfl
    | advance | drift =>
      obtain ⟨system, advanced, rfl⟩ := Option.map_eq_some_iff.mp taken
      exact valid.advanced (fun _ same => by cases same) advanced

/-- A device that counts as fresh has been reauthenticated. -/
theorem Valid.reauthenticated (valid : Valid sessions) {device : DeviceId} (fresh : sessions.isFresh device = true) :
    sessions.Reauthenticated device := by
  have marked := valid.marked
  obtain ⟨stamp, found, recent⟩ := ReauthRegistry.isFresh_of_true fresh
  obtain ⟨task, marks, marking⟩ := marked.stamped found
  obtain ⟨reauth, member, named, run⟩ := valid.marks marks
  have listed : stamp ∈ Trace.markedAt task sessions.system.trace := by simp only [marking, List.mem_singleton]
  have since := (valid.verified reauth member).2 task run stamp listed
  rw [marked.lifetime] at recent
  exact ⟨reauth, member, named, task, stamp, run, marking, since, marked.past task stamp listed, recent⟩

end WebSessions

/-- In every run without a browser frame that is a `mark_device_fresh` command, a device
is fresh only by the signal of its own verified reauthentication. -/
theorem fresh_reauthenticated {platform : WebPlatform} (faithful : platform.Faithful) {sessions : WebSessions platform}
    (reached : (WebSessions.machine platform).Reachable WebSessions.Meets sessions) {device : DeviceId}
    (fresh : sessions.isFresh device = true) : sessions.Reauthenticated device :=
  (reached.invariant WebSessions.Valid.start fun _ _ _ valid met taken => valid.step faithful met taken).reauthenticated
    fresh

private def phone : AuthedDevice := ⟨⟨"phone"⟩⟩

private def signalLine : String := "\x7b\"type\":\"mark_device_fresh\",\"device_id\":\"phone\"\x7d"

/-- A frame that any holder of the device's token can send. -/
private def markFrame : String := "\x7b\"type\":\"mark_device_fresh\"\x7d"

/-- The two lines that the runs below need, and a password that verifies. -/
private def phonePlatform : WebPlatform where
  encode command := if command = { body := .markDeviceFresh, deviceId := some phone.id } then some signalLine else none
  decode line :=
    if line = signalLine then some { body := .markDeviceFresh, deviceId := some phone.id }
    else if line = markFrame then some { body := .markDeviceFresh }
    else none
  verifyPassword password phc := password = "pw" && phc = "$argon2id$pw"

private theorem phonePlatform_again {command again : ClientCommand} {line : String}
    (encoded : phonePlatform.encode command = some line) (decoded : phonePlatform.decode line = some again) :
    again = command := by
  simp only [phonePlatform] at encoded
  split at encoded
  next same =>
    cases encoded
    simp only [phonePlatform, if_true, Option.some.injEq] at decoded
    exact decoded.symm.trans same.symm
  next => cases encoded

private theorem phonePlatform_faithful : phonePlatform.Faithful where
  kind encoded decoded := by rw [phonePlatform_again encoded decoded]
  device encoded decoded := by rw [phonePlatform_again encoded decoded]

private def reauthRun : List WebEvent :=
  [.storePasswordHash (some "$argon2id$pw"), .reauth { device := phone, password := "pw" }, .serveSignal 0,
    .daemon (.advance 0 .proceed)]

private def tokenRun : List WebEvent :=
  [.upgrade phone, .text 0 markFrame, .serve 0, .daemon (.advance 0 .proceed)]

/-- The password makes the phone fresh. -/
theorem fresh_reauthenticated_phone :
    (((WebSessions.machine phonePlatform).run WebSessions.Meets { system := { shared := {} } } reauthRun).get
      (by decide +kernel)).Reauthenticated phone.id :=
  fresh_reauthenticated phonePlatform_faithful (Machine.Reachable.start.run (Option.some_get _).symm)
    (by decide +kernel)

/-- One browser frame makes the phone fresh where no password was ever entered. -/
theorem frame_refreshes_device :
    ∃ sessions, (WebSessions.machine phonePlatform).run Machine.free { system := { shared := {} } } tokenRun =
      some sessions ∧ sessions.isFresh phone.id = true ∧ ¬ sessions.Reauthenticated phone.id := by
  refine ⟨((WebSessions.machine phonePlatform).run Machine.free { system := { shared := {} } } tokenRun).get
    (by decide +kernel), (Option.some_get _).symm, by decide +kernel, fun reauthenticated => ?_⟩
  obtain ⟨reauth, member, _⟩ := reauthenticated
  exact absurd (List.length_pos_of_mem member) (by decide +kernel)

end Wisphive
