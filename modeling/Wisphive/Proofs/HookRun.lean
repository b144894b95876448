import Wisphive.HookRun
import Wisphive.Proofs.HookOutput

/-! A run of the hook takes one of eleven courses. A call that goes on was let through by an
authority, and what the hook itself decided is in its log. -/

namespace Wisphive.HookRun
open Foundation EventIngest HookPolicy

variable {host : HookHost} {world : HookWorld} {hookEvent : Json} {eventType : HookEventType} {agentType : AgentType}
  {ctx : Context} {answer : HookResponse} {failure : HookFailure} {log : List AutoApprovedLog}

/-! ### The failures and their answers -/

/-- A response or a failure of the exchange carries the event and the agent of its call. -/
def Carries (eventType : HookEventType) (agentType : AgentType) : Except HookFailure HookResponse → Prop
  | .ok answer => answer.eventType = eventType ∧ answer.agentType = agentType
  | .error failure => (failure.kind = .daemonUnreachable ∨ failure.kind = .daemonRejected ∨ failure.kind = .runtime) ∧
      failure.eventType = eventType ∧ failure.agentType = agentType

theorem carries_reach {Next : Type} {context : String} {outcome : Except String Next}
    {next : Next → Except HookFailure HookResponse} (later : ∀ value, Carries eventType agentType (next value)) :
    Carries eventType agentType (reach eventType agentType context outcome >>= next) := by
  cases outcome with
  | error error => exact ⟨.inl rfl, rfl, rfl⟩
  | ok value => exact later value

theorem carries_readWelcome {socket : DaemonSocket} {incoming : Bytes} {next : Bytes → Except HookFailure HookResponse}
    (later : ∀ rest, Carries eventType agentType (next rest)) :
    Carries eventType agentType (readWelcome host.float socket eventType agentType incoming >>= next) := by
  rw [readWelcome, bind_assoc]
  refine carries_reach fun (line, rest) => ?_
  dsimp only
  split
  · exact ⟨.inl rfl, rfl, rfl⟩
  · split
    · exact ⟨.inl rfl, rfl, rfl⟩
    · exact later rest
    all_goals exact ⟨.inr (.inl rfl), rfl, rfl⟩

theorem carries_readDecision {socket : DaemonSocket} {incoming : Bytes} :
    Carries eventType agentType (readDecision host.float socket eventType agentType incoming) := by
  refine carries_reach fun (line, rest) => ?_
  dsimp only
  split
  · exact ⟨.inl rfl, rfl, rfl⟩
  · split
    · exact ⟨.inr (.inr rfl), rfl, rfl⟩
    · exact ⟨rfl, rfl⟩
    all_goals exact ⟨.inr (.inr rfl), rfl, rfl⟩

theorem carries_requestDecision {socket : DaemonSocket} :
    Carries eventType agentType (requestDecision host.float socket eventType agentType) :=
  carries_reach fun _ => carries_reach fun _ => carries_reach fun _ => carries_reach fun _ => carries_reach fun _ =>
    carries_readWelcome fun _ => carries_reach fun _ => carries_reach fun _ => carries_readDecision

/-- An answer to a failure is a plain approval or the denial with its message. -/
theorem responseForFailure_cases (failMode : FailMode) :
    responseForFailure failure failMode = failure.denyResponse ∨
      responseForFailure failure failMode =
        { decision := .approve, eventType := failure.eventType, agentType := failure.agentType } := by
  unfold responseForFailure
  split
  · exact .inl rfl
  · split
    · exact .inr rfl
    · split
      · exact .inr rfl
      · split
        · exact .inl rfl
        · exact .inr rfl

theorem responseForFailure_approves (failMode : FailMode) (kept : (responseForFailure failure failMode).decision ≠ .deny) :
    failure.eventType = .postToolUse ∨ failure.kind = .daemonUnreachable ∨ failMode = .openly := by
  unfold responseForFailure at kept
  split at kept
  · exact absurd rfl kept
  · split at kept
    · exact .inl ‹_›
    · split at kept
      · exact .inr (.inl ‹_›)
      · split at kept
        · exact absurd rfl kept
        · cases failMode with
          | openly => exact .inr (.inr rfl)
          | closed => exact absurd rfl ‹_›

theorem responseForFailure_asks (failMode : FailMode) : (responseForFailure failure failMode).decision ≠ .ask := by
  rcases responseForFailure_cases failMode with same | same <;> rw [same] <;> exact nofun

theorem responseForFailure_invalid (failMode : FailMode)
    (refused : failure.kind = .inputTooLarge ∨ failure.kind = .invalidInput) :
    responseForFailure failure failMode = failure.denyResponse := if_pos refused

/-! ### Detection -/

/-- The variable alone tells who is not served. -/
theorem detect_none_iff : detectAgentType world hookEvent = none ↔ detectAgentType world .null = none := by
  unfold detectAgentType detectAgentTypeFromEnv
  split <;> try exact Iff.rfl
  all_goals
    constructor
    · intro unknown
      split at unknown <;> cases unknown
    · intro unknown
      split at unknown <;> cases unknown

theorem detect_served (served : detectAgentType world hookEvent = some agentType) :
    (detectAgentType world .null).isNone = false := by
  cases detected : detectAgentType world .null with
  | some _ => rfl
  | none => exact nomatch served.symm.trans (detect_none_iff.mpr detected)

/-! ### The courses of a run -/

def failMode (world : HookWorld) : FailMode :=
  failModeFromContents world.files.failMode

/-- The payload of a call that is to be resolved, and what is known of it. -/
structure Identified (host : HookHost) (world : HookWorld) (hookEvent : Json) (ctx : Context)
    (terminalSessionId : Option Uuid) : Prop where
  read : readHookEvent host world = .ok hookEvent
  served : detectAgentType world hookEvent = some ctx.agentType
  event : ctx.eventType = eventTypeOf hookEvent
  open_ : isPostToolUse ctx.eventType hookEvent = false
  identity : identify world hookEvent ctx.eventType ctx.agentType = .ok (ctx, terminalSessionId)

/-- The local policy's ruling on the call. -/
def localAnswer (host : HookHost) (world : HookWorld) (ctx : Context) : LocalAnswer :=
  runLocally host.toHookPlatform world.files.config world.files.legacy ⟨ctx.eventType, ctx.toolName, ctx.toolInput⟩

/-- What the daemon's socket comes to for the call. -/
def daemonAnswer (host : HookHost) (world : HookWorld) (ctx : Context) : Except HookFailure HookResponse :=
  requestDecision host.float world.socket ctx.eventType ctx.agentType

/-- The response, or the text of a denial, and the log of each course that a run takes. -/
inductive Course (host : HookHost) (world : HookWorld) : Outcome → List AutoApprovedLog → Prop
  | refused (error : String) (mode : readModeFile host world.state = .error error) :
      Course host world (.error (modeFailure error world.state.path)) []
  | off (mode : readModeFile host world.state = .ok .off) :
      Course host world (.ok { decision := .approve, eventType := .preToolUse, agentType := preParseAgentType world }) []
  | unread (failure : HookFailure) (mode : readModeFile host world.state = .ok .active)
      (read : readHookEvent host world = .error failure) :
      Course host world (answerFailure host world failure).1 (answerFailure host world failure).2
  | foreign (hookEvent : Json) (mode : readModeFile host world.state = .ok .active)
      (read : readHookEvent host world = .ok hookEvent) (unknown : detectAgentType world hookEvent = none)
      (entry : AutoApprovedLog) (attributed : entry.decidedBy = "agent_type:unrecognized")
      (input : entry.toolInput = toolInputOf hookEvent) (denied : Bool)
      (word : entry.event = if denied then "denied" else "auto_approved")
      (opens : denied = false → failMode world = .openly ∨ eventTypeOf hookEvent = .postToolUse) :
      Course host world
        (if denied then .error (unrecognizedProvider host (rawAgentType world) (eventTypeOf hookEvent)).message
          else .ok { decision := .approve, eventType := .preToolUse, agentType := .claudeCode }) [entry]
  | reported (hookEvent : Json) (agentType : AgentType) (mode : readModeFile host world.state = .ok .active)
      (read : readHookEvent host world = .ok hookEvent) (served : detectAgentType world hookEvent = some agentType)
      (reports : isPostToolUse (eventTypeOf hookEvent) hookEvent = true) :
      Course host world (.ok { decision := .approve, eventType := .postToolUse, agentType }) []
  | malformed (hookEvent : Json) (failure : HookFailure) (mode : readModeFile host world.state = .ok .active)
      (read : readHookEvent host world = .ok hookEvent) (event : failure.eventType = eventTypeOf hookEvent)
      (served : detectAgentType world hookEvent = some failure.agentType)
      (open_ : isPostToolUse (eventTypeOf hookEvent) hookEvent = false) :
      Course host world (.ok failure.denyResponse) []
  | deferred (hookEvent : Json) (ctx : Context) (id : Option Uuid) (mode : readModeFile host world.state = .ok .active)
      (identified : Identified host world hookEvent ctx id) (deferClass : DeferClass)
      (locally : localAnswer host world ctx = .alwaysDefer deferClass) :
      Course host world (.ok (resolveAlwaysDefer host (promptSurfaceFromEnv world) deferClass ctx).1)
        (resolveAlwaysDefer host (promptSurfaceFromEnv world) deferClass ctx).2
  | approved (hookEvent : Json) (ctx : Context) (id : Option Uuid) (mode : readModeFile host world.state = .ok .active)
      (identified : Identified host world hookEvent ctx id) (decidedBy : String)
      (locally : localAnswer host world ctx = .approve decidedBy) :
      Course host world (.ok (response ctx .approve))
        [{ ctx with toolInput := toggledInput world.files.config ctx hookEvent }.log "auto_approved" decidedBy]
  | answered (hookEvent : Json) (ctx : Context) (id : Option Uuid) (mode : readModeFile host world.state = .ok .active)
      (identified : Identified host world hookEvent ctx id) (locally : localAnswer host world ctx = .askDaemon)
      (answer : HookResponse) (daemon : daemonAnswer host world ctx = .ok answer) :
      Course host world (.ok (convertPromptlessDaemonAsk host (promptSurfaceFromEnv world) answer ctx).1)
        (convertPromptlessDaemonAsk host (promptSurfaceFromEnv world) answer ctx).2
  | shed (hookEvent : Json) (ctx : Context) (id : Option Uuid) (mode : readModeFile host world.state = .ok .active)
      (identified : Identified host world hookEvent ctx id) (locally : localAnswer host world ctx = .askDaemon)
      (failure : HookFailure) (daemon : daemonAnswer host world ctx = .error failure)
      (rejected : failure.kind = .daemonRejected) :
      Course host world (.ok (responseForFailure failure (failMode world)))
        [ctx.log (outcomeWord (responseForFailure failure (failMode world)).decision)
          (failure.decidedBy.getD "daemon_rejected:unknown")]
  | failed (hookEvent : Json) (ctx : Context) (id : Option Uuid) (mode : readModeFile host world.state = .ok .active)
      (identified : Identified host world hookEvent ctx id) (locally : localAnswer host world ctx = .askDaemon)
      (failure : HookFailure) (daemon : daemonAnswer host world ctx = .error failure)
      (kind : failure.kind = .daemonUnreachable ∨ failure.kind = .runtime) :
      Course host world (.ok (responseForFailure failure (failMode world))) []

theorem answerFailure_served {agentType : AgentType} (served : detectAgentType world hookEvent = some agentType)
    (failure : HookFailure) :
    answerFailure host world failure = (.ok (responseForFailure failure (failMode world)), []) := by
  rw [answerFailure, detect_served served]
  rfl

theorem identify_malformed (refused : identify world hookEvent eventType agentType = .error failure) :
    failure.kind = .invalidInput ∧ failure.eventType = eventType ∧ failure.agentType = agentType := by
  unfold identify at refused
  cases named : agentIdFromHookEvent world hookEvent agentType with
  | error error =>
    rw [named] at refused
    cases refused
    exact ⟨rfl, rfl, rfl⟩
  | ok agentId =>
    rw [named] at refused
    cases terminal : terminalSessionId world eventType agentType with
    | ok id =>
      rw [terminal] at refused
      cases refused
    | error error =>
      rw [terminal] at refused
      cases refused
      unfold terminalSessionId at terminal
      split at terminal
      · cases terminal
      · cases terminal
        exact ⟨rfl, rfl, rfl⟩
      · split at terminal
        · cases terminal
        · cases terminal
          exact ⟨rfl, rfl, rfl⟩

theorem agentId_valid {agentId : String} (named : agentIdFromHookEvent world hookEvent agentType = .ok agentId) :
    validateAgentId agentId = true := by
  unfold agentIdFromHookEvent resolveAgentId at named
  dsimp only at named
  split at named
  all_goals
    split at named
    · next valid =>
      cases named
      exact valid
    · cases named

theorem identify_context {id : Option Uuid} (identified : identify world hookEvent eventType agentType = .ok (ctx, id)) :
    ctx.eventType = eventType ∧ ctx.agentType = agentType ∧ ctx.toolInput = toolInputOf hookEvent ∧
      validateAgentId ctx.agentId = true := by
  unfold identify at identified
  cases named : agentIdFromHookEvent world hookEvent agentType with
  | error error =>
    rw [named] at identified
    cases identified
  | ok agentId =>
    rw [named] at identified
    cases terminal : terminalSessionId world eventType agentType with
    | error error =>
      rw [terminal] at identified
      cases identified
    | ok id =>
      rw [terminal] at identified
      cases identified
      exact ⟨rfl, rfl, rfl, agentId_valid named⟩

theorem gate_course {id : Option Uuid} (mode : readModeFile host world.state = .ok .active)
    (identified : Identified host world hookEvent ctx id) (locally : localAnswer host world ctx = .askDaemon) :
    match gateDecisionWithAudit host world ctx with
    | (.error failure, log) => log = [] ∧ failure.kind ≠ .unrecognizedProvider ∧
        Course host world (.ok (responseForFailure failure (failMode world))) []
    | (.ok answer, log) =>
      Course host world (.ok (convertPromptlessDaemonAsk host (promptSurfaceFromEnv world) answer ctx).1)
        (log ++ (convertPromptlessDaemonAsk host (promptSurfaceFromEnv world) answer ctx).2) := by
  have carries : Carries ctx.eventType ctx.agentType (daemonAnswer host world ctx) := carries_requestDecision
  rw [gateDecisionWithAudit, ← daemonAnswer]
  cases daemon : daemonAnswer host world ctx with
  | ok answer => exact .answered hookEvent ctx id mode identified locally answer daemon
  | error failure =>
    rw [daemon] at carries
    by_cases rejected : failure.kind = .daemonRejected
    · simp only [rejected, if_true]
      have settled : convertPromptlessDaemonAsk host (promptSurfaceFromEnv world)
          (responseForFailure failure (failMode world)) ctx = (responseForFailure failure (failMode world), []) :=
        if_pos (.inl (responseForFailure_asks _))
      rw [← failMode, settled]
      exact .shed hookEvent ctx id mode identified locally failure daemon rejected
    · simp only [rejected, if_false]
      have kind : failure.kind = .daemonUnreachable ∨ failure.kind = .runtime :=
        carries.1.imp_right fun either => either.resolve_left rejected
      refine ⟨trivial, ?_, .failed hookEvent ctx id mode identified locally failure daemon kind⟩
      rcases kind with same | same <;> rw [same] <;> exact nofun

/-- A run takes a course where its parts do. -/
def Takes (host : HookHost) (world : HookWorld) (result : Except HookFailure HookResponse × Effects) : Prop :=
  Course host world (finish host world result).1 (finish host world result).2.log

theorem foreign_course (mode : readModeFile host world.state = .ok .active)
    (read : readHookEvent host world = .ok hookEvent) (unknown : detectAgentType world hookEvent = none) :
    Takes host world (resolveUnrecognizedProvider host world hookEvent (eventTypeOf hookEvent)) := by
  let failure := unrecognizedProvider host (rawAgentType world) (eventTypeOf hookEvent)
  unfold Takes resolveUnrecognizedProvider
  dsimp only
  by_cases denied : (responseForFailure failure (failMode world)).decision = .deny
  · rw [failMode] at denied
    simp only [failure] at denied
    simp only [denied, if_true, finish]
    exact .foreign hookEvent mode read unknown _ rfl rfl true rfl nofun
  · have opens : failMode world = .openly ∨ eventTypeOf hookEvent = .postToolUse := by
      rcases responseForFailure_approves (failMode world) denied with event | unreachable | opens
      · exact .inr event
      · cases unreachable
      · exact .inl opens
    rw [failMode] at denied
    simp only [failure] at denied
    simp only [denied, if_false, finish]
    exact .foreign hookEvent mode read unknown _ rfl rfl false (if_neg denied) fun _ => opens

theorem resolve_course {id : Option Uuid} (mode : readModeFile host world.state = .ok .active)
    (identified : Identified host world hookEvent ctx id) : Takes host world (resolve host world ctx hookEvent id) := by
  unfold Takes resolve
  rw [← localAnswer]
  cases locally : localAnswer host world ctx with
  | alwaysDefer deferClass => exact .deferred hookEvent ctx id mode identified deferClass locally
  | approve decidedBy => exact .approved hookEvent ctx id mode identified decidedBy locally
  | askDaemon =>
    have course := gate_course mode identified locally
    dsimp only
    generalize gateDecisionWithAudit host world ctx = gated at course
    obtain ⟨_ | answer, log⟩ := gated
    · obtain ⟨rfl, known, course⟩ := course
      simp only [finish, known, if_false, answerFailure_served identified.served, List.append_nil]
      exact course
    · exact course

theorem readHookEvent_error (read : readHookEvent host world = .error failure) :
    (failure.kind = .runtime ∨ failure.kind = .inputTooLarge) ∧ failure.eventType = .preToolUse := by
  unfold readHookEvent at read
  split at read
  · cases read
    exact ⟨.inr rfl, rfl⟩
  · cases read
    exact ⟨.inl rfl, rfl⟩
  · split at read
    · cases read
    · cases read
      exact ⟨.inl rfl, rfl⟩

theorem readHookEvent_kind (read : readHookEvent host world = .error failure) : failure.kind ≠ .unrecognizedProvider := by
  rcases (readHookEvent_error read).1 with same | same <;> rw [same] <;> decide

theorem run_course (host : HookHost) (world : HookWorld) : Course host world (run host world).1 (run host world).2.log := by
  unfold run
  cases mode : readModeFile host world.state with
  | error error => exact .refused error mode
  | ok state =>
    cases state with
    | off => exact .off mode
    | active =>
      change Takes host world (runActive host world)
      unfold runActive
      cases read : readHookEvent host world with
      | error failure =>
        unfold Takes
        simp only [finish, readHookEvent_kind read, if_false]
        exact .unread failure mode read
      | ok hookEvent =>
        dsimp only
        cases detected : detectAgentType world hookEvent with
        | none => exact foreign_course mode read detected
        | some agentType =>
          dsimp only
          cases reports : isPostToolUse (eventTypeOf hookEvent) hookEvent with
          | true => exact .reported hookEvent agentType mode read detected reports
          | false =>
            simp only [Bool.false_eq_true, if_false]
            cases identity : identify world hookEvent (eventTypeOf hookEvent) agentType with
            | error failure =>
              obtain ⟨kind, event, agent⟩ := identify_malformed identity
              have answered := responseForFailure_invalid (failMode world) (.inr kind : _ ∨ failure.kind = .invalidInput)
              unfold Takes
              simp only [finish, kind, reduceCtorEq, if_false, answerFailure_served detected, answered, List.append_nil]
              exact .malformed hookEvent failure mode read event (agent ▸ detected) reports
            | ok known =>
              obtain ⟨ctx, id⟩ := known
              obtain ⟨event, agent, _⟩ := identify_context identity
              refine resolve_course mode { read, served := agent ▸ detected, event, open_ := event ▸ reports, identity := ?_ }
              rw [event, agent]
              exact identity

/-! ### Runs on a plain host -/

/-- A host with plain texts, whose state directory is as it should be. -/
def plainHost : HookHost where
  toLowercase := fun text => text.map Char.toLower
  pathInDir := fun _ => false
  commandReferencesDir := fun _ => false
  float := fun _ => none
  debug := fun text => (Json.string text).render
  utf8Error := fun _ => "invalid utf-8 sequence"
  jsonError := fun _ => "expected value at line 1 column 1"
  toRfc3339 := fun _ => "2026-01-01T00:00:00+00:00"

def activeDir : StateDir where
  path := "/home/dev/.wisphive"
  effectiveUid := 501
  openDirectory := .ok { kindFits := true, uid := 501, mode := 0o700 }
  openMode := .ok { kindFits := true, uid := 501, mode := 0o600 }
  readMode := .ok (utf8 "active\n")

def receiving (stdin : String) : HookWorld where
  state := activeDir
  stdin := utf8 stdin
  processId := 7
  socket := { connect := .error "refused" }
  now := 0
  requestId := 0

def readCall : Json :=
  .object [("hook_event_name", .string "PreToolUse"), ("tool_input", .object []), ("tool_name", .string "Read")]

/-! ### Questions -/

/-- The daemon's rulings that reach the agent as they are. -/
theorem convert_cases (surface : PromptSurface) :
    convertPromptlessDaemonAsk host surface answer ctx = (answer, []) ∧
        (answer.decision = .ask → nativePromptExists surface ctx.agentType ctx.eventType ∨ promptShapedEvent ctx.eventType = false) ∨
      ∃ reason decidedBy, convertPromptlessDaemonAsk host surface answer ctx =
        (response ctx .deny (some reason), [ctx.log "denied" decidedBy]) := by
  unfold convertPromptlessDaemonAsk
  split
  · next kept =>
    refine .inl ⟨rfl, fun asks => ?_⟩
    rcases kept with other | prompts | shaped
    · exact absurd asks other
    · exact .inl prompts
    · exact .inr (by simpa using shaped)
  · exact .inr ⟨_, _, rfl⟩

theorem defer_cases (surface : PromptSurface) (deferClass : DeferClass) :
    (∃ log, resolveAlwaysDefer host surface deferClass ctx = (response ctx .ask, log) ∧
        (log = [] ∨ log = [ctx.log "deferred" ("always_ask:" ++ className deferClass)]) ∧
        (nativePromptExists surface ctx.agentType ctx.eventType ∨ promptShapedEvent ctx.eventType = false)) ∨
      ∃ reason decidedBy, resolveAlwaysDefer host surface deferClass ctx =
        (response ctx .deny (some reason), [ctx.log "denied" decidedBy]) := by
  unfold resolveAlwaysDefer
  split
  · next lands =>
    refine .inl ⟨_, rfl, ?_, by simpa using lands⟩
    split
    · exact .inl rfl
    · exact .inr rfl
  · exact .inr ⟨_, _, rfl⟩

theorem answerFailure_ok (ran : (answerFailure host world failure).1 = .ok answer) :
    answer = responseForFailure failure (failMode world) := by
  unfold answerFailure at ran
  rw [← failMode] at ran
  dsimp only at ran
  split at ran
  · split at ran
    · cases ran
    · exact (Except.ok.inj ran).symm
  · exact (Except.ok.inj ran).symm

/-- In every run a question is put only where a prompt of the agent's own can take it. -/
theorem ask_has_prompt (host : HookHost) (world : HookWorld) {answer : HookResponse}
    (ran : (run host world).1 = .ok answer) (asks : answer.decision = .ask)
    (shaped : promptShapedEvent answer.eventType = true) :
    nativePromptExists (promptSurfaceFromEnv world) answer.agentType answer.eventType = true := by
  have course := run_course host world
  generalize (run host world).1 = outcome at ran course
  generalize (run host world).2.log = log at course
  cases course with
  | refused => cases ran
  | off | reported | malformed | approved =>
    cases ran
    cases asks
  | foreign hookEvent mode read unknown entry attributed input denied =>
    cases denied <;> cases ran
    cases asks
  | unread failure =>
    rw [answerFailure_ok ran] at asks
    exact absurd asks (responseForFailure_asks _)
  | shed | failed =>
    cases ran
    exact absurd asks (responseForFailure_asks _)
  | deferred hookEvent ctx id mode identified deferClass =>
    cases ran
    rcases @defer_cases host ctx (promptSurfaceFromEnv world) deferClass with ⟨log, same, _, lands⟩ | ⟨reason, decidedBy, same⟩
    · rw [same] at shaped ⊢
      exact lands.resolve_right (by rw [show ctx.eventType = (response ctx .ask).eventType from rfl, shaped]; exact nofun)
    · rw [same] at asks
      cases asks
  | answered hookEvent ctx id mode identified locally answer daemon =>
    have carries : Carries ctx.eventType ctx.agentType (daemonAnswer host world ctx) := carries_requestDecision
    rw [daemon] at carries
    cases ran
    rcases @convert_cases host ctx answer (promptSurfaceFromEnv world) with ⟨same, lands⟩ | ⟨reason, decidedBy, same⟩
    · rw [same] at shaped asks ⊢
      rw [carries.1] at shaped ⊢
      rw [carries.2]
      exact (lands asks).resolve_right (by rw [shaped]; exact nofun)
    · rw [same] at asks
      cases asks

def question : Json :=
  .object [("hook_event_name", .string "PreToolUse"), ("tool_input", .object []), ("tool_name", .string "AskUserQuestion")]

/-- A question of an interactive session is put to its user. -/
theorem ask_has_prompt_question :
    nativePromptExists (promptSurfaceFromEnv (receiving question.render)) .claudeCode .preToolUse = true :=
  ask_has_prompt plainHost (receiving question.render)
    (show _ = Except.ok { decision := .ask, eventType := .preToolUse, agentType := .claudeCode } by decide +kernel) rfl rfl

/-! ### Who approves -/

/-- What failed in a run that came to no ruling. -/
inductive Broken (host : HookHost) (world : HookWorld) : Prop
  /-- The payload cannot be read. -/
  | unread (failure : HookFailure) (read : readHookEvent host world = .error failure)
  /-- No formatter serves the provider that the environment names. -/
  | foreign (hookEvent : Json) (read : readHookEvent host world = .ok hookEvent)
      (unknown : detectAgentType world hookEvent = none)
  /-- The daemon was asked, and gave no answer or a rejection. -/
  | unanswered (hookEvent : Json) (ctx : Context) (id : Option Uuid) (identified : Identified host world hookEvent ctx id)
      (locally : localAnswer host world ctx = .askDaemon) (failure : HookFailure)
      (failed : daemonAnswer host world ctx = .error failure)

def bareApproval (eventType : HookEventType) (agentType : AgentType) : HookResponse where
  decision := .approve
  eventType
  agentType

/-- What an approval of the hook rests on, and what it leaves in the log. An answer of the daemon
is passed on as it is, and every other approval is bare. -/
inductive Authorized (host : HookHost) (world : HookWorld) : HookResponse → List AutoApprovedLog → Prop
  /-- The operator has switched the gate off. -/
  | off (mode : readModeFile host world.state = .ok .off) :
      Authorized host world (bareApproval .preToolUse (preParseAgentType world)) []
  /-- The payload reports a tool that has run. -/
  | report (hookEvent : Json) (read : readHookEvent host world = .ok hookEvent) (agentType : AgentType)
      (served : detectAgentType world hookEvent = some agentType)
      (reports : isPostToolUse (eventTypeOf hookEvent) hookEvent = true) :
      Authorized host world (bareApproval .postToolUse agentType) []
  | foreignReport (hookEvent : Json) (read : readHookEvent host world = .ok hookEvent)
      (unknown : detectAgentType world hookEvent = none) (reports : eventTypeOf hookEvent = .postToolUse)
      (entry : AutoApprovedLog) (word : entry.event = "auto_approved") :
      Authorized host world (bareApproval .preToolUse .claudeCode) [entry]
  /-- A rule of the configuration approves the call. -/
  | policy (hookEvent : Json) (ctx : Context) (id : Option Uuid) (identified : Identified host world hookEvent ctx id)
      (entry : AutoApprovedLog) (word : entry.event = "auto_approved")
      (locally : localAnswer host world ctx = .approve entry.decidedBy) :
      Authorized host world (bareApproval ctx.eventType ctx.agentType) [entry]
  /-- The daemon approved. -/
  | daemon (hookEvent : Json) (ctx : Context) (id : Option Uuid) (identified : Identified host world hookEvent ctx id)
      (locally : localAnswer host world ctx = .askDaemon) (answer : HookResponse)
      (answered : daemonAnswer host world ctx = .ok answer) : Authorized host world answer []
  /-- No daemon was there to be asked. -/
  | outage (hookEvent : Json) (ctx : Context) (id : Option Uuid) (identified : Identified host world hookEvent ctx id)
      (locally : localAnswer host world ctx = .askDaemon) (failure : HookFailure)
      (failed : daemonAnswer host world ctx = .error failure) (unreachable : failure.kind = .daemonUnreachable) :
      Authorized host world (bareApproval ctx.eventType ctx.agentType) []
  /-- Something failed, and the operator lets failures pass. -/
  | failOpen (opens : failMode world = .openly) (broken : Broken host world) (eventType : HookEventType)
      (agentType : AgentType) (log : List AutoApprovedLog) (words : ∀ entry ∈ log, entry.event = "auto_approved") :
      Authorized host world (bareApproval eventType agentType) log

/-- An answer to a failure that is no denial is bare. -/
theorem responseForFailure_bare (failMode : FailMode) (kept : (responseForFailure failure failMode).decision ≠ .deny) :
    responseForFailure failure failMode = bareApproval failure.eventType failure.agentType := by
  rcases responseForFailure_cases failMode with same | same
  · rw [same] at kept
    exact absurd rfl kept
  · exact same

theorem answerFailure_words (kept : (responseForFailure failure (failMode world)).decision ≠ .deny) :
    ∀ entry ∈ (answerFailure host world failure).2, entry.event = "auto_approved" := by
  intro entry member
  rw [answerFailure, ← failMode] at member
  dsimp only at member
  split at member
  · rw [List.mem_singleton.mp member]
    exact if_neg kept
  · cases member

/-- An input that cannot be read is approved where the operator lets failures pass. -/
theorem unread_opens (read : readHookEvent host world = .error failure)
    (kept : (responseForFailure failure (failMode world)).decision ≠ .deny) : failMode world = .openly := by
  obtain ⟨kind, event⟩ := readHookEvent_error read
  rcases responseForFailure_approves (failMode world) kept with same | unreachable | opens
  · cases event.symm.trans same
  · rw [unreachable] at kind
    rcases kind with same | same <;> cases same
  · exact opens

/-- An exchange with the daemon that fails is approved where no daemon was there, or where the
operator lets failures pass. -/
theorem unanswered_opens {id : Option Uuid} (identified : Identified host world hookEvent ctx id)
    (daemon : daemonAnswer host world ctx = .error failure)
    (kept : (responseForFailure failure (failMode world)).decision ≠ .deny) :
    (failure.eventType = ctx.eventType ∧ failure.agentType = ctx.agentType) ∧
      (failure.kind = .daemonUnreachable ∨ failMode world = .openly) := by
  have carries : Carries ctx.eventType ctx.agentType (daemonAnswer host world ctx) := carries_requestDecision
  rw [daemon] at carries
  refine ⟨carries.2, ?_⟩
  rcases responseForFailure_approves (failMode world) kept with same | either
  · have reported := identified.open_
    rw [← carries.2.1, same] at reported
    cases reported
  · exact either

/-- Every approval of the hook was authorized. -/
theorem gate_sound (host : HookHost) (world : HookWorld) {answer : HookResponse} (ran : (run host world).1 = .ok answer)
    (approves : answer.decision = .approve) : Authorized host world answer (run host world).2.log := by
  have course := run_course host world
  generalize (run host world).1 = outcome at ran course
  generalize (run host world).2.log = log at course ⊢
  cases course with
  | refused => cases ran
  | off mode =>
    cases ran
    exact .off mode
  | unread failure mode read =>
    have same := answerFailure_ok ran
    have kept : (responseForFailure failure (failMode world)).decision ≠ .deny := by
      rw [← same, approves]
      exact nofun
    rw [same, responseForFailure_bare _ kept]
    exact .failOpen (unread_opens read kept) (.unread failure read) _ _ _ (answerFailure_words kept)
  | foreign hookEvent mode read unknown entry attributed input denied word opens =>
    cases denied with
    | true => cases ran
    | false =>
      cases ran
      rcases opens rfl with opens | reports
      · exact .failOpen opens (.foreign hookEvent read unknown) _ _ _ fun _ member => List.mem_singleton.mp member ▸ word
      · exact .foreignReport hookEvent read unknown reports entry word
  | reported hookEvent agentType mode read served reports =>
    cases ran
    exact .report hookEvent read agentType served reports
  | malformed =>
    cases ran
    cases approves
  | approved hookEvent ctx id mode identified decidedBy locally =>
    cases ran
    exact .policy hookEvent ctx id identified _ rfl locally
  | deferred hookEvent ctx id mode identified deferClass =>
    cases ran
    rcases @defer_cases host ctx (promptSurfaceFromEnv world) deferClass with ⟨log, same, _⟩ | ⟨reason, decidedBy, same⟩
    all_goals
      rw [same] at approves
      cases approves
  | answered hookEvent ctx id mode identified locally answer daemon =>
    cases ran
    rcases @convert_cases host ctx answer (promptSurfaceFromEnv world) with ⟨same, _⟩ | ⟨reason, decidedBy, same⟩
    · rw [same]
      exact .daemon hookEvent ctx id identified locally answer daemon
    · rw [same] at approves
      cases approves
  | shed hookEvent ctx id mode identified locally failure daemon rejected =>
    cases ran
    have kept : (responseForFailure failure (failMode world)).decision ≠ .deny := by
      rw [approves]
      exact nofun
    have opens := (unanswered_opens identified daemon kept).2.resolve_left (by rw [rejected]; exact nofun)
    have word : outcomeWord (responseForFailure failure (failMode world)).decision = "auto_approved" := if_neg kept
    rw [word, responseForFailure_bare _ kept]
    exact .failOpen opens (.unanswered hookEvent ctx id identified locally failure daemon) _ _ _
      fun _ member => List.mem_singleton.mp member ▸ rfl
  | failed hookEvent ctx id mode identified locally failure daemon =>
    cases ran
    have kept : (responseForFailure failure (failMode world)).decision ≠ .deny := by
      rw [approves]
      exact nofun
    obtain ⟨⟨event, agent⟩, unreachable | opens⟩ := unanswered_opens identified daemon kept
    · rw [responseForFailure_bare _ kept, event, agent]
      exact .outage hookEvent ctx id identified locally failure daemon unreachable
    · rw [responseForFailure_bare _ kept]
      exact .failOpen opens (.unanswered hookEvent ctx id identified locally failure daemon) _ _ _ fun _ member => by cases member

/-- The tier for reading tools approves the call, and the log names it. -/
theorem gate_sound_read_tier :
    ∃ answer, (run plainHost (receiving readCall.render)).1 = .ok answer ∧
      Authorized plainHost (receiving readCall.render) answer (run plainHost (receiving readCall.render)).2.log ∧
      (run plainHost (receiving readCall.render)).2.log.map (·.decidedBy) = ["default:read_tier"] := by
  have ran : (run plainHost (receiving readCall.render)).1 =
      .ok { decision := .approve, eventType := .preToolUse, agentType := .claudeCode } := by
    decide +kernel
  exact ⟨_, ran, gate_sound plainHost (receiving readCall.render) ran rfl, by decide +kernel⟩

/-! ### What the agent is left with -/

/-- The run ends in a denial, in words of its own or in those of an event. -/
def Denies (host : HookHost) (world : HookWorld) (eventType : HookEventType) : Prop :=
  match (run host world).1 with
  | .error _ => True
  | .ok answer => answer.eventType = eventType ∧ answer.decision = .deny

/-- Two runs for one event leave the same to their agents. Where the one denies, so does the other,
or it withholds the call from Codex. -/
theorem denials_told_apart {host other : HookHost} {world elsewhere : HookWorld} {answer : HookResponse}
    (ran : (run host world).1 = .ok answer) (answered : HookOutput.answers answer.eventType = true)
    (denies : Denies other elsewhere answer.eventType) (same : exit host world = exit other elsewhere) :
    answer.decision = .deny ∨ answer.eventType = .preToolUse ∧ HookOutput.Withheld answer := by
  unfold exit at same
  unfold Denies at denies
  rw [ran] at same
  cases outcome : (run other elsewhere).1 with
  | error message =>
    rw [outcome] at same
    by_contra neither
    have code := HookOutput.code_kept fun decided => neither (.inl decided)
    have coded : (HookOutput.formatAndExit answer).code = 2 := congrArg HookExit.code same
    cases code.symm.trans coded
  | ok denied =>
    rw [outcome] at same denies
    exact HookOutput.of_denial denies.1 denies.2 answered same.symm

/-- A question of Codex, which has no prompt for it. -/
def codexQuestion (cwd : String) : Json :=
  .object [("cwd", .string cwd), ("hook_event_name", .string "PreToolUse"), ("model", .string "gpt-5"),
    ("tool_input", .object []), ("tool_name", .string "AskUserQuestion")]

def unanswerable : HookResponse where
  decision := .deny
  message := some HookOutput.codexNoNativePromptReason
  eventType := .preToolUse
  agentType := .codex

theorem denials_told_apart_question :
    exit plainHost (receiving (codexQuestion "/work").render) = exit plainHost (receiving (codexQuestion "/home").render) ∧
      (unanswerable.decision = .deny ∨ unanswerable.eventType = .preToolUse ∧ HookOutput.Withheld unanswerable) := by
  have first : (run plainHost (receiving (codexQuestion "/work").render)).1 = .ok unanswerable := by decide +kernel
  have second : (run plainHost (receiving (codexQuestion "/home").render)).1 = .ok unanswerable := by decide +kernel
  have same : exit plainHost (receiving (codexQuestion "/work").render) =
      exit plainHost (receiving (codexQuestion "/home").render) := by
    rw [exit, exit, first, second]
  refine ⟨same, denials_told_apart first rfl ?_ same⟩
  rw [Denies, second]
  exact ⟨rfl, rfl⟩

end Wisphive.HookRun
