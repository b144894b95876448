import Wisphive.DenialRuns
import Wisphive.Proofs.Deliveries
import Wisphive.Proofs.HookTransport

/-! A connection that a denial has reached runs its statements, writes its answer and
ends. Where a statement fails or the line is too long, the hook takes the end for an
outage. -/

namespace Wisphive
open Foundation Program Trace

namespace Trace

/-- A statement failed. -/
def failing (connection : Trace) : Bool :=
  connection.any fun entry =>
    match entry with
    | .performed _ (.execute _) _ (.error _) => true
    | _ => false

/-- Nothing failed and nothing was written. -/
structure Open (connection : Trace) : Prop where
  silent : written connection = []
  sound : failing connection = false

/-- What a connection makes of the decision in its channel. -/
def answerTo (connection : Trace) (rich : RichDecision) : RichDecision :=
  if timedOut connection then .approve else rich

end Trace

def responseOf (id : Uuid) (rich : RichDecision) : ServerMessage :=
  .decisionResponse id rich.decision rich.message rich.updatedInput rich.additionalContext rich.selectedPermission

/-- What a hook may ask for on account of an answer: its bookkeeping, whose statements
only fail from outside, and the answer itself. -/
def Answers (id : Uuid) (answer : RichDecision) (request : Request) : Prop :=
  (∃ decision, request = .finalizeLocal id decision) ∨
    (∃ statement, request = .execute statement ∧ ∀ now db, statement.execute now db ≠ none) ∨
    request = .write (responseOf id answer)

/-- Only a hook waits, before it has written anything. Once a denial has reached it, it
runs statements until one fails, and writes its answer. -/
structure AnswerRule (task : Nat) (past : Trace) (request : Request) : Prop where
  waits : ∀ channel, request = .wait channel → (∃ req, jobOf task past = some (.hook req)) ∧ Open past
  answers : ∀ req rich, jobOf task past = some (.hook req) → received past = some rich → rich.decision = .deny →
    hungUp past = false → Open past ∧ Answers req.id (answerTo past rich) request

/-- How a connection that a denial has reached ends. -/
def AnswerEnds (task : Nat) (past : Trace) : Prop :=
  ∀ req rich, jobOf task past = some (.hook req) → received past = some rich → rich.decision = .deny →
    hungUp past = false → failing past = true ∨ written past = [responseOf req.id (answerTo past rich)]

/-- What a task may ask for: nothing but plain denials are delivered. -/
def DenialRule (task : Nat) (past : Trace) (request : Request) : Prop :=
  AnswerRule task past request ∧ Delivers PlainDenial request

variable {task : Nat} {past current : Trace}

/-- The connection of a hook that has settled on its answer, and wrote nothing. -/
structure Heard (task : Nat) (req : DecisionRequest) (answer : RichDecision) (past : Trace) : Prop where
  job : jobOf task past = some (.hook req)
  settled : ∀ rich, received past = some rich → rich.decision = .deny → hungUp past = false → answerTo past rich = answer
  opened : Open past

theorem Heard.rule {req : DecisionRequest} {answer : RichDecision} {request : Request}
    (heard : Heard task req answer past) (allowed : Answers req.id answer request)
    (unwaited : ∀ channel, request ≠ .wait channel) : AnswerRule task past request := by
  refine ⟨fun channel same => absurd same (unwaited channel), fun other rich job known denied present => ?_⟩
  cases heard.job.symm.trans job
  rw [heard.settled rich known denied present]
  exact ⟨heard.opened, allowed⟩

/-- A connection that nothing has reached may ask for anything. -/
theorem AnswerRule.of_unheard {req : DecisionRequest} {request : Request} (unheard : received past = none)
    (job : jobOf task past = some (.hook req)) (opened : Open past) : AnswerRule task past request :=
  ⟨fun _ _ => ⟨⟨req, job⟩, opened⟩, fun _ _ _ heard => by
    rw [unheard] at heard
    cases heard⟩

theorem AnswerEnds.of_unheard (unheard : received past = none) : AnswerEnds task past :=
  fun _ _ _ heard => by
    rw [unheard] at heard
    cases heard

theorem AnswerEnds.of_failing (failed : failing past = true) : AnswerEnds task past :=
  fun _ _ _ _ _ _ => .inl failed

theorem AnswerEnds.of_gone (gone : hungUp past = true) : AnswerEnds task past :=
  fun _ _ _ _ _ present => by cases gone.symm.trans present

/-- How the record of a decision leaves the connection. -/
def RecordLeaves (task : Nat) (req : DecisionRequest) (answer : RichDecision) (past current : Trace) :
    Except String Unit → Prop
  | .ok () => Heard task req answer current ∧ hungUp current = hungUp past
  | .error _ => failing current = true ∧ hungUp current = hungUp past

variable {req : DecisionRequest} {answer : RichDecision}

theorem Heard.finalized {decision : Decision} (heard : Heard task req answer past) (before : Shared) (removed : Bool) :
    Heard task req answer (.performed task (.finalizeLocal req.id decision) before removed :: past) :=
  ⟨heard.job, heard.settled, heard.opened.silent, heard.opened.sound⟩

theorem Heard.executed {statement : Statement} {reply : statement.Reply} (heard : Heard task req answer past)
    (before : Shared) : Heard task req answer (.performed task (.execute statement) before (.ok reply) :: past) :=
  ⟨heard.job, heard.settled, heard.opened.silent, heard.opened.sound⟩

/-- A statement on the way to the answer. -/
theorem Heard.execute {statement : Statement} {α : Type} {post : α → Trace → Prop}
    {next : Except String statement.Reply → Daemon α} (heard : Heard task req answer past)
    (total : ∀ now db, statement.execute now db ≠ none)
    (failed : ∀ error before, Obeys (DenialRule task) task post (next (.error error))
      (.performed task (.execute statement) before (.error error) :: past))
    (answered : ∀ reply before, Heard task req answer (.performed task (.execute statement) before (.ok reply) :: past) →
      Obeys (DenialRule task) task post (next (.ok reply))
        (.performed task (.execute statement) before (.ok reply) :: past)) :
    Obeys (DenialRule task) task post (.request (.execute statement) next) past := by
  have allowed : AnswerRule task past (.execute statement) :=
    heard.rule (.inr (.inl ⟨statement, rfl, total⟩)) fun _ same => by cases same
  refine obeys_request ⟨allowed, trivial⟩ ?_
  intro choice before reply after _
  cases reply with
  | error error => exact failed error before
  | ok reply => exact answered reply before (heard.executed before)

theorem Heard.delete (heard : Heard task req answer past) (earlier : Trace) (same : hungUp past = hungUp earlier) :
    Obeys (DenialRule task) task (fun result current => RecordLeaves task req answer earlier current result)
      (Wisphive.execute (.deletePending req.id)) past :=
  heard.execute (fun _ _ none => by cases none) (fun _ _ => ⟨rfl, same⟩) fun _ _ still => ⟨still, same⟩

theorem Heard.resolvePendingBy (heard : Heard task req answer past) (decision : Decision) (decidedBy : String) :
    Obeys (DenialRule task) task (fun result current => RecordLeaves task req answer past current result)
      (resolvePendingBy req.id decision decidedBy) past := by
  refine heard.execute (fun _ _ none => by cases none) (fun _ _ => ⟨rfl, rfl⟩) fun found _ selected => ?_
  cases found with
  | none => exact selected.delete past rfl
  | some row =>
    refine selected.execute (fun _ _ none => by cases none) (fun _ _ => ⟨rfl, rfl⟩) fun _ _ inserted => ?_
    exact inserted.delete past rfl

theorem written_cons {message : ServerMessage} (before : Shared) (past : Trace) :
    written (.performed task (.write message) before true :: past) = written past ++ [message] := by
  simp only [written, List.filterMap_cons, List.reverse_cons]

/-- The answer of a connection ends it. -/
theorem Heard.write (heard : Heard task req answer past) :
    Obeys (DenialRule task) task (fun _ => AnswerEnds task)
      (do let _ ← writeMsg (responseOf req.id answer) : Daemon Unit) past := by
  have allowed : AnswerRule task past (.write (responseOf req.id answer)) :=
    heard.rule (.inr (.inr rfl)) fun _ same => by cases same
  refine obeys_request ⟨allowed, trivial⟩ ?_
  intro choice before sent after _
  cases sent with
  | false => exact .of_gone rfl
  | true =>
    intro other rich job known denied present
    cases heard.job.symm.trans job
    have same : answerTo past rich = answer := heard.settled rich known denied present
    refine .inr ?_
    rw [written_cons, heard.opened.silent, ← same]
    rfl

theorem Heard.answerHook (heard : Heard task req answer past) (decidedBy : String) :
    Obeys (DenialRule task) task (fun _ => AnswerEnds task) (answerHook req.id answer decidedBy) past := by
  unfold Wisphive.answerHook
  split
  · refine obeys_bind (heard.delete past rfl) fun result current left => ?_
    cases result with
    | error error => exact .of_failing left.1
    | ok _ => exact left.1.write
  · refine obeys_bind (heard.resolvePendingBy _ _) fun result current left => ?_
    cases result with
    | error error => exact .of_failing left.1
    | ok _ => exact left.1.write

/-- A hook that was not answered finalizes its request before it goes on. -/
theorem Heard.finalize {decision : Decision} {next : Bool → Daemon Unit} (heard : Heard task req answer past)
    (rest : ∀ removed before, Heard task req answer (.performed task (.finalizeLocal req.id decision) before removed :: past) →
      Obeys (DenialRule task) task (fun _ => AnswerEnds task) (next removed)
        (.performed task (.finalizeLocal req.id decision) before removed :: past)) :
    Obeys (DenialRule task) task (fun _ => AnswerEnds task) (finalizeLocal req.id decision >>= next) past := by
  have allowed : AnswerRule task past (.finalizeLocal req.id decision) :=
    heard.rule (.inl ⟨decision, rfl⟩) fun _ same => by cases same
  exact obeys_ask ⟨allowed, trivial⟩ fun _ before removed _ _ => rest removed before (heard.finalized before removed)

theorem received_wait {channel : Channel} {choice : Choice} {shared after : Shared} {waited : Waited}
    (performed : shared.perform choice (.wait channel) = some (waited, after)) :
    shared.received channel = some waited ∨ waited = .timedOut ∨ waited = .disconnected := by
  simp only [Shared.perform] at performed
  split at performed
  · obtain ⟨found, received, same⟩ := Option.map_eq_some_iff.mp performed
    cases same
    exact .inl received
  · cases performed
    exact .inr (.inl rfl)
  · cases performed
    exact .inr (.inr rfl)
  · cases performed

theorem settleHook_answers {channel : Channel} {waited : Waited} {choice : Choice} {before after : Shared}
    (job : jobOf task past = some (.hook req)) (unheard : received past = none) (timely : timedOut past = false)
    (opened : Open past) (performed : before.perform choice (.wait channel) = some (waited, after)) :
    Obeys (DenialRule task) task (fun _ => AnswerEnds task) (settleHook req.id waited)
      (.performed task (.wait channel) before waited :: past) := by
  have still : Open (.performed task (.wait channel) before waited :: past) := ⟨opened.silent, opened.sound⟩
  cases waited with
  | resolved rich =>
    have arrived := (received_wait performed).resolve_right fun other => by rcases other with same | same <;> cases same
    have heard : Heard task req rich (.performed task (.wait channel) before (.resolved rich) :: past) := by
      refine ⟨job, fun other found _ _ => ?_, still⟩
      simp only [received, List.findSome?_cons, arrived, Option.some.injEq] at found
      rw [answerTo, if_neg (by simpa [timedOut] using timely), found]
    exact heard.answerHook _
  | channelDropped =>
    have arrived := (received_wait performed).resolve_right fun other => by rcases other with same | same <;> cases same
    have heard : Heard task req .approve (.performed task (.wait channel) before .channelDropped :: past) := by
      refine ⟨job, fun other found _ _ => ?_, still⟩
      simp only [received, List.findSome?_cons, arrived] at found
      cases unheard.symm.trans found
    exact heard.finalize fun _ _ heard => heard.answerHook _
  | timedOut =>
    have heard : Heard task req .approve (.performed task (.wait channel) before .timedOut :: past) :=
      ⟨job, fun _ _ _ _ => rfl, still⟩
    exact heard.finalize fun _ _ heard => heard.answerHook _
  | disconnected =>
    have heard : Heard task req .approve (.performed task (.wait channel) before .disconnected :: past) :=
      ⟨job, fun _ _ _ present => (by cases present), still⟩
    refine heard.finalize fun _ _ heard => obeys_bind (heard.resolvePendingBy .deny _) fun result _ left => ?_
    cases result with
    | error error => exact .of_gone left.2
    | ok _ => exact .of_gone left.2

theorem handleHook_answers (req : DecisionRequest) :
    Obeys (DenialRule task) task (fun _ => AnswerEnds task) (handleHook req) [.launched task (.hook req)] := by
  have job : jobOf task [.launched task (.hook req)] = some (.hook req) := jobOf_launched ..
  have start : Open [.launched task (.hook req)] := ⟨rfl, rfl⟩
  have may {request : Request} (steps : Trace) (unheard : received steps = none) (opened : Open steps)
      (known : jobOf task steps = some (.hook req)) (quiet : Delivers PlainDenial request) :
      DenialRule task steps request :=
    ⟨.of_unheard unheard known opened, quiet⟩
  have rejected (message : ServerMessage) (steps : Trace) (unheard : received steps = none) (opened : Open steps)
      (known : jobOf task steps = some (.hook req)) :
      Obeys (DenialRule task) task (fun _ => AnswerEnds task) (do let _ ← writeMsg message : Daemon Unit) steps :=
    obeys_request (may steps unheard opened known trivial) fun _ _ _ _ _ => AnswerEnds.of_unheard unheard
  unfold handleHook
  split
  · exact rejected _ _ rfl start job
  split
  · exact rejected _ _ rfl start job
  refine obeys_ask (may _ rfl start job trivial) fun _ mode denial _ _ => ?_
  have undenied : Open [.performed task .modeDenial mode denial, .launched task (.hook req)] := ⟨rfl, rfl⟩
  cases denial with
  | some reason => exact rejected _ _ rfl undenied job
  | none =>
    refine obeys_ask (may _ rfl undenied job trivial) fun _ stored persisted _ _ => ?_
    cases persisted with
    | error error => exact .of_unheard rfl
    | ok _ =>
      refine obeys_ask (may _ rfl ⟨rfl, rfl⟩ job trivial) fun _ queue admitted _ _ => ?_
      cases admitted with
      | none => exact rejected _ _ rfl ⟨rfl, rfl⟩ job
      | some channel =>
        refine obeys_ask (may _ rfl ⟨rfl, rfl⟩ job trivial) fun _ before waited _ performed => ?_
        exact settleHook_answers job rfl rfl ⟨rfl, rfl⟩ performed

/-- Only hooks receive decisions, and what they receive are plain denials. -/
def Receives (trace : Trace) : Prop :=
  ∀ task rich, received (own task trace) = some rich → PlainDenial rich ∧ ∃ req, jobOf task trace = some (.hook req)

def denialContract : Contract daemon where
  valid trace shared := AllSent PlainDenial shared.queue ∧ Receives trace
  may task request trace _ := DenialRule task (own task trace) request
  done task trace := AnswerEnds task (own task trace)

theorem received_cons {entry : Entry daemon} {rich : RichDecision} (known : received (entry :: past) = some rich) :
    (∃ task channel before reply, entry = .performed task (.wait channel) before reply ∧
      before.received channel = some (.resolved rich)) ∨ received past = some rich := by
  rw [received, List.findSome?_cons] at known
  split at known
  next found =>
    cases known
    split at found
    next =>
      split at found
      next arrived =>
        cases found
        exact .inl ⟨_, _, _, _, rfl, arrived⟩
      next => cases found
    next => cases found
  next => exact .inr known

variable {trace : Trace}

theorem Receives.cons {entry : Entry daemon} (receives : Receives trace)
    (fresh : ∀ task job, entry = .launched task job → Fresh task trace)
    (plain : ∀ task channel before reply rich, entry = .performed task (.wait channel) before reply →
      before.received channel = some (.resolved rich) → PlainDenial rich ∧ ∃ req, jobOf task trace = some (.hook req)) :
    Receives (entry :: trace) := by
  intro task rich known
  by_cases mine : entry.task = some task
  · rw [own_cons mine] at known
    have continued (unlaunched : ∀ job, entry ≠ .launched task job) (kept : PlainDenial rich ∧
        ∃ req, jobOf task trace = some (.hook req)) :
        PlainDenial rich ∧ ∃ req, jobOf task (entry :: trace) = some (.hook req) := by
      rw [jobOf_cons trace unlaunched]
      exact kept
    rcases received_cons known with ⟨other, channel, before, reply, rfl, arrived⟩ | earlier
    · cases mine
      exact continued (fun _ same => by cases same) (plain _ _ _ _ _ rfl arrived)
    · refine continued (fun job same => ?_) (receives task rich earlier)
      rw [own_fresh (fresh task job same)] at earlier
      cases earlier
  · rw [own_foreign mine] at known
    rw [jobOf_cons trace fun job same => mine (by rw [same]; rfl)]
    exact receives task rich known

/-- Every job obeys its rule. -/
theorem body_answers {guard : Guard daemon} (job : Job) (fresh : Fresh task trace) :
    Safe guard denialContract task (fun _ => denialContract.done task) job.body (.launched task job :: trace) := by
  have alone : own task (.launched task job :: trace) = [.launched task job] := by
    rw [own_cons rfl, own_fresh fresh]
  have other (unhooked : ∀ req, job ≠ .hook req) (plainly : Plainly job.body) :
      Safe guard denialContract task (fun _ => denialContract.done task) job.body (.launched task job :: trace) := by
    have obeys := (@body_obeys task job).within (fun _ _ _ _ _ => Shared.perform_possible) plainly
      (jobOf_stable (some job)) (jobOf_launched ..)
    rw [← alone] at obeys
    have unheard {past : Trace} {req : DecisionRequest} (known : jobOf task past = some job)
        (hook : jobOf task past = some (.hook req)) : False :=
      unhooked req (Option.some.inj (known.symm.trans hook))
    refine obeys.safe (fun request trace shared _ ⟨rule, delivers, known⟩ => ⟨⟨?_, ?_⟩, delivers⟩) ?_
    · rintro channel rfl
      obtain ⟨⟨req, admitted⟩, _⟩ := rule
      exact (unheard known admitted.1).elim
    · exact fun req rich hook => (unheard known hook).elim
    · exact fun _ trace ⟨_, known⟩ req rich hook => (unheard known hook).elim
  cases job with
  | hook req =>
    have obeys := @handleHook_answers task req
    rw [← alone] at obeys
    exact obeys.safe (fun _ _ _ _ rule => rule) fun _ _ ends => ends
  | command issued => exact other (fun _ same => by cases same) (dispatchCommand_plainly issued)
  | expiry id => exact other (fun _ same => by cases same) (expireSpawn_plainly id)

theorem denialContract_lawful (db : Database) (wall : DateTime) :
    @Lawful daemon {} denialContract { db, wall } where
  start := ⟨fun _ _ sent => (by cases sent), fun _ _ heard => by cases heard⟩
  launch task job trace shared valid _ fresh :=
    ⟨valid.1, valid.2.cons (fun _ _ same => by cases same; exact fresh) fun _ _ _ _ _ same => by cases same⟩
  step task choice request trace shared reply after valid may _ performed := by
    refine ⟨perform_allSent valid.1 may.2 performed, valid.2.cons (fun _ _ same => by cases same) ?_⟩
    rintro _ channel _ _ rich same arrived
    cases same
    obtain ⟨⟨req, job⟩, _⟩ := may.1.waits channel rfl
    exact ⟨received_good valid.1 arrived, req, (jobOf_own trace).symm.trans job⟩
  drift drift trace shared after valid drifted := by
    refine ⟨?_, valid.2.cons (fun _ _ same => by cases same) fun _ _ _ _ _ same => by cases same⟩
    rw [Shared.drift_queue drifted]
    exact valid.1
  bodies task job trace _ fresh := body_answers job fresh

section
variable {float : String → Option String} {failMode : FailMode} {connection : Trace} {req : DecisionRequest}

/-! ### What the hook makes of the end -/

theorem encode_fits {message : ServerMessage} {line : String} (written : message.encode = some line) :
    fitsLine message = decide ((utf8 line).length ≤ maxLineBytes) := by
  rw [fitsLine, written, Option.all_some]

theorem welcome_fits : fitsLine (.welcome protocolVersion) = true := by
  decide +kernel

/-- Behind the welcome the hook reads what was written. -/
theorem hookAnswer_eq (float : String → Option String) (failMode : FailMode) (req : DecisionRequest)
    (connection : Trace) :
    hookAnswer float failMode req connection =
      match readDecision float { incoming := hookStream connection } req.hookEventName req.agentType
        (((written connection).filterMap ServerMessage.encode).flatMap utf8) with
      | .ok response => response
      | .error failed => responseForFailure failed failMode := by
  obtain ⟨line, shown⟩ : ∃ line, (ServerMessage.welcome protocolVersion).encode = some line := ⟨_, rfl⟩
  have fits : (utf8 line).length ≤ maxLineBytes := of_decide_eq_true ((encode_fits shown).symm.trans welcome_fits)
  have stream : hookStream connection =
      utf8 line ++ ((written connection).filterMap ServerMessage.encode).flatMap utf8 := by
    rw [hookStream, List.filterMap_cons_some shown, List.flatMap_cons]
  have welcomed : readWelcome float { incoming := hookStream connection } req.hookEventName req.agentType
      (utf8 line ++ ((written connection).filterMap ServerMessage.encode).flatMap utf8) = .ok _ :=
    readWelcome_welcome (by decide) shown fits
  rw [← stream] at welcomed
  rw [hookAnswer, hookResponse, requestDecision]
  change (match (readWelcome _ _ _ _ _ >>= _ : Except HookFailure HookResponse) with | .ok _ => _ | .error _ => _) = _
  rw [welcomed]
  rfl

/-- Without an answer there is an outage. -/
theorem hookAnswer_silent (silent : written connection = []) :
    (hookAnswer float failMode req connection).decision = .approve := by
  obtain ⟨failed, read, unreachable⟩ : ∃ failed, readDecision float { incoming := hookStream connection }
      req.hookEventName req.agentType [] = .error failed ∧ failed.kind = .daemonUnreachable := readDecision_silent
  rw [hookAnswer_eq, silent, List.filterMap_nil, List.flatMap_nil, read]
  exact responseForFailure_unreachable unreachable failMode

/-- An answer approves nothing exactly if it fits a line and is no approval. -/
theorem hookAnswer_answered {answer : RichDecision} (bare : answer.updatedInput = none)
    (answered : written connection = [responseOf req.id answer]) :
    (hookAnswer float failMode req connection).decision ≠ .approve ↔
      fitsLine (responseOf req.id answer) = true ∧ answer.decision ≠ .approve := by
  obtain ⟨line, shown⟩ : ∃ line, (responseOf req.id answer).encode = some line := ⟨_, rfl⟩
  have carried : (responseOf req.id answer).Carried float := by
    intro input given
    rw [bare] at given
    cases given
  have stream : ((written connection).filterMap ServerMessage.encode).flatMap utf8 = utf8 line ++ [] := by
    rw [answered, List.filterMap_cons_some shown, List.flatMap_cons]
    rfl
  rw [hookAnswer_eq, stream, encode_fits shown, decide_eq_true_eq]
  by_cases fits : (utf8 line).length ≤ maxLineBytes
  · rw [readDecision_response rfl carried shown fits]
    exact (and_iff_right fits).symm
  · obtain ⟨failed, read, unreachable⟩ : ∃ failed, readDecision float { incoming := hookStream connection }
        req.hookEventName req.agentType (utf8 line ++ []) = .error failed ∧ failed.kind = .daemonUnreachable :=
      readDecision_beyond carried shown (Nat.not_le.mp fits)
    rw [read]
    exact iff_of_false (fun refuted => refuted (responseForFailure_unreachable unreachable failMode))
      fun both => fits both.1

end

/-! ### Denials that stand -/

theorem Trace.denied_iff : denied past = true ↔ ∃ rich, received past = some rich ∧ rich.decision = .deny := by
  rw [denied]
  cases received past with
  | none => simp
  | some rich => simp

section
variable {float : String → Option String} {failMode : FailMode} {system before after : System daemon}
  {req : DecisionRequest} {rich : RichDecision}

theorem finished_iff : finished system task = true ↔ system.tasks[task]? = some (.pure ()) := by
  unfold finished
  split
  next found => exact iff_of_true rfl found
  next other => exact iff_of_false Bool.false_ne_true fun found => other found

theorem finished_congr (same : after.tasks[task]? = before.tasks[task]?) : finished after task = finished before task := by
  rw [finished, finished, same]

theorem launched_other {job : Job} (differ : task ≠ system.tasks.length) :
    (system.launch job).tasks[task]? = system.tasks[task]? := by
  rw [System.launch, List.getElem?_append]
  split
  · rfl
  next beyond =>
    rw [List.getElem?_eq_none (not_lt.mp beyond)]
    apply List.getElem?_eq_none
    rw [List.length_singleton]
    omega

theorem kept_asks {guard : Guard daemon} {request : Request} {next : request.Reply → Daemon Unit}
    (kept : Kept guard denialContract system) (found : system.tasks[task]? = some (.request request next)) :
    DenialRule task (own task system.trace) request := by
  obtain ⟨earlier, grown, safe⟩ := kept.safe task _ found
  exact (safe _ _ grown kept.valid).1

/-- A connection that a denial has reached is open until it has ended. -/
theorem kept_answering {guard : Guard daemon} {program : Daemon Unit} (kept : Kept guard denialContract system)
    (found : system.tasks[task]? = some program) (job : jobOf task system.trace = some (.hook req))
    (heard : received (own task system.trace) = some rich) (denied : rich.decision = .deny)
    (present : hungUp (own task system.trace) = false) :
    finished system task = false ∧ Open (own task system.trace) ∨
      finished system task = true ∧ (failing (own task system.trace) = true ∨
        written (own task system.trace) = [responseOf req.id (answerTo (own task system.trace) rich)]) := by
  have mine : jobOf task (own task system.trace) = some (.hook req) := (jobOf_own _).trans job
  cases program with
  | pure value =>
    obtain ⟨earlier, grown, safe⟩ := kept.safe task _ found
    have ends : AnswerEnds task (own task earlier) := safe
    rw [← own_extends grown] at ends
    exact .inr ⟨finished_iff.mpr found, ends req rich mine heard denied present⟩
  | request request next =>
    refine .inl ⟨?_, ((kept_asks kept found).1.answers req rich mine heard denied present).1⟩
    rw [finished, found]

/-- A connection that is open has not ended. -/
theorem kept_unfinished {guard : Guard daemon} {program : Daemon Unit} (kept : Kept guard denialContract system)
    (found : system.tasks[task]? = some program) (job : jobOf task system.trace = some (.hook req))
    (heard : received (own task system.trace) = some rich) (denied : rich.decision = .deny)
    (opened : Open (own task system.trace)) (present : hungUp (own task system.trace) = false) :
    finished system task = false := by
  rcases kept_answering kept found job heard denied present with ⟨unfinished, _⟩ | ⟨_, failed | answered⟩
  · exact unfinished
  · cases opened.sound.symm.trans failed
  · cases opened.silent.symm.trans answered

theorem DenialStands.congr (same : own task after.trace = own task before.trace)
    (job : jobOf task after.trace = jobOf task before.trace) (ended : finished after task = finished before task) :
    DenialStands float failMode after task ↔ DenialStands float failMode before task := by
  rw [DenialStands, DenialStands, same, job, ended]

theorem executed_proceed {choice : Choice} {statement : Statement} {shared after : Shared}
    {reply : Except String statement.Reply} (total : ∀ now db, statement.execute now db ≠ none)
    (performed : shared.perform choice (.execute statement) = some (reply, after)) :
    (∃ value, reply = .ok value) ↔ choice = .proceed := by
  simp only [Shared.perform, Shared.executes] at performed
  split at performed
  · split at performed
    next =>
      cases performed
      exact iff_of_true ⟨_, rfl⟩ rfl
    next failed => exact absurd failed (total _ _)
  · cases performed
    refine iff_of_false ?_ fun same => by cases same
    rintro ⟨_, same⟩
    cases same
  · cases performed

theorem wrote_proceed {choice : Choice} {message : ServerMessage} {shared after : Shared} {sent : Bool}
    (performed : shared.perform choice (.write message) = some (sent, after)) : sent = true ↔ choice = .proceed := by
  simp only [Shared.perform] at performed
  split at performed
  all_goals
    cases performed
  · exact iff_of_true rfl rfl
  · exact iff_of_false Bool.false_ne_true fun same => by cases same

/-- The step of a connection that has to bring a denial. -/
theorem owing_step {choice : Choice} {request : Request} {next : request.Reply → Daemon Unit} {reply : request.Reply}
    (later : Kept {} denialContract after) (found : after.tasks[task]? = some (next reply))
    (grown : own task after.trace = .performed task request before.shared reply :: own task before.trace)
    (job : jobOf task after.trace = some (.hook req)) (heard : received (own task before.trace) = some rich)
    (denied : rich.decision = .deny) (present : hungUp (own task before.trace) = false)
    (opened : Open (own task before.trace)) (allowed : Answers req.id (answerTo (own task before.trace) rich) request)
    (performed : before.shared.perform choice request = some (reply, after.shared)) :
    DenialStands float failMode after task ↔ denialsKept.grants task choice request before.trace before.shared = true := by
  have owing : Trace.owing (own task before.trace) = true := by
    rw [Trace.owing, denied_iff.mpr ⟨rich, heard, denied⟩, present]
    rfl
  have arrived : received (own task after.trace) = some rich := by
    rw [grown]
    rcases allowed with ⟨decision, rfl⟩ | ⟨statement, rfl, _⟩ | rfl <;> exact heard
  have told : Trace.denied (own task after.trace) = true := denied_iff.mpr ⟨rich, arrived, denied⟩
  rcases allowed with ⟨decision, rfl⟩ | ⟨statement, rfl, total⟩ | rfl
  · have still : Open (own task after.trace) := grown ▸ ⟨opened.silent, opened.sound⟩
    have unfinished := kept_unfinished later found job arrived denied still (grown ▸ present)
    exact iff_of_true (fun _ _ _ ended => by cases unfinished.symm.trans ended) rfl
  · have proceeds := executed_proceed total performed
    simp only [denialsKept, owing, Bool.not_true, Bool.false_or, decide_eq_true_eq, ← proceeds]
    cases reply with
    | ok value =>
      have still : Open (own task after.trace) := grown ▸ ⟨opened.silent, opened.sound⟩
      have unfinished := kept_unfinished later found job arrived denied still (grown ▸ present)
      exact iff_of_true (fun _ _ _ ended => by cases unfinished.symm.trans ended) ⟨value, rfl⟩
    | error error =>
      have failed : failing (own task after.trace) = true := by
        rw [grown]
        rfl
      have remains : hungUp (own task after.trace) = false := grown ▸ present
      have silent : written (own task after.trace) = [] := grown ▸ opened.silent
      have ended : finished after task = true := by
        rcases kept_answering later found job arrived denied remains with ⟨_, still⟩ | ⟨ended, _⟩
        · cases still.sound.symm.trans failed
        · exact ended
      exact iff_of_false (fun stands => stands req job told ended remains (hookAnswer_silent silent))
        fun ⟨_, same⟩ => by cases same
  · have proceeds := wrote_proceed performed
    simp only [denialsKept, owing, Bool.not_true, Bool.false_or, ne_eq, ← proceeds]
    cases reply with
    | false =>
      have gone : hungUp (own task after.trace) = true := by
        rw [grown]
        rfl
      exact iff_of_true (fun _ _ _ _ remains => by cases gone.symm.trans remains) (by simp)
    | true =>
      have answered : written (own task after.trace) = [responseOf req.id (answerTo (own task before.trace) rich)] := by
        rw [grown, written_cons, opened.silent]
        rfl
      have remains : hungUp (own task after.trace) = false := grown ▸ present
      have ended : finished after task = true := by
        rcases kept_answering later found job arrived denied remains with ⟨_, still⟩ | ⟨ended, _⟩
        · cases still.silent.symm.trans answered
        · exact ended
      have plain : PlainDenial rich := (later.valid.2 task rich arrived).1
      have bare : (answerTo (own task before.trace) rich).updatedInput = none := by
        unfold answerTo
        split
        · rfl
        · exact (plain denied).1
      have chosen : (answerTo (own task before.trace) rich).decision ≠ .approve ↔ timedOut (own task before.trace) = false := by
        unfold answerTo
        split
        next late => simp [late, RichDecision.approve]
        next timely => simp [timely, denied]
      have stands : (hookAnswer float failMode req (own task after.trace)).decision ≠ .approve ↔ _ :=
        hookAnswer_answered bare answered
      rw [chosen] at stands
      have met : DenialStands float failMode after task ↔
          (hookAnswer float failMode req (own task after.trace)).decision ≠ .approve := by
        refine ⟨fun all => all req job told ended remains, fun refused other known _ _ _ => ?_⟩
        cases job.symm.trans known
        exact refused
      rw [met, stands]
      simp

/-- The step of a connection that no denial has reached. -/
theorem undenied_step {request : Request} {next : request.Reply → Daemon Unit} {reply : request.Reply}
    (later : Kept {} denialContract after) (found : after.tasks[task]? = some (next reply))
    (grown : own task after.trace = .performed task request before.shared reply :: own task before.trace)
    (undenied : Trace.denied (own task before.trace) = false) (rule : AnswerRule task (own task before.trace) request) :
    DenialStands float failMode after task := by
  intro req job denied ended present
  obtain ⟨rich, heard, chosen⟩ := denied_iff.mp denied
  have known := heard
  rw [grown] at known
  rcases received_cons known with ⟨_, channel, _, _, same, _⟩ | earlier
  · cases same
    obtain ⟨_, opened⟩ := rule.waits channel rfl
    have still : Open (own task after.trace) := grown ▸ ⟨opened.silent, opened.sound⟩
    cases (kept_unfinished later found job heard chosen still present).symm.trans ended
  · cases undenied.symm.trans (denied_iff.mpr ⟨rich, earlier, chosen⟩)

theorem hungUp_cons {entry : Entry daemon} (gone : hungUp past = true) : hungUp (entry :: past) = true := by
  rw [hungUp, List.any_cons, ← hungUp, gone, Bool.or_true]

/-- The step of a connection leaves its denial standing exactly if it meets the condition. -/
theorem stepped {choice : Choice} {request : Request} {next : request.Reply → Daemon Unit} {reply : request.Reply}
    (kept : Kept {} denialContract before) (later : Kept {} denialContract after)
    (found : before.tasks[task]? = some (.request request next)) (left : after.tasks[task]? = some (next reply))
    (grown : own task after.trace = .performed task request before.shared reply :: own task before.trace)
    (job : jobOf task after.trace = jobOf task before.trace)
    (performed : before.shared.perform choice request = some (reply, after.shared)) :
    DenialStands float failMode after task ↔ denialsKept.grants task choice request before.trace before.shared = true := by
  have rule := (kept_asks kept found).1
  have free (paid : Trace.owing (own task before.trace) = false) :
      denialsKept.grants task choice request before.trace before.shared = true := by
    simp only [denialsKept, paid]
    split <;> rfl
  cases known : Trace.denied (own task before.trace) with
  | false => exact iff_of_true (undenied_step later left grown known rule) (free (by rw [Trace.owing, known]; rfl))
  | true =>
    cases present : hungUp (own task before.trace) with
    | true =>
      refine iff_of_true (fun _ _ _ _ remains => ?_) (free (by rw [Trace.owing, known, present]; rfl))
      rw [grown] at remains
      cases (hungUp_cons present).symm.trans remains
    | false =>
      obtain ⟨rich, heard, denied⟩ := denied_iff.mp known
      obtain ⟨_, req, hook⟩ := kept.valid.2 task rich heard
      obtain ⟨opened, allowed⟩ := rule.answers req rich ((jobOf_own _).trans hook) heard denied present
      exact owing_step later left grown (job.trans hook) heard denied present opened allowed performed

/-- Every step leaves the denials standing exactly if it meets the condition. -/
theorem denials_step {initial : Shared} (lawful : @Lawful daemon {} denialContract initial)
    {event : Event daemon} (kept : Kept {} denialContract before) (taken : before.step event = some after) :
    Kept {} denialContract after ∧
      (DenialsStand float failMode after ↔ DenialsStand float failMode before ∧ before.Meets denialsKept event) := by
  cases event with
  | launch job =>
    cases taken
    have fresh : Fresh before.tasks.length before.trace := by
      intro entry member same
      have := kept.numbered entry member _ same
      omega
    refine ⟨kept.launch lawful rfl, Iff.trans (forall_congr' fun task => ?_) (and_iff_left rfl).symm⟩
    by_cases mine : task = before.tasks.length
    · subst mine
      have vacuous {system : System daemon} (unheard : Trace.denied (own before.tasks.length system.trace) = false) :
          DenialStands float failMode system before.tasks.length :=
        fun _ _ denied => by cases unheard.symm.trans denied
      refine iff_of_true (vacuous ?_) (vacuous ?_)
      · rw [System.launch, own_cons rfl, own_fresh fresh]
        rfl
      · rw [own_fresh fresh]
        rfl
    · have foreign : (Entry.launched before.tasks.length job : Entry daemon).task ≠ some task :=
        fun same => mine (Option.some.inj same).symm
      refine DenialStands.congr (own_foreign foreign _) (jobOf_cons _ fun other same => ?_) ?_
      · cases same
        exact mine rfl
      · exact finished_congr (launched_other mine)
  | advance task choice =>
    simp only [System.step] at taken
    split at taken
    next request next found =>
      obtain ⟨⟨reply, shared⟩, performed, same⟩ := Option.map_eq_some_iff.mp taken
      have later : Kept {} denialContract after := same ▸ kept.advance lawful found rfl performed
      have tasks : after.tasks = before.tasks.set task (next reply) := by rw [← same]
      have trace : after.trace = .performed task request before.shared reply :: before.trace := by rw [← same]
      have state : after.shared = shared := by rw [← same]
      have bound : task < before.tasks.length := (List.getElem?_eq_some_iff.mp found).1
      have answered : DenialStands float failMode after task ↔ _ :=
        stepped kept later found (by rw [tasks, List.getElem?_set_self bound]) (by rw [trace, own_cons rfl])
          (by rw [trace, jobOf_cons _ fun _ same => by cases same]) (state ▸ performed)
      have others : ∀ other ≠ task, DenialStands float failMode after other ↔ DenialStands float failMode before other := by
        intro other differ
        have foreign : (Entry.performed task request before.shared reply : Entry daemon).task ≠ some other :=
          fun same => differ (Option.some.inj same).symm
        refine DenialStands.congr ?_ ?_ (finished_congr ?_)
        · rw [trace, own_foreign foreign]
        · rw [trace, jobOf_cons _ fun _ same => by cases same]
        · rw [tasks, List.getElem?_set_ne (Ne.symm differ)]
      have running : DenialStands float failMode before task := by
        intro _ _ _ ended
        rw [finished_iff, found] at ended
        cases ended
      refine ⟨later, ?_⟩
      simp only [System.Meets, found]
      constructor
      · intro all
        refine ⟨fun other => ?_, answered.mp (all task)⟩
        by_cases same : other = task
        · exact same ▸ running
        · exact (others other same).mp (all other)
      · rintro ⟨all, granted⟩ other
        by_cases same : other = task
        · exact same ▸ answered.mpr granted
        · exact (others other same).mpr (all other)
    next => cases taken
  | drift drift =>
    obtain ⟨shared, drifted, rfl⟩ := Option.map_eq_some_iff.mp taken
    refine ⟨kept.drift lawful drifted, Iff.trans (forall_congr' fun task => ?_) (and_iff_left trivial).symm⟩
    exact DenialStands.congr (own_foreign (fun same => by cases same) _) (jobOf_cons _ fun _ same => by cases same) rfl

end

/-- A denial that a hook's connection received is never turned into an approval, exactly
if none of the connection's later statements fails and its answer fits a line. -/
theorem denials_stand_iff (float : String → Option String) (failMode : FailMode) (db : Database) (wall : DateTime)
    {events : List (Event daemon)} {system : System daemon}
    (taken : (System.machine daemon { db, wall }).run Machine.free { shared := { db, wall } } events = some system) :
    DenialsStand float failMode system ↔
      (System.machine daemon { db, wall }).run (System.Meets denialsKept) { shared := { db, wall } } events =
        some system := by
  have lawful := denialContract_lawful db wall
  have start : DenialsStand float failMode { shared := { db, wall } } := fun _ _ job => by cases job
  have preserved : ∀ before event after, Kept {} denialContract before →
      (System.machine daemon { db, wall }).step before event = some after → Kept {} denialContract after :=
    fun _ _ _ kept step => (@denials_step float failMode _ _ _ lawful _ kept step).1
  have exact : ∀ before event after, Kept {} denialContract before →
      (System.machine daemon { db, wall }).step before event = some after →
      (DenialsStand float failMode after ↔ DenialsStand float failMode before ∧ before.Meets denialsKept event) :=
    fun _ _ _ kept step => (denials_step lawful kept step).2
  rw [Machine.run_good_iff preserved exact (.start lawful) taken]
  exact and_iff_right start

private def deniedRequest : DecisionRequest where
  id := 7
  agentId := "cc-1"
  agentType := .claudeCode
  project := ⟨"/work"⟩
  toolName := "Bash"
  toolInput := .object []
  timestamp := 0

/-- A connection is admitted, the terminal denies it, and the connection goes on. -/
private def deniedConnection (recording : List (Event daemon)) : List (Event daemon) :=
  [.launch (.hook deniedRequest), .advance 0 .proceed, .advance 0 .proceed, .advance 0 .proceed,
    .launch (.command { body := .deny 7 (some "no") }), .advance 1 .proceed, .advance 1 .proceed,
    .advance 0 .proceed] ++ recording

theorem denials_stand_iff_recorded :
    DenialsStand (fun _ => none) .openly (((System.machine daemon {}).run (System.Meets denialsKept) { shared := {} }
      (deniedConnection [.advance 0 .proceed, .advance 0 .proceed, .advance 0 .proceed, .advance 0 .proceed])).get
        (by decide +kernel)) :=
  (denials_stand_iff _ _ {} 0 (Machine.run_unguarded (Option.some_get _).symm)).mpr (Option.some_get _).symm

/-- The denied row cannot be read. The connection is closed without an answer, and even
the hook that fails closed approves. -/
theorem unrecorded_denial_approved :
    ¬ DenialsStand (fun _ => none) .closed (((System.machine daemon {}).run Machine.free { shared := {} }
      (deniedConnection [.advance 0 (.refuse "database is locked")])).get (by decide +kernel)) := by
  intro stands
  refine stands 0 deniedRequest (by decide +kernel) (by decide +kernel) (by decide +kernel) (by decide +kernel) ?_
  exact hookAnswer_silent (by decide +kernel)

end Wisphive
