import Wisphive.Foundation.JsonCodec
import Wisphive.Proofs.EventTail
import Wisphive.Proofs.HookRun
import Wisphive.Proofs.HookTransport

/-! What the hook logs is what the daemon ingests: the row of a line has the decision that the
agent was given. -/

namespace Wisphive.HookRun
open Foundation Json EventIngest HookPolicy

variable {host : HookHost} {world : HookWorld} {hookEvent : Json} {ctx : Context} {outcome : Outcome}
  {log : List AutoApprovedLog} {entry : AutoApprovedLog} {float : String → Option String} {change : Number → Number} {depth : Nat}

/-! ### What the log says -/

/-- The decision that the agent is left with. A text alone is a denial. -/
def decided : Outcome → Decision
  | .ok answer => answer.decision
  | .error _ => .deny

/-- The word for a decision in the event log. -/
def eventWord : Decision → String
  | .approve => "auto_approved"
  | .deny => "denied"
  | .ask => "deferred"

theorem outcomeWord_eq {decision : Decision} (settled : decision ≠ .ask) : outcomeWord decision = eventWord decision := by
  cases decision with
  | ask => exact absurd rfl settled
  | approve | deny => rfl

/-- A run leaves at most one line, and the line tells its decision. -/
theorem log_told (course : Course host world outcome log) (member : entry ∈ log) :
    log = [entry] ∧ entry.event = eventWord (decided outcome) := by
  have alone : ∀ {other : AutoApprovedLog}, entry ∈ [other] → entry = other := List.mem_singleton.mp
  cases course with
  | refused | off | reported | malformed | failed => cases member
  | unread failure mode read =>
    unfold answerFailure at member ⊢
    rw [← failMode] at member ⊢
    dsimp only at member ⊢
    split at member
    · next unknown =>
      rw [if_pos unknown]
      have settled := outcomeWord_eq (@responseForFailure_asks failure (failMode world))
      split at member
      · next denied =>
        cases alone member
        exact ⟨if_pos denied ▸ rfl, by rw [if_pos denied]; exact settled.trans (by rw [denied]; rfl)⟩
      · next kept =>
        cases alone member
        exact ⟨if_neg kept ▸ rfl, by rw [if_neg kept]; exact settled⟩
    · cases member
  | foreign hookEvent mode read unknown entry attributed input denied word =>
    cases alone member
    refine ⟨rfl, word.trans ?_⟩
    cases denied <;> rfl
  | approved => cases alone member; exact ⟨rfl, rfl⟩
  | shed => cases alone member; exact ⟨rfl, outcomeWord_eq (responseForFailure_asks _)⟩
  | deferred hookEvent ctx id mode identified deferClass =>
    rcases @defer_cases host ctx (promptSurfaceFromEnv world) deferClass with ⟨log, same, logged, _⟩ | ⟨reason, decidedBy, same⟩
    · rw [same] at member ⊢
      rcases logged with rfl | rfl
      · cases member
      · cases alone member
        exact ⟨rfl, rfl⟩
    · rw [same] at member ⊢
      cases alone member
      exact ⟨rfl, rfl⟩
  | answered hookEvent ctx id mode identified locally answer daemon =>
    rcases @convert_cases host ctx answer (promptSurfaceFromEnv world) with ⟨same, _⟩ | ⟨reason, decidedBy, same⟩
    · rw [same] at member
      cases member
    · rw [same] at member ⊢
      cases alone member
      exact ⟨rfl, rfl⟩

/-! ### The text of a line -/

mutual
/-- A redacted value nests as deep as before. -/
theorem rereadable_redactValue {depth : Nat} : (value : Json) → Rereadable float change depth value →
    Rereadable float change depth (Redact.redactValue value)
  | .null, readable | .bool _, readable | .number _, readable => by rwa [Redact.redactValue]
  | .string text, _ => by
    rw [Redact.redactValue]
    exact rereadable_string _
  | .array items, readable => by
    obtain ⟨below, rfl, listed⟩ := rereadable_array readable
    rw [Redact.redactValue]
    exact rereadable_redactItems items listed
  | .object members, readable => by
    obtain ⟨below, rfl, listed⟩ := rereadable_object readable
    rw [Redact.redactValue]
    exact rereadable_redactMembers members listed

theorem rereadable_redactItems {depth : Nat} : (items : List Json) → RereadableItems float change depth items →
    RereadableItems float change depth (Redact.redactItems items)
  | [], _ => by rw [Redact.redactItems]; trivial
  | item :: rest, readable => by
    rw [Redact.redactItems]
    exact ⟨rereadable_redactValue item readable.1, rereadable_redactItems rest readable.2⟩

theorem rereadable_redactMembers {depth : Nat} : (members : List (String × Json)) → RereadableMembers float change depth members →
    RereadableMembers float change depth (Redact.redactMembers members)
  | [], _ => by rw [Redact.redactMembers]; trivial
  | (name, value) :: rest, readable => by
    rw [Redact.redactMembers]
    refine ⟨?_, rereadable_redactMembers rest readable.2⟩
    split
    · exact rereadable_string _
    · exact rereadable_redactValue value readable.1
end

theorem rereadable_textOrNull (text : Option String) : Rereadable float change depth (textOrNull text) := by
  cases text with
  | none => cases depth <;> trivial
  | some text => exact rereadable_string text

theorem mapNumbers_textOrNull (text : Option String) : mapNumbers change (textOrNull text) = textOrNull text := by
  cases text <;> rfl

/-- The input of a line may nest one level less than a line. -/
theorem entry_readable (nests : Rereadable host.float change (maxDepth - 1) entry.toolInput) :
    Rereadable host.float change maxDepth (entry.entry host world) := by
  have text : ∀ text : Option String, Rereadable host.float change 126 (textOrNull text) := rereadable_textOrNull
  exact ⟨trivial, trivial, text _, trivial, trivial, trivial, trivial, trivial, rereadable_redactValue _ nests, trivial,
    text _, trivial⟩

/-- The entry that the daemon makes of a line. -/
def ingested (host : HookHost) (world : HookWorld) (change : Number → Number) (entry : AutoApprovedLog) (decision : Decision) :
    AutoApprovedEntry where
  agentId := entry.agentId
  agentType := "\"" ++ entry.agentType ++ "\""
  project := entry.project
  toolName := entry.toolName
  toolInput := (mapNumbers change (Redact.redactValue entry.toolInput)).render
  timestamp := host.toRfc3339 world.now
  toolUseId := entry.toolUseId
  hookEventName := some entry.eventType.display
  decision := decision.word
  decidedBy := some entry.decidedBy
  configHash := world.files.configHash

def auditKind : Decision → AuditDecisionKind
  | .approve => .autoApproved
  | .deny => .denied
  | .ask => .deferred

theorem decisionEntry_line {decision : Decision} (word : entry.event = eventWord decision) :
    decisionEntry (mapNumbers change (entry.entry host world)) =
      some (ingested host world change entry decision, auditKind decision) := by
  have worded : (if entry.event = "" then "auto_approved" else entry.event) = eventWord decision := by
    rw [word]
    cases decision <;> rfl
  rw [AutoApprovedLog.entry, worded]
  simp only [mapNumbers, mapMembers, mapNumbers_textOrNull]
  have kind : kindOf (eventWord decision) = some (decision.word, auditKind decision) := by cases decision <;> rfl
  rw [decisionEntry]
  change (kindOf (eventWord decision)).map _ = _
  rw [kind, Option.map_some, ingested]
  cases entry.toolUseId <;> cases world.files.configHash <;> rfl

/-! ### What an input may nest -/

theorem get?_nests {name : String} {value held : Json} (nests : Rereadable float change (depth + 1) value)
    (member : value.get? name = some held) : Rereadable float change depth held := by
  cases value with
  | object members => exact rereadableMembers_iff.mp nests _ (Assoc.mem_of_lookup member)
  | null | bool _ | number _ | string _ | array _ => cases member

theorem keepMember_nests {data : List (String × Json)} (nests : Rereadable float change (depth + 1) hookEvent)
    (kept : RereadableMembers float change depth data) (name : String) :
    RereadableMembers float change depth (keepMember hookEvent data name) := by
  unfold keepMember
  cases member : hookEvent.get? name with
  | none => exact kept
  | some value => exact rereadable_insertSorted (get?_nests nests member) kept

theorem extractEventData_nests {eventType : HookEventType} {data : List (String × Json)}
    (nests : Rereadable float change (depth + 1) hookEvent) (taken : extractEventData eventType hookEvent = some data) :
    RereadableMembers float change depth data := by
  obtain ⟨names, _, rfl⟩ := Option.map_eq_some_iff.mp taken
  exact List.foldlRecOn names (keepMember hookEvent) trivial fun _ kept name _ => keepMember_nests nests kept name

theorem toolInputOf_nests (nests : Rereadable float change (depth + 1) hookEvent) :
    Rereadable float change (depth + 1) (toolInputOf hookEvent) := by
  rw [toolInputOf]
  cases member : hookEvent.get? "tool_input" with
  | none => trivial
  | some value => exact rereadable_add value (get?_nests nests member)

theorem toggledInput_nests {config : Option Json} (nests : Rereadable float change (depth + 1) hookEvent)
    (own : ctx.toolInput = toolInputOf hookEvent) :
    Rereadable float change (depth + 1) (toggledInput config ctx hookEvent) := by
  have input : Rereadable float change (depth + 1) ctx.toolInput := own ▸ toolInputOf_nests nests
  unfold toggledInput
  split
  · cases taken : extractEventData ctx.eventType hookEvent with
    | none => exact input
    | some data => exact extractEventData_nests nests taken
  · exact input

/-- The payload of a run, where it can be read, leaves room for one more level. -/
def Roomy (host : HookHost) (world : HookWorld) (change : Number → Number) : Prop :=
  ∀ hookEvent, readHookEvent host world = .ok hookEvent → Rereadable host.float change (maxDepth - 1) hookEvent

theorem log_nests (roomy : Roomy host world change) (course : Course host world outcome log) (member : entry ∈ log) :
    Rereadable host.float change (maxDepth - 1) entry.toolInput := by
  have alone : ∀ {other : AutoApprovedLog}, entry ∈ [other] → entry = other := List.mem_singleton.mp
  have input : ∀ {hookEvent ctx id}, Identified host world hookEvent ctx id →
      Rereadable host.float change (maxDepth - 1) ctx.toolInput := fun identified =>
    (identify_context identified.identity).2.2.1 ▸ toolInputOf_nests (roomy _ identified.read)
  cases course with
  | refused | off | reported | malformed | failed => cases member
  | unread failure =>
    unfold answerFailure at member
    dsimp only at member
    split at member
    · split at member <;> cases alone member <;> exact ⟨trivial, trivial⟩
    · cases member
  | foreign hookEvent mode read unknown other attributed own =>
    cases alone member
    exact own ▸ toolInputOf_nests (roomy _ read)
  | approved hookEvent ctx id mode identified =>
    cases alone member
    exact toggledInput_nests (roomy _ identified.read) (identify_context identified.identity).2.2.1
  | shed hookEvent ctx id mode identified =>
    cases alone member
    exact input identified
  | deferred hookEvent ctx id mode identified deferClass =>
    rcases @defer_cases host ctx (promptSurfaceFromEnv world) deferClass with ⟨log, same, logged, _⟩ | ⟨reason, decidedBy, same⟩
    · rw [same] at member
      rcases logged with rfl | rfl
      · cases member
      · cases alone member
        exact input identified
    · rw [same] at member
      cases alone member
      exact input identified
  | answered hookEvent ctx id mode identified locally answer daemon =>
    rcases @convert_cases host ctx answer (promptSurfaceFromEnv world) with ⟨same, _⟩ | ⟨reason, decidedBy, same⟩
    · rw [same] at member
      cases member
    · rw [same] at member
      cases alone member
      exact input identified

/-! ### The row of a line -/

/-- The bytes that a run appends to the event log. -/
def appended (host : HookHost) (world : HookWorld) : Bytes :=
  (run host world).2.log.flatMap fun entry => utf8 ((entry.entry host world).render ++ "\n")

variable {platform : IngestPlatform}

/-- The row of a decision that a hook has made. -/
def rowOf (platform : IngestPlatform) (host : HookHost) (world : HookWorld) (change : Number → Number)
    (entry : AutoApprovedLog) : LogRow :=
  (ingested host world change entry (decided (run host world).1)).row platform

theorem lineRow_entry (reads : platform.fromStr = Json.parse host.float) (roomy : Roomy host world change)
    (logged : entry ∈ (run host world).2.log) :
    AuditRun.lineRow platform (entry.entry host world).render = some (rowOf platform host world change entry) := by
  have course := run_course host world
  rw [AuditRun.lineRow, reads, parse_render_change (entry_readable (log_nests roomy course logged)), Option.bind_some,
    decisionEntry_line (log_told course logged).2]
  rfl

theorem render_entry_ne : (entry.entry host world).render ≠ "" := by
  intro empty
  have chars := congrArg String.toList empty
  rw [Json.render, String.toList_ofList, AutoApprovedLog.entry, renderChars] at chars
  cases chars

theorem lineDecision_entry (reads : platform.fromStr = Json.parse host.float) (roomy : Roomy host world change)
    (logged : entry ∈ (run host world).2.log) :
    lineDecision platform (utf8 ((entry.entry host world).render ++ "\n")) =
      some ((entry.entry host world).render, rowOf platform host world change entry) := by
  have trimmed : EventIngest.trim ((entry.entry host world).render ++ "\n") = (entry.entry host world).render :=
    trim_object _
  rw [lineDecision, readLine, decode_utf8]
  dsimp only
  rw [trimmed, if_neg render_entry_ne, lineRow_entry reads roomy logged]

/-- The text of an entry is one line. -/
theorem entry_line (roomy : Roomy host world change) (logged : entry ∈ (run host world).2.log) :
    ∃ content, utf8 ((entry.entry host world).render ++ "\n") = content ++ [newline] ∧ newline ∉ content := by
  refine ⟨utf8 (entry.entry host world).render, utf8_append .., newline_utf8 ?_⟩
  rw [Json.render, String.toList_ofList]
  exact renderChars_unbroken _ (entry_readable (log_nests roomy (run_course host world) logged))

/-- Behind a line end, what a run appends are its lines. -/
theorem completed_appended (roomy : Roomy host world change) {live : Bytes} (closed : Lines.rest newline live = []) :
    Lines.rest newline (live ++ appended host world) = [] ∧
      EventTail.completed live (appended host world) =
        (run host world).2.log.map fun entry => utf8 ((entry.entry host world).render ++ "\n") := by
  rw [Lines.rest_append, EventTail.completed, closed, List.nil_append, appended]
  cases logged : (run host world).2.log with
  | nil => exact ⟨rfl, rfl⟩
  | cons entry rest =>
    have member : entry ∈ (run host world).2.log := logged ▸ List.mem_cons_self ..
    have single := (log_told (run_course host world) member).1
    rw [logged, List.cons.injEq] at single
    obtain ⟨content, shape, plain⟩ := entry_line roomy member
    rw [single.2, List.flatMap_singleton, List.map_singleton, shape, Lines.rest_line plain, Lines.complete_line plain]
    exact ⟨rfl, rfl⟩

/-! ### From the hooks to the table -/

/-- What happens to the event log when hooks alone write to it. -/
inductive FeedEvent where
  | hook (world : HookWorld)
  | wake (faults : List Bool)
  | rotate (renames : Bool) (faults : List Bool)
  | reimport (faults : List Bool)
  | logRow (row : LogRow)

def FeedEvent.tail (host : HookHost) : FeedEvent → EventTail.Event
  | .hook world => .append (appended host world)
  | .wake faults => .wake faults
  | .rotate renames faults => .rotate renames faults
  | .reimport faults => .reimport faults
  | .logRow row => .logRow row

open EventTail

/-- The log ends in a line end, and the rows of the hooks so far are owed. -/
structure Fed (platform : IngestPlatform) (host : HookHost) (change : Number → Number) (worlds : List HookWorld)
    (run : EventTail.Run) : Prop where
  kept : Kept platform run
  closed : Lines.rest newline run.live = []
  owed : ∀ world ∈ worlds, ∀ entry ∈ (HookRun.run host world).2.log, rowOf platform host world change entry ∈ run.owed

theorem Fed.hook {worlds : List HookWorld} {run after : EventTail.Run} (fed : Fed platform host change worlds run)
    (reads : platform.fromStr = Json.parse host.float) (roomy : Roomy host world change)
    (met : run.Meets platform (.append (appended host world)))
    (taken : run.step platform (.append (appended host world)) = some after) :
    Fed platform host change (world :: worlds) after := by
  obtain ⟨closed, lines⟩ := completed_appended roomy fed.closed
  have kept := fed.kept.step met taken
  cases taken
  refine ⟨kept, closed, fun other member entry logged => ?_⟩
  rcases List.mem_cons.mp member with rfl | before
  · refine List.mem_append_right _ ?_
    rw [lines, rowsOf, decisions, List.mem_map]
    exact ⟨_, List.mem_filterMap.mpr ⟨_, List.mem_map_of_mem logged, lineDecision_entry reads roomy logged⟩, rfl⟩
  · exact List.mem_append_left _ (fed.owed other before entry logged)

/-- The hook that ran at an event. -/
def FeedEvent.world? : FeedEvent → Option HookWorld
  | .hook world => some world
  | _ => none

theorem Fed.step {worlds : List HookWorld} {run after : EventTail.Run} {event : FeedEvent}
    (fed : Fed platform host change worlds run) (reads : platform.fromStr = Json.parse host.float)
    (roomy : ∀ world ∈ event.world?, Roomy host world change) (met : run.Meets platform (event.tail host))
    (taken : run.step platform (event.tail host) = some after) :
    Fed platform host change (event.world?.toList ++ worlds) after := by
  have kept := fed.kept.step met taken
  cases event with
  | hook world => exact fed.hook reads (roomy world rfl) met taken
  | wake faults =>
    simp only [FeedEvent.tail, Run.step] at taken
    split at taken
    · cases taken
    · cases taken
      exact ⟨kept, fed.closed, fed.owed⟩
  | rotate renames faults =>
    simp only [FeedEvent.tail, Run.step] at taken
    split at taken
    · cases taken
      cases renames with
      | true => exact ⟨kept, rfl, fed.owed⟩
      | false => exact ⟨kept, fed.closed, fed.owed⟩
    · cases taken
  | reimport | logRow =>
    cases taken
    exact ⟨kept, fed.closed, fed.owed⟩

theorem Fed.run {events : List FeedEvent} {worlds : List HookWorld} {run after : EventTail.Run} {initial : Run.Start}
    (fed : Fed platform host change worlds run) (reads : platform.fromStr = Json.parse host.float)
    (roomy : ∀ world, .hook world ∈ events → Roomy host world change)
    (taken : (Run.machine platform initial).run (Run.Meets platform) run (events.map (·.tail host)) = some after) :
    ∃ later, Fed platform host change later after ∧ worlds ⊆ later ∧ ∀ world, .hook world ∈ events → world ∈ later := by
  induction events generalizing run worlds with
  | nil =>
    cases taken
    exact ⟨worlds, fed, List.Subset.refl _, fun _ member => nomatch member⟩
  | cons event rest ih =>
    rw [List.map_cons, Machine.run] at taken
    split at taken
    · next met =>
      obtain ⟨middle, first, others⟩ := Option.bind_eq_some_iff.mp taken
      have own : ∀ world ∈ event.world?, Roomy host world change := fun world held => by
        cases event with
        | hook other => exact Option.some.inj held ▸ roomy other (List.mem_cons_self ..)
        | _ => cases held
      obtain ⟨later, fed, grows, ran⟩ := ih (fed.step reads own met first)
        (fun world member => roomy world (List.mem_cons_of_mem _ member)) others
      refine ⟨later, fed, fun world member => grows (List.mem_append_right _ member), fun world member => ?_⟩
      rcases List.mem_cons.mp member with rfl | member
      · exact grows (List.mem_append_left _ (List.mem_singleton_self _))
      · exact ran world member
    · cases taken

def plainIngest : IngestPlatform where
  fromStr := Json.parse plainHost.float
  finish bytes := bytes.length
  parseFromRfc3339 _ := none
  parseUuid _ := none

def asked : HookWorld :=
  receiving question.render

end Wisphive.HookRun
