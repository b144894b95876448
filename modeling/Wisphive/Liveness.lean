import Wisphive.Foundation.Arrangement
import Wisphive.PageTypes

/-! The liveness board of the web page: a lane for each agent, from the sessions, the registered
agents, the audit stream and the queue. -/

namespace Wisphive
open Foundation Page

namespace Liveness

def stallThresholdMs : Int := 600000

def boardWindowMs : Int := 60 * 60 * 1000

/-- The events that end a turn or a session. -/
def terminalEventTools : List String := ["Stop", "SessionEnd"]

inductive LaneState where
  | working
  | waiting
  | stalled
  | done
  deriving DecidableEq, Repr

structure WaveProgress where
  spawned : Nat
  done : Nat
  deriving DecidableEq, Repr

inductive InboxTarget where
  | decision (requestId toolName : String)
  | deferred (deferredKey toolName : String)
  deriving DecidableEq, Repr

/-- A time in milliseconds, or nothing where the code has `NaN`. -/
abbrev Millis := Option Int

structure Lane where
  agentId : String
  agentType : AgentType
  project : String
  state : LaneState
  lastActivityMs : Int
  lastToolName : Option String
  silentForMs : Int
  pendingCount : Nat
  isLive : Bool
  waitingSinceMs : Option Millis
  inboxTarget : Option InboxTarget
  wave : Option WaveProgress
  subagentsActive : Nat
  deriving DecidableEq, Repr

structure BoardTotals where
  working : Nat := 0
  waiting : Nat := 0
  stalled : Nat := 0
  done : Nat := 0
  deriving DecidableEq, Repr

structure BoardModel where
  projects : List (String × List Lane)
  totals : BoardTotals
  deriving DecidableEq, Repr

structure BoardInputs where
  sessions : List SessionSummary := []
  agents : List AgentInfo := []
  queue : List Page.DecisionRequest := []
  auditDecisions : List Page.AuditDecision := []
  endedAgentIds : List String := []
  nowMs : Int
  deriving DecidableEq, Repr

def stateRank : LaneState → Nat
  | .stalled => 0
  | .waiting => 1
  | .working => 2
  | .done => 3

/-! ### Drafts -/

structure Draft where
  project : Option String := none
  agentType : Option AgentType := none
  lastActivityMs : Int := 0
  lastToolName : Option String := none
  pending : List Page.DecisionRequest := []
  deferredWaiting : List Page.AuditDecision := []
  taskSpawns : Nat := 0
  subagentStops : Nat := 0
  isLive : Bool := false
  sessionPendingCount : Nat := 0
  deriving DecidableEq, Repr

abbrev Drafts := List (String × Draft)

/-- The row is a prompt that waits in a terminal. -/
def isWaiting (audit : Page.AuditDecision) : Bool :=
  audit.kind = .deferred && audit.resolved ≠ some true

variable (getTime : String → Option Int)

namespace Draft

/-- A running maximum of the times, with the tool of the last one. -/
def noteActivity (draft : Draft) (ts : String) (toolName : Option String) : Draft :=
  match getTime ts with
  | none => draft
  | some ms =>
    if draft.lastActivityMs ≤ ms then { draft with lastActivityMs := ms, lastToolName := toolName.or draft.lastToolName }
    else draft

def addSession (draft : Draft) (session : SessionSummary) : Draft :=
  let draft := { draft with
    project := draft.project.or (some session.project)
    agentType := draft.agentType.or (knownAgentType session.agentType) }
  let draft := draft.noteActivity getTime session.lastSeen none
  { draft with
    isLive := draft.isLive || session.isLive
    sessionPendingCount := max draft.sessionPendingCount session.pendingCount }

/-- The registry overrides, but for an empty project. -/
def addAgent (draft : Draft) (agent : AgentInfo) : Draft :=
  let draft := { draft with
    project := if agent.project = "" then draft.project else some agent.project
    agentType := some agent.agentType }
  { draft.noteActivity getTime agent.lastSeen none with isLive := true }

def addAudit (draft : Draft) (audit : Page.AuditDecision) : Draft :=
  let draft := { draft with project := draft.project.or (some audit.project) }
  let draft := draft.noteActivity getTime audit.ts (some audit.toolName)
  { draft with
    taskSpawns := if audit.toolName = "Task" then draft.taskSpawns + 1 else draft.taskSpawns
    subagentStops := if audit.toolName = "SubagentStop" then draft.subagentStops + 1 else draft.subagentStops
    deferredWaiting := if isWaiting audit then draft.deferredWaiting ++ [audit] else draft.deferredWaiting }

def addItem (draft : Draft) (item : Page.DecisionRequest) : Draft :=
  let draft := { draft with
    project := draft.project.or (some item.project)
    agentType := draft.agentType.or (some item.agentType) }
  let draft := draft.noteActivity getTime item.timestamp (some item.toolName)
  { draft with pending := draft.pending ++ [item] }

end Draft

def drafts (inputs : BoardInputs) : Drafts :=
  let drafts := Grouping.collect (·.agentId) (fun _ => {}) (Draft.addSession getTime) [] inputs.sessions
  let drafts := Grouping.collect (·.agentId) (fun _ => {}) (Draft.addAgent getTime) drafts inputs.agents
  let drafts := Grouping.collect (·.agentId) (fun _ => {}) (Draft.addAudit getTime) drafts inputs.auditDecisions
  Grouping.collect (·.agentId) (fun _ => {}) (Draft.addItem getTime) drafts inputs.queue

/-! ### Lanes -/

/-- Times compared by their difference. `NaN` counts as no difference. -/
def earlier (a b : String) : Bool :=
  match getTime a, getTime b with
  | some first, some second => first ≤ second
  | _, _ => true

def deferredKey (audit : Page.AuditDecision) : String :=
  audit.ts ++ "|" ++ audit.agentId ++ "|" ++ audit.toolName ++ "|" ++ audit.terminalSessionId.getD ""

structure Blocker where
  sinceMs : Millis
  target : InboxTarget
  deriving DecidableEq, Repr

def decisionBlocker (item : Page.DecisionRequest) : Blocker :=
  ⟨getTime item.timestamp, .decision item.id item.toolName⟩

def deferredBlocker (audit : Page.AuditDecision) : Blocker :=
  ⟨getTime audit.ts, .deferred (deferredKey audit) audit.toolName⟩

/-- The oldest blocker. With a decision whose time is `NaN` and no prompt the code looks into an
empty list, and fails. -/
def oldestBlocker (pending : List Page.DecisionRequest) (deferred : List Page.AuditDecision) : Option (Option Blocker) :=
  match pending.mergeSort (fun a b => earlier getTime a.timestamp b.timestamp),
    deferred.mergeSort (fun a b => earlier getTime a.ts b.ts) with
  | [], [] => some none
  | item :: _, [] => (getTime item.timestamp).map fun _ => some (decisionBlocker getTime item)
  | [], row :: _ => some (some (deferredBlocker getTime row))
  | item :: _, row :: _ =>
    match getTime item.timestamp, getTime row.ts with
    | some pendingMs, some deferredMs =>
      if pendingMs ≤ deferredMs then some (some (decisionBlocker getTime item))
      else some (some (deferredBlocker getTime row))
    | _, _ => some (some (deferredBlocker getTime row))

def laneState (blocker : Option Blocker) (lastToolName : Option String) (silentForMs : Int) : LaneState :=
  if blocker.isSome then .waiting
  else if lastToolName.any (· ∈ terminalEventTools) then .done
  else if stallThresholdMs < silentForMs then .stalled
  else .working

/-- The lane of an agent, if it has one. -/
def lane (endedAgentIds : List String) (nowMs : Int) (agentId : String) (draft : Draft) : Option (Option Lane) :=
  if draft.lastActivityMs = 0 then some none
  else
    let isEnded := agentId ∈ endedAgentIds
    let silentForMs := max 0 (nowMs - draft.lastActivityMs)
    -- nobody answers a prompt of a session that is over
    (oldestBlocker getTime draft.pending (if isEnded then [] else draft.deferredWaiting)).map fun blocker =>
      let state := laneState blocker draft.lastToolName silentForMs
      if state ≠ .waiting ∧ boardWindowMs < silentForMs then none
      else some {
        agentId
        agentType := draft.agentType.getD (agentTypeFromId agentId)
        project := draft.project.getD ""
        state
        lastActivityMs := draft.lastActivityMs
        lastToolName := draft.lastToolName
        silentForMs
        pendingCount := max draft.sessionPendingCount draft.pending.length
        isLive := draft.isLive && !isEnded
        waitingSinceMs := blocker.map (·.sinceMs)
        inboxTarget := blocker.map (·.target)
        wave :=
          if 0 < draft.taskSpawns then some ⟨draft.taskSpawns, min draft.subagentStops draft.taskSpawns⟩ else none
        subagentsActive := draft.taskSpawns - draft.subagentStops }

def lanes (inputs : BoardInputs) : Option (List Lane) :=
  ((drafts getTime inputs).mapM fun draft => lane getTime inputs.endedAgentIds inputs.nowMs draft.1 draft.2).map
    List.reduceOption

/-- The loudest state first, then the latest activity. -/
def louder (a b : Lane) : Bool :=
  stateRank a.state < stateRank b.state ||
    stateRank a.state = stateRank b.state && b.lastActivityMs ≤ a.lastActivityMs

def BoardTotals.add (totals : BoardTotals) (lane : Lane) : BoardTotals :=
  match lane.state with
  | .working => { totals with working := totals.working + 1 }
  | .waiting => { totals with waiting := totals.waiting + 1 }
  | .stalled => { totals with stalled := totals.stalled + 1 }
  | .done => { totals with done := totals.done + 1 }

def board (lanes : List Lane) : BoardModel where
  projects := Grouping.arrange (·.project) louder lanes
  totals := lanes.foldl BoardTotals.add {}

def deriveBoard (inputs : BoardInputs) : Option BoardModel :=
  (lanes getTime inputs).map board

/-! ### What the inputs say of an agent -/

variable (inputs : BoardInputs) (agentId : String)

/-- The rows of an agent. -/
def BoardInputs.rows : BoardInputs :=
  { inputs with
    sessions := inputs.sessions.filter (·.agentId = agentId)
    agents := inputs.agents.filter (·.agentId = agentId)
    queue := inputs.queue.filter (·.agentId = agentId)
    auditDecisions := inputs.auditDecisions.filter (·.agentId = agentId) }

/-- The times of the events of the audit stream and the queue. -/
def stamps : List Millis :=
  (inputs.rows agentId).auditDecisions.map (getTime ·.ts) ++ (inputs.rows agentId).queue.map (getTime ·.timestamp)

/-- The events of an agent, each with its tool. -/
def events : List (Int × String) :=
  (inputs.rows agentId).auditDecisions.filterMap (fun audit => (getTime audit.ts).map (·, audit.toolName)) ++
    (inputs.rows agentId).queue.filterMap fun item => (getTime item.timestamp).map (·, item.toolName)

/-- When the sessions and the registry last saw the agent. -/
def seen : List Int :=
  (inputs.rows agentId).sessions.filterMap (getTime ·.lastSeen) ++
    (inputs.rows agentId).agents.filterMap (getTime ·.lastSeen)

/-- All activity. -/
def times : List Int :=
  seen getTime inputs agentId ++ (events getTime inputs agentId).map Prod.fst

/-- Decisions and, unless the agent has ended, prompts that nobody has answered. -/
def blockers : List Blocker :=
  (inputs.rows agentId).queue.map (decisionBlocker getTime) ++
    if agentId ∈ inputs.endedAgentIds then []
    else ((inputs.rows agentId).auditDecisions.filter isWaiting).map (deferredBlocker getTime)

/-- The events of an agent have times, and no two have the same. -/
structure Timely : Prop where
  readable : none ∉ stamps getTime inputs agentId
  distinct : (stamps getTime inputs agentId).Nodup

/-- No event is newer. -/
def Latest (event : Int × String) : Prop :=
  ∀ other ∈ events getTime inputs agentId, other.1 ≤ event.1

instance (event : Int × String) : Decidable (Latest getTime inputs agentId event) :=
  inferInstanceAs (Decidable (∀ other ∈ events getTime inputs agentId, other.1 ≤ event.1))

/-- The newest event ends a turn or a session. -/
def Finished : Prop :=
  ∃ event ∈ events getTime inputs agentId, event.2 ∈ terminalEventTools ∧ Latest getTime inputs agentId event

/-- No activity for longer than this. -/
def Silent (limit : Int) : Prop :=
  ∀ ms ∈ times getTime inputs agentId, limit < inputs.nowMs - ms

instance : Decidable (Finished getTime inputs agentId) :=
  inferInstanceAs (Decidable (∃ event ∈ events getTime inputs agentId, event.2 ∈ terminalEventTools ∧
    Latest getTime inputs agentId event))

instance (limit : Int) : Decidable (Silent getTime inputs agentId limit) :=
  inferInstanceAs (Decidable (∀ ms ∈ times getTime inputs agentId, limit < inputs.nowMs - ms))

/-- The state that an agent is in. -/
def verdict : LaneState :=
  if blockers getTime inputs agentId ≠ [] then .waiting
  else if Finished getTime inputs agentId then .done
  else if Silent getTime inputs agentId stallThresholdMs then .stalled
  else .working

/-- Nothing blocks the agent, and it has been silent for as long as the board shows. -/
def AgedOut : Prop :=
  blockers getTime inputs agentId = [] ∧ Silent getTime inputs agentId boardWindowMs

/-! ### What the board owes -/

def BoardModel.lanes (model : BoardModel) : List Lane :=
  model.projects.flatMap Prod.snd

def BoardTotals.count (totals : BoardTotals) : LaneState → Nat
  | .working => totals.working
  | .waiting => totals.waiting
  | .stalled => totals.stalled
  | .done => totals.done

/-- A blocker that came up before all others. -/
def Oldest (all : List Blocker) (blocker : Blocker) : Prop :=
  blocker ∈ all ∧ ∃ ms, blocker.sinceMs = some ms ∧ ∀ other ∈ all, ∃ later, other.sinceMs = some later ∧ ms ≤ later

/-- The lane tells the state of its agent and, if that waits, for what it has waited the longest. -/
structure Classified (lane : Lane) : Prop where
  state : lane.state = verdict getTime inputs lane.agentId
  target : lane.state = .waiting → ∃ blocker, Oldest (blockers getTime inputs lane.agentId) blocker ∧
    lane.inboxTarget = some blocker.target ∧ lane.waitingSinceMs = some blocker.sinceMs

/-- The same rows in another order. -/
structure Reordered (others : BoardInputs) : Prop where
  sessions : inputs.sessions.Perm others.sessions
  agents : inputs.agents.Perm others.agents
  queue : inputs.queue.Perm others.queue
  auditDecisions : inputs.auditDecisions.Perm others.auditDecisions
  endedAgentIds : inputs.endedAgentIds.Perm others.endedAgentIds
  nowMs : inputs.nowMs = others.nowMs

/-- The board has a lane for each agent with some activity, the lanes are right and counted, and
the order of the rows has no meaning. -/
structure Truthful (model : BoardModel) : Prop where
  derived : deriveBoard getTime inputs = some model
  classified : ∀ lane ∈ model.lanes, Classified getTime inputs lane
  shown : ∀ agentId, times getTime inputs agentId ≠ [] →
    (model.lanes.map (·.agentId)).count agentId = 1 ∨
      AgedOut getTime inputs agentId ∧ agentId ∉ model.lanes.map (·.agentId)
  totals : ∀ state, model.totals.count state = model.lanes.countP (·.state = state)
  stable : ∀ others, Reordered inputs others → deriveBoard getTime others = some model

/-! ### Where it does -/

/-- The agent is on the board. -/
def Shown : Prop :=
  (∃ ms ∈ times getTime inputs agentId, 0 < ms) ∧ ¬AgedOut getTime inputs agentId

instance : Decidable (AgedOut getTime inputs agentId) :=
  inferInstanceAs (Decidable (_ ∧ _))

instance : Decidable (Shown getTime inputs agentId) :=
  inferInstanceAs (Decidable ((∃ ms ∈ times getTime inputs agentId, 0 < ms) ∧ ¬AgedOut getTime inputs agentId))

/-- The first source that says something. -/
def deciding {Value : Type} [DecidableEq Value] (sources : List (List Value)) : List Value :=
  (sources.find? (· ≠ [])).getD []

/-- The projects of an agent: in the registry, unless they are empty, then in the sessions, the
audit stream and the queue. -/
def projectSources : List (List String) :=
  [((inputs.rows agentId).agents.map (·.project)).filter (· ≠ ""), (inputs.rows agentId).sessions.map (·.project),
    (inputs.rows agentId).auditDecisions.map (·.project), (inputs.rows agentId).queue.map (·.project)]

/-- Its types: in the registry, then in the sessions where they are known, and in the queue. -/
def typeSources : List (List AgentType) :=
  [(inputs.rows agentId).agents.map (·.agentType),
    (inputs.rows agentId).sessions.filterMap (knownAgentType ·.agentType), (inputs.rows agentId).queue.map (·.agentType)]

/-- The first source names one thing only. -/
def Agrees {Value : Type} [DecidableEq Value] (sources : List (List Value)) : Prop :=
  ∀ value ∈ deciding sources, ∀ other ∈ deciding sources, value = other

def projectOf : String :=
  (deciding (projectSources inputs agentId)).head?.getD ""

def newestMs : Int :=
  (times getTime inputs agentId).foldl max 0

/-- The first of the lists that has rows of such an agent. -/
def listing (inputs : BoardInputs) (among : String → Bool) : Nat :=
  if inputs.sessions.any (among ·.agentId) then 0
  else if inputs.agents.any (among ·.agentId) then 1
  else if inputs.auditDecisions.any (among ·.agentId) then 2
  else 3

/-- The first agent is as loud as the second. -/
def Louder (first second : String) : Prop :=
  stateRank (verdict getTime inputs first) < stateRank (verdict getTime inputs second) ∨
    stateRank (verdict getTime inputs first) = stateRank (verdict getTime inputs second) ∧
      newestMs getTime inputs second ≤ newestMs getTime inputs first

/-- Two agents in one state, with their newest activity at one time. -/
def Level (first second : String) : Prop :=
  verdict getTime inputs first = verdict getTime inputs second ∧
    newestMs getTime inputs first = newestMs getTime inputs second

/-- No agent of its project is louder. -/
def Heads : Prop :=
  Shown getTime inputs agentId ∧ ∀ other, Shown getTime inputs other →
    projectOf inputs other = projectOf inputs agentId → Louder getTime inputs agentId other

/-- The first of the lists that has an agent which is shown with the project. -/
def debut (project : String) : Nat :=
  listing inputs fun agentId => Shown getTime inputs agentId ∧ projectOf inputs agentId = project

/-- No session or registry saw an agent after the event that ended it, no activity is from before
the epoch, the rows agree on project and type, and neither two lanes of a project nor two projects
that come up in the same list are level. -/
structure Settled : Prop where
  ended : ∀ agentId, Shown getTime inputs agentId → blockers getTime inputs agentId = [] →
    ∀ event ∈ events getTime inputs agentId, Latest getTime inputs agentId event → event.2 ∈ terminalEventTools →
      ∀ ms ∈ seen getTime inputs agentId, ms ≤ event.1
  modern : ∀ agentId, times getTime inputs agentId ≠ [] →
    (∃ ms ∈ times getTime inputs agentId, 0 < ms) ∨ AgedOut getTime inputs agentId
  project : ∀ agentId, Shown getTime inputs agentId → Agrees (projectSources inputs agentId)
  agentType : ∀ agentId, Shown getTime inputs agentId → Agrees (typeSources inputs agentId)
  lanes : ∀ first second, Shown getTime inputs first → Shown getTime inputs second →
    projectOf inputs first = projectOf inputs second → Level getTime inputs first second →
      listing inputs (· = first) = listing inputs (· = second) → first = second
  projects : ∀ first second, Heads getTime inputs first → Heads getTime inputs second →
    Level getTime inputs first second →
      debut getTime inputs (projectOf inputs first) = debut getTime inputs (projectOf inputs second) →
        projectOf inputs first = projectOf inputs second

end Liveness
end Wisphive
