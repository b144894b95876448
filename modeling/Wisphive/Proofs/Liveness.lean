import Mathlib.Data.List.ReduceOption
import Wisphive.Liveness

/-! The drafts of the liveness board, field by field, and the lane that comes of each. -/

namespace Wisphive
open Foundation Grouping Page

namespace Liveness
/-! ### Rows -/

/-- A row of one of the four lists. -/
inductive Row where
  | session (row : SessionSummary)
  | agent (row : AgentInfo)
  | audit (row : Page.AuditDecision)
  | item (row : Page.DecisionRequest)

namespace Row

def agentId : Row → String
  | .session row => row.agentId
  | .agent row => row.agentId
  | .audit row => row.agentId
  | .item row => row.agentId

def note (getTime : String → Option Int) (draft : Draft) : Row → Draft
  | .session row => draft.addSession getTime row
  | .agent row => draft.addAgent getTime row
  | .audit row => draft.addAudit getTime row
  | .item row => draft.addItem getTime row

/-- Which of the four lists it is. -/
def stage : Row → Nat
  | .session _ => 0
  | .agent _ => 1
  | .audit _ => 2
  | .item _ => 3

end Row

def BoardInputs.all (inputs : BoardInputs) : List Row :=
  inputs.sessions.map .session ++ inputs.agents.map .agent ++ inputs.auditDecisions.map .audit ++ inputs.queue.map .item

variable {getTime : String → Option Int} {inputs : BoardInputs} {agentId : String}

/-- The draft of all rows together. -/
def draftOf (getTime : String → Option Int) (inputs : BoardInputs) : Draft :=
  inputs.queue.foldl (Draft.addItem getTime) <|
    inputs.auditDecisions.foldl (Draft.addAudit getTime) <|
      inputs.agents.foldl (Draft.addAgent getTime) <| inputs.sessions.foldl (Draft.addSession getTime) {}

theorem foldl_all (draft : Draft) :
    inputs.all.foldl (Row.note getTime) draft =
      inputs.queue.foldl (Draft.addItem getTime) (inputs.auditDecisions.foldl (Draft.addAudit getTime)
        (inputs.agents.foldl (Draft.addAgent getTime) (inputs.sessions.foldl (Draft.addSession getTime) draft))) := by
  simp only [BoardInputs.all, List.foldl_append, List.foldl_map]
  rfl

theorem all_rows : (inputs.rows agentId).all = inputs.all.filter (·.agentId = agentId) := by
  simp only [BoardInputs.all, BoardInputs.rows, List.filter_append, List.filter_map]
  rfl

/-- The four loops are one, which notes each row in the draft of its agent. -/
theorem drafts_eq :
    drafts getTime inputs =
      (keys Row.agentId inputs.all).map fun agentId => (agentId, draftOf getTime (inputs.rows agentId)) := by
  have one : drafts getTime inputs = collect Row.agentId (fun _ => {}) (Row.note getTime) [] inputs.all := by
    simp only [drafts, collect, BoardInputs.all, List.foldl_append, List.foldl_map]
    rfl
  rw [one, collect_eq]
  apply List.map_congr_left
  intro agentId _
  rw [tallied, ← all_rows, foldl_all]
  rfl

/-! ### Activity -/

/-- The running maximum. -/
def noted (state : Int × Option String) (event : Int × String) : Int × Option String :=
  if state.1 ≤ event.1 then (event.1, some event.2) else state

theorem foldl_max_le (values : List Int) (start bound : Int) :
    values.foldl max start ≤ bound ↔ start ≤ bound ∧ ∀ value ∈ values, value ≤ bound := by
  induction values generalizing start with
  | nil => simp
  | cons value values ih =>
    rw [List.foldl_cons, ih, List.forall_mem_cons, Int.max_le, and_assoc]

theorem noted_fst (state : Int × Option String) (list : List (Int × String)) :
    (list.foldl noted state).1 = (list.map Prod.fst).foldl max state.1 := by
  induction list generalizing state with
  | nil => rfl
  | cons event list ih =>
    rw [List.foldl_cons, List.map_cons, List.foldl_cons, ih]
    congr 1
    rw [noted]
    split
    next later => exact (Int.max_eq_right later).symm
    next older => exact (Int.max_eq_left (by omega)).symm

/-- Older events are passed over. -/
theorem noted_old {state : Int × Option String} {list : List (Int × String)} (old : ∀ event ∈ list, event.1 < state.1) :
    list.foldl noted state = state := by
  induction list with
  | nil => rfl
  | cons event list ih =>
    have first := old event (.head _)
    rw [List.foldl_cons, noted, if_neg (by omega)]
    exact ih fun event member => old event (.tail _ member)

/-- The newest event gives time and tool. -/
theorem noted_latest {state : Int × Option String} {list : List (Int × String)} {event : Int × String}
    (distinct : (list.map Prod.fst).Nodup) (member : event ∈ list) (latest : ∀ other ∈ list, other.1 ≤ event.1)
    (reached : state.1 ≤ event.1) : list.foldl noted state = (event.1, some event.2) := by
  induction list generalizing state with
  | nil => cases member
  | cons first list ih =>
    rw [List.map_cons, List.nodup_cons] at distinct
    rw [List.foldl_cons]
    rcases List.mem_cons.mp member with rfl | later
    · have old : ∀ other ∈ list, other.1 < event.1 := by
        intro other inside
        have apart : other.1 ≠ event.1 := fun same => distinct.1 (same ▸ List.mem_map_of_mem inside)
        have low := latest other (.tail _ inside)
        omega
      rw [noted, if_pos reached]
      exact noted_old old
    · refine ih distinct.2 later (fun other inside => latest other (.tail _ inside)) ?_
      rw [noted]
      split
      next => exact latest first (.head _)
      next => exact reached

/-! ### Loops -/

theorem noteActivity_untold {draft : Draft} {ts : String} :
    draft.noteActivity getTime ts none =
      { draft with lastActivityMs := (getTime ts).toList.foldl max draft.lastActivityMs } := by
  rw [Draft.noteActivity]
  cases getTime ts with
  | none => rfl
  | some ms =>
    simp only [Option.toList_some, List.foldl_cons, List.foldl_nil, Option.none_or]
    split
    next later => rw [Int.max_eq_right later]
    next older => rw [Int.max_eq_left (by omega)]

theorem noteActivity_told {draft : Draft} {ts toolName : String} :
    draft.noteActivity getTime ts (some toolName) =
      let state := ((getTime ts).map (·, toolName)).toList.foldl noted (draft.lastActivityMs, draft.lastToolName)
      { draft with lastActivityMs := state.1, lastToolName := state.2 } := by
  rw [Draft.noteActivity]
  cases getTime ts with
  | none => rfl
  | some ms =>
    simp only [Option.map_some, Option.toList_some, List.foldl_cons, List.foldl_nil, Option.some_or, noted]
    split <;> rfl

theorem foldl_addSession {draft : Draft} {sessions : List SessionSummary} :
    sessions.foldl (Draft.addSession getTime) draft =
      { draft with
        project := draft.project.or (sessions.map (·.project)).head?
        agentType := draft.agentType.or (sessions.filterMap (knownAgentType ·.agentType)).head?
        lastActivityMs := (sessions.filterMap (getTime ·.lastSeen)).foldl max draft.lastActivityMs
        isLive := draft.isLive || sessions.any (·.isLive)
        sessionPendingCount := (sessions.map (·.pendingCount)).foldl max draft.sessionPendingCount } := by
  induction sessions generalizing draft with
  | nil => simp
  | cons session sessions ih =>
    rw [List.foldl_cons, ih, Draft.addSession, noteActivity_untold]
    cases known : knownAgentType session.agentType <;> cases time : getTime session.lastSeen <;>
      simp [known, time, Bool.or_assoc]

theorem foldl_addAgent {draft : Draft} {agents : List AgentInfo} :
    agents.foldl (Draft.addAgent getTime) draft =
      { draft with
        project := ((agents.map (·.project)).filter (· ≠ "")).getLast?.or draft.project
        agentType := (agents.map (·.agentType)).getLast?.or draft.agentType
        lastActivityMs := (agents.filterMap (getTime ·.lastSeen)).foldl max draft.lastActivityMs
        isLive := draft.isLive || !agents.isEmpty } := by
  induction agents generalizing draft with
  | nil => simp
  | cons agent agents ih =>
    rw [List.foldl_cons, ih, Draft.addAgent, noteActivity_untold]
    by_cases unnamed : agent.project = "" <;> cases time : getTime agent.lastSeen <;>
      simp [unnamed, time, List.getLast?_cons]

theorem foldl_addAudit {draft : Draft} {audits : List Page.AuditDecision} :
    audits.foldl (Draft.addAudit getTime) draft =
      let state := (audits.filterMap fun audit => (getTime audit.ts).map (·, audit.toolName)).foldl noted
        (draft.lastActivityMs, draft.lastToolName)
      { draft with
        project := draft.project.or (audits.map (·.project)).head?
        lastActivityMs := state.1
        lastToolName := state.2
        taskSpawns := draft.taskSpawns + audits.countP (·.toolName = "Task")
        subagentStops := draft.subagentStops + audits.countP (·.toolName = "SubagentStop")
        deferredWaiting := draft.deferredWaiting ++ audits.filter isWaiting } := by
  induction audits generalizing draft with
  | nil => simp
  | cons audit audits ih =>
    rw [List.foldl_cons, ih, Draft.addAudit, noteActivity_told]
    have counted (name : String) (count : Nat) :
        (if audit.toolName = name then count + 1 else count) + audits.countP (·.toolName = name) =
          count + (audit :: audits).countP (·.toolName = name) := by
      rw [List.countP_cons]
      split <;> simp_all
      omega
    have waits (list : List Page.AuditDecision) :
        (if isWaiting audit then list ++ [audit] else list) ++ audits.filter isWaiting =
          list ++ (audit :: audits).filter isWaiting := by
      rw [List.filter_cons]
      split <;> simp
    simp only [counted, waits]
    cases time : getTime audit.ts <;> simp [time]

theorem foldl_addItem {draft : Draft} {queue : List Page.DecisionRequest} :
    queue.foldl (Draft.addItem getTime) draft =
      let state := (queue.filterMap fun item => (getTime item.timestamp).map (·, item.toolName)).foldl noted
        (draft.lastActivityMs, draft.lastToolName)
      { draft with
        project := draft.project.or (queue.map (·.project)).head?
        agentType := draft.agentType.or (queue.map (·.agentType)).head?
        lastActivityMs := state.1
        lastToolName := state.2
        pending := draft.pending ++ queue } := by
  induction queue generalizing draft with
  | nil => simp
  | cons item queue ih =>
    rw [List.foldl_cons, ih, Draft.addItem, noteActivity_told]
    cases time : getTime item.timestamp <;> simp [time]

variable (getTime inputs)

theorem draftOf_eq :
    draftOf getTime (inputs.rows agentId) =
      let rows := inputs.rows agentId
      let state := (events getTime inputs agentId).foldl noted ((seen getTime inputs agentId).foldl max 0, none)
      { project := ((((rows.agents.map (·.project)).filter (· ≠ "")).getLast?.or (rows.sessions.map (·.project)).head?).or
          (rows.auditDecisions.map (·.project)).head?).or (rows.queue.map (·.project)).head?
        agentType := ((rows.agents.map (·.agentType)).getLast?.or
          (rows.sessions.filterMap (knownAgentType ·.agentType)).head?).or (rows.queue.map (·.agentType)).head?
        lastActivityMs := state.1
        lastToolName := state.2
        pending := rows.queue
        deferredWaiting := rows.auditDecisions.filter isWaiting
        taskSpawns := rows.auditDecisions.countP (·.toolName = "Task")
        subagentStops := rows.auditDecisions.countP (·.toolName = "SubagentStop")
        isLive := rows.sessions.any (·.isLive) || !rows.agents.isEmpty
        sessionPendingCount := (rows.sessions.map (·.pendingCount)).foldl max 0 } := by
  rw [draftOf, foldl_addSession, foldl_addAgent, foldl_addAudit, foldl_addItem, events, seen]
  simp only [List.foldl_append, Option.none_or, Bool.false_or, List.nil_append, Nat.zero_add]

/-! ### Blockers -/

variable {getTime inputs}

theorem earlier_eq {first second : String} (readable : ∀ ts ∈ [first, second], (getTime ts).isSome) :
    earlier getTime first second = decide ((getTime first).getD 0 ≤ (getTime second).getD 0) := by
  obtain ⟨ms, eq⟩ := Option.isSome_iff_exists.mp (readable first (by simp))
  obtain ⟨ms', eq'⟩ := Option.isSome_iff_exists.mp (readable second (by simp))
  rw [earlier, eq, eq']
  rfl

/-- The first row of a sorted list is the oldest. -/
theorem oldest_row {Item : Type} (tsOf : Item → String) {items rest : List Item} {first : Item}
    (readable : ∀ item ∈ items, (getTime (tsOf item)).isSome)
    (sorted : items.mergeSort (fun a b => earlier getTime (tsOf a) (tsOf b)) = first :: rest) :
    first ∈ items ∧ ∃ ms, getTime (tsOf first) = some ms ∧
      ∀ other ∈ items, ∃ later, getTime (tsOf other) = some later ∧ ms ≤ later := by
  rw [mergeSort_congr fun a b => decide ((getTime (tsOf a)).getD 0 ≤ (getTime (tsOf b)).getD 0)] at sorted
  · obtain ⟨member, least⟩ := head_mergeSort (ranks_by _) sorted
    obtain ⟨ms, eq⟩ := Option.isSome_iff_exists.mp (readable first member)
    refine ⟨member, ms, eq, fun other inside => ?_⟩
    obtain ⟨later, eq'⟩ := Option.isSome_iff_exists.mp (readable other inside)
    refine ⟨later, eq', ?_⟩
    simpa [eq, eq'] using least other inside
  · intro a first b second
    refine earlier_eq fun ts member => ?_
    rcases List.mem_pair.mp member with rfl | rfl
    · exact readable a first
    · exact readable b second

theorem oldest_append {pending : List Page.DecisionRequest} {deferred : List Page.AuditDecision} {blocker : Blocker}
    {ms : Int} (member : blocker ∈ pending.map (decisionBlocker getTime) ++ deferred.map (deferredBlocker getTime))
    (eq : blocker.sinceMs = some ms)
    (items : ∀ item ∈ pending, ∃ later, getTime item.timestamp = some later ∧ ms ≤ later)
    (rows : ∀ row ∈ deferred, ∃ later, getTime row.ts = some later ∧ ms ≤ later) :
    Oldest (pending.map (decisionBlocker getTime) ++ deferred.map (deferredBlocker getTime)) blocker := by
  refine ⟨member, ms, eq, fun other inside => ?_⟩
  rcases List.mem_append.mp inside with left | right
  · obtain ⟨item, held, rfl⟩ := List.mem_map.mp left
    exact items item held
  · obtain ⟨row, held, rfl⟩ := List.mem_map.mp right
    exact rows row held

theorem later_trans {time : Millis} {ms other : Int} (low : ms ≤ other) (held : ∃ later, time = some later ∧ other ≤ later) :
    ∃ later, time = some later ∧ ms ≤ later :=
  held.imp fun _ found => ⟨found.1, Int.le_trans low found.2⟩

theorem oldestBlocker_eq {pending : List Page.DecisionRequest} {deferred : List Page.AuditDecision}
    (readable : ∀ blocker ∈ pending.map (decisionBlocker getTime) ++ deferred.map (deferredBlocker getTime),
      blocker.sinceMs.isSome) :
    pending = [] ∧ deferred = [] ∧ oldestBlocker getTime pending deferred = some none ∨
      ∃ blocker, Oldest (pending.map (decisionBlocker getTime) ++ deferred.map (deferredBlocker getTime)) blocker ∧
        oldestBlocker getTime pending deferred = some (some blocker) := by
  have items : ∀ item ∈ pending, (getTime item.timestamp).isSome := fun item member =>
    readable (decisionBlocker getTime item) (List.mem_append_left _ (List.mem_map_of_mem member))
  have rows : ∀ row ∈ deferred, (getTime row.ts).isSome := fun row member =>
    readable (deferredBlocker getTime row) (List.mem_append_right _ (List.mem_map_of_mem member))
  have empty {Item : Type} {list : List Item} {le : Item → Item → Bool} (none : list.mergeSort le = []) : list = [] :=
    (none ▸ (List.mergeSort_perm list le).symm).eq_nil
  rw [oldestBlocker]
  cases first : pending.mergeSort (fun a b => earlier getTime a.timestamp b.timestamp) with
  | nil =>
    cases second : deferred.mergeSort (fun a b => earlier getTime a.ts b.ts) with
    | nil => exact .inl ⟨empty first, empty second, rfl⟩
    | cons row others =>
      obtain rfl := empty first
      obtain ⟨member, ms, eq, least⟩ := oldest_row (fun row : Page.AuditDecision => row.ts) rows second
      refine .inr ⟨_, oldest_append ?_ eq ?_ least, rfl⟩
      · exact List.mem_append_right _ (List.mem_map_of_mem member)
      · exact fun item none => by cases none
  | cons item others =>
    obtain ⟨member, ms, eq, least⟩ := oldest_row (fun item : Page.DecisionRequest => item.timestamp) items first
    have inside : decisionBlocker getTime item ∈
        pending.map (decisionBlocker getTime) ++ deferred.map (deferredBlocker getTime) :=
      List.mem_append_left _ (List.mem_map_of_mem member)
    cases second : deferred.mergeSort (fun a b => earlier getTime a.ts b.ts) with
    | nil =>
      obtain rfl := empty second
      refine .inr ⟨_, oldest_append inside eq least ?_, ?_⟩
      · exact fun row none => by cases none
      · simp only [eq, Option.map_some]
    | cons row others =>
      obtain ⟨member', ms', eq', least'⟩ := oldest_row (fun row : Page.AuditDecision => row.ts) rows second
      have inside' : deferredBlocker getTime row ∈
          pending.map (decisionBlocker getTime) ++ deferred.map (deferredBlocker getTime) :=
        List.mem_append_right _ (List.mem_map_of_mem member')
      simp only [eq, eq']
      split
      next low => exact .inr ⟨_, oldest_append inside eq least fun row held => later_trans low (least' row held), rfl⟩
      next high =>
        refine .inr ⟨_, oldest_append inside' eq' (fun item held => ?_) least', rfl⟩
        exact later_trans (by omega) (least item held)

/-! ### Lanes -/

variable (getTime inputs agentId)

/-- The prompts of an agent, unless it has ended. -/
def prompts : List Page.AuditDecision :=
  if agentId ∈ inputs.endedAgentIds then [] else (inputs.rows agentId).auditDecisions.filter isWaiting

theorem blockers_eq :
    blockers getTime inputs agentId =
      (inputs.rows agentId).queue.map (decisionBlocker getTime) ++
        (prompts inputs agentId).map (deferredBlocker getTime) := by
  rw [blockers, prompts]
  split <;> rfl

def blockerOf : Option Blocker :=
  (oldestBlocker getTime (inputs.rows agentId).queue (prompts inputs agentId)).join

def silentForMs : Int :=
  max 0 (inputs.nowMs - newestMs getTime inputs agentId)

/-- The lane of an agent that is shown. -/
def laneOf : Lane :=
  let draft := draftOf getTime (inputs.rows agentId)
  { agentId
    agentType := draft.agentType.getD (agentTypeFromId agentId)
    project := draft.project.getD ""
    state := laneState (blockerOf getTime inputs agentId) draft.lastToolName (silentForMs getTime inputs agentId)
    lastActivityMs := newestMs getTime inputs agentId
    lastToolName := draft.lastToolName
    silentForMs := silentForMs getTime inputs agentId
    pendingCount := max draft.sessionPendingCount draft.pending.length
    isLive := draft.isLive && !decide (agentId ∈ inputs.endedAgentIds)
    waitingSinceMs := (blockerOf getTime inputs agentId).map (·.sinceMs)
    inboxTarget := (blockerOf getTime inputs agentId).map (·.target)
    wave := if 0 < draft.taskSpawns then some ⟨draft.taskSpawns, min draft.subagentStops draft.taskSpawns⟩ else none
    subagentsActive := draft.taskSpawns - draft.subagentStops }

variable {getTime inputs agentId}

theorem readable_of_timely (timely : Timely getTime inputs agentId) {blocker : Blocker}
    (member : blocker ∈ blockers getTime inputs agentId) : blocker.sinceMs.isSome := by
  refine Option.isSome_iff_ne_none.mpr fun none => timely.readable ?_
  rw [blockers_eq] at member
  rw [← none, stamps]
  rcases List.mem_append.mp member with left | right
  · obtain ⟨item, held, rfl⟩ := List.mem_map.mp left
    exact List.mem_append_right _ (List.mem_map_of_mem held)
  · obtain ⟨audit, held, rfl⟩ := List.mem_map.mp right
    refine List.mem_append_left _ (List.mem_map_of_mem (f := fun audit : Page.AuditDecision => getTime audit.ts) ?_)
    rw [prompts] at held
    split at held
    · cases held
    · exact (List.mem_filter.mp held).1

/-- The code finds the oldest blocker, if there is one. -/
theorem blockerOf_spec (timely : Timely getTime inputs agentId) :
    oldestBlocker getTime (inputs.rows agentId).queue (prompts inputs agentId) = some (blockerOf getTime inputs agentId) ∧
      (blockers getTime inputs agentId = [] ∧ blockerOf getTime inputs agentId = none ∨
        ∃ blocker, Oldest (blockers getTime inputs agentId) blocker ∧ blockerOf getTime inputs agentId = some blocker) := by
  have readable := @readable_of_timely _ _ _ timely
  rw [blockers_eq] at readable ⊢
  rcases oldestBlocker_eq fun _ member => readable member with ⟨noItem, noRow, eq⟩ | ⟨blocker, oldest, eq⟩
  · rw [blockerOf, eq, noItem, noRow]
    exact ⟨rfl, .inl ⟨rfl, rfl⟩⟩
  · rw [blockerOf, eq]
    exact ⟨rfl, .inr ⟨blocker, oldest, rfl⟩⟩

theorem blocked_iff (timely : Timely getTime inputs agentId) :
    (blockerOf getTime inputs agentId).isSome ↔ blockers getTime inputs agentId ≠ [] := by
  rcases (blockerOf_spec timely).2 with ⟨empty, eq⟩ | ⟨blocker, oldest, eq⟩
  · simp [empty, eq]
  · rw [eq]
    exact ⟨fun _ => List.ne_nil_of_mem oldest.1, fun _ => rfl⟩

theorem lastActivityMs_eq : (draftOf getTime (inputs.rows agentId)).lastActivityMs = newestMs getTime inputs agentId := by
  simp only [draftOf_eq, noted_fst, newestMs, times, List.foldl_append]

theorem newestMs_nonneg : 0 ≤ newestMs getTime inputs agentId :=
  ((foldl_max_le _ _ _).mp (Int.le_refl _)).1

theorem le_newestMs {ms : Int} (member : ms ∈ times getTime inputs agentId) : ms ≤ newestMs getTime inputs agentId :=
  ((foldl_max_le _ _ _).mp (Int.le_refl _)).2 ms member

theorem foldl_max_mem (values : List Int) (start : Int) :
    values.foldl max start = start ∨ values.foldl max start ∈ values := by
  induction values generalizing start with
  | nil => exact .inl rfl
  | cons value values ih =>
    rw [List.foldl_cons]
    rcases ih (max start value) with eq | later
    · rw [eq]
      rcases Int.le_total start value with low | high
      · rw [Int.max_eq_right low]
        exact .inr (List.mem_cons_self ..)
      · exact .inl (Int.max_eq_left high)
    · exact .inr (.tail _ later)

theorem newestMs_pos : 0 < newestMs getTime inputs agentId ↔ ∃ ms ∈ times getTime inputs agentId, 0 < ms := by
  constructor
  · intro pos
    rcases foldl_max_mem (times getTime inputs agentId) 0 with zero | member
    · rw [newestMs, zero] at pos
      exact absurd pos (Int.lt_irrefl 0)
    · exact ⟨_, member, pos⟩
  · rintro ⟨ms, member, pos⟩
    exact Int.lt_of_lt_of_le pos (le_newestMs member)

theorem newestMs_mem (pos : 0 < newestMs getTime inputs agentId) :
    newestMs getTime inputs agentId ∈ times getTime inputs agentId := by
  rcases foldl_max_mem (times getTime inputs agentId) 0 with zero | member
  · rw [newestMs, zero] at pos
    exact absurd pos (Int.lt_irrefl 0)
  · exact member

theorem silent_iff {limit : Int} (active : ∃ ms ∈ times getTime inputs agentId, 0 < ms) (low : 0 ≤ limit) :
    Silent getTime inputs agentId limit ↔ limit < silentForMs getTime inputs agentId := by
  rw [silentForMs]
  constructor
  · intro silent
    have held := silent _ (newestMs_mem (newestMs_pos.mpr active))
    omega
  · intro beyond ms member
    have held := le_newestMs member
    omega

theorem shown_iff (timely : Timely getTime inputs agentId) :
    Shown getTime inputs agentId ↔ newestMs getTime inputs agentId ≠ 0 ∧
      ((blockerOf getTime inputs agentId).isSome ∨ silentForMs getTime inputs agentId ≤ boardWindowMs) := by
  have apart : newestMs getTime inputs agentId ≠ 0 ↔ 0 < newestMs getTime inputs agentId := by
    have low := @newestMs_nonneg getTime inputs agentId
    omega
  rw [Shown, apart, newestMs_pos]
  refine and_congr_right fun active => ?_
  rw [AgedOut, silent_iff active (by decide), blocked_iff timely, not_and_or, Int.not_lt]

theorem laneState_waiting {blocker : Option Blocker} {lastToolName : Option String} {silentForMs : Int} :
    laneState blocker lastToolName silentForMs = .waiting ↔ blocker.isSome := by
  rw [laneState]
  split_ifs with blocked <;> simp_all

theorem lane_eq (timely : Timely getTime inputs agentId) :
    lane getTime inputs.endedAgentIds inputs.nowMs agentId (draftOf getTime (inputs.rows agentId)) =
      some (if Shown getTime inputs agentId then some (laneOf getTime inputs agentId) else none) := by
  have found := (blockerOf_spec timely).1
  rw [prompts] at found
  have rows : (draftOf getTime (inputs.rows agentId)).pending = (inputs.rows agentId).queue ∧
      (draftOf getTime (inputs.rows agentId)).deferredWaiting = (inputs.rows agentId).auditDecisions.filter isWaiting := by
    rw [draftOf_eq]
    exact ⟨rfl, rfl⟩
  simp only [lane, lastActivityMs_eq, rows.1, rows.2]
  by_cases quiet : newestMs getTime inputs agentId = 0
  · have hidden : ¬Shown getTime inputs agentId := fun shown => ((shown_iff timely).mp shown).1 quiet
    rw [if_pos quiet, if_neg hidden]
  · rw [if_neg quiet]
    rw [found, Option.map_some, ← silentForMs]
    congr 1
    by_cases shown : Shown getTime inputs agentId
    · have blocked := ((shown_iff timely).mp shown).2
      rw [← laneState_waiting] at blocked
      rw [if_pos shown, if_neg fun hidden => blocked.elim hidden.1 (Int.not_le.mpr hidden.2)]
      simp only [laneOf, rows.1]
    · rw [if_neg shown, if_pos]
      rw [shown_iff timely, ← laneState_waiting] at shown
      exact ⟨fun waiting => shown ⟨quiet, .inl waiting⟩, Int.not_le.mp fun fresh => shown ⟨quiet, .inr fresh⟩⟩

/-! ### States -/

theorem events_fst : (events getTime inputs agentId).map Prod.fst = (stamps getTime inputs agentId).filterMap id := by
  simp only [events, stamps, List.map_append, List.filterMap_append, List.map_filterMap, List.filterMap_map]
  congr 1
  all_goals
    apply List.filterMap_congr
    intro row _
    rw [Option.map_map]
    exact congrFun Option.map_id _

theorem nodup_events (timely : Timely getTime inputs agentId) :
    ((events getTime inputs agentId).map Prod.fst).Nodup := by
  rw [events_fst]
  refine timely.distinct.filterMap fun first second ms found same => ?_
  exact found.trans same.symm

theorem exists_latest {list : List (Int × String)} (some : list ≠ []) :
    ∃ event ∈ list, ∀ other ∈ list, other.1 ≤ event.1 := by
  induction list with
  | nil => exact absurd rfl some
  | cons event list ih =>
    by_cases last : list = []
    · subst last
      refine ⟨event, .head _, fun other member => ?_⟩
      exact List.mem_singleton.mp member ▸ Int.le_refl _
    · obtain ⟨newest, member, latest⟩ := ih last
      by_cases newer : newest.1 ≤ event.1
      · refine ⟨event, .head _, fun other inside => ?_⟩
        rcases List.mem_cons.mp inside with rfl | later
        · exact Int.le_refl _
        · exact Int.le_trans (latest other later) newer
      · refine ⟨newest, .tail _ member, fun other inside => ?_⟩
        rcases List.mem_cons.mp inside with rfl | later
        · omega
        · exact latest other later

/-- The draft ends with the tool of the newest event, unless the agent was seen after it. -/
theorem lastToolName_iff (timely : Timely getTime inputs agentId) (active : ∃ ms ∈ times getTime inputs agentId, 0 < ms) :
    (draftOf getTime (inputs.rows agentId)).lastToolName.any (· ∈ terminalEventTools) = true ↔
      ∃ event ∈ events getTime inputs agentId, event.2 ∈ terminalEventTools ∧ Latest getTime inputs agentId event ∧
        ∀ ms ∈ seen getTime inputs agentId, ms ≤ event.1 := by
  have toolName : (draftOf getTime (inputs.rows agentId)).lastToolName =
      ((events getTime inputs agentId).foldl noted ((seen getTime inputs agentId).foldl max 0, none)).2 := by
    rw [draftOf_eq]
  rw [toolName]
  constructor
  · intro told
    by_cases old : ∀ event ∈ events getTime inputs agentId, event.1 < (seen getTime inputs agentId).foldl max 0
    · rw [noted_old old] at told
      cases told
    · obtain ⟨event, held⟩ := not_forall.mp old
      obtain ⟨member, reached⟩ := Classical.not_imp.mp held
      obtain ⟨newest, inside, latest⟩ := exists_latest (List.ne_nil_of_mem member)
      have low := Int.le_trans (Int.not_lt.mp reached) (latest event member)
      rw [noted_latest (nodup_events timely) inside latest low] at told
      exact ⟨newest, inside, by simpa using told, latest, ((foldl_max_le _ _ _).mp low).2⟩
  · rintro ⟨event, member, terminal, latest, early⟩
    have pos : 0 ≤ event.1 := by
      obtain ⟨ms, inside, pos⟩ := active
      rcases List.mem_append.mp inside with left | right
      · exact Int.le_trans (Int.le_of_lt pos) (early ms left)
      · obtain ⟨other, held, rfl⟩ := List.mem_map.mp right
        exact Int.le_trans (Int.le_of_lt pos) (latest other held)
    rw [noted_latest (nodup_events timely) member latest ((foldl_max_le _ _ _).mpr ⟨pos, early⟩)]
    simpa using terminal

/-- No session and no registry saw the agent after the event that ended it. -/
def Unseen (getTime : String → Option Int) (inputs : BoardInputs) (agentId : String) : Prop :=
  blockers getTime inputs agentId = [] → ∀ event ∈ events getTime inputs agentId, Latest getTime inputs agentId event →
    event.2 ∈ terminalEventTools → ∀ ms ∈ seen getTime inputs agentId, ms ≤ event.1

theorem state_iff (timely : Timely getTime inputs agentId) (active : ∃ ms ∈ times getTime inputs agentId, 0 < ms) :
    (laneOf getTime inputs agentId).state = verdict getTime inputs agentId ↔ Unseen getTime inputs agentId := by
  have blocked := blocked_iff timely
  have told := lastToolName_iff timely active
  rw [Unseen, laneOf, laneState, verdict]
  simp only [silent_iff active (show (0 : Int) ≤ stallThresholdMs by decide)]
  by_cases waits : blockers getTime inputs agentId = []
  · have free : ¬(blockerOf getTime inputs agentId).isSome = true := fun some => blocked.mp some waits
    rw [if_neg free, if_neg (not_not.mpr waits)]
    by_cases reported : (draftOf getTime (inputs.rows agentId)).lastToolName.any (· ∈ terminalEventTools) = true
    · obtain ⟨event, member, terminal, latest, early⟩ := told.mp reported
      rw [if_pos reported, if_pos ⟨event, member, terminal, latest⟩]
      refine ⟨fun _ _ other inside newest _ ms held => ?_, fun _ => rfl⟩
      exact Int.le_trans (early ms held) (newest event member)
    · rw [if_neg reported]
      by_cases finished : Finished getTime inputs agentId
      · rw [if_pos finished]
        constructor
        · intro same
          split_ifs at same
        · intro unseen
          obtain ⟨event, member, terminal, latest⟩ := finished
          exact absurd (told.mpr ⟨event, member, terminal, latest, unseen waits event member latest terminal⟩) reported
      · rw [if_neg finished]
        refine ⟨fun _ _ event member latest terminal => ?_, fun _ => rfl⟩
        exact absurd ⟨event, member, terminal, latest⟩ finished
  · rw [if_pos (blocked.mpr waits), if_pos waits]
    exact ⟨fun _ free => absurd free waits, fun _ => rfl⟩

/-- A lane that waits tells its oldest blocker. -/
theorem target_of_waiting (timely : Timely getTime inputs agentId)
    (waits : (laneOf getTime inputs agentId).state = .waiting) :
    ∃ blocker, Oldest (blockers getTime inputs agentId) blocker ∧
      (laneOf getTime inputs agentId).inboxTarget = some blocker.target ∧
      (laneOf getTime inputs agentId).waitingSinceMs = some blocker.sinceMs := by
  rcases (blockerOf_spec timely).2 with ⟨_, none⟩ | ⟨blocker, oldest, eq⟩
  · have blocked := laneState_waiting.mp waits
    rw [none] at blocked
    cases blocked
  · refine ⟨blocker, oldest, ?_, ?_⟩
    · rw [laneOf, eq]
      rfl
    · rw [laneOf, eq]
      rfl

/-! ### Boards -/

theorem mapM_eq_some {Item Result : Type} {read : Item → Option Result} {result : Item → Result} {items : List Item}
    (reads : ∀ item ∈ items, read item = some (result item)) : items.mapM read = some (items.map result) := by
  induction items with
  | nil => rfl
  | cons item items ih =>
    rw [List.mapM_cons, reads item (.head _), ih fun other member => reads other (.tail _ member)]
    rfl

theorem reduceOption_map {Item Result : Type} {keeps : Item → Prop} [DecidablePred keeps] {result : Item → Result}
    {items : List Item} :
    (items.map fun item => if keeps item then some (result item) else none).reduceOption =
      (items.filter keeps).map result := by
  induction items with
  | nil => rfl
  | cons item items ih =>
    by_cases held : keeps item
    · rw [List.map_cons, if_pos held, List.reduceOption_cons_of_some, ih, List.filter_cons_of_pos (by simpa using held)]
      rfl
    · rw [List.map_cons, if_neg held, List.reduceOption_cons_of_none, ih, List.filter_cons_of_neg (by simpa using held)]

variable (getTime inputs) in
/-- The agents that are shown, as they first come up in the rows. -/
def shownIds : List String :=
  (keys Row.agentId inputs.all).filter (Shown getTime inputs ·)

/-- With times that can be read the code does not fail. -/
theorem deriveBoard_eq (timely : ∀ agentId, Timely getTime inputs agentId) :
    deriveBoard getTime inputs = some (board ((shownIds getTime inputs).map (laneOf getTime inputs))) := by
  have read : (drafts getTime inputs).mapM (fun draft => lane getTime inputs.endedAgentIds inputs.nowMs draft.1 draft.2) =
      some ((keys Row.agentId inputs.all).map fun agentId =>
        if Shown getTime inputs agentId then some (laneOf getTime inputs agentId) else none) := by
    rw [drafts_eq, List.mapM_map]
    exact mapM_eq_some fun agentId _ => lane_eq (timely agentId)
  rw [deriveBoard, lanes, read, Option.map_some, Option.map_some, reduceOption_map, shownIds]

/-- An agent with some activity has rows. -/
theorem mem_keys_of_times (active : times getTime inputs agentId ≠ []) : agentId ∈ keys Row.agentId inputs.all := by
  by_contra absent
  have none : (inputs.rows agentId).all = [] := by
    rw [all_rows, List.filter_eq_nil_iff]
    intro row member same
    rw [decide_eq_true_eq] at same
    exact absent (mem_keys.mpr (List.mem_map.mpr ⟨row, member, same⟩))
  simp only [BoardInputs.all, List.append_eq_nil_iff, List.map_eq_nil_iff] at none
  obtain ⟨⟨⟨sessions, agents⟩, audits⟩, queue⟩ := none
  apply active
  simp only [times, seen, events, sessions, agents, audits, queue, List.filterMap_nil, List.append_nil, List.map_nil]

theorem mem_shownIds : agentId ∈ shownIds getTime inputs ↔ Shown getTime inputs agentId := by
  rw [shownIds, List.mem_filter, decide_eq_true_eq]
  refine ⟨And.right, fun shown => ⟨?_, shown⟩⟩
  obtain ⟨⟨ms, member, _⟩, _⟩ := shown
  exact mem_keys_of_times (List.ne_nil_of_mem member)

theorem nodup_shownIds : (shownIds getTime inputs).Nodup :=
  nodup_keys.filter _

theorem lanes_perm (lanes : List Lane) : (board lanes).lanes.Perm lanes :=
  flatMap_arrange_perm

theorem count_foldl (totals : BoardTotals) (lanes : List Lane) (state : LaneState) :
    (lanes.foldl BoardTotals.add totals).count state = totals.count state + lanes.countP (·.state = state) := by
  induction lanes generalizing totals with
  | nil => rfl
  | cons lane lanes ih =>
    rw [List.foldl_cons, ih, List.countP_cons]
    obtain ⟨_, _, _, own⟩ := lane
    cases own <;> cases state <;> simp [BoardTotals.add, BoardTotals.count] <;> omega

end Liveness
end Wisphive
