import Wisphive.Proofs.Liveness

/-! What the order of the rows decides on the liveness board, and when the board is right. -/

namespace Wisphive
open Foundation Grouping Page

namespace Liveness

/-! ### Sources -/

section
variable {Value : Type} [DecidableEq Value] {list : List Value} {sources others : List (List Value)}
  {value value' : Option Value}

theorem deciding_cons : deciding (list :: sources) = if list = [] then deciding sources else list := by
  rw [deciding, List.find?_cons]
  by_cases none : list = [] <;> simp [none, deciding]

theorem deciding_perm (perms : List.Forall₂ List.Perm sources others) : (deciding sources).Perm (deciding others) := by
  induction perms with
  | nil => exact .refl _
  | @cons first second _ _ perm _ ih =>
    have empty : first = [] ↔ second = [] := by
      rw [← List.perm_nil, ← List.perm_nil, perm.congr_left]
    rw [deciding_cons, deciding_cons]
    simp only [empty]
    split
    next => exact ih
    next => exact perm

/-- A value of the first source that says something, if one does. -/
structure Picks (sources : List (List Value)) (value : Option Value) : Prop where
  mem : ∀ found, value = some found → found ∈ deciding sources
  empty : value = none → deciding sources = []

theorem picks_nil : Picks ([] : List (List Value)) none :=
  ⟨fun _ found => (nomatch found), fun _ => rfl⟩

theorem Picks.cons {first : Option Value} (picks : Picks sources value) (mem : ∀ found, first = some found → found ∈ list)
    (empty : first = none → list = []) : Picks (list :: sources) (first.or value) := by
  cases first with
  | none =>
    constructor
    · rw [deciding_cons, if_pos (empty rfl)]
      exact picks.mem
    · rw [deciding_cons, if_pos (empty rfl)]
      exact picks.empty
  | some found =>
    have inside := mem found rfl
    rw [Option.some_or]
    constructor
    · intro other same
      cases same
      rwa [deciding_cons, if_neg (List.ne_nil_of_mem inside)]
    · exact fun none => (nomatch none)

/-- Where the sources agree, their order has no meaning. -/
theorem Picks.unique (picks : Picks sources value) (picks' : Picks others value') (agrees : Agrees sources)
    (perm : (deciding sources).Perm (deciding others)) : value = value' := by
  cases value with
  | none =>
    cases value' with
    | none => rfl
    | some found =>
      have inside := perm.mem_iff.mpr (picks'.mem found rfl)
      rw [picks.empty rfl] at inside
      cases inside
  | some found =>
    have inside := picks.mem found rfl
    cases value' with
    | none =>
      rw [perm.mem_iff, picks'.empty rfl] at inside
      cases inside
    | some other => rw [agrees found inside other (perm.mem_iff.mpr (picks'.mem other rfl))]

theorem Picks.head (agrees : Agrees sources) (picks : Picks sources value) : value = (deciding sources).head? := by
  have first : Picks sources (deciding sources).head? :=
    ⟨fun _ found => List.mem_of_head? found, List.head?_eq_none_iff.mp⟩
  exact picks.unique first agrees (.refl _)

end

variable {getTime : String → Option Int} {inputs others : BoardInputs} {agentId : String}

theorem picks_last {Value : Type} [DecidableEq Value] {list : List Value} {sources : List (List Value)}
    {value : Option Value} (picks : Picks sources value) : Picks (list :: sources) (list.getLast?.or value) :=
  picks.cons (fun _ => List.mem_of_getLast?) List.getLast?_eq_none_iff.mp

theorem picks_head {Value : Type} [DecidableEq Value] {list : List Value} {sources : List (List Value)}
    {value : Option Value} (picks : Picks sources value) : Picks (list :: sources) (list.head?.or value) :=
  picks.cons (fun _ => List.mem_of_head?) List.head?_eq_none_iff.mp

theorem project_picks : Picks (projectSources inputs agentId) (draftOf getTime (inputs.rows agentId)).project := by
  have picks := @picks_nil String _
  rw [draftOf_eq, projectSources]
  simp only [Option.or_assoc]
  rw [← Option.or_none (o := ((inputs.rows agentId).queue.map _).head?)]
  exact picks_last (picks_head (picks_head (picks_head picks)))

theorem agentType_picks : Picks (typeSources inputs agentId) (draftOf getTime (inputs.rows agentId)).agentType := by
  have picks := @picks_nil AgentType _
  rw [draftOf_eq, typeSources]
  simp only [Option.or_assoc]
  rw [← Option.or_none (o := ((inputs.rows agentId).queue.map _).head?)]
  exact picks_last (picks_head (picks_head picks))

theorem projectOf_eq (agrees : Agrees (projectSources inputs agentId)) :
    (laneOf getTime inputs agentId).project = projectOf inputs agentId := by
  rw [projectOf, ← (@project_picks getTime inputs agentId).head agrees]
  rfl

/-! ### Reordered rows -/

theorem Reordered.rows (reordered : Reordered inputs others) (agentId : String) :
    Reordered (inputs.rows agentId) (others.rows agentId) where
  sessions := reordered.sessions.filter _
  agents := reordered.agents.filter _
  queue := reordered.queue.filter _
  auditDecisions := reordered.auditDecisions.filter _
  endedAgentIds := reordered.endedAgentIds
  nowMs := reordered.nowMs

theorem all_perm (reordered : Reordered inputs others) : inputs.all.Perm others.all :=
  (((reordered.sessions.map _).append (reordered.agents.map _)).append (reordered.auditDecisions.map _)).append
    (reordered.queue.map _)

variable (getTime agentId)

theorem stamps_perm (reordered : Reordered inputs others) :
    (stamps getTime inputs agentId).Perm (stamps getTime others agentId) :=
  ((reordered.rows agentId).auditDecisions.map _).append ((reordered.rows agentId).queue.map _)

theorem events_perm (reordered : Reordered inputs others) :
    (events getTime inputs agentId).Perm (events getTime others agentId) :=
  ((reordered.rows agentId).auditDecisions.filterMap _).append ((reordered.rows agentId).queue.filterMap _)

theorem seen_perm (reordered : Reordered inputs others) :
    (seen getTime inputs agentId).Perm (seen getTime others agentId) :=
  ((reordered.rows agentId).sessions.filterMap _).append ((reordered.rows agentId).agents.filterMap _)

theorem times_perm (reordered : Reordered inputs others) :
    (times getTime inputs agentId).Perm (times getTime others agentId) :=
  (seen_perm getTime agentId reordered).append ((events_perm getTime agentId reordered).map _)

theorem prompts_perm (reordered : Reordered inputs others) : (prompts inputs agentId).Perm (prompts others agentId) := by
  rw [prompts, prompts]
  simp only [reordered.endedAgentIds.mem_iff]
  split
  next => exact .refl _
  next => exact (reordered.rows agentId).auditDecisions.filter _

theorem blockers_perm (reordered : Reordered inputs others) :
    (blockers getTime inputs agentId).Perm (blockers getTime others agentId) := by
  rw [blockers_eq, blockers_eq]
  exact ((reordered.rows agentId).queue.map _).append ((prompts_perm agentId reordered).map _)

variable {getTime agentId}

theorem Timely.reordered (timely : Timely getTime inputs agentId) (reordered : Reordered inputs others) :
    Timely getTime others agentId where
  readable := (stamps_perm getTime agentId reordered).mem_iff.not.mp timely.readable
  distinct := (stamps_perm getTime agentId reordered).nodup_iff.mp timely.distinct

variable (getTime agentId)

theorem newestMs_perm (reordered : Reordered inputs others) :
    newestMs getTime others agentId = newestMs getTime inputs agentId :=
  ((times_perm getTime agentId reordered).foldl_eq 0).symm

theorem silent_perm (reordered : Reordered inputs others) (limit : Int) :
    Silent getTime others agentId limit ↔ Silent getTime inputs agentId limit := by
  have perm := times_perm getTime agentId reordered
  simp only [Silent, perm.mem_iff, reordered.nowMs]

theorem blockers_nil_perm (reordered : Reordered inputs others) :
    blockers getTime others agentId = [] ↔ blockers getTime inputs agentId = [] := by
  rw [← List.perm_nil, ← List.perm_nil, (blockers_perm getTime agentId reordered).congr_left]

theorem shown_perm (reordered : Reordered inputs others) : Shown getTime others agentId ↔ Shown getTime inputs agentId := by
  have perm := times_perm getTime agentId reordered
  simp only [Shown, AgedOut, perm.mem_iff, silent_perm getTime agentId reordered,
    blockers_nil_perm getTime agentId reordered]

theorem projectSources_perm (reordered : Reordered inputs others) :
    (deciding (projectSources inputs agentId)).Perm (deciding (projectSources others agentId)) := by
  have rows := reordered.rows agentId
  exact deciding_perm (.cons ((rows.agents.map _).filter _) (.cons (rows.sessions.map _)
    (.cons (rows.auditDecisions.map _) (.cons (rows.queue.map _) .nil))))

theorem typeSources_perm (reordered : Reordered inputs others) :
    (deciding (typeSources inputs agentId)).Perm (deciding (typeSources others agentId)) := by
  have rows := reordered.rows agentId
  exact deciding_perm (.cons (rows.agents.map _) (.cons (rows.sessions.filterMap _) (.cons (rows.queue.map _) .nil)))

variable {getTime agentId}

/-! ### Lanes of reordered rows -/

theorem oldest_unique {all all' : List Blocker} {blocker blocker' : Blocker} (perm : all.Perm all')
    (distinct : (all.map (·.sinceMs)).Nodup) (oldest : Oldest all blocker) (oldest' : Oldest all' blocker') :
    blocker = blocker' := by
  obtain ⟨member, ms, eq, least⟩ := oldest
  obtain ⟨member', ms', eq', least'⟩ := oldest'
  obtain ⟨later, found, low⟩ := least blocker' (perm.mem_iff.mpr member')
  obtain ⟨later', found', low'⟩ := least' blocker (perm.mem_iff.mp member)
  rw [eq'] at found
  rw [eq] at found'
  cases found
  cases found'
  refine List.inj_on_of_nodup_map distinct member (perm.mem_iff.mpr member') ?_
  rw [eq, eq', Int.le_antisymm low low']

theorem nodup_blockers (timely : Timely getTime inputs agentId) :
    ((blockers getTime inputs agentId).map (·.sinceMs)).Nodup := by
  have swapped : ((inputs.rows agentId).queue.map (getTime ·.timestamp) ++
      (inputs.rows agentId).auditDecisions.map (getTime ·.ts)).Nodup :=
    List.perm_append_comm.nodup_iff.mp timely.distinct
  rw [blockers_eq, List.map_append, List.map_map, List.map_map]
  refine swapped.sublist ((List.Sublist.refl _).append (List.Sublist.map _ ?_))
  rw [prompts]
  split
  next => exact List.nil_sublist _
  next => exact List.filter_sublist

theorem blockerOf_perm (timely : Timely getTime inputs agentId) (reordered : Reordered inputs others) :
    blockerOf getTime others agentId = blockerOf getTime inputs agentId := by
  have perm := blockers_perm getTime agentId reordered
  rcases (blockerOf_spec timely).2 with ⟨empty, eq⟩ | ⟨blocker, oldest, eq⟩ <;>
    rcases (blockerOf_spec (timely.reordered reordered)).2 with ⟨empty', eq'⟩ | ⟨blocker', oldest', eq'⟩
  · rw [eq, eq']
  · rw [empty, List.nil_perm] at perm
    rw [perm] at oldest'
    cases oldest'.1
  · rw [empty', List.perm_nil] at perm
    rw [perm] at oldest
    cases oldest.1
  · rw [eq, eq', oldest_unique perm (nodup_blockers timely) oldest oldest']

theorem noted_perm {state : Int × Option String} {list list' : List (Int × String)} (perm : list.Perm list')
    (distinct : (list.map Prod.fst).Nodup) : list'.foldl noted state = list.foldl noted state := by
  by_cases old : ∀ event ∈ list, event.1 < state.1
  · rw [noted_old old, noted_old fun event member => old event (perm.mem_iff.mpr member)]
  · obtain ⟨event, held⟩ := not_forall.mp old
    obtain ⟨member, reached⟩ := Classical.not_imp.mp held
    obtain ⟨newest, inside, latest⟩ := exists_latest (List.ne_nil_of_mem member)
    have low := Int.le_trans (Int.not_lt.mp reached) (latest event member)
    rw [noted_latest distinct inside latest low, noted_latest ((perm.map _).nodup_iff.mp distinct) (perm.mem_iff.mp inside)
      (fun other held => latest other (perm.mem_iff.mpr held)) low]

theorem lastToolName_perm (timely : Timely getTime inputs agentId) (reordered : Reordered inputs others) :
    (draftOf getTime (others.rows agentId)).lastToolName = (draftOf getTime (inputs.rows agentId)).lastToolName := by
  have start : (seen getTime others agentId).foldl max 0 = (seen getTime inputs agentId).foldl max 0 :=
    ((seen_perm getTime agentId reordered).foldl_eq 0).symm
  simp only [draftOf_eq, start]
  rw [noted_perm (events_perm getTime agentId reordered) (nodup_events timely)]

variable (getTime agentId) in
theorem counts_perm (reordered : Reordered inputs others) :
    (draftOf getTime (others.rows agentId)).taskSpawns = (draftOf getTime (inputs.rows agentId)).taskSpawns ∧
      (draftOf getTime (others.rows agentId)).subagentStops = (draftOf getTime (inputs.rows agentId)).subagentStops ∧
      (draftOf getTime (others.rows agentId)).sessionPendingCount =
        (draftOf getTime (inputs.rows agentId)).sessionPendingCount ∧
      (draftOf getTime (others.rows agentId)).pending.length = (draftOf getTime (inputs.rows agentId)).pending.length := by
  have rows := reordered.rows agentId
  simp only [draftOf_eq]
  refine ⟨(rows.auditDecisions.countP_eq _).symm, (rows.auditDecisions.countP_eq _).symm, ?_, rows.queue.length_eq.symm⟩
  exact ((rows.sessions.map _).foldl_eq 0).symm

variable (getTime agentId) in
theorem isLive_perm (reordered : Reordered inputs others) :
    (draftOf getTime (others.rows agentId)).isLive = (draftOf getTime (inputs.rows agentId)).isLive := by
  have rows := reordered.rows agentId
  simp only [draftOf_eq]
  rw [rows.sessions.any_eq, rows.agents.isEmpty_eq]

/-- Where the sources agree, the lane of an agent does not depend on the order of its rows. -/
theorem laneOf_perm (timely : Timely getTime inputs agentId) (reordered : Reordered inputs others)
    (project : Agrees (projectSources inputs agentId)) (agentType : Agrees (typeSources inputs agentId)) :
    laneOf getTime others agentId = laneOf getTime inputs agentId := by
  have sameProject := (@project_picks getTime inputs agentId).unique (@project_picks getTime others agentId) project
    (projectSources_perm agentId reordered)
  have sameType := (@agentType_picks getTime inputs agentId).unique (@agentType_picks getTime others agentId) agentType
    (typeSources_perm agentId reordered)
  obtain ⟨spawns, stops, sessions, pending⟩ := counts_perm getTime agentId reordered
  simp only [laneOf, silentForMs, ← sameProject, ← sameType, spawns, stops, sessions, pending,
    newestMs_perm getTime agentId reordered, blockerOf_perm timely reordered, lastToolName_perm timely reordered,
    isLive_perm getTime agentId reordered, reordered.nowMs, reordered.endedAgentIds.mem_iff]

/-! ### Where agents come up -/

theorem staged_all : Staged Row.stage inputs.all := by
  have same {Item : Type} (wrap : Item → Row) (stage : Nat) (held : ∀ item, (wrap item).stage = stage) (list : List Item) :
      Staged Row.stage (list.map wrap) := by
    refine List.pairwise_map.mpr (List.pairwise_of_forall fun first second => ?_)
    rw [held, held]
  rw [BoardInputs.all, Staged]
  refine List.pairwise_append.mpr ⟨List.pairwise_append.mpr ⟨List.pairwise_append.mpr ⟨?_, ?_, ?_⟩, ?_, ?_⟩, ?_, ?_⟩
  · exact same .session 0 (fun _ => rfl) _
  · exact same .agent 1 (fun _ => rfl) _
  · simp [Row.stage]
  · exact same .audit 2 (fun _ => rfl) _
  · simp [Row.stage, or_imp, forall_and]
  · exact same .item 3 (fun _ => rfl) _
  · simp [Row.stage, or_imp, forall_and]

@[simp] theorem session_mem_all {session : SessionSummary} : .session session ∈ inputs.all ↔ session ∈ inputs.sessions := by
  simp [BoardInputs.all]

@[simp] theorem agent_mem_all {agent : AgentInfo} : .agent agent ∈ inputs.all ↔ agent ∈ inputs.agents := by
  simp [BoardInputs.all]

@[simp] theorem audit_mem_all {audit : Page.AuditDecision} : .audit audit ∈ inputs.all ↔ audit ∈ inputs.auditDecisions := by
  simp [BoardInputs.all]

@[simp] theorem item_mem_all {item : Page.DecisionRequest} : .item item ∈ inputs.all ↔ item ∈ inputs.queue := by
  simp [BoardInputs.all]

variable {among : String → Bool}

theorem listing_le {row : Row} (member : row ∈ inputs.all) (held : among row.agentId = true) :
    listing inputs among ≤ row.stage := by
  rw [listing]
  cases row with
  | session session =>
    rw [if_pos (List.any_eq_true.mpr ⟨session, session_mem_all.mp member, held⟩)]
    exact Nat.zero_le _
  | agent agent =>
    rw [if_pos (List.any_eq_true.mpr ⟨agent, agent_mem_all.mp member, held⟩)]
    split <;> simp [Row.stage]
  | audit audit =>
    rw [if_pos (List.any_eq_true.mpr ⟨audit, audit_mem_all.mp member, held⟩)]
    split_ifs <;> simp [Row.stage]
  | item item =>
    split_ifs <;> simp [Row.stage]

theorem exists_listing {row : Row} (member : row ∈ inputs.all) (held : among row.agentId = true) :
    ∃ first ∈ inputs.all, among first.agentId = true ∧ first.stage = listing inputs among := by
  rw [listing]
  split_ifs with sessions agents audits
  · obtain ⟨session, inside, found⟩ := List.any_eq_true.mp sessions
    exact ⟨.session session, session_mem_all.mpr inside, found, rfl⟩
  · obtain ⟨agent, inside, found⟩ := List.any_eq_true.mp agents
    exact ⟨.agent agent, agent_mem_all.mpr inside, found, rfl⟩
  · obtain ⟨audit, inside, found⟩ := List.any_eq_true.mp audits
    exact ⟨.audit audit, audit_mem_all.mpr inside, found, rfl⟩
  · cases row with
    | session session => exact absurd (List.any_eq_true.mpr ⟨session, session_mem_all.mp member, held⟩) sessions
    | agent agent => exact absurd (List.any_eq_true.mpr ⟨agent, agent_mem_all.mp member, held⟩) agents
    | audit audit => exact absurd (List.any_eq_true.mpr ⟨audit, audit_mem_all.mp member, held⟩) audits
    | item item => exact ⟨.item item, member, held, rfl⟩

theorem listing_perm (reordered : Reordered inputs others) : listing others among = listing inputs among := by
  rw [listing, listing, reordered.sessions.any_eq, reordered.agents.any_eq, reordered.auditDecisions.any_eq]

/-- The list in which an agent first comes up. -/
abbrev place (inputs : BoardInputs) (agentId : String) : Nat :=
  listing inputs (· = agentId)

theorem debuts_all : Debuts Row.agentId Row.stage inputs.all (place inputs) := by
  intro row member
  have own : decide (row.agentId = row.agentId) = true := decide_eq_true rfl
  refine ⟨listing_le member own, ?_⟩
  obtain ⟨first, inside, same, eq⟩ := @exists_listing inputs (· = row.agentId) row member own
  exact ⟨first, inside, of_decide_eq_true same, eq⟩

variable (getTime inputs) in
/-- The lanes, as the agents come up. -/
def shownLanes : List Lane :=
  (shownIds getTime inputs).map (laneOf getTime inputs)

theorem mem_shownLanes {lane : Lane} : lane ∈ shownLanes getTime inputs ↔
    ∃ agentId, Shown getTime inputs agentId ∧ laneOf getTime inputs agentId = lane := by
  simp only [shownLanes, List.mem_map, mem_shownIds]

theorem nodup_shownLanes : (shownLanes getTime inputs).Nodup :=
  nodup_shownIds.map_on fun _ _ _ _ same => congrArg Lane.agentId same

theorem staged_lanes : Staged (fun lane => place inputs lane.agentId) (shownLanes getTime inputs) :=
  List.pairwise_map.mpr ((keys_staged staged_all debuts_all).filter _)

theorem row_of_shown (shown : Shown getTime inputs agentId) :
    ∃ row ∈ inputs.all, row.agentId = agentId ∧ row.stage = place inputs agentId := by
  have known := (List.mem_filter.mp (mem_shownIds.mpr shown)).1
  obtain ⟨row, member, rfl⟩ := List.mem_map.mp (mem_keys.mp known)
  exact (debuts_all row member).2

theorem debut_le (shown : Shown getTime inputs agentId) :
    debut getTime inputs (projectOf inputs agentId) ≤ place inputs agentId := by
  obtain ⟨row, member, rfl, eq⟩ := row_of_shown shown
  rw [← eq]
  exact listing_le member (decide_eq_true ⟨shown, rfl⟩)

/-- The agent with which a project comes up. -/
theorem exists_debut (shown : Shown getTime inputs agentId) :
    ∃ first, Shown getTime inputs first ∧ projectOf inputs first = projectOf inputs agentId ∧
      place inputs first = debut getTime inputs (projectOf inputs agentId) := by
  obtain ⟨row, member, rfl, _⟩ := row_of_shown shown
  obtain ⟨first, inside, held, eq⟩ := @exists_listing inputs
    (fun other => Shown getTime inputs other ∧ projectOf inputs other = projectOf inputs row.agentId) row member
    (decide_eq_true ⟨shown, rfl⟩)
  obtain ⟨visible, same⟩ := of_decide_eq_true held
  refine ⟨first.agentId, visible, same, Nat.le_antisymm ?_ (same ▸ debut_le visible)⟩
  rw [debut, ← eq]
  exact listing_le inside (decide_eq_true rfl)

theorem debuts_lanes (agrees : ∀ agentId, Shown getTime inputs agentId → Agrees (projectSources inputs agentId)) :
    Debuts (·.project) (fun lane => place inputs lane.agentId) (shownLanes getTime inputs) (debut getTime inputs) := by
  intro lane member
  obtain ⟨agentId, shown, rfl⟩ := mem_shownLanes.mp member
  obtain ⟨first, visible, same, eq⟩ := exists_debut shown
  simp only [projectOf_eq (agrees agentId shown)]
  refine ⟨debut_le shown, laneOf getTime inputs first, mem_shownLanes.mpr ⟨first, visible, rfl⟩, ?_, eq⟩
  rw [projectOf_eq (agrees first visible), same]

/-! ### Boards of reordered rows -/

theorem ranks_louder : Ranks louder := by
  constructor
  · intro a b c first second
    simp only [louder, Bool.or_eq_true, Bool.and_eq_true, decide_eq_true_eq] at first second ⊢
    omega
  · intro a b
    simp only [louder, Bool.or_eq_true, Bool.and_eq_true, decide_eq_true_eq]
    omega

theorem stateRank_inj {state state' : LaneState} (same : stateRank state = stateRank state') : state = state' := by
  cases state <;> cases state' <;> first | rfl | cases same

/-- The states are those of the agents, and the sources agree. -/
structure Regular (getTime : String → Option Int) (inputs : BoardInputs) : Prop where
  timely : ∀ agentId, Timely getTime inputs agentId
  unseen : ∀ agentId, Shown getTime inputs agentId → Unseen getTime inputs agentId
  project : ∀ agentId, Shown getTime inputs agentId → Agrees (projectSources inputs agentId)
  agentType : ∀ agentId, Shown getTime inputs agentId → Agrees (typeSources inputs agentId)

namespace Regular
variable {first second : String}

theorem state (regular : Regular getTime inputs) (shown : Shown getTime inputs agentId) :
    (laneOf getTime inputs agentId).state = verdict getTime inputs agentId :=
  (state_iff (regular.timely agentId) shown.1).mpr (regular.unseen agentId shown)

theorem louder_iff (regular : Regular getTime inputs) (shown : Shown getTime inputs first)
    (shown' : Shown getTime inputs second) :
    louder (laneOf getTime inputs first) (laneOf getTime inputs second) = true ↔ Louder getTime inputs first second := by
  simp only [louder, regular.state shown, regular.state shown', Bool.or_eq_true, Bool.and_eq_true, decide_eq_true_eq]
  rfl

theorem level_iff (regular : Regular getTime inputs) (shown : Shown getTime inputs first)
    (shown' : Shown getTime inputs second) :
    louder (laneOf getTime inputs first) (laneOf getTime inputs second) = true ∧
        louder (laneOf getTime inputs second) (laneOf getTime inputs first) = true ↔
      Level getTime inputs first second := by
  rw [regular.louder_iff shown shown', regular.louder_iff shown' shown, Louder, Louder, Level]
  constructor
  · rintro ⟨forth, back⟩
    exact ⟨stateRank_inj (by omega), by omega⟩
  · rintro ⟨state, newest⟩
    rw [state, newest]
    omega

theorem projectOf_eq (regular : Regular getTime inputs) (shown : Shown getTime inputs agentId) :
    (laneOf getTime inputs agentId).project = projectOf inputs agentId :=
  Liveness.projectOf_eq (regular.project agentId shown)

theorem laneOf_eq (regular : Regular getTime inputs) (reordered : Reordered inputs others)
    (shown : Shown getTime inputs agentId) : laneOf getTime others agentId = laneOf getTime inputs agentId :=
  laneOf_perm (regular.timely agentId) reordered (regular.project agentId shown) (regular.agentType agentId shown)

theorem shownLanes_eq (regular : Regular getTime inputs) (reordered : Reordered inputs others) :
    shownLanes getTime others = (shownIds getTime others).map (laneOf getTime inputs) := by
  refine List.map_congr_left fun agentId member => regular.laneOf_eq reordered ?_
  exact (shown_perm getTime agentId reordered).mp (mem_shownIds.mp member)

theorem shownLanes_perm (regular : Regular getTime inputs) (reordered : Reordered inputs others) :
    (shownLanes getTime inputs).Perm (shownLanes getTime others) := by
  rw [regular.shownLanes_eq reordered, shownLanes, shownIds, shownIds]
  simp only [shown_perm getTime _ reordered]
  exact ((keys_perm (all_perm reordered)).filter _).map _

theorem staged (reordered : Reordered inputs others) :
    Staged (fun lane => place inputs lane.agentId) (shownLanes getTime others) := by
  have held := @staged_lanes getTime others
  simpa only [listing_perm reordered] using held

/-- A lane leads its project if its agent does. -/
theorem leads_iff (regular : Regular getTime inputs) (shown : Shown getTime inputs agentId) :
    Leads (·.project) louder (shownLanes getTime inputs) (laneOf getTime inputs agentId) ↔ Heads getTime inputs agentId := by
  constructor
  · intro leads
    refine ⟨shown, fun other visible same => ?_⟩
    rw [← regular.louder_iff shown visible]
    refine leads.2 _ (mem_shownLanes.mpr ⟨other, visible, rfl⟩) ?_
    dsimp only
    rw [regular.projectOf_eq shown, regular.projectOf_eq visible, same]
  · intro heads
    refine ⟨mem_shownLanes.mpr ⟨agentId, shown, rfl⟩, fun lane member same => ?_⟩
    obtain ⟨other, visible, rfl⟩ := mem_shownLanes.mp member
    dsimp only at same
    rw [regular.projectOf_eq shown, regular.projectOf_eq visible] at same
    exact (regular.louder_iff shown visible).mpr (heads.2 other visible same)

end Regular

theorem Settled.regular (settled : Settled getTime inputs) (timely : ∀ agentId, Timely getTime inputs agentId) :
    Regular getTime inputs :=
  ⟨timely, settled.ended, settled.project, settled.agentType⟩

theorem totals_ext {totals totals' : BoardTotals} (same : ∀ state, totals.count state = totals'.count state) :
    totals = totals' := by
  have working := same .working
  have waiting := same .waiting
  have stalled := same .stalled
  have done := same .done
  cases totals
  cases totals'
  simp only [BoardTotals.count] at working waiting stalled done
  rw [working, waiting, stalled, done]

theorem count_board (lanes : List Lane) (state : LaneState) :
    (board lanes).totals.count state = lanes.countP (·.state = state) := by
  rw [board, count_foldl]
  cases state <;> exact Nat.zero_add _

/-- Where neither lanes nor projects of one list are level, the order of the rows has no meaning. -/
theorem Settled.stable (settled : Settled getTime inputs) (timely : ∀ agentId, Timely getTime inputs agentId)
    (reordered : Reordered inputs others) :
    board (shownLanes getTime others) = board (shownLanes getTime inputs) := by
  have regular := settled.regular timely
  have perm := regular.shownLanes_perm reordered
  have projects : Grouping.arrange (·.project) louder (shownLanes getTime inputs) =
      Grouping.arrange (·.project) louder (shownLanes getTime others) := by
    refine arrange_eq ranks_louder nodup_shownLanes perm staged_lanes (Regular.staged reordered)
      (debuts_lanes regular.project) ?_ ?_
    · intro a member b member' project forth back same
      obtain ⟨first, shown, rfl⟩ := mem_shownLanes.mp member
      obtain ⟨second, shown', rfl⟩ := mem_shownLanes.mp member'
      rw [regular.projectOf_eq shown, regular.projectOf_eq shown'] at project
      have level := (regular.level_iff shown shown').mp ⟨forth, back⟩
      rw [settled.lanes first second shown shown' project level same]
    · intro a b leads leads' forth back same
      obtain ⟨first, shown, rfl⟩ := mem_shownLanes.mp leads.1
      obtain ⟨second, shown', rfl⟩ := mem_shownLanes.mp leads'.1
      have level := (regular.level_iff shown shown').mp ⟨forth, back⟩
      rw [regular.projectOf_eq shown, regular.projectOf_eq shown'] at same ⊢
      exact settled.projects first second ((regular.leads_iff shown).mp leads) ((regular.leads_iff shown').mp leads')
        level same
  have totals : (board (shownLanes getTime others)).totals = (board (shownLanes getTime inputs)).totals := by
    refine totals_ext fun state => ?_
    rw [count_board, count_board, perm.countP_eq]
  rw [board, board, ← projects]
  exact congrArg (BoardModel.mk _) totals

end Liveness
end Wisphive
