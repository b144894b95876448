import Wisphive.Proofs.LivenessOrder

/-! When the liveness board is right: from the rows to the board, and back from the board by rows
that are brought to the front. -/

namespace Wisphive
open Foundation Grouping Page

namespace Liveness
variable {getTime : String → Option Int} {inputs others : BoardInputs} {agentId : String} {model : BoardModel}

/-! ### From the rows to the board -/

theorem mem_lanes {lane : Lane} : lane ∈ (board (shownLanes getTime inputs)).lanes ↔
    ∃ agentId, Shown getTime inputs agentId ∧ laneOf getTime inputs agentId = lane :=
  (lanes_perm _).mem_iff.trans mem_shownLanes

theorem ids_perm : ((board (shownLanes getTime inputs)).lanes.map (·.agentId)).Perm (shownIds getTime inputs) := by
  refine ((lanes_perm _).map _).trans (.of_eq ?_)
  rw [shownLanes, List.map_map]
  exact List.map_id _

theorem aged_of_hidden (settled : Settled getTime inputs) (active : times getTime inputs agentId ≠ [])
    (hidden : ¬Shown getTime inputs agentId) : AgedOut getTime inputs agentId := by
  rcases settled.modern agentId active with pos | aged
  · exact not_not.mp fun fresh => hidden ⟨pos, fresh⟩
  · exact aged

theorem Settled.truthful (settled : Settled getTime inputs) (timely : ∀ agentId, Timely getTime inputs agentId) :
    Truthful getTime inputs (board (shownLanes getTime inputs)) := by
  have regular := settled.regular timely
  constructor
  · exact deriveBoard_eq timely
  · intro lane member
    obtain ⟨agentId, shown, rfl⟩ := mem_lanes.mp member
    exact ⟨regular.state shown, target_of_waiting (timely agentId)⟩
  · intro agentId active
    rw [ids_perm.count_eq, ids_perm.mem_iff]
    by_cases shown : Shown getTime inputs agentId
    · exact .inl (List.count_eq_one_of_mem nodup_shownIds (mem_shownIds.mpr shown))
    · exact .inr ⟨aged_of_hidden settled active shown, fun member => shown (mem_shownIds.mp member)⟩
  · intro state
    rw [count_board, (lanes_perm _).countP_eq]
  · intro others reordered
    rw [deriveBoard_eq fun agentId => (timely agentId).reordered reordered]
    exact congrArg some (settled.stable timely reordered)

/-! ### Favored rows -/

/-- Some sessions, audit rows and items in front of the others, and some agents behind them. -/
def BoardInputs.favor (inputs : BoardInputs) (session : SessionSummary → Bool) (agent : AgentInfo → Bool)
    (audit : Page.AuditDecision → Bool) (item : Page.DecisionRequest → Bool) : BoardInputs :=
  { inputs with
    sessions := inputs.sessions.filter session ++ inputs.sessions.filter (!session ·)
    agents := inputs.agents.filter (!agent ·) ++ inputs.agents.filter agent
    auditDecisions := inputs.auditDecisions.filter audit ++ inputs.auditDecisions.filter (!audit ·)
    queue := inputs.queue.filter item ++ inputs.queue.filter (!item ·) }

section
variable {session : SessionSummary → Bool} {agent : AgentInfo → Bool} {audit : Page.AuditDecision → Bool}
  {item : Page.DecisionRequest → Bool}

theorem reordered_favor : Reordered inputs (inputs.favor session agent audit item) where
  sessions := (List.filter_append_perm _ _).symm
  agents := (List.perm_append_comm.trans (List.filter_append_perm _ _)).symm
  queue := (List.filter_append_perm _ _).symm
  auditDecisions := (List.filter_append_perm _ _).symm
  endedAgentIds := .refl _
  nowMs := rfl

theorem rows_favor : (inputs.favor session agent audit item).rows agentId =
    (inputs.rows agentId).favor session agent audit item := by
  simp only [BoardInputs.favor, BoardInputs.rows, List.filter_append, List.filter_filter, Bool.and_comm]

end

section
variable {Item Value : Type} {keeps : Item → Bool} {read : Item → Option Value} {value : Value} {list : List Item}

theorem head_favored (uniform : ∀ item, keeps item = true → read item = some value)
    (held : ∃ item ∈ list, keeps item = true) :
    ((list.filter keeps ++ list.filter (!keeps ·)).filterMap read).head? = some value := by
  obtain ⟨item, member, kept⟩ := held
  obtain ⟨first, rest, eq⟩ := List.exists_cons_of_ne_nil (List.ne_nil_of_mem (List.mem_filter.mpr ⟨member, kept⟩))
  have own : keeps first = true := (List.mem_filter.mp (eq ▸ List.mem_cons_self .. : first ∈ list.filter keeps)).2
  rw [eq, List.cons_append, List.filterMap_cons_some (uniform first own), List.head?_cons]

theorem last_favored (uniform : ∀ item, keeps item = true → read item = some value)
    (held : ∃ item ∈ list, keeps item = true) :
    ((list.filter (!keeps ·) ++ list.filter keeps).filterMap read).getLast? = some value := by
  rw [List.getLast?_eq_head?_reverse, ← List.filterMap_reverse, List.reverse_append, ← List.filter_reverse,
    ← List.filter_reverse]
  exact head_favored uniform (by simpa using held)

variable [DecidableEq Value] {names : List Value} {sources : List (List Value)} {first rest : Option Value}

theorem decided (empty : names = [] → first = none) (here : value ∈ names → first = some value)
    (later : value ∈ deciding sources → rest = some value) (member : value ∈ deciding (names :: sources)) :
    first.or rest = some value := by
  rw [deciding_cons] at member
  split at member
  next none => rw [empty none, Option.none_or, later member]
  next => rw [here member, Option.some_or]

end

/-- Bring a project to the front. -/
def favorProject (inputs : BoardInputs) (project : String) : BoardInputs :=
  inputs.favor (·.project = project) (·.project = project) (·.project = project) (·.project = project)

/-- Bring a type to the front. -/
def favorType (inputs : BoardInputs) (agentType : AgentType) : BoardInputs :=
  inputs.favor (knownAgentType ·.agentType = some agentType) (·.agentType = agentType) (fun _ => true)
    (·.agentType = agentType)

section
variable {Item Value : Type} [DecidableEq Value] {list : List Item} {nameOf : Item → Value} {name : Value}

theorem head_named (inside : name ∈ list.map nameOf) :
    ((list.filter (nameOf · = name) ++ list.filter fun item => !decide (nameOf item = name)).map nameOf).head? =
      some name := by
  obtain ⟨item, held, named⟩ := List.mem_map.mp inside
  rw [← List.filterMap_eq_map]
  refine head_favored (fun item kept => ?_) ⟨item, held, decide_eq_true named⟩
  exact congrArg some (of_decide_eq_true kept)

theorem last_named (inside : name ∈ list.map nameOf) :
    (((list.filter fun item => !decide (nameOf item = name)) ++ list.filter (nameOf · = name)).map nameOf).getLast? =
      some name := by
  obtain ⟨item, held, named⟩ := List.mem_map.mp inside
  rw [← List.filterMap_eq_map]
  refine last_favored (fun item kept => ?_) ⟨item, held, decide_eq_true named⟩
  exact congrArg some (of_decide_eq_true kept)

end

theorem project_favored {project : String} (member : project ∈ deciding (projectSources inputs agentId)) :
    (draftOf getTime ((favorProject inputs project).rows agentId)).project = some project := by
  rw [projectSources] at member
  rw [draftOf_eq, favorProject]
  simp only [rows_favor, Option.or_assoc]
  generalize inputs.rows agentId = rows at member
  simp only [BoardInputs.favor]
  refine decided (fun none => ?_) (fun here => ?_)
    (decided (fun none => ?_) head_named (decided (fun none => ?_) head_named fun last => ?_)) member
  · have perm : (rows.agents.filter (fun agent => !decide (agent.project = project)) ++
        rows.agents.filter fun agent => agent.project = project).Perm rows.agents :=
      List.perm_append_comm.trans (List.filter_append_perm _ _)
    rw [List.getLast?_eq_none_iff, ← List.perm_nil, ← none]
    exact (perm.map _).filter _
  · obtain ⟨inside, named⟩ := List.mem_filter.mp here
    obtain ⟨agent, held, rfl⟩ := List.mem_map.mp inside
    rw [← List.filterMap_eq_filter, List.filterMap_map]
    refine last_favored (fun other kept => ?_) ⟨agent, held, decide_eq_true rfl⟩
    rw [Function.comp_apply, of_decide_eq_true kept, Option.guard, if_pos named]
  · rw [List.map_eq_nil_iff.mp none]
    rfl
  · rw [List.map_eq_nil_iff.mp none]
    rfl
  · rw [deciding_cons] at last
    split at last
    next => cases last
    next => exact head_named last

theorem agentType_favored {agentType : AgentType} (member : agentType ∈ deciding (typeSources inputs agentId)) :
    (draftOf getTime ((favorType inputs agentType).rows agentId)).agentType = some agentType := by
  rw [typeSources] at member
  rw [draftOf_eq, favorType]
  simp only [rows_favor, Option.or_assoc]
  generalize inputs.rows agentId = rows at member
  simp only [BoardInputs.favor]
  refine decided (fun none => ?_) last_named (decided (fun none => ?_) (fun here => ?_) fun last => ?_) member
  · rw [List.map_eq_nil_iff.mp none]
    rfl
  · have perm := List.filter_append_perm (fun session : SessionSummary =>
      decide (knownAgentType session.agentType = some agentType)) rows.sessions
    rw [List.head?_eq_none_iff, ← List.perm_nil, ← none]
    exact perm.filterMap _
  · obtain ⟨session, held, known⟩ := List.mem_filterMap.mp here
    exact head_favored (fun other kept => of_decide_eq_true kept) ⟨session, held, decide_eq_true known⟩
  · rw [deciding_cons] at last
    split at last
    next => cases last
    next => exact head_named last

theorem reordered_favorProject (inputs : BoardInputs) (project : String) : Reordered inputs (favorProject inputs project) :=
  reordered_favor

theorem reordered_favorType (inputs : BoardInputs) (agentType : AgentType) :
    Reordered inputs (favorType inputs agentType) :=
  reordered_favor

/-! ### Agents in front -/

/-- Bring the rows of an agent to the front of each list. -/
def toFront (inputs : BoardInputs) (agentId : String) : BoardInputs :=
  inputs.favor (·.agentId = agentId) (fun agent => !decide (agent.agentId = agentId)) (·.agentId = agentId)
    (·.agentId = agentId)

theorem reordered_toFront (inputs : BoardInputs) (agentId : String) : Reordered inputs (toFront inputs agentId) :=
  reordered_favor

/-- The rows of the agent in front of the others. -/
def fronted {Item : Type} (idOf : Item → String) (agentId : String) (list : List Item) : List Item :=
  list.filter (idOf · = agentId) ++ list.filter fun item => !decide (idOf item = agentId)

theorem all_toFront_eq : (toFront inputs agentId).all =
    (fronted SessionSummary.agentId agentId inputs.sessions).map .session ++
      (fronted AgentInfo.agentId agentId inputs.agents).map .agent ++
      (fronted Page.AuditDecision.agentId agentId inputs.auditDecisions).map .audit ++
      (fronted Page.DecisionRequest.agentId agentId inputs.queue).map .item := by
  simp only [toFront, BoardInputs.favor, BoardInputs.all, fronted, Bool.not_not]

theorem fronted_eq {Item : Type} {idOf : Item → String} {list : List Item} (held : list.any (idOf · = agentId) = true) :
    ∃ first later, fronted idOf agentId list = first :: later ∧ idOf first = agentId := by
  obtain ⟨item, member, kept⟩ := List.any_eq_true.mp held
  have inside : item ∈ list.filter (idOf · = agentId) := List.mem_filter.mpr ⟨member, kept⟩
  obtain ⟨first, later, eq⟩ := List.exists_cons_of_ne_nil (List.ne_nil_of_mem inside)
  refine ⟨first, later ++ list.filter fun item => !decide (idOf item = agentId), by rw [fronted, eq, List.cons_append], ?_⟩
  exact of_decide_eq_true (List.mem_filter.mp (eq ▸ List.mem_cons_self .. : first ∈ list.filter (idOf · = agentId))).2

/-- In front of it there are rows of earlier lists only. -/
theorem all_toFront (known : ∃ row ∈ inputs.all, row.agentId = agentId ∧ row.stage = place inputs agentId) :
    ∃ before row after, (toFront inputs agentId).all = before ++ row :: after ∧ row.agentId = agentId ∧
      ∀ other ∈ before, place inputs other.agentId < place inputs agentId := by
  have low {before after : List Row} {row : Row} (split : (toFront inputs agentId).all = before ++ row :: after)
      (early : ∀ other ∈ before, other.stage < place inputs agentId) :
      ∀ other ∈ before, place inputs other.agentId < place inputs agentId := by
    intro other member
    have inside : other ∈ inputs.all := by
      rw [(all_perm (reordered_toFront inputs agentId)).mem_iff, split]
      exact List.mem_append_left _ member
    exact Nat.lt_of_le_of_lt (debuts_all other inside).1 (early other member)
  have split := @all_toFront_eq inputs agentId
  by_cases sessions : inputs.sessions.any (·.agentId = agentId) = true
  · obtain ⟨first, later, eq, own⟩ := fronted_eq sessions
    rw [eq, List.map_cons, List.cons_append, List.cons_append, List.cons_append] at split
    exact ⟨[], _, _, split, own, fun _ none => (nomatch none)⟩
  by_cases agents : inputs.agents.any (·.agentId = agentId) = true
  · have first : place inputs agentId = 1 := by rw [place, listing, if_neg sessions, if_pos agents]
    obtain ⟨agent, later, eq, own⟩ := fronted_eq agents
    rw [eq, List.map_cons, List.append_assoc, List.append_assoc, List.cons_append] at split
    refine ⟨_, _, _, split, own, low split fun other member => ?_⟩
    obtain ⟨session, _, rfl⟩ := List.mem_map.mp member
    exact first ▸ Nat.zero_lt_one
  by_cases audits : inputs.auditDecisions.any (·.agentId = agentId) = true
  · have first : place inputs agentId = 2 := by rw [place, listing, if_neg sessions, if_neg agents, if_pos audits]
    obtain ⟨audit, later, eq, own⟩ := fronted_eq audits
    rw [eq, List.map_cons, List.append_assoc, List.cons_append] at split
    refine ⟨_, _, _, split, own, low split fun other member => ?_⟩
    rw [first]
    rcases List.mem_append.mp member with left | right
    · obtain ⟨session, _, rfl⟩ := List.mem_map.mp left
      exact Nat.zero_lt_two
    · obtain ⟨agent, _, rfl⟩ := List.mem_map.mp right
      exact Nat.one_lt_two
  · have first : place inputs agentId = 3 := by rw [place, listing, if_neg sessions, if_neg agents, if_neg audits]
    have queue : inputs.queue.any (·.agentId = agentId) = true := by
      obtain ⟨row, member, own, stage⟩ := known
      rw [first] at stage
      cases row with
      | item item => exact List.any_eq_true.mpr ⟨item, item_mem_all.mp member, decide_eq_true own⟩
      | session | agent | audit => cases stage
    obtain ⟨item, later, eq, own⟩ := fronted_eq queue
    rw [eq, List.map_cons] at split
    refine ⟨_, _, _, split, own, low split fun other member => ?_⟩
    rw [first]
    rcases List.mem_append.mp member with left | right
    · rcases List.mem_append.mp left with left | right
      · obtain ⟨session, _, rfl⟩ := List.mem_map.mp left
        exact Nat.zero_lt_succ 2
      · obtain ⟨agent, _, rfl⟩ := List.mem_map.mp right
        exact Nat.succ_lt_succ (Nat.zero_lt_succ 1)
    · obtain ⟨audit, _, rfl⟩ := List.mem_map.mp right
      exact Nat.lt_succ_self 2

/-- In front of its lane there are lanes of earlier lists only. -/
theorem lanes_toFront (regular : Regular getTime inputs) (shown : Shown getTime inputs agentId) :
    ∃ before after, shownLanes getTime (toFront inputs agentId) = before ++ laneOf getTime inputs agentId :: after ∧
      ∀ lane ∈ before, place inputs lane.agentId < place inputs agentId := by
  have reordered := reordered_toFront inputs agentId
  obtain ⟨before, row, after, split, own, early⟩ := all_toFront (row_of_shown shown)
  have fresh : row.agentId ∉ before.map Row.agentId := by
    intro member
    obtain ⟨other, inside, same⟩ := List.mem_map.mp member
    have low := early other inside
    rw [same, own] at low
    exact Nat.lt_irrefl _ low
  obtain ⟨later, eq⟩ := @keys_front _ _ _ Row.agentId before after row fresh
  have visible := (shown_perm getTime agentId reordered).mpr shown
  rw [regular.shownLanes_eq reordered, shownIds, split, eq, own, List.filter_append,
    List.filter_cons_of_pos (by simpa using visible), List.map_append, List.map_cons]
  refine ⟨_, _, rfl, fun lane member => ?_⟩
  obtain ⟨other, inside, rfl⟩ := List.mem_map.mp member
  obtain ⟨known, -⟩ := List.mem_filter.mp inside
  obtain ⟨row', held, rfl⟩ := List.mem_map.mp (mem_keys.mp known)
  exact early row' held

/-! ### From the board to the rows -/

namespace Truthful

theorem model_eq (truthful : Truthful getTime inputs model) (timely : ∀ agentId, Timely getTime inputs agentId) :
    model = board (shownLanes getTime inputs) :=
  Option.some.inj (truthful.derived.symm.trans (deriveBoard_eq timely))

theorem reordered_eq (truthful : Truthful getTime inputs model) (timely : ∀ agentId, Timely getTime inputs agentId)
    (reordered : Reordered inputs others) : model = board (shownLanes getTime others) := by
  have derived := deriveBoard_eq fun agentId => (timely agentId).reordered reordered
  exact Option.some.inj ((truthful.stable others reordered).symm.trans derived)

/-- The lane of an agent is there whatever the order. -/
theorem laneOf_eq (truthful : Truthful getTime inputs model) (timely : ∀ agentId, Timely getTime inputs agentId)
    (reordered : Reordered inputs others) (shown : Shown getTime inputs agentId) :
    laneOf getTime others agentId = laneOf getTime inputs agentId := by
  have member : laneOf getTime others agentId ∈ (board (shownLanes getTime others)).lanes :=
    mem_lanes.mpr ⟨agentId, (shown_perm getTime agentId reordered).mpr shown, rfl⟩
  rw [← truthful.reordered_eq timely reordered, truthful.model_eq timely] at member
  obtain ⟨other, _, eq⟩ := mem_lanes.mp member
  have same : other = agentId := congrArg Lane.agentId eq
  rw [← eq, same]

theorem regular (truthful : Truthful getTime inputs model) (timely : ∀ agentId, Timely getTime inputs agentId) :
    Regular getTime inputs := by
  have lane {agentId : String} (shown : Shown getTime inputs agentId) : laneOf getTime inputs agentId ∈ model.lanes := by
    rw [truthful.model_eq timely]
    exact mem_lanes.mpr ⟨agentId, shown, rfl⟩
  refine ⟨timely, fun agentId shown => ?_, fun agentId shown first member second member' => ?_,
    fun agentId shown first member second member' => ?_⟩
  · exact (state_iff (timely agentId) shown.1).mp (truthful.classified _ (lane shown)).state
  · have named {project : String} (member : project ∈ deciding (projectSources inputs agentId)) :
        (laneOf getTime inputs agentId).project = project := by
      rw [← truthful.laneOf_eq timely (reordered_favorProject inputs project) shown, laneOf, project_favored member]
      rfl
    rw [← named member, ← named member']
  · have typed {agentType : AgentType} (member : agentType ∈ deciding (typeSources inputs agentId)) :
        (laneOf getTime inputs agentId).agentType = agentType := by
      rw [← truthful.laneOf_eq timely (reordered_favorType inputs agentType) shown, laneOf, agentType_favored member]
      rfl
    rw [← typed member, ← typed member']

theorem nodup_lanes (truthful : Truthful getTime inputs model) (timely : ∀ agentId, Timely getTime inputs agentId) :
    model.lanes.Nodup := by
  rw [truthful.model_eq timely]
  exact (lanes_perm _).nodup_iff.mpr nodup_shownLanes

variable {first second : String}

/-- Of two lanes that tie, the one whose rows are brought to the front comes first. -/
theorem lane_first (truthful : Truthful getTime inputs model) (timely : ∀ agentId, Timely getTime inputs agentId)
    (shown : Shown getTime inputs first) (shown' : Shown getTime inputs second)
    (project : projectOf inputs first = projectOf inputs second) (level : Level getTime inputs first second)
    (same : place inputs first = place inputs second) (apart : first ≠ second) :
    List.Sublist [laneOf getTime inputs first, laneOf getTime inputs second] model.lanes := by
  have regular := truthful.regular timely
  have reordered := reordered_toFront inputs first
  obtain ⟨before, after, eq, early⟩ := lanes_toFront regular shown
  have member : laneOf getTime inputs second ∈ shownLanes getTime (toFront inputs first) :=
    (regular.shownLanes_perm reordered).mem_iff.mp (mem_shownLanes.mpr ⟨second, shown', rfl⟩)
  have pair : List.Sublist [laneOf getTime inputs first, laneOf getTime inputs second]
      (shownLanes getTime (toFront inputs first)) := by
    rw [eq] at member ⊢
    refine List.Sublist.trans ?_ (List.sublist_append_right ..)
    refine List.Sublist.cons_cons _ (List.singleton_sublist.mpr ?_)
    rcases List.mem_append.mp member with left | right
    · exact absurd (early _ left) (same ▸ Nat.lt_irrefl _)
    · exact (List.mem_cons.mp right).resolve_left fun eq => apart (congrArg Lane.agentId eq).symm
  rw [truthful.reordered_eq timely reordered]
  refine arrange_pair ranks_louder pair ?_ ((regular.level_iff shown shown').mpr level).1
  rw [regular.projectOf_eq shown, regular.projectOf_eq shown', project]

/-- Of two projects that tie, the one that comes up in front comes first. -/
theorem project_first (truthful : Truthful getTime inputs model) (timely : ∀ agentId, Timely getTime inputs agentId)
    (heads : Heads getTime inputs first) (heads' : Heads getTime inputs second) (level : Level getTime inputs first second)
    (same : debut getTime inputs (projectOf inputs first) = debut getTime inputs (projectOf inputs second))
    (apart : projectOf inputs first ≠ projectOf inputs second) :
    List.Sublist [laneOf getTime inputs first, laneOf getTime inputs second] model.lanes := by
  have regular := truthful.regular timely
  obtain ⟨front, shown, project, debuts⟩ := exists_debut heads.1
  have reordered := reordered_toFront inputs front
  have perm := regular.shownLanes_perm reordered
  obtain ⟨before, after, eq, early⟩ := lanes_toFront regular shown
  have fresh {agentId : String} (visible : Shown getTime inputs agentId)
      (late : debut getTime inputs (projectOf inputs agentId) = debut getTime inputs (projectOf inputs first)) :
      (laneOf getTime inputs agentId).project ∉ before.map (·.project) := by
    intro member
    obtain ⟨lane, inside, named⟩ := List.mem_map.mp member
    have held : lane ∈ shownLanes getTime inputs := perm.mem_iff.mpr (eq ▸ List.mem_append_left _ inside)
    obtain ⟨other, known, rfl⟩ := mem_shownLanes.mp held
    rw [regular.projectOf_eq visible, regular.projectOf_eq known] at named
    have low := debut_le known
    have high := early _ inside
    rw [named, late, ← debuts] at low
    exact absurd high (Nat.not_lt.mpr low)
  have leads {agentId : String} (heads : Heads getTime inputs agentId) :
      Leads (·.project) louder (before ++ laneOf getTime inputs front :: after) (laneOf getTime inputs agentId) := by
    obtain ⟨member, least⟩ := (regular.leads_iff heads.1).mpr heads
    rw [← eq]
    exact ⟨perm.mem_iff.mp member, fun other inside => least other (perm.mem_iff.mpr inside)⟩
  rw [truthful.reordered_eq timely reordered, BoardModel.lanes, board, eq]
  refine arrange_front ranks_louder ?_ (fresh heads.1 rfl) (fresh heads'.1 same.symm) ?_ (leads heads) (leads heads')
    ((regular.level_iff heads.1 heads'.1).mpr level).1
  · rw [regular.projectOf_eq shown, regular.projectOf_eq heads.1, project]
  · rwa [regular.projectOf_eq heads.1, regular.projectOf_eq heads'.1]

theorem settled (truthful : Truthful getTime inputs model) (timely : ∀ agentId, Timely getTime inputs agentId) :
    Settled getTime inputs := by
  have regular := truthful.regular timely
  have level {first second : String} (level : Level getTime inputs first second) : Level getTime inputs second first :=
    ⟨level.1.symm, level.2.symm⟩
  refine ⟨regular.unseen, fun agentId active => ?_, regular.project, regular.agentType, ?_, ?_⟩
  · by_cases pos : ∃ ms ∈ times getTime inputs agentId, 0 < ms
    · exact .inl pos
    · have hidden : agentId ∉ model.lanes.map (·.agentId) := by
        rw [truthful.model_eq timely, ids_perm.mem_iff, mem_shownIds]
        exact fun shown => pos shown.1
      rcases truthful.shown agentId active with one | ⟨aged, _⟩
      · rw [List.count_eq_zero_of_not_mem hidden] at one
        cases one
      · exact .inr aged
  · intro first second shown shown' project tie same
    by_contra apart
    exact not_both (truthful.nodup_lanes timely) (truthful.lane_first timely shown shown' project tie same apart)
      (truthful.lane_first timely shown' shown project.symm (level tie) same.symm (Ne.symm apart))
  · intro first second heads heads' tie same
    by_contra apart
    exact not_both (truthful.nodup_lanes timely) (truthful.project_first timely heads heads' tie same apart)
      (truthful.project_first timely heads' heads (level tie) same.symm (Ne.symm apart))

end Truthful

/-- The board is right if and only if nothing was seen after the end of a session, nothing is from
before the epoch, the rows agree, and nothing of one list is level. -/
theorem liveness_iff (timely : ∀ agentId, Timely getTime inputs agentId) :
    (∃ model, Truthful getTime inputs model) ↔ Settled getTime inputs :=
  ⟨fun ⟨_, truthful⟩ => truthful.settled timely, fun settled => ⟨_, settled.truthful timely⟩⟩

/-- Three times of a log. -/
def clock (ts : String) : Option Int :=
  [("2026-03-01T10:00:00Z", 1772359200000), ("2026-03-01T10:00:01Z", 1772359201000),
    ("2026-03-01T10:00:02Z", 1772359202000)].lookup ts

/-- One session has ended, one waits for a decision, and one is at work in another project. -/
def busy : BoardInputs where
  sessions := [⟨"claude-1", "claude_code", "/work", "2026-03-01T10:00:00Z", false, 0⟩]
  agents := [⟨"claude-2", .claudeCode, "/work", "2026-03-01T10:00:02Z"⟩, ⟨"codex-3", .codex, "/site", "2026-03-01T10:00:00Z"⟩]
  queue := [⟨"7", "claude-2", .claudeCode, "/work", "Bash", "2026-03-01T10:00:01Z"⟩]
  auditDecisions := [{
    kind := .autoApproved
    project := "/work"
    agentId := "claude-1"
    toolName := "Stop"
    ts := "2026-03-01T10:00:01Z" }]
  nowMs := 1772359203000

def busyAgents : List String := ["claude-1", "claude-2", "codex-3"]

theorem busy_rows {agentId : String} (absent : agentId ∉ busyAgents) :
    busy.rows agentId = { nowMs := 1772359203000 } := by
  simp only [busyAgents, List.mem_cons, List.not_mem_nil, or_false, not_or] at absent
  obtain ⟨ended, waits, works⟩ := absent
  simp [BoardInputs.rows, busy, Ne.symm ended, Ne.symm waits, Ne.symm works]

theorem busy_active {agentId : String} (active : times clock busy agentId ≠ []) : agentId ∈ busyAgents := by
  by_contra absent
  refine active ?_
  rw [times, seen, events, busy_rows absent]
  rfl

theorem timely_busy (agentId : String) : Timely clock busy agentId := by
  by_cases known : agentId ∈ busyAgents
  · have all : ∀ agentId ∈ busyAgents, none ∉ stamps clock busy agentId ∧ (stamps clock busy agentId).Nodup := by decide
    exact ⟨(all agentId known).1, (all agentId known).2⟩
  · have none : stamps clock busy agentId = [] := by
      rw [stamps, busy_rows known]
      rfl
    exact ⟨none ▸ List.not_mem_nil, none ▸ List.nodup_nil⟩

theorem settled_busy : Settled clock busy := by
  have known {agentId : String} (shown : Shown clock busy agentId) : agentId ∈ busyAgents := by
    obtain ⟨⟨ms, member, _⟩, _⟩ := shown
    exact busy_active (List.ne_nil_of_mem member)
  have ended : ∀ agentId ∈ busyAgents, blockers clock busy agentId = [] →
      ∀ event ∈ events clock busy agentId, Latest clock busy agentId event → event.2 ∈ terminalEventTools →
        ∀ ms ∈ seen clock busy agentId, ms ≤ event.1 := by
    decide +kernel
  have modern : ∀ agentId ∈ busyAgents, ∃ ms ∈ times clock busy agentId, 0 < ms := by decide +kernel
  have project : ∀ agentId ∈ busyAgents, ∀ value ∈ deciding (projectSources busy agentId),
      ∀ other ∈ deciding (projectSources busy agentId), value = other := by
    decide +kernel
  have agentType : ∀ agentId ∈ busyAgents, ∀ value ∈ deciding (typeSources busy agentId),
      ∀ other ∈ deciding (typeSources busy agentId), value = other := by
    decide +kernel
  -- no two of them are in one state
  have apart : ∀ first ∈ busyAgents, ∀ second ∈ busyAgents,
      verdict clock busy first = verdict clock busy second → first = second := by
    decide +kernel
  exact {
    ended := fun agentId shown => ended agentId (known shown)
    modern := fun agentId active => .inl (modern agentId (busy_active active))
    project := fun agentId shown => project agentId (known shown)
    agentType := fun agentId shown => agentType agentId (known shown)
    lanes := fun first second shown shown' _ level _ => apart first (known shown) second (known shown') level.1
    projects := fun first second heads heads' level _ =>
      congrArg (projectOf busy) (apart first (known heads.1) second (known heads'.1) level.1) }

/-- The board of three agents is right, in whatever order their rows come. -/
theorem liveness_busy : ∃ model, Truthful clock busy model :=
  (liveness_iff timely_busy).mpr settled_busy

/-- An agent that stopped, and that the registry saw a second later. -/
def stopped : BoardInputs where
  agents := [⟨"claude-1", .claudeCode, "/work", "2026-03-01T10:00:02Z"⟩]
  auditDecisions := [{
    kind := .autoApproved
    project := "/work"
    agentId := "claude-1"
    toolName := "Stop"
    ts := "2026-03-01T10:00:01Z" }]
  nowMs := 1772359203000

theorem timely_stopped (agentId : String) : Timely clock stopped agentId := by
  by_cases same : agentId = "claude-1"
  · subst same
    exact ⟨by decide, by decide⟩
  · have none : stamps clock stopped agentId = [] := by
      simp [stamps, BoardInputs.rows, stopped, Ne.symm same]
    exact ⟨none ▸ List.not_mem_nil, none ▸ List.nodup_nil⟩

/-- The lane of the agent is not done. -/
theorem stopped_untruthful : ¬∃ model, Truthful clock stopped model := by
  rintro ⟨model, truthful⟩
  have unseen := (truthful.regular timely_stopped).unseen "claude-1" (by decide) (by decide)
    (1772359201000, "Stop") (by decide) (by decide) (by decide) 1772359202000 (by decide)
  exact absurd unseen (by decide)

end Liveness
end Wisphive
