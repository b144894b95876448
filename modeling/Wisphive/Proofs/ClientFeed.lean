import Wisphive.Proofs.AgentReaping
import Wisphive.Proofs.QueueBroadcasts

/-! A client follows the queue and the registry: the broadcasts that are still on their way
lead from its copies to what the daemon holds, as long as none of them is lost, doubled by
a snapshot or overtaken. -/

namespace Wisphive
open Foundation Presence

namespace ClientView
variable {view : ClientView} {kind : ClientKind} {message : FeedMessage}

def copiesOf (view : ClientView) (id : Uuid) : Nat :=
  (view.queue.map (·.id)).count id

def copiesOfAgent (view : ClientView) (agentId : String) : Nat :=
  (view.agents.map (·.agentId)).count agentId

theorem count_filter_ne {Item Key : Type} [DecidableEq Key] (key : Item → Key) (items : List Item) (removed wanted : Key) :
    ((items.filter (key · ≠ removed)).map key).count wanted =
      if removed = wanted then 0 else (items.map key).count wanted := by
  induction items with
  | nil => simp
  | cons item rest ih =>
    by_cases same : key item = removed
    · rw [List.filter_cons_of_neg (by simpa using same), ih, List.map_cons]
      split
      next => rfl
      next differ => rw [List.count_cons_of_ne (fun equal => differ (same.symm.trans equal))]
    · rw [List.filter_cons_of_pos (by simpa using same), List.map_cons, List.map_cons, List.count_cons, List.count_cons, ih]
      split
      next equal =>
        rw [if_neg (by simpa [← equal] using same)]
      next => rfl

/-- A broadcast changes the copies of an id by what it reports. -/
theorem receive_copies (id : Uuid) (plain : ∀ items, message ≠ .queueSnapshot items) :
    (view.receive kind message).copiesOf id = tally (view.copiesOf id) (ClientFeed.aboutId id message).toList := by
  cases message with
  | queueSnapshot items => exact absurd rfl (plain items)
  | newDecision req =>
    have added : (view.receive kind (.newDecision req)).queue = view.queue ++ [req] := by cases kind <;> rfl
    rw [copiesOf, added, List.map_append, List.count_append, List.map_singleton, List.count_singleton,
      ClientFeed.aboutId]
    by_cases same : req.id = id <;> simp [same, tally, copiesOf]
  | decisionResolved resolved =>
    have removed : (view.receive kind (.decisionResolved resolved)).queue = view.queue.filter (·.id ≠ resolved) := by
      cases kind <;> rfl
    rw [copiesOf, removed, count_filter_ne, ClientFeed.aboutId]
    by_cases same : resolved = id <;> simp [same, tally, copiesOf]
  | agentsSnapshot _ | agentConnected _ | agentDisconnected _ | agentExited _ | other => cases kind <;> rfl

theorem receive_copiesOfAgent (agentId : String) (plain : ∀ agents, message ≠ .agentsSnapshot agents) :
    (view.receive kind message).copiesOfAgent agentId =
      tally (view.copiesOfAgent agentId) (ClientFeed.aboutAgent kind agentId message).toList := by
  cases message with
  | agentsSnapshot agents => exact absurd rfl (plain agents)
  | agentConnected info =>
    have added : (view.receive kind (.agentConnected info)).agents = view.agents ++ [info] := by cases kind <;> rfl
    rw [copiesOfAgent, added, List.map_append, List.count_append, List.map_singleton, List.count_singleton,
      ClientFeed.aboutAgent]
    by_cases same : info.agentId = agentId <;> simp [same, tally, copiesOfAgent]
  | agentDisconnected gone =>
    have removed : (view.receive kind (.agentDisconnected gone)).agents = view.agents.filter (·.agentId ≠ gone) := by
      cases kind <;> rfl
    rw [copiesOfAgent, removed, count_filter_ne, ClientFeed.aboutAgent]
    by_cases same : gone = agentId <;> simp [same, tally, copiesOfAgent]
  | agentExited gone =>
    cases kind with
    | web => simp [receive, handleMessage, ClientFeed.aboutAgent, tally]
    | tui =>
      rw [copiesOfAgent, receive, receiveTui, count_filter_ne, ClientFeed.aboutAgent]
      by_cases same : gone = agentId <;> simp [same, tally, copiesOfAgent]
  | queueSnapshot _ | newDecision _ | decisionResolved _ | other => cases kind <;> rfl

end ClientView

namespace ClientFeed
variable {feed after : ClientFeed} {event : FeedEvent} {sending messages : List FeedMessage}

def isSnapshot : FeedMessage → Bool
  | .agentsSnapshot _ | .queueSnapshot _ => true
  | _ => false

/-- The stream with messages that are about to be broadcast. -/
def coming (feed : ClientFeed) (sending : List FeedMessage) : List FeedMessage :=
  feed.subscription.unread ++ sending ++ feed.announcing.flatten

/-- The view once the socket is read. -/
def settled (feed : ClientFeed) : ClientView :=
  feed.socket.foldl (fun view message => view.receive feed.kind message) feed.view

/-- What is on its way leads to what the daemon holds: from nothing, and from the copies
that the client has once its snapshot is written. -/
structure Follows (sending : List FeedMessage) (feed : ClientFeed) : Prop where
  collections : Collections feed.run.queue
  registered : ∀ entry ∈ feed.registry.entries, entry.2.agentId = entry.1
  announcements : ∀ message ∈ feed.announcing.flatten, (agentOf message).isSome ∧ ∀ agentId, message ≠ .agentExited agentId
  plain : ∀ message ∈ feed.coming sending, isSnapshot message = false
  unheard : feed.stage = .accepted → feed.subscription.unread = []
  ids : ∀ id, Tracks (decide (Live feed.run.queue id)) ((feed.coming sending).filterMap (aboutId id))
  agents : ∀ agentId, Tracks (decide (agentId ∈ feed.registry)) ((feed.coming sending).filterMap (aboutAgent feed.kind agentId))
  idCopies : feed.stage = .live → ∀ id, tally (feed.settled.copiesOf id) ((feed.coming sending).filterMap (aboutId id)) =
    (decide (Live feed.run.queue id)).toNat
  agentCopies : feed.stage = .agentsSent ∨ feed.stage = .live → ∀ agentId, tally (feed.settled.copiesOfAgent agentId)
    ((feed.coming sending).filterMap (aboutAgent feed.kind agentId)) = (decide (agentId ∈ feed.registry)).toNat

theorem Follows.start (kind : ClientKind) : Follows [] (machine kind).start where
  collections := QueueRun.Valid.start.collections
  registered _ member := nomatch member
  announcements _ member := nomatch member
  plain _ member := nomatch member
  unheard _ := rfl
  ids _ := .nil
  agents _ := .nil
  idCopies live := nomatch live
  agentCopies written := by rcases written with other | other <;> cases other

/-- A message that does not count reports nothing to the snapshots that are written. -/
theorem unimportant_id {message : FeedMessage} (slight : feed.matters message = false) (live : feed.stage = .live) (id : Uuid) :
    aboutId id message = none := by
  cases message <;> simp_all [matters, aboutId]

theorem unimportant_agent {message : FeedMessage} (slight : feed.matters message = false)
    (written : feed.stage = .agentsSent ∨ feed.stage = .live) (agentId : String) :
    aboutAgent feed.kind agentId message = none := by
  cases message <;> simp_all [matters, aboutAgent]

/-- A broadcast that the client does not miss is one more message on its way. -/
theorem Follows.broadcast (follows : Follows messages feed) (heard : feed.Heard messages) :
    Follows [] (feed.broadcast messages) := by
  by_cases accepted : feed.stage = .accepted
  · have quiet : feed.broadcast messages = feed := if_pos accepted
    have later : feed.coming messages = messages ++ feed.coming [] := by
      simp [coming, follows.unheard accepted]
    rw [quiet]
    refine ⟨follows.collections, follows.registered, follows.announcements, fun message member => ?_, follows.unheard,
      fun id => ?_, fun agentId => ?_, fun live => ?_, fun written => ?_⟩
    · exact follows.plain message (later ▸ List.mem_append_right _ member)
    · have tracks := follows.ids id
      rw [later, List.filterMap_append] at tracks
      exact tracks.suffix
    · have tracks := follows.agents agentId
      rw [later, List.filterMap_append] at tracks
      exact tracks.suffix
    · rw [accepted] at live
      cases live
    · rw [accepted] at written
      rcases written with other | other <;> cases other
  · have sent : feed.broadcast messages =
        { feed with subscription := feed.subscription.sendEach broadcastCapacity messages } := if_neg accepted
    have lostBefore : feed.lost messages ++ (feed.subscription.sendEach broadcastCapacity messages).unread =
        feed.subscription.unread ++ messages := by
      rw [lost, if_neg accepted]
      exact Subscription.sendEach_unread (by decide) messages
    have later : feed.coming messages = feed.lost messages ++ (feed.broadcast messages).coming [] := by
      rw [sent]
      simp only [coming, ← lostBefore, List.append_nil, List.append_assoc]
    have same : (feed.broadcast messages).settled = feed.settled := by rw [sent]; rfl
    refine ⟨by rw [sent]; exact follows.collections, by rw [sent]; exact follows.registered,
      by rw [sent]; exact follows.announcements, fun message member => ?_, fun stage => ?_, fun id => ?_,
      fun agentId => ?_, fun live id => ?_, fun written agentId => ?_⟩
    · exact follows.plain message (later ▸ List.mem_append_right _ member)
    · rw [sent] at stage
      exact absurd stage accepted
    · have tracks := follows.ids id
      rw [later, List.filterMap_append] at tracks
      rw [broadcast_run]
      exact tracks.suffix
    · have tracks := follows.agents agentId
      rw [later, List.filterMap_append] at tracks
      rw [sent] at tracks ⊢
      exact tracks.suffix
    · have live : feed.stage = .live := by rw [sent] at live; exact live
      have copies := follows.idCopies live id
      rw [later, List.filterMap_append, List.filterMap_eq_nil_iff.mpr
        fun message member => unimportant_id (heard message member) live id] at copies
      rw [same, broadcast_run]
      exact copies
    · have written : feed.stage = .agentsSent ∨ feed.stage = .live := by rw [sent] at written; exact written
      have copies := follows.agentCopies written agentId
      rw [later, List.filterMap_append, List.filterMap_eq_nil_iff.mpr
        fun message member => unimportant_agent (heard message member) written agentId] at copies
      rw [same]
      rw [sent] at copies ⊢
      exact copies

/-- The broadcasts of the queue report its changes of each id. -/
theorem path_reports {before after : DecisionQueue} (path : QueuePath before after messages) (id : Uuid)
    {reports : List Report} :
    (Tracks (decide (Live before id)) reports →
      Tracks (decide (Live after id)) (reports ++ messages.filterMap (aboutId id))) ∧
    ∀ copies, tally copies reports = (decide (Live before id)).toNat →
      tally copies (reports ++ messages.filterMap (aboutId id)) = (decide (Live after id)).toNat := by
  induction path with
  | refl =>
    rw [List.filterMap_nil, List.append_nil]
    exact ⟨fun tracks => tracks, fun _ copies => copies⟩
  | @move middle after earlier later path move _ _ ih =>
    obtain ⟨tracks, copies⟩ := ih
    have unchanged (same : Live after id ↔ Live middle id) (silent : later.filterMap (aboutId id) = []) :
        (Tracks (decide (Live before id)) reports →
          Tracks (decide (Live after id)) (reports ++ (earlier ++ later).filterMap (aboutId id))) ∧
        ∀ count, tally count reports = (decide (Live before id)).toNat →
          tally count (reports ++ (earlier ++ later).filterMap (aboutId id)) = (decide (Live after id)).toNat := by
      rw [List.filterMap_append, silent, List.append_nil, decide_eq_decide.mpr same]
      exact ⟨tracks, copies⟩
    cases move with
    | quiet live => exact unchanged (live id) rfl
    | admitted req absent live =>
      by_cases same : req.id = id
      · subst same
        have report : [FeedMessage.newDecision req].filterMap (aboutId req.id) = [.joined] := by simp [aboutId]
        have present : decide (Live after req.id) = true := decide_eq_true ((live req.id).mpr (.inl rfl))
        have gone : decide (Live middle req.id) = false := decide_eq_false absent
        rw [List.filterMap_append, report, ← List.append_assoc, present]
        rw [gone] at tracks copies
        exact ⟨fun start => (tracks start).join, fun count start => by rw [tally_append, copies count start]; rfl⟩
      · exact unchanged ((live id).trans (or_iff_right fun equal => same equal.symm)) (by simp [aboutId, same])
    | settled resolved present live =>
      by_cases same : resolved = id
      · subst same
        have report : [FeedMessage.decisionResolved resolved].filterMap (aboutId resolved) = [.left] := by simp [aboutId]
        have gone : decide (Live after resolved) = false := decide_eq_false fun still => ((live resolved).mp still).1 rfl
        rw [List.filterMap_append, report, ← List.append_assoc, gone]
        exact ⟨fun start => (tracks start).leave, fun count _ => by rw [tally_append]; rfl⟩
      · exact unchanged ((live id).trans (and_iff_right fun equal => same equal.symm)) (by simp [aboutId, same])

/-- An announcement is about an agent alone. -/
theorem Follows.announcing_ids (follows : Follows sending feed) (id : Uuid) :
    feed.announcing.flatten.filterMap (aboutId id) = [] := by
  refine List.filterMap_eq_nil_iff.mpr fun message member => ?_
  have about := (follows.announcements message member).1
  cases message <;> simp_all [agentOf, aboutId]

theorem path_plain {before after : DecisionQueue} (path : QueuePath before after messages) :
    ∀ message ∈ messages, isSnapshot message = false ∧ agentOf message = none := by
  induction path with
  | refl => exact fun _ member => nomatch member
  | move _ move _ _ ih =>
    intro message member
    rcases List.mem_append.mp member with earlier | later
    · exact ih message earlier
    · cases move with
      | quiet => cases later
      | admitted | settled =>
        rw [List.mem_singleton.mp later]
        exact ⟨rfl, rfl⟩

theorem aboutAgent_none {message : FeedMessage} (unrelated : agentOf message = none) (kind : ClientKind) (agentId : String) :
    aboutAgent kind agentId message = none := by
  cases message <;> simp_all [agentOf, aboutAgent]

theorem Follows.operated {run : QueueRun} (follows : Follows [] feed) (path : QueuePath feed.run.queue run.queue messages) :
    Follows messages { feed with run } := by
  have coming : (feed.coming []) = feed.subscription.unread ++ feed.announcing.flatten := by simp [ClientFeed.coming]
  have idReports (id : Uuid) : (feed.coming []).filterMap (aboutId id) = feed.subscription.unread.filterMap (aboutId id) := by
    rw [coming, List.filterMap_append, follows.announcing_ids, List.append_nil]
  have later (id : Uuid) : (({ feed with run } : ClientFeed).coming messages).filterMap (aboutId id) =
      feed.subscription.unread.filterMap (aboutId id) ++ messages.filterMap (aboutId id) := by
    simp only [ClientFeed.coming, List.filterMap_append, follows.announcing_ids, List.append_nil]
  have agentReports (agentId : String) : (({ feed with run } : ClientFeed).coming messages).filterMap (aboutAgent feed.kind agentId) =
      (feed.coming []).filterMap (aboutAgent feed.kind agentId) := by
    have silent : messages.filterMap (aboutAgent feed.kind agentId) = [] :=
      List.filterMap_eq_nil_iff.mpr fun message member => aboutAgent_none (path_plain path message member).2 _ _
    simp only [ClientFeed.coming, List.filterMap_append, silent, List.append_nil]
  refine ⟨path.collections follows.collections, follows.registered, follows.announcements, fun message member => ?_,
    follows.unheard, fun id => ?_, fun agentId => ?_, fun live id => ?_, fun written agentId => ?_⟩
  · simp only [ClientFeed.coming, List.mem_append] at member
    rcases member with (unread | sent) | announced
    · exact follows.plain message (by simp [ClientFeed.coming, unread])
    · exact (path_plain path message sent).1
    · exact follows.plain message (List.mem_append_right _ announced)
  · rw [later]
    exact (path_reports path id).1 (idReports id ▸ follows.ids id)
  · rw [agentReports]
    exact follows.agents agentId
  · rw [later]
    exact (path_reports path id).2 _ (idReports id ▸ follows.idCopies live id)
  · rw [agentReports]
    exact follows.agentCopies written agentId

/-- An announcement leaves from somewhere in the list of the tasks. -/
theorem announced_cases {position : Nat} {message : FeedMessage} {next : ClientFeed}
    (found : feed.announced position = some (message, next)) : ∃ rest,
    feed.announcing.flatten = (feed.announcing.take position).flatten ++ message :: rest ∧
      next.announcing.flatten = (feed.announcing.take position).flatten ++ rest ∧
      next = { feed with announcing := next.announcing } := by
  unfold announced at found
  split at found
  next first rest known =>
    cases found
    obtain ⟨inside, known⟩ := List.getElem?_eq_some_iff.mp known
    refine ⟨rest ++ (feed.announcing.drop (position + 1)).flatten, ?_, ?_, rfl⟩
    · conv_lhs => rw [← List.take_append_drop position feed.announcing]
      rw [List.drop_eq_getElem_cons inside, known, List.flatten_append, List.flatten_cons, List.cons_append]
    · rw [List.set_eq_take_append_cons_drop, if_pos inside, List.flatten_append, List.flatten_cons]
  all_goals cases found

theorem aboutAgent_agentOf {message : FeedMessage} {kind : ClientKind} {agentId : String} {report : Report}
    (about : aboutAgent kind agentId message = some report) : agentOf message = some agentId := by
  cases message <;> simp only [aboutAgent, reduceCtorEq] at about
  all_goals
    split at about
    · simp_all [agentOf]
    · cases about

/-- Nothing about the same agent is overtaken, so each agent's reports keep their order. -/
theorem Follows.announced {position : Nat} {message : FeedMessage} {next : ClientFeed} (follows : Follows [] feed)
    (found : feed.announced position = some (message, next))
    (ordered : ∀ earlier ∈ (feed.announcing.take position).flatten, agentOf earlier ≠ agentOf message) :
    Follows [message] next := by
  obtain ⟨rest, before, after, same⟩ := announced_cases found
  have member : message ∈ feed.announcing.flatten := by simp [before]
  have kept : next.announcing.flatten ⊆ feed.announcing.flatten := by
    rw [before, after]
    exact List.append_subset.mpr ⟨List.subset_append_left .., fun held present => by simp [present]⟩
  have comes : next.coming [message] =
      feed.subscription.unread ++ [message] ++ ((feed.announcing.take position).flatten ++ rest) := by
    rw [ClientFeed.coming, after, same]
  have came : feed.coming [] = feed.subscription.unread ++ ((feed.announcing.take position).flatten ++ message :: rest) := by
    rw [ClientFeed.coming, before, List.append_nil]
  have silent (id : Uuid) (messages : List FeedMessage) (inside : messages ⊆ feed.announcing.flatten) :
      messages.filterMap (aboutId id) = [] :=
    List.filterMap_eq_nil_iff.mpr fun held present =>
      List.filterMap_eq_nil_iff.mp (follows.announcing_ids id) held (inside present)
  have idReports (id : Uuid) : (next.coming [message]).filterMap (aboutId id) = (feed.coming []).filterMap (aboutId id) := by
    rw [ClientFeed.coming, ClientFeed.coming, List.filterMap_append, List.filterMap_append, List.filterMap_append,
      List.filterMap_append, silent id [message] (by simpa using member), silent id _ kept,
      silent id _ fun _ present => present, same]
    rfl
  have agentReports (agentId : String) : (next.coming [message]).filterMap (aboutAgent feed.kind agentId) =
      (feed.coming []).filterMap (aboutAgent feed.kind agentId) := by
    rw [comes, came]
    simp only [List.filterMap_append, List.append_assoc]
    congr 1
    cases about : aboutAgent feed.kind agentId message with
    | none => simp [about]
    | some report =>
      have apart : (feed.announcing.take position).flatten.filterMap (aboutAgent feed.kind agentId) = [] := by
        refine List.filterMap_eq_nil_iff.mpr fun held earlier => ?_
        by_contra reported
        obtain ⟨earlierReport, known⟩ := Option.ne_none_iff_exists'.mp reported
        exact ordered held earlier ((aboutAgent_agentOf known).trans (aboutAgent_agentOf about).symm)
      simp [apart, about]
  rw [same] at idReports agentReports ⊢
  refine ⟨follows.collections, follows.registered, fun held present => follows.announcements held (kept present),
    fun held present => ?_, follows.unheard, fun id => ?_, fun agentId => ?_, fun live id => ?_, fun written agentId => ?_⟩
  · refine follows.plain held ?_
    rw [← same, comes] at present
    rw [came]
    simp only [List.mem_append, List.mem_cons, List.not_mem_nil, or_false] at present ⊢
    tauto
  · exact (idReports id).symm ▸ follows.ids id
  · exact (agentReports agentId).symm ▸ follows.agents agentId
  · exact (idReports id).symm ▸ follows.idCopies live id
  · exact (agentReports agentId).symm ▸ follows.agentCopies written agentId

/-- A message that reports nothing may be broadcast at any time. -/
theorem Follows.silent {message : FeedMessage} (follows : Follows [] feed) (plain : isSnapshot message = false)
    (ids : ∀ id, aboutId id message = none) (agents : ∀ agentId, aboutAgent feed.kind agentId message = none) :
    Follows [message] feed := by
  have idReports (id : Uuid) : (feed.coming [message]).filterMap (aboutId id) = (feed.coming []).filterMap (aboutId id) := by
    simp [ClientFeed.coming, ids]
  have agentReports (agentId : String) : (feed.coming [message]).filterMap (aboutAgent feed.kind agentId) =
      (feed.coming []).filterMap (aboutAgent feed.kind agentId) := by
    simp [ClientFeed.coming, agents]
  refine ⟨follows.collections, follows.registered, follows.announcements, fun message present => ?_, follows.unheard,
    fun id => ?_, fun agentId => ?_, fun live id => ?_, fun written agentId => ?_⟩
  · simp only [ClientFeed.coming, List.mem_append, List.mem_singleton] at present
    rcases present with (unread | rfl) | announced
    · exact follows.plain _ (by simp [ClientFeed.coming, unread])
    · exact plain
    · exact follows.plain _ (List.mem_append_right _ announced)
  · exact (idReports id).symm ▸ follows.ids id
  · exact (agentReports agentId).symm ▸ follows.agents agentId
  · exact (idReports id).symm ▸ follows.idCopies live id
  · exact (agentReports agentId).symm ▸ follows.agentCopies written agentId

/-- A managed process that ends is an agent that leaves, to the terminal UI. -/
theorem Follows.exited {exited : String} (follows : Follows [] feed)
    (settled : feed.kind = .tui → exited ∈ feed.registry →
      .joined ∈ feed.announcing.flatten.filterMap (aboutAgent feed.kind exited)) : Follows [.agentExited exited] feed := by
  have idReports (id : Uuid) : (feed.coming [.agentExited exited]).filterMap (aboutId id) =
      (feed.coming []).filterMap (aboutId id) := by
    have unrelated : aboutId id (.agentExited exited) = none := rfl
    simp [ClientFeed.coming, unrelated]
  have came (agentId : String) : (feed.coming []).filterMap (aboutAgent feed.kind agentId) =
      feed.subscription.unread.filterMap (aboutAgent feed.kind agentId) ++
        feed.announcing.flatten.filterMap (aboutAgent feed.kind agentId) := by
    rw [ClientFeed.coming, List.append_nil, List.filterMap_append]
  have comes (agentId : String) : (feed.coming [.agentExited exited]).filterMap (aboutAgent feed.kind agentId) =
      feed.subscription.unread.filterMap (aboutAgent feed.kind agentId) ++
        if feed.kind = .tui ∧ exited = agentId then
          .left :: feed.announcing.flatten.filterMap (aboutAgent feed.kind agentId)
        else feed.announcing.flatten.filterMap (aboutAgent feed.kind agentId) := by
    rw [ClientFeed.coming, List.filterMap_append, List.filterMap_append, List.append_assoc]
    congr 1
    split
    next about => simp [aboutAgent, about]
    next about => simp [aboutAgent, about]
  refine ⟨follows.collections, follows.registered, follows.announcements, fun message present => ?_, follows.unheard,
    fun id => ?_, fun agentId => ?_, fun live id => ?_, fun written agentId => ?_⟩
  · simp only [ClientFeed.coming, List.mem_append, List.mem_singleton] at present
    rcases present with (unread | rfl) | announced
    · exact follows.plain _ (by simp [ClientFeed.coming, unread])
    · rfl
    · exact follows.plain _ (List.mem_append_right _ announced)
  · exact (idReports id).symm ▸ follows.ids id
  · have tracks := follows.agents agentId
    rw [came] at tracks
    rw [comes]
    split
    next about =>
      obtain ⟨kind, rfl⟩ := about
      exact tracks.insert_left fun present => settled kind (of_decide_eq_true present)
    next => exact tracks
  · exact (idReports id).symm ▸ follows.idCopies live id
  · have copies := follows.agentCopies written agentId
    have tracks := follows.agents agentId
    rw [came] at copies tracks
    rw [comes]
    split
    next about =>
      obtain ⟨kind, rfl⟩ := about
      rw [tally_append]
      exact tracks.suffix.tally_absent fun present => settled kind (of_decide_eq_true present)
    next => exact copies

/-- The registry and its announcements change, and nothing else does. -/
theorem Follows.registry {registry : AgentRegistry} (announced : List FeedMessage) {announcing : List (List FeedMessage)}
    (follows : Follows [] feed) (flat : announcing.flatten = feed.announcing.flatten ++ announced)
    (registered : ∀ entry ∈ registry.entries, entry.2.agentId = entry.1)
    (announcements : ∀ message ∈ announced, isSnapshot message = false ∧ (agentOf message).isSome ∧
      ∀ agentId, message ≠ .agentExited agentId)
    (reports : ∀ agentId (reports : List Report),
      (Tracks (decide (agentId ∈ feed.registry)) reports →
        Tracks (decide (agentId ∈ registry)) (reports ++ announced.filterMap (aboutAgent feed.kind agentId))) ∧
      ∀ copies, tally copies reports = (decide (agentId ∈ feed.registry)).toNat →
        tally copies (reports ++ announced.filterMap (aboutAgent feed.kind agentId)) =
          (decide (agentId ∈ registry)).toNat) :
    Follows [] { feed with registry, announcing } := by
  have comes : ({ feed with registry, announcing } : ClientFeed).coming [] = feed.coming [] ++ announced := by
    simp [ClientFeed.coming, flat]
  have idReports (id : Uuid) : (({ feed with registry, announcing } : ClientFeed).coming []).filterMap (aboutId id) =
      (feed.coming []).filterMap (aboutId id) := by
    have unrelated : announced.filterMap (aboutId id) = [] := by
      refine List.filterMap_eq_nil_iff.mpr fun message member => ?_
      have about := (announcements message member).2.1
      cases message <;> simp_all [agentOf, aboutId]
    rw [comes, List.filterMap_append, unrelated, List.append_nil]
  refine ⟨follows.collections, registered, fun message member => ?_, fun message member => ?_, follows.unheard,
    fun id => ?_, fun agentId => ?_, fun live id => ?_, fun written agentId => ?_⟩
  · rw [flat, List.mem_append] at member
    exact member.elim (follows.announcements message) fun fresh => (announcements message fresh).2
  · rw [comes, List.mem_append] at member
    exact member.elim (follows.plain message) fun fresh => (announcements message fresh).1
  · rw [idReports]
    exact follows.ids id
  · rw [comes, List.filterMap_append]
    exact (reports agentId _).1 (follows.agents agentId)
  · rw [idReports]
    exact follows.idCopies live id
  · rw [comes, List.filterMap_append]
    exact (reports agentId _).2 _ (follows.agentCopies written agentId)

theorem registered_insert {registry : AgentRegistry} (registered : ∀ entry ∈ registry.entries, entry.2.agentId = entry.1)
    {agentId : String} {info : AgentInfo} (same : info.agentId = agentId) :
    ∀ entry ∈ (registry.insert agentId info).entries, entry.2.agentId = entry.1 := by
  intro entry member
  rw [AList.entries_insert, List.mem_cons] at member
  rcases member with rfl | earlier
  · exact same
  · exact registered entry (List.kerase_sublist agentId registry.entries |>.subset earlier)

theorem registered_eraseEach {registry : AgentRegistry} (registered : ∀ entry ∈ registry.entries, entry.2.agentId = entry.1)
    (gone : List String) : ∀ entry ∈ (registry.eraseEach gone).entries, entry.2.agentId = entry.1 := by
  induction gone generalizing registry with
  | nil => exact registered
  | cons agentId rest ih =>
    exact ih fun entry member => registered entry (List.kerase_sublist agentId registry.entries |>.subset member)

/-- The info that the registry holds is about the agent. -/
theorem registered_lookup {registry : AgentRegistry} (registered : ∀ entry ∈ registry.entries, entry.2.agentId = entry.1)
    {agentId : String} {info : AgentInfo} (found : registry.lookup agentId = some info) : info.agentId = agentId :=
  registered _ (AList.mem_lookup_iff.mp found)

theorem mem_insert_known {registry : AgentRegistry} {agentId : String} {info : AgentInfo} (known : agentId ∈ registry)
    (wanted : String) : wanted ∈ registry.insert agentId info ↔ wanted ∈ registry := by
  rw [AList.mem_insert]
  exact or_iff_right_of_imp fun same => same ▸ known

theorem Follows.register (follows : Follows [] feed) (agentId : String) (agentType : AgentType) (project : PathBuf)
    (taken : feed.step (.register agentId agentType project) = some after) : Follows [] after := by
  cases found : feed.registry.lookup agentId with
  | some info =>
    have known : agentId ∈ feed.registry := AList.lookup_isSome.mp (found ▸ rfl)
    simp only [step, AgentRegistry.register, found, Bool.false_eq_true, if_false, Option.some.injEq] at taken
    subst taken
    have same : info.agentId = agentId := registered_lookup follows.registered found
    refine follows.registry [] (by simp) (registered_insert follows.registered (by exact same))
      (fun _ member => absurd member List.not_mem_nil) fun wanted reports => ?_
    rw [List.filterMap_nil, List.append_nil, decide_eq_decide.mpr (mem_insert_known known wanted)]
    exact ⟨fun tracks => tracks, fun _ copies => copies⟩
  | none =>
    have unknown : agentId ∉ feed.registry := AList.lookup_eq_none.mp found
    simp only [step, AgentRegistry.register, found, if_true, Option.some.injEq] at taken
    subst taken
    refine follows.registry [.agentConnected ⟨agentId, agentType, project, feed.wall, feed.wall⟩] (by simp)
      (registered_insert follows.registered rfl) ?_ fun wanted reports => ?_
    · intro message member
      rw [List.mem_singleton.mp member]
      exact ⟨rfl, rfl, fun _ => FeedMessage.noConfusion⟩
    · by_cases same : agentId = wanted
      · subst same
        rw [decide_eq_true ((AList.mem_insert _).mpr (.inl rfl)), decide_eq_false unknown]
        simp only [aboutAgent, if_true, List.filterMap_cons, List.filterMap_nil]
        exact ⟨fun tracks => tracks.join, fun copies counted => by rw [tally_append, counted]; rfl⟩
      · simp only [aboutAgent, same, if_false, List.filterMap_cons, List.filterMap_nil, List.append_nil]
        rw [decide_eq_decide.mpr ((AList.mem_insert _).trans (or_iff_right (Ne.symm same)))]
        exact ⟨fun tracks => tracks, fun _ copies => copies⟩

/-- The reports of agents that leave. -/
theorem leave_reports (kind : ClientKind) (gone : List String) (agentId : String) (present : Bool) (reports : List Report) :
    (Tracks present reports →
      Tracks (present && decide (agentId ∉ gone))
        (reports ++ (gone.map FeedMessage.agentDisconnected).filterMap (aboutAgent kind agentId))) ∧
    ∀ copies, tally copies reports = present.toNat →
      tally copies (reports ++ (gone.map FeedMessage.agentDisconnected).filterMap (aboutAgent kind agentId)) =
        (present && decide (agentId ∉ gone)).toNat := by
  induction gone generalizing present reports with
  | nil => simp
  | cons first rest ih =>
    by_cases same : first = agentId
    · have report : (((first :: rest).map FeedMessage.agentDisconnected).filterMap (aboutAgent kind agentId)) =
          .left :: (rest.map FeedMessage.agentDisconnected).filterMap (aboutAgent kind agentId) := by
        simp [aboutAgent, same]
      have absent : (present && decide (agentId ∉ first :: rest)) = (false && decide (agentId ∉ rest)) := by simp [same]
      rw [report, absent, ← List.singleton_append, ← List.append_assoc]
      obtain ⟨tracks, copies⟩ := ih false (reports ++ [.left])
      exact ⟨fun start => tracks start.leave, fun count _ => copies count (by rw [tally_append]; rfl)⟩
    · have report : (((first :: rest).map FeedMessage.agentDisconnected).filterMap (aboutAgent kind agentId)) =
          (rest.map FeedMessage.agentDisconnected).filterMap (aboutAgent kind agentId) := by
        simp [aboutAgent, same]
      have left' : (present && decide (agentId ∉ first :: rest)) = (present && decide (agentId ∉ rest)) := by
        simp [Ne.symm same]
      rw [report, left']
      exact ih present reports

theorem Follows.reap (follows : Follows [] feed) (timeout : Nat) (taken : feed.step (.reap timeout) = some after) :
    Follows [] after := by
  cases taken
  refine follows.registry ((feed.registry.expired timeout feed.run.queue.pendingAgentIds feed.wall).map .agentDisconnected)
    (by simp)
    (registered_eraseEach follows.registered _) ?_ fun wanted reports => ?_
  · intro message member
    obtain ⟨agentId, _, rfl⟩ := List.mem_map.mp member
    exact ⟨rfl, rfl, fun _ => FeedMessage.noConfusion⟩
  · have gone := leave_reports feed.kind (feed.registry.expired timeout feed.run.queue.pendingAgentIds feed.wall) wanted
      (decide (wanted ∈ feed.registry)) reports
    rwa [← Bool.decide_and, ← decide_eq_decide.mpr (AgentRegistry.mem_eraseEach)] at gone

theorem Follows.touch (follows : Follows [] feed) (agentId : String) :
    Follows [] { feed with registry := feed.registry.touch agentId feed.wall } := by
  unfold AgentRegistry.touch
  split
  next info found =>
    have same : info.agentId = agentId := registered_lookup follows.registered found
    refine follows.registry [] (by simp) (registered_insert follows.registered (by exact same))
      (fun _ member => nomatch member) fun wanted reports => ?_
    have known : agentId ∈ feed.registry := AList.lookup_isSome.mp (found ▸ rfl)
    rw [List.filterMap_nil, List.append_nil, decide_eq_decide.mpr (mem_insert_known known wanted)]
    exact ⟨fun tracks => tracks, fun _ copies => copies⟩
  next => exact follows

theorem settled_append (feed : ClientFeed) (messages : List FeedMessage) :
    ({ feed with socket := feed.socket ++ messages } : ClientFeed).settled =
      messages.foldl (fun view message => view.receive feed.kind message) feed.settled :=
  List.foldl_append ..

/-- A snapshot of the agents shows each registered agent once. -/
theorem count_snapshot {registry : AgentRegistry} (registered : ∀ entry ∈ registry.entries, entry.2.agentId = entry.1)
    (agentId : String) : (registry.snapshot.map (·.agentId)).count agentId = (decide (agentId ∈ registry)).toNat := by
  have keys : registry.snapshot.map (·.agentId) = registry.keys := by
    rw [AgentRegistry.snapshot, List.map_map]
    exact List.map_congr_left registered
  rw [keys, registry.keys_nodup.count]
  by_cases known : agentId ∈ registry
  · rw [if_pos (AList.mem_keys.mp known), decide_eq_true known]
    rfl
  · rw [if_neg fun member => known (AList.mem_keys.mpr member), decide_eq_false known]
    rfl

theorem Follows.writeAgents (follows : Follows [] feed)
    (apart : ∀ agentId ∈ feed.registry.keys, Leaves (feed.stream.filterMap (aboutAgent feed.kind agentId))) :
    Follows [] { feed with stage := .agentsSent, socket := [.agentsSnapshot feed.registry.snapshot] } := by
  refine ⟨follows.collections, follows.registered, follows.announcements, follows.plain, fun stage => (by cases stage),
    follows.ids, follows.agents, fun stage => (by cases stage), fun _ agentId => ?_⟩
  have copies : (({ feed with stage := .agentsSent, socket := [.agentsSnapshot feed.registry.snapshot] } :
      ClientFeed).settled.copiesOfAgent agentId) = (decide (agentId ∈ feed.registry)).toNat := by
    rw [← count_snapshot follows.registered]
    simp only [settled, List.foldl_cons, List.foldl_nil]
    cases feed.kind <;> rfl
  rw [copies]
  refine (follows.agents agentId).tally_copy fun present => ?_
  have left' := apart agentId (AList.mem_keys.mp (of_decide_eq_true present))
  rw [stream] at left'
  simpa [ClientFeed.coming] using left'

theorem Follows.writeQueue (follows : Follows [] feed) (sent : feed.stage = .agentsSent)
    (apart : ∀ req ∈ feed.run.queue.snapshot, Leaves (feed.stream.filterMap (aboutId req.id))) :
    Follows [] { feed with stage := .live, socket := feed.socket ++ [.queueSnapshot feed.run.queue.snapshot] } := by
  have view : ({ feed with stage := .live, socket := feed.socket ++ [.queueSnapshot feed.run.queue.snapshot] } :
      ClientFeed).settled = feed.settled.receive feed.kind (.queueSnapshot feed.run.queue.snapshot) :=
    settled_append feed [.queueSnapshot feed.run.queue.snapshot]
  refine ⟨follows.collections, follows.registered, follows.announcements, follows.plain, fun stage => (by cases stage),
    follows.ids, follows.agents, fun _ id => ?_, fun _ agentId => ?_⟩
  · have copies : (feed.settled.receive feed.kind (.queueSnapshot feed.run.queue.snapshot)).copiesOf id =
        (decide (Live feed.run.queue id)).toNat := by
      have items : (feed.settled.receive feed.kind (.queueSnapshot feed.run.queue.snapshot)).queue =
          feed.run.queue.snapshot := by cases feed.kind <;> rfl
      rw [ClientView.copiesOf, items, follows.collections.snapshot_nodup.count]
      by_cases live : Live feed.run.queue id
      · rw [if_pos ((follows.collections.mem_snapshot id).mpr live), decide_eq_true live]
        rfl
      · rw [if_neg fun member => live ((follows.collections.mem_snapshot id).mp member), decide_eq_false live]
        rfl
    rw [view, copies]
    refine (follows.ids id).tally_copy fun present => ?_
    obtain ⟨req, shown, rfl⟩ := List.mem_map.mp ((follows.collections.mem_snapshot id).mpr (of_decide_eq_true present))
    have left' := apart req shown
    rw [stream] at left'
    simpa [ClientFeed.coming] using left'
  · have copies : (feed.settled.receive feed.kind (.queueSnapshot feed.run.queue.snapshot)).copiesOfAgent agentId =
        feed.settled.copiesOfAgent agentId :=
      ClientView.receive_copiesOfAgent agentId fun _ => FeedMessage.noConfusion
    rw [view, copies]
    exact follows.agentCopies (.inl sent) agentId

/-- Forwarding moves the first message from the channel to the socket. -/
theorem Follows.forward (follows : Follows [] feed) (live : feed.stage = .live) {message : FeedMessage}
    {rest : List FeedMessage} (unread : feed.subscription.unread = message :: rest) :
    Follows [] { feed with
      subscription := { feed.subscription with unread := rest }, socket := feed.socket ++ [message] } := by
  have came : feed.coming [] = message :: (rest ++ feed.announcing.flatten) := by
    rw [ClientFeed.coming, List.append_nil, unread, List.cons_append]
  have comes : ({ feed with
      subscription := { feed.subscription with unread := rest }, socket := feed.socket ++ [message] } :
      ClientFeed).coming [] = rest ++ feed.announcing.flatten := by
    rw [ClientFeed.coming, List.append_nil]
  have plain : isSnapshot message = false := follows.plain message (came ▸ List.mem_cons_self ..)
  have view : ({ feed with
      subscription := { feed.subscription with unread := rest }, socket := feed.socket ++ [message] } :
      ClientFeed).settled = feed.settled.receive feed.kind message := List.foldl_append ..
  have reports {Reported : Type} (about : FeedMessage → Option Reported) :
      (feed.coming []).filterMap about = (about message).toList ++ (rest ++ feed.announcing.flatten).filterMap about := by
    rw [came, List.filterMap_cons]
    cases about message <;> rfl
  refine ⟨follows.collections, follows.registered, follows.announcements, fun held present => ?_,
    fun stage => absurd (live.symm.trans stage) (by simp), fun id => ?_, fun agentId => ?_, fun _ id => ?_, fun _ agentId => ?_⟩
  · exact follows.plain held (came ▸ List.mem_cons_of_mem _ (comes ▸ present))
  · have tracks := follows.ids id
    rw [reports] at tracks
    rw [comes]
    exact tracks.suffix
  · have tracks := follows.agents agentId
    rw [reports] at tracks
    rw [comes]
    exact tracks.suffix
  · have copies := follows.idCopies live id
    rw [reports, tally_append] at copies
    rw [comes, view, ClientView.receive_copies id fun items same => (by rw [same] at plain; cases plain)]
    exact copies
  · have copies := follows.agentCopies (.inr live) agentId
    rw [reports, tally_append] at copies
    rw [comes, view, ClientView.receive_copiesOfAgent agentId fun agents same => (by rw [same] at plain; cases plain)]
    exact copies

theorem Follows.step (follows : Follows [] feed) (met : feed.InStep event) (taken : feed.step event = some after) :
    Follows [] after := by
  cases event with
  | queue operation =>
    obtain ⟨run, moved, rfl⟩ := Option.map_eq_some_iff.mp taken
    obtain ⟨messages, path, _⟩ := QueueRun.step_path follows.collections moved
    have heard := met run moved
    rw [path.broadcasts] at heard
    rw [operate, path.broadcasts]
    exact (follows.operated path).broadcast heard
  | register agentId agentType project => exact follows.register agentId agentType project taken
  | touch agentId =>
    cases taken
    exact follows.touch agentId
  | reap timeout => exact follows.reap timeout taken
  | clock wall =>
    cases taken
    exact ⟨follows.collections, follows.registered, follows.announcements, follows.plain, follows.unheard, follows.ids,
      follows.agents, follows.idCopies, follows.agentCopies⟩
  | announce position =>
    obtain ⟨⟨message, next⟩, found, rfl⟩ := Option.map_eq_some_iff.mp taken
    obtain ⟨heard, ordered⟩ := met _ found
    obtain ⟨_, _, _, same⟩ := announced_cases found
    refine (follows.announced found ordered).broadcast ?_
    rw [same]
    exact heard
  | exited agentId =>
    cases taken
    by_cases accepted : feed.stage = .accepted
    · rw [ClientFeed.broadcast, if_pos accepted]
      exact follows
    · exact (follows.exited fun kind known => met.2 kind accepted known).broadcast met.1
  | publish =>
    cases taken
    exact (follows.silent rfl (fun _ => rfl) fun _ => rfl).broadcast met
  | subscribe =>
    simp only [ClientFeed.step] at taken
    split at taken <;> cases taken
    exact ⟨follows.collections, follows.registered, follows.announcements, follows.plain, fun stage => (by cases stage),
      follows.ids, follows.agents, fun stage => (by cases stage), fun stage => (by rcases stage with wrong | wrong <;> cases wrong)⟩
  | writeAgents =>
    simp only [ClientFeed.step] at taken
    split at taken <;> cases taken
    exact follows.writeAgents met
  | writeQueue =>
    simp only [ClientFeed.step] at taken
    split at taken
    next sent =>
      cases taken
      exact follows.writeQueue sent met
    next => cases taken
  | forward =>
    simp only [ClientFeed.step] at taken
    split at taken
    next live =>
      obtain ⟨⟨received, subscription⟩, found, rfl⟩ := Option.map_eq_some_iff.mp taken
      rcases Subscription.receive_cases found with ⟨message, rest, unread, rfl, rfl⟩ | ⟨rfl, rfl⟩
      · exact follows.forward live unread
      · exact ⟨follows.collections, follows.registered, follows.announcements, follows.plain, follows.unheard, follows.ids,
          follows.agents, follows.idCopies, follows.agentCopies⟩
    next => cases taken
  | receive =>
    simp only [ClientFeed.step] at taken
    split at taken
    next => cases taken
    next message rest waiting =>
      cases taken
      have view : ({ feed with socket := rest, view := feed.view.receive feed.kind message } : ClientFeed).settled =
          feed.settled := by rw [settled, settled, waiting, List.foldl_cons]
      exact ⟨follows.collections, follows.registered, follows.announcements, follows.plain, follows.unheard, follows.ids,
        follows.agents, fun live id => view ▸ follows.idCopies live id,
        fun written agentId => view ▸ follows.agentCopies written agentId⟩

private theorem toNat_decide_pos {holds : Prop} [Decidable holds] : 0 < (decide holds).toNat ↔ holds := by
  by_cases known : holds <;> simp [known]

/-- Once nothing is on its way the client holds each copy that the daemon does. -/
theorem Follows.mirrors (follows : Follows [] feed) (processed : feed.Processed) : Mirrors feed := by
  obtain ⟨live, read, unread, announced⟩ := processed
  have nothing : feed.coming [] = [] := by rw [ClientFeed.coming, unread, announced, List.append_nil, List.append_nil]
  have view : feed.settled = feed.view := by rw [settled, read, List.foldl_nil]
  constructor
  · have copies (id : Uuid) : (feed.view.queue.map (·.id)).count id = (decide (Live feed.run.queue id)).toNat := by
      have counted := follows.idCopies live id
      rwa [nothing, view] at counted
    refine ⟨List.nodup_iff_count_le_one.mpr fun id => ?_, fun id => ?_⟩
    · rw [copies]
      exact Bool.toNat_le _
    · rw [← List.count_pos_iff, copies, follows.collections.mem_snapshot, toNat_decide_pos]
  · have copies (agentId : String) : (feed.view.agents.map (·.agentId)).count agentId =
        (decide (agentId ∈ feed.registry)).toNat := by
      have counted := follows.agentCopies (.inr live) agentId
      rwa [nothing, view] at counted
    refine ⟨List.nodup_iff_count_le_one.mpr fun agentId => ?_, fun agentId => ?_⟩
    · rw [copies]
      exact Bool.toNat_le _
    · rw [← List.count_pos_iff, copies, toNat_decide_pos]

/-- A client that keeps up mirrors the queue and the registry whenever it has processed
everything that was sent to it. -/
theorem clients_mirror (kind : ClientKind) (feed : ClientFeed) (reached : (machine kind).Reachable InStep feed)
    (processed : feed.Processed) : Mirrors feed :=
  (reached.invariant (Follows.start kind) fun _ _ _ follows met taken => follows.step met taken).mirrors processed

private def waitingCall (id : Uuid) : DecisionRequest :=
  { id, agentId := "cc-1", agentType := .claudeCode, project := ⟨"/work"⟩, toolName := "Read", toolInput := .null, timestamp := 0 }

/-- A client connects to a daemon with an agent and a request, while the agent asks again. -/
private def connected (asked : List FeedEvent) (written : List FeedEvent) : List FeedEvent :=
  [.register "cc-1" .claudeCode ⟨"/work"⟩, .announce 0, .queue (.enqueue (waitingCall 1)), .subscribe, .writeAgents] ++
    asked ++ [.writeQueue] ++ written ++ [.receive, .receive, .forward, .receive]

/-- A request that comes after the snapshot is forwarded. -/
theorem clients_mirror_connected :
    Mirrors (((machine .web).run InStep (machine .web).start
      (connected [] [.queue (.enqueue (waitingCall 2))])).get (by decide +kernel)) :=
  clients_mirror .web _ (Machine.Reachable.start.run (Option.some_get _).symm) (by decide +kernel)

/-- A request that comes after the subscription and before the snapshot is in both. -/
theorem request_shown_twice : ¬ ∀ kind feed, (machine kind).Reachable Machine.free feed → feed.Processed → Mirrors feed := by
  intro mirrors
  have twice := (mirrors .web (((machine .web).run Machine.free (machine .web).start
    (connected [.queue (.enqueue (waitingCall 2))] [])).get (by decide +kernel))
    (Machine.Reachable.start.run (Option.some_get _).symm) (by decide +kernel)).queue.1
  revert twice
  decide +kernel

end ClientFeed
end Wisphive
