import Wisphive.Queue

/-! The invariant of queue runs. Its first half relates the four collections, its
second half relates them to what was broadcast and sent. -/

namespace Wisphive
open Foundation Output

/-! ### The history

What the history records: channels are announced once, an owner is an
announced channel, and every other output leaves the owners alone. -/

namespace Output

@[simp] theorem announcements_resolved (id decision) (rest : List Output) :
    announcements (.decisionResolved id decision :: rest) = announcements rest := rfl

@[simp] theorem announcements_sent (channel rich) (rest : List Output) :
    announcements (.sent channel rich :: rest) = announcements rest := rfl

@[simp] theorem announcements_dropped (channel) (rest : List Output) :
    announcements (.senderDropped channel :: rest) = announcements rest := rfl

@[simp] theorem owner_resolved (id other decision) (rest : List Output) :
    owner id (.decisionResolved other decision :: rest) = owner id rest := rfl

@[simp] theorem owner_sent (id channel rich) (rest : List Output) :
    owner id (.sent channel rich :: rest) = owner id rest := rfl

@[simp] theorem owner_dropped (id channel) (rest : List Output) :
    owner id (.senderDropped channel :: rest) = owner id rest := rfl

theorem owner_announced {id channel} {outputs : List Output} (owned : owner id outputs = some channel) :
    ∃ req, (channel, req) ∈ announcements outputs ∧ req.id = id := by
  induction outputs with
  | nil => cases owned
  | cons output rest ih =>
    cases output with
    | newDecision tag req =>
      simp only [owner] at owned
      simp only [announcements, List.mem_append, List.mem_singleton]
      split at owned
      next same => exact ⟨req, .inr (by cases owned; rfl), same⟩
      next other =>
        obtain ⟨found, member, same⟩ := ih owned
        exact ⟨found, .inl member, same⟩
    | decisionResolved | sent | senderDropped => exact ih owned

/-- Under distinct channels, a channel belongs to one id. -/
theorem owner_injective {id other channel} {outputs : List Output}
    (distinct : ((announcements outputs).map (·.1)).Nodup)
    (left : owner id outputs = some channel) (right : owner other outputs = some channel) : id = other := by
  obtain ⟨req, member, rfl⟩ := owner_announced left
  obtain ⟨found, present, rfl⟩ := owner_announced right
  have same := List.inj_on_of_nodup_map distinct member present rfl
  cases same
  rfl

/-- Announcing a fresh channel tells nothing about the older ones. -/
theorem sentTo_announced (channel tag req) (rest : List Output) :
    sentTo channel (.newDecision tag req :: rest) = sentTo channel rest := rfl

theorem resolvedFor_announced (channel tag req) (rest : List Output) :
    resolvedFor channel (.newDecision tag req :: rest) = resolvedFor channel rest := rfl

end Output

/-! ### The collections -/

/-- An id is live while it is pending or claimed. -/
def Live (queue : DecisionQueue) (id : Uuid) : Prop :=
  id ∈ queue.pendingSenders ∨ id ∈ queue.claimedItems

instance (queue : DecisionQueue) (id : Uuid) : Decidable (Live queue id) :=
  inferInstanceAs (Decidable (_ ∨ _))

/-- How the four collections agree. -/
structure Collections (queue : DecisionQueue) : Prop where
  distinct : (queue.pendingItems.map (·.id)).Nodup
  senders : ∀ id, id ∈ queue.pendingSenders ↔ id ∈ queue.pendingItems.map (·.id)
  exclusive : ∀ id, id ∈ queue.pendingSenders → id ∉ queue.claimedItems
  keyed : ∀ id req, queue.claimedItems.lookup id = some req → req.id = id
  managed : ∀ id ∈ queue.managedSpawnIds, Live queue id

/-- How the collections and the held claims agree with the history. A pending or
claimed id has an owner about whom nothing was broadcast yet, and a sender that is
still held has sent nothing. -/
structure Histories (run : QueueRun) : Prop where
  recorded : run.accepted = announcements run.queue.channels.outputs
  fresh : ∀ entry ∈ run.accepted, entry.1 < run.queue.channels.next
  channels : (run.accepted.map (·.1)).Nodup
  ordered : run.queue.pendingItems.Sublist (run.accepted.map (·.2))
  paired : ∀ req ∈ run.queue.pendingItems, ∀ channel,
    run.queue.pendingSenders.lookup req.id = some channel → (channel, req) ∈ run.accepted
  owned : ∀ id channel, run.queue.pendingSenders.lookup id = some channel →
    owner id run.queue.channels.outputs = some channel
  silent : ∀ id, Live run.queue id → ∃ channel, owner id run.queue.channels.outputs = some channel ∧
    sentTo channel run.queue.channels.outputs = [] ∧ resolvedFor channel run.queue.channels.outputs = []
  held : ∀ claim ∈ run.claims, (claim.sender, claim.request) ∈ run.accepted ∧
    sentTo claim.sender run.queue.channels.outputs = [] ∧
    ∀ id, run.queue.pendingSenders.lookup id ≠ some claim.sender
  apart : (run.claims.map (·.sender)).Nodup
  unused : ∀ channel, run.queue.channels.next ≤ channel →
    sentTo channel run.queue.channels.outputs = [] ∧ resolvedFor channel run.queue.channels.outputs = []
  sent : ∀ channel, (sentTo channel run.queue.channels.outputs).length ≤ 1
  resolved : ∀ channel, (resolvedFor channel run.queue.channels.outputs).length ≤ 1
  agree : ∀ channel, ∀ rich ∈ sentTo channel run.queue.channels.outputs,
    ∀ decision ∈ resolvedFor channel run.queue.channels.outputs, decision = rich.decision

/-- The collections do not depend on what was sent. -/
theorem Collections.emitted {queue : DecisionQueue} (valid : Collections queue) (channels : Channels) :
    Collections { queue with channels } :=
  ⟨valid.distinct, valid.senders, valid.exclusive, valid.keyed, valid.managed⟩

namespace Collections
variable {queue : DecisionQueue}

/-- An entry is claimed under its own id. -/
theorem snapshot_ids (valid : Collections queue) :
    queue.snapshot.map (·.id) = queue.pendingItems.map (·.id) ++ queue.claimedItems.keys := by
  rw [DecisionQueue.snapshot, List.map_append, List.map_map]
  congr 1
  refine List.map_congr_left fun entry member => ?_
  exact valid.keyed _ _ (AList.mem_lookup_iff.mpr member)

/-- The snapshot repeats no id. -/
theorem snapshot_nodup (valid : Collections queue) : (queue.snapshot.map (·.id)).Nodup := by
  rw [valid.snapshot_ids]
  refine valid.distinct.append queue.claimedItems.keys_nodup fun id pending claimed => ?_
  exact valid.exclusive id ((valid.senders id).mpr pending) (AList.mem_keys.mpr claimed)

theorem mem_snapshot (valid : Collections queue) (id : Uuid) : id ∈ queue.snapshot.map (·.id) ↔ Live queue id := by
  rw [valid.snapshot_ids, List.mem_append, ← valid.senders, ← AList.mem_keys, Live]

end Collections

private theorem mem_filter_ids {items : List DecisionRequest} {id other : Uuid} :
    other ∈ (items.filter (·.id ≠ id)).map (·.id) ↔ other ≠ id ∧ other ∈ items.map (·.id) := by
  simp only [List.mem_map, List.mem_filter, ne_eq, decide_not, Bool.not_eq_true', decide_eq_false_iff_not]
  constructor
  · rintro ⟨req, ⟨member, differ⟩, rfl⟩
    exact ⟨differ, req, member, rfl⟩
  · rintro ⟨differ, req, member, rfl⟩
    exact ⟨req, ⟨member, differ⟩, rfl⟩

/-- An operation that removes one id from all four collections. -/
structure Settles (id : Uuid) (before after : DecisionQueue) : Prop where
  senders : ∀ other, after.pendingSenders.lookup other =
    if other = id then none else before.pendingSenders.lookup other
  items : after.pendingItems = before.pendingItems.filter (·.id ≠ id)
  claimed : ∀ other, after.claimedItems.lookup other =
    if other = id then none else before.claimedItems.lookup other
  managed : ∀ other, other ∈ after.managedSpawnIds ↔ other ≠ id ∧ other ∈ before.managedSpawnIds
  next : after.channels.next = before.channels.next

namespace Settles
variable {id : Uuid} {before after : DecisionQueue}

theorem mem_senders (settles : Settles id before after) (other : Uuid) :
    other ∈ after.pendingSenders ↔ other ≠ id ∧ other ∈ before.pendingSenders := by
  rw [← AList.lookup_isSome, settles.senders, ← AList.lookup_isSome]
  split <;> simp_all

theorem mem_claimed (settles : Settles id before after) (other : Uuid) :
    other ∈ after.claimedItems ↔ other ≠ id ∧ other ∈ before.claimedItems := by
  rw [← AList.lookup_isSome, settles.claimed, ← AList.lookup_isSome]
  split <;> simp_all

theorem live (settles : Settles id before after) (other : Uuid) :
    Live after other ↔ other ≠ id ∧ Live before other := by
  simp only [Live, settles.mem_senders, settles.mem_claimed]
  tauto

theorem collections (settles : Settles id before after) (valid : Collections before) : Collections after where
  distinct := by
    rw [settles.items]
    exact valid.distinct.sublist (List.filter_sublist.map _)
  senders other := by
    rw [settles.mem_senders, valid.senders, settles.items, mem_filter_ids]
  exclusive other pending := by
    rw [settles.mem_senders] at pending
    rw [settles.mem_claimed]
    exact fun claimed => valid.exclusive other pending.2 claimed.2
  keyed other req found := by
    rw [settles.claimed] at found
    split at found
    · cases found
    · exact valid.keyed other req found
  managed other member := by
    obtain ⟨differ, earlier⟩ := (settles.managed other).mp member
    exact (settles.live other).mpr ⟨differ, valid.managed other earlier⟩

end Settles

/-- A request that enters the queue under a new id and a new channel. -/
structure Admits (req : DecisionRequest) (before after : DecisionQueue) : Prop where
  absent : ¬ Live before req.id
  senders : ∀ other, after.pendingSenders.lookup other =
    if other = req.id then some before.channels.next else before.pendingSenders.lookup other
  items : after.pendingItems = before.pendingItems ++ [req]
  claimed : after.claimedItems = before.claimedItems
  managed : ∀ other ∈ after.managedSpawnIds, other = req.id ∨ other ∈ before.managedSpawnIds
  next : after.channels.next = before.channels.next + 1
  outputs : after.channels.outputs = .newDecision before.channels.next req :: before.channels.outputs

namespace Admits
variable {req : DecisionRequest} {before after : DecisionQueue}

theorem mem_senders (admits : Admits req before after) (other : Uuid) :
    other ∈ after.pendingSenders ↔ other = req.id ∨ other ∈ before.pendingSenders := by
  rw [← AList.lookup_isSome, admits.senders, ← AList.lookup_isSome]
  split <;> simp_all

theorem live (admits : Admits req before after) (other : Uuid) :
    Live after other ↔ other = req.id ∨ Live before other := by
  simp only [Live, admits.mem_senders, admits.claimed, or_assoc]

theorem collections (admits : Admits req before after) (valid : Collections before) : Collections after where
  distinct := by
    rw [admits.items, List.map_append, List.map_singleton]
    refine List.Nodup.append valid.distinct (List.nodup_singleton _) ?_
    exact List.disjoint_singleton.mpr fun member => admits.absent (.inl ((valid.senders _).mpr member))
  senders other := by
    rw [admits.mem_senders, valid.senders, admits.items, List.map_append, List.mem_append, List.map_singleton,
      List.mem_singleton]
    exact or_comm
  exclusive other pending := by
    rw [admits.claimed]
    rcases (admits.mem_senders other).mp pending with rfl | earlier
    · exact fun claimed => admits.absent (.inr claimed)
    · exact valid.exclusive other earlier
  keyed other req found := valid.keyed other req (admits.claimed ▸ found)
  managed other member := by
    refine (admits.live other).mpr ?_
    rcases admits.managed other member with same | earlier
    · exact .inl same
    · exact .inr (valid.managed other earlier)

end Admits

/-- A pending request whose id stays reserved by a claim. -/
structure Claims (request : DecisionRequest) (sender : Channel) (before after : DecisionQueue) : Prop where
  pending : request ∈ before.pendingItems
  found : before.pendingSenders.lookup request.id = some sender
  senders : ∀ other, after.pendingSenders.lookup other =
    if other = request.id then none else before.pendingSenders.lookup other
  items : after.pendingItems = before.pendingItems.filter (·.id ≠ request.id)
  claimed : ∀ other, after.claimedItems.lookup other =
    if other = request.id then some request else before.claimedItems.lookup other
  managed : after.managedSpawnIds = before.managedSpawnIds
  channels : after.channels = before.channels

namespace Claims
variable {request : DecisionRequest} {sender : Channel} {before after : DecisionQueue}

theorem mem_senders (claims : Claims request sender before after) (other : Uuid) :
    other ∈ after.pendingSenders ↔ other ≠ request.id ∧ other ∈ before.pendingSenders := by
  rw [← AList.lookup_isSome, claims.senders, ← AList.lookup_isSome]
  split <;> simp_all

theorem mem_claimed (claims : Claims request sender before after) (other : Uuid) :
    other ∈ after.claimedItems ↔ other = request.id ∨ other ∈ before.claimedItems := by
  rw [← AList.lookup_isSome, claims.claimed, ← AList.lookup_isSome]
  split <;> simp_all

theorem live (claims : Claims request sender before after) (other : Uuid) :
    Live after other ↔ Live before other := by
  have held : request.id ∈ before.pendingSenders := AList.lookup_isSome.mp (claims.found ▸ rfl)
  simp only [Live, claims.mem_senders, claims.mem_claimed]
  by_cases same : other = request.id
  · simp only [same, held, true_or, or_true]
  · simp only [same, ne_eq, not_false_eq_true, true_and, false_or]

theorem collections (claims : Claims request sender before after) (valid : Collections before) :
    Collections after where
  distinct := by
    rw [claims.items]
    exact valid.distinct.sublist (List.filter_sublist.map _)
  senders other := by
    rw [claims.mem_senders, valid.senders, claims.items, mem_filter_ids]
  exclusive other pending := by
    obtain ⟨differ, earlier⟩ := (claims.mem_senders other).mp pending
    exact fun claimed => ((claims.mem_claimed other).mp claimed).elim differ (valid.exclusive other earlier)
  keyed other req found := by
    rw [claims.claimed] at found
    split at found
    next same => cases found; exact same.symm
    next => exact valid.keyed other req found
  managed other member := (claims.live other).mpr (valid.managed other (claims.managed ▸ member))

end Claims

namespace Histories
variable {run : QueueRun}

/-- A channel is pending under at most one id. -/
theorem sender_injective (histories : Histories run) {id other channel}
    (left : run.queue.pendingSenders.lookup id = some channel)
    (right : run.queue.pendingSenders.lookup other = some channel) : id = other :=
  owner_injective (histories.recorded ▸ histories.channels) (histories.owned _ _ left) (histories.owned _ _ right)

/-- A channel is held by at most one claim. -/
theorem claim_injective (histories : Histories run) {left right : Nat} {first second : ClaimedDecision}
    (found : run.claims[left]? = some first) (held : run.claims[right]? = some second)
    (same : first.sender = second.sender) : left = right := by
  have bound : left < (run.claims.map (·.sender)).length := by
    simpa using (List.getElem?_eq_some_iff.mp found).1
  refine (List.getElem?_inj bound histories.apart).mp ?_
  rw [List.getElem?_map, List.getElem?_map, found, held]
  exact congrArg some same

/-- A decision about a live id is broadcast as the id leaves the queue. -/
theorem settle (histories : Histories run) {id decision} {after : DecisionQueue}
    (settles : Settles id run.queue after) (live : Live run.queue id)
    (outputs : after.channels.outputs = .decisionResolved id decision :: run.queue.channels.outputs) :
    Histories { run with queue := after } := by
  obtain ⟨owning, owned, unsent, unresolved⟩ := histories.silent id live
  have distinct : ((announcements run.queue.channels.outputs).map (·.1)).Nodup :=
    histories.recorded ▸ histories.channels
  have elsewhere : ∀ channel, channel ≠ owning →
      resolvedFor channel after.channels.outputs = resolvedFor channel run.queue.channels.outputs := by
    intro channel differ
    simp only [outputs, resolvedFor, owned, Option.some.injEq, Ne.symm differ, if_false]
  have here : resolvedFor owning after.channels.outputs = [decision] := by
    simp only [outputs, resolvedFor, owned, if_true, unresolved]
  have told : ∀ channel, sentTo channel after.channels.outputs = sentTo channel run.queue.channels.outputs := by
    intro channel
    simp only [outputs, sentTo]
  have owners : ∀ other, owner other after.channels.outputs = owner other run.queue.channels.outputs := by
    intro other
    simp only [outputs, owner_resolved]
  have pending : ∀ other channel, after.pendingSenders.lookup other = some channel →
      run.queue.pendingSenders.lookup other = some channel := by
    intro other channel found
    rw [settles.senders] at found
    split at found
    · cases found
    · exact found
  refine ⟨?_, ?_, histories.channels, ?_, ?_, ?_, ?_, ?_, histories.apart, ?_, ?_, ?_, ?_⟩
  · simpa only [outputs, announcements_resolved] using histories.recorded
  · simpa only [settles.next] using histories.fresh
  · rw [settles.items]
    exact List.filter_sublist.trans histories.ordered
  · intro req member channel found
    rw [settles.items] at member
    exact histories.paired req (List.mem_of_mem_filter member) channel (pending _ _ found)
  · intro other channel found
    exact (owners other).trans (histories.owned _ _ (pending _ _ found))
  · intro other alive
    obtain ⟨differ, earlier⟩ := (settles.live other).mp alive
    obtain ⟨channel, found, unsent, unresolved⟩ := histories.silent other earlier
    refine ⟨channel, (owners other).trans found, (told channel).trans unsent,
      (elsewhere channel ?_).trans unresolved⟩
    rintro rfl
    exact differ (owner_injective distinct found owned)
  · intro claim member
    obtain ⟨recorded, unsent, free⟩ := histories.held claim member
    exact ⟨recorded, (told _).trans unsent, fun other found => free other (pending _ _ found)⟩
  · intro channel late
    rw [settles.next] at late
    obtain ⟨unsent, unresolved⟩ := histories.unused channel late
    refine ⟨(told channel).trans unsent, (elsewhere channel ?_).trans unresolved⟩
    rintro rfl
    obtain ⟨req, member, _⟩ := owner_announced owned
    exact Nat.not_lt.mpr late (histories.fresh _ (histories.recorded ▸ member))
  · intro channel
    simpa only [told] using histories.sent channel
  · intro channel
    by_cases same : channel = owning
    · rw [same, here]
      exact Nat.le_refl 1
    · rw [elsewhere channel same]
      exact histories.resolved channel
  · intro channel rich sent decision resolved
    simp only [told] at sent
    by_cases same : channel = owning
    · rw [same, unsent] at sent
      cases sent
    · simp only [elsewhere channel same] at resolved
      exact histories.agree channel rich sent decision resolved

/-- A decision is sent on a channel that nothing else holds any more. -/
theorem send (histories : Histories run) {channel rich}
    (announced : channel < run.queue.channels.next)
    (released : ∀ id, run.queue.pendingSenders.lookup id ≠ some channel)
    (unheld : channel ∉ run.claims.map (·.sender))
    (dead : ∀ id, Live run.queue id → owner id run.queue.channels.outputs ≠ some channel)
    (unsent : sentTo channel run.queue.channels.outputs = [])
    (agree : ∀ decision ∈ resolvedFor channel run.queue.channels.outputs, decision = rich.decision) :
    Histories { run with queue := { run.queue with channels := run.queue.channels.emit (.sent channel rich) } } := by
  have elsewhere : ∀ other, other ≠ channel →
      sentTo other (.sent channel rich :: run.queue.channels.outputs) =
        sentTo other run.queue.channels.outputs := by
    intro other differ
    simp only [sentTo, Ne.symm differ, if_false]
  have here : sentTo channel (.sent channel rich :: run.queue.channels.outputs) = [rich] := by
    simp only [sentTo, if_true, unsent]
  refine ⟨histories.recorded, histories.fresh, histories.channels, histories.ordered, histories.paired,
    histories.owned, ?_, ?_, histories.apart, ?_, ?_, histories.resolved, ?_⟩
  · intro id alive
    obtain ⟨owning, owned, unsent, unresolved⟩ := histories.silent id alive
    refine ⟨owning, owned, (elsewhere owning ?_).trans unsent, unresolved⟩
    rintro rfl
    exact dead id alive owned
  · intro claim member
    obtain ⟨recorded, unsent, free⟩ := histories.held claim member
    refine ⟨recorded, (elsewhere _ ?_).trans unsent, free⟩
    rintro rfl
    exact unheld (List.mem_map_of_mem member)
  · intro other late
    obtain ⟨unsent, unresolved⟩ := histories.unused other late
    exact ⟨(elsewhere other (by rintro rfl; exact Nat.not_lt.mpr late announced)).trans unsent, unresolved⟩
  · intro other
    by_cases same : other = channel
    · subst same
      exact (congrArg List.length here).le
    · exact (congrArg List.length (elsewhere other same)).trans_le (histories.sent other)
  · intro other answer sent decision resolved
    change answer ∈ sentTo other (.sent channel rich :: run.queue.channels.outputs) at sent
    by_cases same : other = channel
    · subst same
      rw [here, List.mem_singleton] at sent
      exact sent ▸ agree decision resolved
    · rw [elsewhere other same] at sent
      exact histories.agree other answer sent decision resolved

/-- The owner of a live id is told the decision that was broadcast about it. -/
theorem answer (histories : Histories run) {id channel rich} {after : DecisionQueue}
    (settles : Settles id run.queue after) (live : Live run.queue id)
    (owned : owner id run.queue.channels.outputs = some channel)
    (unheld : channel ∉ run.claims.map (·.sender))
    (outputs : after.channels.outputs = .decisionResolved id rich.decision :: run.queue.channels.outputs) :
    Histories { run with queue := { after with channels := after.channels.emit (.sent channel rich) } } := by
  obtain ⟨owning, found, unsent, unresolved⟩ := histories.silent id live
  obtain rfl : channel = owning := Option.some.inj (owned.symm.trans found)
  have distinct : ((announcements run.queue.channels.outputs).map (·.1)).Nodup :=
    histories.recorded ▸ histories.channels
  have gone : ∀ other, other ≠ id → owner other run.queue.channels.outputs ≠ some channel :=
    fun other differ found => differ (owner_injective distinct found owned)
  apply (histories.settle settles live outputs).send
  · obtain ⟨req, member, _⟩ := owner_announced owned
    exact settles.next ▸ histories.fresh _ (histories.recorded ▸ member)
  · intro other found
    rw [settles.senders] at found
    split at found
    · cases found
    · next differ => exact gone other differ (histories.owned _ _ found)
  · exact unheld
  · intro other alive
    rw [outputs, owner_resolved]
    exact gone other ((settles.live other).mp alive).1
  · rw [outputs]
    exact unsent
  · intro decision told
    simp only [outputs, resolvedFor, owned, if_true, unresolved, List.mem_singleton] at told
    exact told

/-- An accepted request owns its id from here on. -/
theorem accept (histories : Histories run) (collections : Collections run.queue) {req} {after : DecisionQueue}
    (admits : Admits req run.queue after) :
    Histories { run with
      queue := after
      accepted := run.accepted ++ [(run.queue.channels.next, req)] } := by
  have owners : ∀ other, other ≠ req.id →
      owner other after.channels.outputs = owner other run.queue.channels.outputs := by
    intro other differ
    simp only [admits.outputs, owner, Ne.symm differ, if_false]
  have mine : owner req.id after.channels.outputs = some run.queue.channels.next := by
    simp only [admits.outputs, owner, if_true]
  have told : ∀ channel, sentTo channel after.channels.outputs = sentTo channel run.queue.channels.outputs := by
    intro channel
    rw [admits.outputs, sentTo_announced]
  have resolved : ∀ channel,
      resolvedFor channel after.channels.outputs = resolvedFor channel run.queue.channels.outputs := by
    intro channel
    rw [admits.outputs, resolvedFor_announced]
  refine ⟨?_, ?_, ?_, ?_, ?_, ?_, ?_, ?_, histories.apart, ?_, ?_, ?_, ?_⟩
  · rw [admits.outputs, announcements, histories.recorded]
  · intro entry member
    rw [admits.next]
    rcases List.mem_append.mp member with earlier | latest
    · exact Nat.lt_succ_of_lt (histories.fresh entry earlier)
    · rw [List.mem_singleton.mp latest]
      exact Nat.lt_succ_self _
  · rw [List.map_append, List.map_singleton]
    refine histories.channels.append (List.nodup_singleton _) (List.disjoint_singleton.mpr fun member => ?_)
    obtain ⟨entry, present, same⟩ := List.mem_map.mp member
    exact absurd same (Nat.ne_of_lt (histories.fresh entry present))
  · rw [admits.items, List.map_append, List.map_singleton]
    exact histories.ordered.append (.refl _)
  · intro item member channel found
    rw [admits.senders] at found
    rw [admits.items] at member
    rcases List.mem_append.mp member with earlier | latest
    · have pending := (collections.senders _).mpr (List.mem_map_of_mem earlier)
      have differ : item.id ≠ req.id := fun same => admits.absent (.inl (same ▸ pending))
      rw [if_neg differ] at found
      exact List.mem_append_left _ (histories.paired item earlier channel found)
    · obtain rfl := List.mem_singleton.mp latest
      rw [if_pos rfl] at found
      cases found
      exact List.mem_append_right _ (List.mem_singleton.mpr rfl)
  · intro other channel found
    rw [admits.senders] at found
    split at found
    next same => cases found; rw [same, mine]
    next differ => exact (owners other differ).trans (histories.owned _ _ found)
  · intro other alive
    rcases (admits.live other).mp alive with rfl | earlier
    · obtain ⟨unsent, unresolved⟩ := histories.unused _ (Nat.le_refl _)
      exact ⟨_, mine, (told _).trans unsent, (resolved _).trans unresolved⟩
    · obtain ⟨channel, owned, unsent, unresolved⟩ := histories.silent other earlier
      refine ⟨channel, (owners other ?_).trans owned, (told _).trans unsent, (resolved _).trans unresolved⟩
      rintro rfl
      exact admits.absent earlier
  · intro claim member
    obtain ⟨recorded, unsent, free⟩ := histories.held claim member
    refine ⟨List.mem_append_left _ recorded, (told _).trans unsent, fun other found => ?_⟩
    rw [admits.senders] at found
    split at found
    next => exact absurd (Option.some.inj found).symm (Nat.ne_of_lt (histories.fresh _ recorded))
    next => exact free other found
  · intro channel late
    rw [admits.next] at late
    obtain ⟨unsent, unresolved⟩ := histories.unused channel (Nat.le_of_succ_le late)
    exact ⟨(told _).trans unsent, (resolved _).trans unresolved⟩
  · exact fun channel => told channel ▸ histories.sent channel
  · exact fun channel => resolved channel ▸ histories.resolved channel
  · intro channel rich sent decision announced
    rw [told] at sent
    rw [resolved] at announced
    exact histories.agree channel rich sent decision announced

/-- A claim takes the sender out of the pending ones. -/
theorem claim (histories : Histories run) {request sender} {after : DecisionQueue}
    (claims : Claims request sender run.queue after) :
    Histories { run with queue := after, claims := run.claims ++ [{ request, sender }] } := by
  have pending : ∀ other channel, after.pendingSenders.lookup other = some channel →
      other ≠ request.id ∧ run.queue.pendingSenders.lookup other = some channel := by
    intro other channel found
    rw [claims.senders] at found
    split at found
    next => cases found
    next differ => exact ⟨differ, found⟩
  have recorded : (sender, request) ∈ run.accepted := histories.paired request claims.pending sender claims.found
  have held : request.id ∈ run.queue.pendingSenders := AList.lookup_isSome.mp (claims.found ▸ rfl)
  have unsent : sentTo sender run.queue.channels.outputs = [] := by
    obtain ⟨channel, owned, unsent, _⟩ := histories.silent request.id (.inl held)
    cases owned.symm.trans (histories.owned _ _ claims.found)
    exact unsent
  constructor
  case ordered => exact claims.items ▸ List.filter_sublist.trans histories.ordered
  case paired =>
    intro item member channel found
    rw [claims.items] at member
    exact histories.paired item (List.mem_of_mem_filter member) channel (pending _ _ found).2
  case owned => exact fun other channel found => claims.channels ▸ histories.owned _ _ (pending _ _ found).2
  case silent => exact fun other alive => claims.channels ▸ histories.silent other ((claims.live other).mp alive)
  case held =>
    intro claim member
    rcases List.mem_append.mp member with earlier | latest
    · obtain ⟨present, quiet, free⟩ := histories.held claim earlier
      exact ⟨present, claims.channels ▸ quiet, fun other found => free other (pending _ _ found).2⟩
    · obtain rfl := List.mem_singleton.mp latest
      refine ⟨recorded, claims.channels ▸ unsent, fun other found => ?_⟩
      obtain ⟨differ, earlier⟩ := pending _ _ found
      exact differ (histories.sender_injective earlier claims.found)
  case apart =>
    rw [List.map_append, List.map_singleton]
    refine histories.apart.append (List.nodup_singleton _) (List.disjoint_singleton.mpr fun member => ?_)
    obtain ⟨other, present, same⟩ := List.mem_map.mp member
    exact (histories.held other present).2.2 request.id (claims.found.trans (congrArg some same.symm))
  all_goals simp only [claims.channels]
  case recorded => exact histories.recorded
  case fresh => exact histories.fresh
  case channels => exact histories.channels
  case unused => exact histories.unused
  case sent => exact histories.sent
  case resolved => exact histories.resolved
  case agree => exact histories.agree

/-- Dropping a sender tells nobody anything. -/
theorem dropped (histories : Histories run) (channel : Channel) :
    Histories { run with queue := { run.queue with channels := run.queue.channels.dropSender channel } } :=
  ⟨histories.recorded, histories.fresh, histories.channels, histories.ordered, histories.paired,
    histories.owned, histories.silent, histories.held, histories.apart, histories.unused, histories.sent,
    histories.resolved, histories.agree⟩

/-- A claim leaves the held ones. -/
theorem forget (histories : Histories run) (position : Nat) :
    Histories { run with claims := run.claims.eraseIdx position } :=
  { histories with
    held := fun claim member => histories.held claim (List.mem_of_mem_eraseIdx member)
    apart := histories.apart.sublist ((List.eraseIdx_sublist _ _).map _) }

end Histories
end Wisphive
