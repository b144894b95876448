import Wisphive.Proofs.QueueInvariant

/-! Every operation of the queue keeps the invariant, so every run does. -/

namespace Wisphive
open Foundation Output

/-- The invariant of queue runs. -/
structure QueueRun.Valid (run : QueueRun) : Prop where
  collections : Collections run.queue
  histories : Histories run

private theorem lookup_erase_other {β : Type} (entries : AList (fun _ : Uuid => β)) (id other : Uuid) :
    (entries.erase id).lookup other = if other = id then none else entries.lookup other := by
  split
  next same => rw [same]; exact AList.lookup_erase _ _
  next differ => exact AList.lookup_erase_ne differ

private theorem lookup_insert_other {β : Type} (entries : AList (fun _ : Uuid => β)) (id : Uuid) (value : β)
    (other : Uuid) :
    (entries.insert id value).lookup other = if other = id then some value else entries.lookup other := by
  split
  next same => rw [same]; exact AList.lookup_insert _
  next differ => exact AList.lookup_insert_ne differ

private theorem lookup_absent {β : Type} {entries : AList (fun _ : Uuid => β)} {id : Uuid}
    (absent : id ∉ entries) (other : Uuid) :
    entries.lookup other = if other = id then none else entries.lookup other := by
  split
  next same => rw [same]; exact AList.lookup_eq_none.mpr absent
  next => rfl

namespace DecisionQueue
variable {queue : DecisionQueue}

private theorem filter_absent (collections : Collections queue) {id : Uuid} (absent : id ∉ queue.pendingSenders) :
    queue.pendingItems.filter (·.id ≠ id) = queue.pendingItems := by
  refine List.filter_eq_self.mpr fun req member => decide_eq_true ?_
  rintro rfl
  exact absent ((collections.senders _).mpr (List.mem_map_of_mem member))

/-- `resolve` either refuses, or settles a pending id that is no managed spawn
and sends the decision on its channel. -/
theorem resolve_cases (queue : DecisionQueue) (id : Uuid) (rich : RichDecision) :
    queue.resolve id rich = (false, queue) ∨
    ∃ sender settled, id ∉ queue.managedSpawnIds ∧ queue.pendingSenders.lookup id = some sender ∧
      (Collections queue → Settles id queue settled) ∧
      settled.channels.outputs = .decisionResolved id rich.decision :: queue.channels.outputs ∧
      queue.resolve id rich = (true, { settled with channels := settled.channels.emit (.sent sender rich) }) := by
  unfold resolve
  split
  next => exact .inl rfl
  next unmanaged =>
    split
    next => exact .inl rfl
    next sender found =>
      refine .inr ⟨sender, { queue with
        pendingSenders := queue.pendingSenders.erase id
        pendingItems := queue.pendingItems.filter (·.id ≠ id)
        managedSpawnIds := queue.managedSpawnIds.erase id
        channels := queue.channels.emit (.decisionResolved id rich.decision) },
        unmanaged, found, fun collections => ?_, rfl, rfl⟩
      have unclaimed : id ∉ queue.claimedItems :=
        collections.exclusive id (AList.lookup_isSome.mp (found ▸ rfl))
      exact ⟨lookup_erase_other _ id, rfl, lookup_absent unclaimed, fun other => Finset.mem_erase, rfl⟩

/-- Completing a claim either drops it, its entry being gone, or settles the id
and answers the claim's own channel. -/
theorem completeClaim_cases (queue : DecisionQueue) (claim : ClaimedDecision) (rich : RichDecision) :
    claim.request.id ∉ queue.claimedItems ∧
      (queue.completeClaim claim rich).2 =
        { queue with channels := queue.channels.dropSender claim.sender } ∨
    ∃ settled, claim.request.id ∈ queue.claimedItems ∧
      (Collections queue → Settles claim.request.id queue settled) ∧
      settled.channels.outputs = .decisionResolved claim.request.id rich.decision :: queue.channels.outputs ∧
      (queue.completeClaim claim rich).2 =
        { settled with channels := settled.channels.emit (.sent claim.sender rich) } := by
  by_cases present : claim.request.id ∈ queue.claimedItems
  · refine .inr ⟨{ queue with
      claimedItems := queue.claimedItems.erase claim.request.id
      managedSpawnIds := queue.managedSpawnIds.erase claim.request.id
      channels := queue.channels.emit (.decisionResolved claim.request.id rich.decision) },
      present, fun collections => ?_, rfl, ?_⟩
    · have unpending : claim.request.id ∉ queue.pendingSenders :=
        fun pending => collections.exclusive _ pending present
      exact ⟨lookup_absent unpending, (filter_absent collections unpending).symm,
        lookup_erase_other _ claim.request.id, fun other => Finset.mem_erase, rfl⟩
    · simp only [completeClaim, present, not_true, if_false]
      rfl
  · exact .inl ⟨present, by simp only [completeClaim, present, not_false_eq_true, if_true]⟩

private theorem erase_absent {β : Type} {id : Uuid} {entries : AList (fun _ : Uuid => β)} (absent : id ∉ entries) :
    entries.erase id = entries :=
  AList.ext (List.kerase_of_notMem_keys absent)

theorem finalizeLocal_absent (collections : Collections queue) {id : Uuid} (gone : ¬ Live queue id)
    (decision : Decision) : queue.finalizeLocal id decision = (false, queue) := by
  obtain ⟨unpending, unclaimed⟩ := not_or.mp gone
  have unmanaged : id ∉ queue.managedSpawnIds := fun member => gone (collections.managed id member)
  simp only [finalizeLocal, AList.lookup_eq_none.mpr unpending, AList.lookup_eq_none.mpr unclaimed,
    filter_absent collections unpending, erase_absent unpending, erase_absent unclaimed,
    Finset.erase_eq_of_notMem unmanaged, Option.isSome_none, Bool.or_self, ne_eq, not_true, decide_false,
    Bool.false_eq_true, if_false]

/-- A local finalization settles a live id, dropping its sender if it is pending. -/
theorem finalizeLocal_live {id : Uuid} (live : Live queue id) (decision : Decision) :
    ∃ channels, (channels = queue.channels ∨ ∃ sender, channels = queue.channels.dropSender sender) ∧
      (queue.finalizeLocal id decision).1 = true ∧
      Settles id { queue with channels } (queue.finalizeLocal id decision).2 ∧
      (queue.finalizeLocal id decision).2.channels = channels.emit (.decisionResolved id decision) := by
  have removed : (queue.finalizeLocal id decision).1 = true := by
    rcases live with pending | claimed
    · simp only [finalizeLocal, AList.lookup_isSome.mpr pending, Bool.true_or]
    · simp only [finalizeLocal, AList.lookup_isSome.mpr claimed, Bool.or_true, Bool.true_or]
  let dropped := (queue.pendingSenders.lookup id).elim queue.channels queue.channels.dropSender
  have emitted : (queue.finalizeLocal id decision).2.channels = dropped.emit (.decisionResolved id decision) := by
    refine (if_pos removed).trans ?_
    simp only [dropped]
    cases queue.pendingSenders.lookup id <;> rfl
  have kind : dropped = queue.channels ∨ ∃ sender, dropped = queue.channels.dropSender sender := by
    cases found : queue.pendingSenders.lookup id with
    | none => exact .inl (by simp only [dropped, found, Option.elim_none])
    | some sender => exact .inr ⟨sender, by simp only [dropped, found, Option.elim_some]⟩
  exact ⟨dropped, kind, removed,
    ⟨lookup_erase_other _ id, rfl, lookup_erase_other _ id, fun other => Finset.mem_erase, by rw [emitted]; rfl⟩,
    emitted⟩

private theorem eraseP_distinct {items : List DecisionRequest} {id : Uuid}
    (distinct : (items.map (·.id)).Nodup) : items.eraseP (·.id = id) = items.filter (·.id ≠ id) := by
  induction items with
  | nil => rfl
  | cons item rest ih =>
    obtain ⟨absent, distinct⟩ := List.nodup_cons.mp distinct
    by_cases same : item.id = id
    · have others : rest.filter (·.id ≠ id) = rest := by
        refine List.filter_eq_self.mpr fun req member => decide_eq_true fun equal => absent ?_
        exact List.mem_map.mpr ⟨req, member, equal.trans same.symm⟩
      rw [List.eraseP_cons_of_pos (by simpa using same), List.filter_cons_of_neg (by simpa using same), others]
    · rw [List.eraseP_cons_of_neg (by simpa using same), List.filter_cons_of_pos (by simpa using same),
        ih distinct]

/-- `claim` either finds nothing, or reserves the id of a pending request. -/
theorem claim_cases (collections : Collections queue) (id : Uuid) :
    queue.claim id = (none, queue) ∨
    ∃ request sender claimed, request.id = id ∧ Claims request sender queue claimed ∧
      queue.claim id = (some { request, sender }, claimed) := by
  unfold claim
  split
  next => exact .inl rfl
  next request found =>
    split
    next => exact .inl rfl
    next sender held =>
      have same : request.id = id := by simpa using List.find?_some found
      subst same
      refine .inr ⟨request, sender, _, rfl, ?_, rfl⟩
      exact ⟨List.mem_of_find?_eq_some found, held, lookup_erase_other _ request.id,
        eraseP_distinct collections.distinct, lookup_insert_other _ request.id request, rfl, rfl⟩

/-- A request is refused when its id is pending, claimed or managed, and admitted
otherwise. -/
theorem enqueueInner_cases (queue : DecisionQueue) (req : DecisionRequest) (managedSpawn : Bool) :
    queue.enqueueInner req managedSpawn = (none, queue) ∨
    ∃ admitted, Admits req queue admitted ∧
      queue.enqueueInner req managedSpawn = (some queue.channels.next, admitted) := by
  unfold enqueueInner
  split
  next => exact .inl rfl
  next absent =>
    obtain ⟨unpending, absent⟩ := not_or.mp absent
    obtain ⟨unclaimed, _⟩ := not_or.mp absent
    refine .inr ⟨_, ?_, rfl⟩
    refine ⟨not_or.mpr ⟨unpending, unclaimed⟩, lookup_insert_other _ req.id _, rfl, rfl, fun other member => ?_,
      rfl, rfl⟩
    change other ∈ if managedSpawn then _ else _ at member
    split at member
    · exact Finset.mem_insert.mp member
    · exact .inr member

end DecisionQueue

namespace QueueRun.Valid
variable {run : QueueRun}

theorem start : QueueRun.Valid {} := by
  constructor <;> constructor <;> simp [DecisionQueue.new, announcements, sentTo, resolvedFor, Live]

theorem enqueued (valid : run.Valid) (req : DecisionRequest) (managedSpawn : Bool) :
    (run.enqueued req (run.queue.enqueueInner req managedSpawn)).Valid := by
  rcases run.queue.enqueueInner_cases req managedSpawn with refused | ⟨admitted, admits, accepted⟩
  · rw [refused]
    exact valid
  · rw [accepted]
    exact ⟨admits.collections valid.collections, valid.histories.accept valid.collections admits⟩

theorem resolve (valid : run.Valid) (id : Uuid) (rich : RichDecision) :
    QueueRun.Valid { run with queue := (run.queue.resolve id rich).2 } := by
  rcases run.queue.resolve_cases id rich with refused | ⟨sender, settled, _, found, settles, outputs, resolved⟩
  · rw [refused]
    exact valid
  · have settles := settles valid.collections
    have unheld : sender ∉ run.claims.map (·.sender) := by
      intro member
      obtain ⟨claim, held, rfl⟩ := List.mem_map.mp member
      exact (valid.histories.held claim held).2.2 id found
    rw [resolved]
    exact ⟨(settles.collections valid.collections).emitted _,
      valid.histories.answer settles (.inl (AList.lookup_isSome.mp (found ▸ rfl)))
        (valid.histories.owned _ _ found) unheld outputs⟩

theorem resolveEach (valid : run.Valid) (rich : RichDecision) (ids : List Uuid) :
    QueueRun.Valid { run with queue := run.queue.resolveEach rich ids } := by
  induction ids generalizing run with
  | nil => exact valid
  | cons id rest ih => exact ih (valid.resolve id rich)

theorem claim (valid : run.Valid) (id : Uuid) :
    QueueRun.Valid { run with
      queue := (run.queue.claim id).2
      claims := run.claims ++ (run.queue.claim id).1.toList } := by
  rcases DecisionQueue.claim_cases valid.collections id with missing | ⟨request, sender, claimed, _, claims, found⟩
  · rw [missing]
    simpa using valid
  · rw [found]
    exact ⟨claims.collections valid.collections, valid.histories.claim claims⟩

theorem completeClaim (valid : run.Valid) {position : Nat} {claim : ClaimedDecision}
    (held : run.claims[position]? = some claim) (current : run.Current claim) (rich : RichDecision) :
    QueueRun.Valid { run with
      queue := (run.queue.completeClaim claim rich).2
      claims := run.claims.eraseIdx position } := by
  have kept := valid.histories.forget position
  rcases run.queue.completeClaim_cases claim rich with ⟨_, dropped⟩ | ⟨settled, present, settles, outputs, completed⟩
  · rw [dropped]
    exact ⟨valid.collections.emitted _, kept.dropped claim.sender⟩
  · have settles := settles valid.collections
    have unheld : claim.sender ∉ (run.claims.eraseIdx position).map (·.sender) := by
      intro member
      obtain ⟨other, left, same⟩ := List.mem_map.mp member
      obtain ⟨place, differ, found⟩ := List.mem_eraseIdx_iff_getElem?.mp left
      exact differ ((valid.histories.claim_injective found held same))
    rw [completed]
    exact ⟨(settles.collections valid.collections).emitted _,
      kept.answer settles (.inr present) (current present) unheld outputs⟩

theorem finalizeLocal (valid : run.Valid) (id : Uuid) (decision : Decision) :
    QueueRun.Valid { run with queue := (run.queue.finalizeLocal id decision).2 } := by
  by_cases live : Live run.queue id
  · obtain ⟨channels, dropped, _, settles, emitted⟩ := DecisionQueue.finalizeLocal_live live decision
    have kept : QueueRun.Valid { run with queue := { run.queue with channels } } := by
      rcases dropped with rfl | ⟨sender, rfl⟩
      · exact valid
      · exact ⟨valid.collections.emitted _, valid.histories.dropped sender⟩
    exact ⟨settles.collections kept.collections, kept.histories.settle settles live (by rw [emitted]; rfl)⟩
  · rw [DecisionQueue.finalizeLocal_absent valid.collections live]
    exact valid

theorem dropReceiver (valid : run.Valid) (channel : Channel) :
    QueueRun.Valid { run with
      queue := { run.queue with channels := run.queue.channels.dropReceiver channel } } :=
  ⟨valid.collections.emitted _, { valid.histories with }⟩

end QueueRun.Valid

/-! ### Runs whose completed claims are current -/

namespace Keeps
variable {id : Uuid} {before middle after : DecisionQueue}

theorem refl (managed : id ∈ before.managedSpawnIds) : Keeps id before before :=
  ⟨managed, rfl, rfl, rfl, fun _ _ => ⟨rfl, rfl⟩⟩

theorem trans (first : Keeps id before middle) (last : Keeps id middle after)
    (owners : owner id middle.channels.outputs = owner id before.channels.outputs) : Keeps id before after where
  managed := last.managed
  item := last.item.trans first.item
  sender := last.sender.trans first.sender
  claimed := last.claimed.trans first.claimed
  quiet channel owned :=
    ⟨(last.quiet channel (owners.trans owned)).1.trans (first.quiet channel owned).1,
      (last.quiet channel (owners.trans owned)).2.trans (first.quiet channel owned).2⟩

end Keeps

namespace QueueRun.Valid
variable {run : QueueRun}

theorem resolve_owner (id other : Uuid) (rich : RichDecision) (queue : DecisionQueue) :
    owner other (queue.resolve id rich).2.channels.outputs = owner other queue.channels.outputs := by
  rcases queue.resolve_cases id rich with refused | ⟨sender, settled, _, _, _, outputs, resolved⟩
  · rw [refused]
  · rw [resolved]
    simp only [Channels.emit, owner_sent, outputs, owner_resolved]

theorem resolve_keeps (valid : run.Valid) (id : Uuid) (rich : RichDecision) {spawn : Uuid}
    (managed : spawn ∈ run.queue.managedSpawnIds) : Keeps spawn run.queue (run.queue.resolve id rich).2 := by
  rcases run.queue.resolve_cases id rich with refused | ⟨sender, settled, unmanaged, found, settles, outputs, resolved⟩
  · rw [refused]
    exact .refl managed
  · have settles := settles valid.collections
    have differ : spawn ≠ id := fun same => unmanaged (same ▸ managed)
    have owned := valid.histories.owned _ _ found
    have distinct : ((announcements run.queue.channels.outputs).map (·.1)).Nodup :=
      valid.histories.recorded ▸ valid.histories.channels
    rw [resolved]
    refine ⟨(settles.managed spawn).mpr ⟨differ, managed⟩, ?_, ?_, ?_, fun channel found => ?_⟩
    · simp only [settles.items, List.filter_filter]
      refine List.filter_congr fun req _ => ?_
      by_cases same : req.id = spawn <;> simp [same, differ]
    · simp only [settles.senders, differ, if_false]
    · simp only [settles.claimed, differ, if_false]
    · have other : sender ≠ channel := by
        rintro rfl
        exact differ (owner_injective distinct found owned)
      simp only [Channels.emit, sentTo, resolvedFor, outputs, owned, Option.some.injEq, other, if_false, and_self]

theorem resolveEach_keeps (valid : run.Valid) (rich : RichDecision) (ids : List Uuid) {spawn : Uuid}
    (managed : spawn ∈ run.queue.managedSpawnIds) : Keeps spawn run.queue (run.queue.resolveEach rich ids) := by
  induction ids generalizing run with
  | nil => exact .refl managed
  | cons id rest ih =>
    have first := valid.resolve_keeps id rich managed
    exact first.trans (ih (valid.resolve id rich) first.managed) (resolve_owner id spawn rich run.queue)

private theorem filter_recorded {accepted : List (Channel × DecisionRequest)} {entry : Channel × DecisionRequest}
    (channels : (accepted.map (·.1)).Nodup) (member : entry ∈ accepted) :
    accepted.filter (·.1 = entry.1) = [entry] := by
  induction accepted with
  | nil => cases member
  | cons first rest ih =>
    obtain ⟨absent, channels⟩ := List.nodup_cons.mp channels
    rcases List.mem_cons.mp member with rfl | later
    · have none : rest.filter (·.1 = entry.1) = [] :=
        List.filter_eq_nil_iff.mpr fun other present => by
          simpa using fun same : other.1 = entry.1 => absent (List.mem_map.mpr ⟨other, present, same⟩)
      rw [List.filter_cons_of_pos (by simp), none]
    · have differ : first.1 ≠ entry.1 := fun same => absent (List.mem_map.mpr ⟨entry, later, same.symm⟩)
      rw [List.filter_cons_of_neg (by simpa using differ), ih channels later]

theorem consistent (valid : run.Valid) : run.Consistent := by
  obtain ⟨collections, histories⟩ := valid
  refine ⟨collections.snapshot_nodup, collections.senders, ?_, histories.ordered, ?_, ?_, ?_⟩
  · intro id member
    exact (collections.mem_snapshot id).mpr (collections.managed id member)
  · intro entry member
    refine ⟨?_, histories.sent _, histories.resolved _, histories.agree _⟩
    rw [← histories.recorded]
    exact filter_recorded histories.channels member
  · exact fun id rich spawn managed => QueueRun.Valid.resolve_keeps ⟨collections, histories⟩ id rich managed
  · exact fun filter decision resolver spawn managed =>
      QueueRun.Valid.resolveEach_keeps ⟨collections, histories⟩ _ _ managed

end QueueRun.Valid

theorem QueueRun.step_valid {before after : QueueRun} {operation : QueueOperation} (valid : before.Valid)
    (met : before.Meets operation) (taken : before.step operation = some after) : after.Valid := by
  cases operation with
  | enqueue req => cases taken; exact valid.enqueued req false
  | enqueueManagedSpawn req => cases taken; exact valid.enqueued req true
  | resolve id rich => cases taken; exact valid.resolve id rich
  | resolveAll filter decision resolver => cases taken; exact valid.resolveEach _ _
  | claim id => cases taken; exact valid.claim id
  | completeClaim position rich =>
    obtain ⟨claim, held, rfl⟩ := Option.map_eq_some_iff.mp taken
    exact valid.completeClaim held (met claim held) rich
  | finalizeLocal id decision => cases taken; exact valid.finalizeLocal id decision
  | dropClaim position =>
    obtain ⟨claim, held, rfl⟩ := Option.map_eq_some_iff.mp taken
    exact ⟨valid.collections.emitted _, (valid.histories.forget position).dropped claim.sender⟩
  | dropReceiver channel => cases taken; exact valid.dropReceiver channel

/-- The queue stays consistent in every run whose completed claims are current:
no newer request was accepted under the id of a claim that is completed. -/
theorem queue_consistent {run : QueueRun} (reached : QueueRun.machine.Reachable QueueRun.Meets run) :
    run.Consistent :=
  (reached.invariant .start fun _ _ _ valid met taken => QueueRun.step_valid valid met taken).consistent

private def reused (toolName : String) : DecisionRequest where
  id := 7
  agentId := "wisphive-daemon:spawn"
  agentType := .claudeCode
  project := ⟨"/repo"⟩
  toolName
  toolInput := .null
  timestamp := 0

theorem queue_consistent_claimed :
    ((QueueRun.machine.run QueueRun.Meets {} [.enqueueManagedSpawn (reused "SpawnAgent"), .claim 7,
      .completeClaim 0 .approve]).get (by decide +kernel)).Consistent :=
  queue_consistent (.run .start (Option.some_get _).symm)

/-- A claim is completed after its entry was finalized locally and its id was
claimed anew. -/
private def staleClaim : QueueRun :=
  (QueueRun.machine.run Machine.free {} [.enqueueManagedSpawn (reused "SpawnAgent"), .claim 7,
    .finalizeLocal 7 .deny, .enqueueManagedSpawn (reused "SpawnAgent"), .claim 7,
    .completeClaim 0 .approve]).get (by decide +kernel)

/-- The first receiver is approved although its denial was broadcast. -/
theorem stale_claim_disagrees : ∃ run, QueueRun.machine.Reachable Machine.free run ∧ ¬ run.Consistent := by
  refine ⟨staleClaim, .run .start (Option.some_get _).symm, fun consistent => ?_⟩
  have answered := consistent.answered (0, reused "SpawnAgent") (by decide +kernel)
  exact absurd (answered.agree .approve (by decide +kernel) .deny (by decide +kernel)) (by decide)

end Wisphive
